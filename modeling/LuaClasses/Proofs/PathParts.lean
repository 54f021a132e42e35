import LuaClasses.CommandLine.Path
import Mathlib.Data.List.Nodup
import Mathlib.Order.Basic

/-! Paths by their parts. Slashes split a path, the path of an entry has the parts of its directory with
a name after them, and paths in order are those whose parts are in order, each once. -/

namespace LuaClasses.CommandLine

namespace PathPart

instance : Std.TransCmp PathPart.compare :=
  inferInstanceAs (Std.TransCmp (compareLex (compareOn rank) (compareOn text)))

instance : Std.LawfulEqCmp PathPart.compare where
  compare_self := Std.ReflCmp.compare_self
  eq_of_compare {left right} same := by
    obtain ⟨ranks, texts⟩ := compareLex_eq_eq.1 same
    have ranks : left.rank = right.rank := Std.LawfulEqCmp.eq_of_compare ranks
    have texts : left.text = right.text := Std.LawfulEqCmp.eq_of_compare texts
    cases left <;> cases right <;> simp_all [rank, text]

end PathPart

namespace Path

/-! ### Segments -/

private theorem splitSlashes_ne_nil (chars : List Char) : splitSlashes chars ≠ [] := by
  cases chars with
  | nil => exact List.cons_ne_nil _ _
  | cons char rest =>
    rw [splitSlashes]
    split
    · exact List.cons_ne_nil _ _
    · split <;> exact List.cons_ne_nil _ _

private theorem splitSlashes_append (before after : List Char) :
    splitSlashes (before ++ '/' :: after) = splitSlashes before ++ splitSlashes after := by
  induction before with
  | nil => rfl
  | cons char rest ih =>
    rw [List.cons_append, splitSlashes, splitSlashes, ih]
    split
    · rfl
    · cases split : splitSlashes rest with
      | nil => exact absurd split (splitSlashes_ne_nil rest)
      | cons segment others => rfl

private theorem splitSlashes_of_unbroken {chars : List Char} (unbroken : '/' ∉ chars) :
    splitSlashes chars = [chars] := by
  induction chars with
  | nil => rfl
  | cons char rest ih =>
    rw [List.mem_cons, not_or] at unbroken
    rw [splitSlashes, if_neg (Ne.symm unbroken.1), ih unbroken.2]

/-- A name that an entry of a directory may have. -/
structure IsName (name : String) : Prop where
  filled : name ≠ ""
  not_here : name ≠ "."
  not_up : name ≠ ".."
  unbroken : '/' ∉ name.toList

instance (name : String) : Decidable (IsName name) :=
  decidable_of_iff (name ≠ "" ∧ name ≠ "." ∧ name ≠ ".." ∧ '/' ∉ name.toList)
    ⟨fun ⟨filled, notHere, notUp, unbroken⟩ => ⟨filled, notHere, notUp, unbroken⟩,
      fun ⟨filled, notHere, notUp, unbroken⟩ => ⟨filled, notHere, notUp, unbroken⟩⟩

variable {path name : String}

theorem segments_ne_nil (path : String) : segments path ≠ [] := fun none =>
  splitSlashes_ne_nil path.toList (List.map_eq_nil_iff.1 none)

private theorem eq_empty_of_segments (blank : segments path = [""]) : path = "" := by
  rw [segments] at blank
  cases chars : path.toList with
  | nil => exact String.toList_injective chars
  | cons char rest =>
    rw [chars, splitSlashes] at blank
    split at blank
    · have none := (List.cons.inj blank).2
      exact absurd (List.map_eq_nil_iff.1 none) (splitSlashes_ne_nil rest)
    · split at blank
      next => exact absurd (congrArg String.toList (List.cons.inj blank).1) (by simp)
      next => exact absurd (congrArg String.toList (List.cons.inj blank).1) (by simp)

/-- The segments of the path of an entry are those of its directory and its name. A slash at the end of
the path of the directory, which ends in an empty segment, does not count. -/
theorem segments_child (filled : path ≠ "") (unbroken : '/' ∉ name.toList) :
    ∃ first others, (segments path = first :: others ∨ segments path = first :: (others ++ [""])) ∧
      segments (child path name) = first :: (others ++ [name]) := by
  suffices ∃ front, front ≠ [] ∧ (segments path = front ∨ segments path = front ++ [""]) ∧
      segments (child path name) = front ++ [name] by
    obtain ⟨front, some, whole⟩ := this
    obtain ⟨first, others, rfl⟩ := List.exists_cons_of_ne_nil some
    exact ⟨first, others, whole⟩
  have nonempty : path.isEmpty = false := by rwa [← Bool.not_eq_true, String.isEmpty_iff]
  rw [child, nonempty, Bool.false_or]
  split
  next slash =>
    rw [String.endsWith_eq_endsWith_toSlice, String.Slice.endsWith_string_iff, String.copy_toSlice] at slash
    obtain ⟨before, same⟩ := slash
    have same : path.toList = before ++ ['/'] := same.symm
    refine ⟨(splitSlashes before).map String.ofList,
      mt List.map_eq_nil_iff.1 (splitSlashes_ne_nil before), .inr ?_, ?_⟩
    · rw [segments, same, splitSlashes_append, List.map_append]
      rfl
    · rw [segments, String.toList_append, same, List.append_assoc, List.singleton_append, splitSlashes_append,
        splitSlashes_of_unbroken unbroken, List.map_append, List.map_singleton, String.ofList_toList]
  next =>
    refine ⟨segments path, segments_ne_nil path, .inl rfl, ?_⟩
    have apart : (path ++ "/" ++ name).toList = path.toList ++ '/' :: name.toList := by simp
    rw [segments, apart, splitSlashes_append, splitSlashes_of_unbroken unbroken,
      List.map_append, List.map_singleton,
      String.ofList_toList, segments]

theorem getLastD_segments_child (filled : path ≠ "") (unbroken : '/' ∉ name.toList) :
    (segments (child path name)).getLastD "" = name := by
  obtain ⟨first, others, _, whole⟩ := segments_child filled unbroken
  rw [whole, ← List.cons_append, List.getLastD_concat]

theorem child_ne_empty (filled : path ≠ "") (proper : IsName name) : child path name ≠ "" := by
  intro empty
  have last := getLastD_segments_child filled proper.unbroken
  rw [empty] at last
  exact proper.filled last.symm

/-! ### Parts -/

/-- The part that the first segment of a path gives. -/
def firstPart (first : String) : PathPart := if first = "" then .root else .ofText first

/-- The parts that later segments of a path give. -/
def laterParts (others : List String) : List PathPart :=
  (others.filter fun segment => !segment.isEmpty && segment ≠ ".").map PathPart.ofText

theorem ofText_name (notHere : name ≠ ".") (notUp : name ≠ "..") : PathPart.ofText name = .name name := by
  unfold PathPart.ofText
  split
  next => exact absurd rfl notHere
  next => exact absurd rfl notUp
  next => rfl

@[simp] theorem laterParts_append (front back : List String) :
    laterParts (front ++ back) = laterParts front ++ laterParts back := by
  rw [laterParts, List.filter_append, List.map_append, laterParts, laterParts]

@[simp] theorem laterParts_blank : laterParts [""] = [] := rfl

private theorem laterParts_name (proper : IsName name) : laterParts [name] = [.name name] := by
  have kept : (!name.isEmpty && decide (name ≠ ".")) = true := by simp [proper.filled, proper.not_here]
  rw [laterParts, List.filter_singleton, kept, cond_true, List.map_singleton,
    ofText_name proper.not_here proper.not_up]

theorem parts_of_segments (filled : path ≠ "") {first : String} {others : List String}
    (split : segments path = first :: others) :
    parts path = firstPart first :: laterParts others := by
  rw [parts, split, firstPart]
  by_cases blank : first = ""
  · subst blank
    have more : others.isEmpty = false := by
      rw [List.isEmpty_eq_false_iff]
      rintro rfl
      exact filled (eq_empty_of_segments split)
    simp [more, laterParts]
  · simp [blank, laterParts]

/-- The parts of the path of an entry are those of its directory and its name. -/
theorem parts_child (filled : path ≠ "") (proper : IsName name) :
    parts (child path name) = parts path ++ [.name name] := by
  obtain ⟨first, others, front, whole⟩ := segments_child filled proper.unbroken
  have inside : parts path = firstPart first :: laterParts others := by
    rcases front with same | same
    · exact parts_of_segments filled same
    · rw [parts_of_segments filled same, laterParts_append, laterParts_blank, List.append_nil]
  rw [parts_of_segments (child_ne_empty filled proper) whole, laterParts_append, laterParts_name proper,
    inside, List.cons_append]

theorem parts_foldl_child (filled : path ≠ "") {names : List String} (proper : ∀ name ∈ names, IsName name) :
    parts (names.foldl child path) = parts path ++ names.map .name := by
  induction names generalizing path with
  | nil => exact (List.append_nil _).symm
  | cons name rest ih =>
    obtain ⟨first, rest_proper⟩ := List.forall_mem_cons.1 proper
    rw [List.foldl_cons, ih (child_ne_empty filled first) rest_proper,
      parts_child filled first, List.append_assoc,
      List.singleton_append, List.map_cons]

/-! ### The order of paths -/

/-- Whether parts come before others in the order of paths. -/
def Earlier (left right : List PathPart) : Prop := List.compareLex PathPart.compare left right = .lt

theorem Earlier.irrefl (spelling : List PathPart) : ¬Earlier spelling spelling := by
  have same : List.compareLex PathPart.compare spelling spelling = .eq := Std.ReflCmp.compare_self
  intro before
  rw [Earlier, same] at before
  cases before

theorem Earlier.trans {left middle right : List PathPart} (first : Earlier left middle)
    (second : Earlier middle right) :
    Earlier left right :=
  Std.TransCmp.lt_trans first second

/-- Whether a path comes before another one. -/
def Before (left right : String) : Prop := Earlier (parts left) (parts right)

variable {left middle right : String} {paths others : List String}

theorem precedes_iff : precedes left right ↔ Before left right ∨ parts left = parts right := by
  rw [precedes, Ordering.isLE_iff_eq_lt_or_eq_eq, Before, Earlier, Std.LawfulEqCmp.compare_eq_iff_eq]

private theorem pairwise_mergeSort_precedes (paths : List String) :
    (paths.mergeSort precedes).Pairwise fun left right => precedes left right = true := by
  refine List.pairwise_mergeSort (fun _ _ _ => Std.TransCmp.isLE_trans) (fun left right => ?_) paths
  rw [Bool.or_eq_true]
  cases order : List.compareLex PathPart.compare (parts left) (parts right) with
  | lt => exact .inl (precedes_iff.2 (.inl order))
  | eq => exact .inl (precedes_iff.2 (.inr (Std.LawfulEqCmp.eq_of_compare order)))
  | gt => exact .inr (precedes_iff.2 (.inl (Std.OrientedCmp.lt_of_gt order)))

private theorem dropRepeats_sublist (paths : List String) : (dropRepeats paths).Sublist paths := by
  induction paths with
  | nil => exact .slnil
  | cons path rest ih =>
    rw [dropRepeats]
    split
    next none => exact (List.nil_sublist rest).cons_cons path
    next next more kept =>
      rw [kept] at ih
      split
      · exact ((List.sublist_cons_self next more).trans ih).cons_cons path
      · exact ih.cons_cons path

/-- Of the paths with the same parts one is kept. -/
theorem exists_mem_dropRepeats (member : path ∈ paths) :
    ∃ kept ∈ dropRepeats paths, parts kept = parts path := by
  induction paths with
  | nil => cases member
  | cons head rest ih =>
    rw [dropRepeats]
    rcases List.mem_cons.1 member with rfl | member
    · split
      · exact ⟨path, List.mem_cons_self, rfl⟩
      · split <;> exact ⟨path, List.mem_cons_self, rfl⟩
    · obtain ⟨kept, listed, same⟩ := ih member
      split
      next none => rw [none] at listed; cases listed
      next next more split_ =>
        rw [split_] at listed
        split
        next repeated =>
          rcases List.mem_cons.1 listed with rfl | listed
          · exact ⟨head, List.mem_cons_self, repeated.symm.trans same⟩
          · exact ⟨kept, List.mem_cons_of_mem _ listed, same⟩
        next => exact ⟨kept, List.mem_cons_of_mem _ listed, same⟩

private theorem pairwise_dropRepeats (ordered : paths.Pairwise fun left right => precedes left right = true) :
    (dropRepeats paths).Pairwise Before := by
  induction paths with
  | nil => exact .nil
  | cons path rest ih =>
    obtain ⟨first, ordered⟩ := List.pairwise_cons.1 ordered
    have kept := ih ordered
    rw [dropRepeats]
    split
    next => exact List.pairwise_singleton _ _
    next next more split_ =>
      rw [split_] at kept
      obtain ⟨after, ordered⟩ := List.pairwise_cons.1 kept
      have listed : next ∈ rest := (dropRepeats_sublist rest).subset (split_ ▸ List.mem_cons_self)
      split
      next repeated =>
        refine List.pairwise_cons.2 ⟨fun other member => ?_, ordered⟩
        rw [Before, ← repeated]
        exact after other member
      next apart =>
        have before : Before path next := (precedes_iff.1 (first next listed)).resolve_right (Ne.symm apart)
        refine List.pairwise_cons.2 ⟨fun other member => ?_, kept⟩
        rcases List.mem_cons.1 member with rfl | member
        · exact before
        · exact before.trans (after other member)

theorem arrange_of_ordered (ordered : paths.Pairwise fun left right => precedes left right = true) :
    arrange paths = dropRepeats paths :=
  congrArg dropRepeats (List.mergeSort_of_pairwise ordered)

theorem pairwise_arrange (paths : List String) : (arrange paths).Pairwise Before :=
  pairwise_dropRepeats (pairwise_mergeSort_precedes paths)

theorem mem_of_mem_arrange (member : path ∈ arrange paths) : path ∈ paths :=
  (List.mergeSort_perm paths precedes).subset ((dropRepeats_sublist _).subset member)

theorem exists_mem_arrange (member : path ∈ paths) : ∃ kept ∈ arrange paths, parts kept = parts path :=
  exists_mem_dropRepeats ((List.mergeSort_perm paths precedes).symm.subset member)

theorem mem_map_parts_arrange {spelling : List PathPart} :
    spelling ∈ (arrange paths).map parts ↔ spelling ∈ paths.map parts := by
  simp only [List.mem_map]
  constructor
  · rintro ⟨path, member, rfl⟩
    exact ⟨path, mem_of_mem_arrange member, rfl⟩
  · rintro ⟨path, member, rfl⟩
    exact exists_mem_arrange member

private theorem pairwise_map_parts_arrange (paths : List String) :
    ((arrange paths).map parts).Pairwise Earlier :=
  List.pairwise_map.2 (pairwise_arrange paths)

theorem nodup_map_parts_arrange (paths : List String) : ((arrange paths).map parts).Nodup :=
  (pairwise_map_parts_arrange paths).imp
  fun {left right} (before : Earlier left right) (same : left = right) =>
    Earlier.irrefl right (same ▸ before)

/-- Paths in order do not depend on the order and the number in which they were given. -/
theorem map_parts_arrange (alike : ∀ spelling, spelling ∈ paths.map parts ↔ spelling ∈ others.map parts) :
    (arrange paths).map parts = (arrange others).map parts := by
  refine List.Perm.eq_of_pairwise (fun left right _ _ before after => ?_) (pairwise_map_parts_arrange paths)
    (pairwise_map_parts_arrange others) ?_
  · exact absurd (before.trans after) (Earlier.irrefl left)
  · rw [List.perm_ext_iff_of_nodup (nodup_map_parts_arrange paths) (nodup_map_parts_arrange others)]
    intro spelling
    rw [mem_map_parts_arrange, mem_map_parts_arrange, alike]

end Path
end LuaClasses.CommandLine
