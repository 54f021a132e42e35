import LuaClasses.Proofs.BlockTours
import LuaClasses.Proofs.FirstReport
import LuaClasses.Proofs.PathLookup
import LuaClasses.Proofs.Reach

/-! The names for which references wait. Each begins with a name of the program, so none is spelled like
the path of a scope unless the program has the name with which these paths begin. -/

namespace LuaClasses

namespace DottedName

variable {name path object method : String}

/-! ### Where names begin -/

/-- The part of a name before its first dot is its first segment. -/
theorem Within.head? (plain : '.' ∉ name.toList) (within : Within name path) :
    (segments path).head? = some name := by
  have split : ∀ first chars : List Char, '.' ∉ first → first ++ ['.'] <+: chars ++ ['.'] →
      (splitDots chars).head? = some first := by
    intro first
    induction first with
    | nil =>
      intro chars _ begins
      cases chars with
      | nil => rfl
      | cons char rest =>
        obtain ⟨rfl, _⟩ := List.cons_prefix_cons.1 begins
        rfl
    | cons char first ih =>
      intro chars plain begins
      rw [List.mem_cons, not_or] at plain
      cases chars with
      | nil => exact absurd (List.cons_prefix_cons.1 begins).1.symm plain.1
      | cons other rest =>
        obtain ⟨rfl, later⟩ := List.cons_prefix_cons.1 begins
        have inner := ih rest plain.2 later
        rw [splitDots, if_neg (Ne.symm plain.1)]
        cases parts : splitDots rest with
        | nil => rw [parts] at inner; cases inner
        | cons segment others =>
          rw [parts] at inner
          rw [← Option.some.inj inner]
          rfl
  rw [segments, List.head?_map, split _ _ plain within, Option.map_some, String.ofList_toList]

/-- A name that begins with a name of one segment does not go on from a path that begins with another. -/
theorem Within.not_within {top target : String} (plain : '.' ∉ name.toList)
    (other : (segments top).head? ≠ some name) (within : Within name target) : ¬Within top target := by
  intro inside
  rcases List.prefix_or_prefix_of_prefix within inside with outer | inner
  · exact other (Within.head? plain outer)
  · rcases inner with ⟨rest, longer⟩
    cases rest using List.reverseRecOn with
    | nil =>
      have same : top = name := String.toList_injective (by simpa using longer)
      exact other (Within.head? plain (same ▸ Within.refl name))
    | append_singleton rest last =>
      rw [← List.append_assoc] at longer
      have text := (List.append_inj' longer rfl).1
      rw [← text] at plain
      simp at plain

private theorem join_segments (path : String) : join (segments path) = path := by
  have joined : ∀ parts : List (List Char), parts ≠ [] →
      '.' :: (join (parts.map String.ofList)).toList = parts.flatMap fun segment => '.' :: segment := by
    intro parts filled
    unfold join
    induction parts with
    | nil => exact absurd rfl filled
    | cons first rest ih =>
      cases rest with
      | nil => simp
      | cons second rest =>
        have others := ih (List.cons_ne_nil _ _)
        rw [List.flatMap_cons, ← others, List.map_cons, List.map_cons, String.intercalate_cons_cons]
        simp
  have filled : splitDots path.toList ≠ [] := by
    intro empty
    have whole := flatMap_splitDots path.toList
    rw [empty] at whole
    cases whole
  have whole := joined _ filled
  rw [flatMap_splitDots] at whole
  exact String.toList_injective (List.cons.inj whole).2

theorem dotless_of_mem_segments {segment : String} (member : segment ∈ segments path) :
    '.' ∉ segment.toList := by
  obtain ⟨chars, listed, rfl⟩ := List.mem_map.1 member
  rw [String.toList_ofList]
  exact dotless_of_mem_splitDots listed

/-- The last segment of a path is split off. -/
theorem splitLast?_eq_some (split : splitLast? path = some (object, method)) :
    path = child object method ∧ '.' ∉ method.toList := by
  rw [splitLast?] at split
  cases parts : (segments path).reverse with
  | nil => rw [parts] at split; cases split
  | cons last front =>
    cases front with
    | nil => rw [parts] at split; cases split
    | cons before others =>
      rw [parts] at split
      obtain ⟨rfl, rfl⟩ := Prod.mk.inj (Option.some.inj split)
      have whole := join_segments path
      rw [List.reverse_eq_iff.1 parts, List.reverse_cons, join,
        String.intercalate_append_of_ne_nil (by simp) (by simp),
        String.intercalate_singleton] at whole
      exact ⟨whole.symm, dotless_of_mem_segments (List.mem_reverse.1 (parts ▸ List.mem_cons_self))⟩

/-! ### Which names they have -/

/-- A path that is spelled with some names. -/
inductive Spelled (names : List String) : String → Prop
  | name {name : String} (known : name ∈ names) : Spelled names name
  | child {path name : String} (spelled : Spelled names path) (known : name ∈ names) :
    Spelled names (DottedName.child path name)

theorem Spelled.begins {names : List String} (spelled : Spelled names path) :
    ∃ name ∈ names, Within name path := by
  induction spelled with
  | @name name known => exact ⟨name, known, .refl name⟩
  | @child path last _ _ ih =>
    exact ih.imp fun _ ⟨known, within⟩ => ⟨known, within.trans (within_child path last)⟩

/-- What is spelled with names without dots is so up to its last dot. -/
theorem Spelled.of_splitLast? {names : List String} (plain : ∀ name ∈ names, '.' ∉ name.toList)
    (spelled : Spelled names path) (split : splitLast? path = some (object, method)) :
    Spelled names object := by
  obtain ⟨whole, last⟩ := splitLast?_eq_some split
  cases spelled with
  | name known =>
    refine absurd ?_ (plain path known)
    rw [whole, toList_child]
    simp
  | child inner known => rwa [← (child_inj (plain _ known) last whole).1]

end DottedName
open DottedName

/-! ### The names of values -/

private theorem Expr.spelled_dottedPath? {expr : Expr} {names : List String}
    (within : expr.names ⊆ names) {path : String} (written : expr.dottedPath? = some path) :
    Spelled names path := by
  induction expr using Expr.dottedPath?.induct generalizing path with
  | case1 inner ih => exact ih within written
  | case2 name =>
    cases written
    exact .name (within (List.mem_singleton_self _))
  | case3 object key ih =>
    obtain ⟨base, based, rfl⟩ := Option.map_eq_some_iff.1 written
    obtain ⟨first, last⟩ := List.append_subset.1 within
    exact .child (ih first based) (last (List.mem_singleton_self key))
  | case4 expr notParen notName notMember =>
    rw [Expr.dottedPath?.eq_4 expr notParen notName notMember] at written
    cases written

variable {config : DiscoveryConfig} {classes : List String}

section Spelled

variable {expr : Expr} {names : List String} (within : expr.names ⊆ names)
  (plain : ∀ name ∈ names, '.' ∉ name.toList)
include within plain

/-- A value leaves references under its own names, under those of constructors, and under those of
members of classes. -/
theorem Expr.spelled_of_mem_targets {target : String} (member : target ∈ expr.targets config classes) :
    Spelled names target ∨ (∃ object, Spelled names object ∧ target = child object "constructor") ∨
      ∃ owner ∈ classes, Within owner target := by
  have called : ∀ {path : String}, Spelled names path → target ∈ callTargets config classes path →
      Spelled names target ∨ (∃ object, Spelled names object ∧ target = child object "constructor") ∨
        ∃ owner ∈ classes, Within owner target := by
    intro path spelled listed
    rw [callTargets] at listed
    cases split : splitLast? path with
    | none =>
      rw [split] at listed
      exact .inl (List.mem_singleton.1 listed ▸ spelled)
    | some parts =>
      rw [split] at listed
      rcases List.mem_cons.1 listed with rfl | inherited
      · split
        next => exact .inr (.inl ⟨_, spelled.of_splitLast? plain split, rfl⟩)
        next => exact .inl ((splitLast?_eq_some split).1 ▸ spelled)
      · obtain ⟨owner, known, rfl⟩ := List.mem_map.1 inherited
        exact .inr (.inr ⟨owner, known, within_child _ _⟩)
  revert member
  fun_induction Expr.targets config classes expr with
  | case1 inner ih => exact ih within
  | case2 name =>
    intro member
    rw [List.mem_singleton.1 member]
    exact .inl (.name (within (List.mem_singleton_self _)))
  | case3 object key base based =>
    intro member
    obtain ⟨first, last⟩ := List.append_subset.1 within
    rcases List.mem_cons.1 member with rfl | inherited
    · exact .inl (.child (spelled_dottedPath? first based) (last (List.mem_singleton_self key)))
    · obtain ⟨owner, known, rfl⟩ := List.mem_map.1 inherited
      exact .inr (.inr ⟨owner, known, (within_child _ _).trans (within_child _ _)⟩)
  | case5 callee args path written =>
    exact called (spelled_dottedPath? (List.append_subset.1 within).1 written)
  | case7 object method args base based =>
    obtain ⟨first, last⟩ := List.append_subset.1 within
    exact called (.child (spelled_dottedPath? first based) (last List.mem_cons_self))
  | case9 op left right first second =>
    intro member
    obtain ⟨one, two⟩ := List.append_subset.1 within
    exact (List.mem_append.1 member).elim (first one) (second two)
  | case4 | case6 | case8 | case10 =>
    intro member
    cases member

/-- A name for which a value leaves a reference begins with a name of the value or of a class. -/
theorem Expr.begins_of_mem_targets {target : String} (member : target ∈ expr.targets config classes) :
    ∃ name, (name ∈ names ∨ name ∈ classes) ∧ Within name target := by
  rcases expr.spelled_of_mem_targets within plain member with spelled | ⟨object, spelled,
    rfl⟩ | ⟨owner, known, inside⟩
  · obtain ⟨name, listed, inside⟩ := spelled.begins
    exact ⟨name, .inl listed, inside⟩
  · obtain ⟨name, listed, inside⟩ := spelled.begins
    exact ⟨name, .inl listed, inside.trans (within_child _ _)⟩
  · exact ⟨owner, .inr known, inside⟩

end Spelled

namespace Program

/-- Whether the name with which the paths of scopes begin is none of the names of a program. -/
def Spares (program : Program) (top : String) : Prop :=
  ∀ name ∈ program.names, (segments top).head? ≠ some name

instance (program : Program) (top : String) : Decidable (program.Spares top) :=
  inferInstanceAs (Decidable (∀ _ ∈ _, _))

variable {program : Program} {top : String} (spares : program.Spares top)
  (dotless : ∀ name ∈ program.names, '.' ∉ name.toList)
include spares dotless

theorem Spares.not_within {name : String} (member : name ∈ program.names) {target : String}
    (within : Within name target) :
    ¬Within top target :=
  within.not_within (dotless name member) (spares name member)

theorem Spares.not_within_target {expr : Expr} (belong : expr.names ⊆ program.names)
    {classes : List String} (known : classes ⊆ program.names) {target : String}
    (member : target ∈ expr.targets config classes) : ¬Within top target := by
  obtain ⟨name, named, within⟩ := expr.begins_of_mem_targets belong dotless member
  exact spares.not_within dotless (named.elim id fun listed => known listed) within

/-- No value of a program leaves a reference under the path of a scope. -/
theorem Spares.targets {expr : Expr} (belong : expr.names ⊆ program.names) :
    ∀ target ∈ expr.targets config (program.classNames config), ¬Within top target := fun _ =>
  spares.not_within_target dotless belong fun _ declared => Discovery.mem_names_of_declaresClass
    (mem_classNames.1 declared)

end Program
end LuaClasses
