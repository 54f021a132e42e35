import LuaClasses.Proofs.BlockPaths
import LuaClasses.Scope.Json

/-! Types as texts. A kind of Lua value is written as its word and read back by it, and a class is
written by its name. So a set is read back from its texts unless it has a class that is named by a word,
and what a report shows of a set gives it away unless a class is named like a kind, is called `any`, or
has in its name the bar that stands between two types. -/

namespace LuaClasses

namespace LuaType

/-- The kinds of Lua value. -/
def kinds : List LuaType := [.nil, .boolean, .number, .string, .table, .function, .vararg, .void]

theorem mem_kinds {type : LuaType} : type ∈ kinds ↔ type.isInstance = false := by
  cases type <;> simp [kinds, isInstance]

/-- The texts that are read as kinds of Lua value. -/
def words : List String :=
  ["nil", "boolean", "bool", "number", "string", "table", "function", "...", "vararg", "void"]

private theorem ofText_of_not_word {text : String} (free : text ∉ words) :
    ofText text = .instanceOf text := by
  unfold ofText
  split
  all_goals first
    | rfl
    | exact absurd (by decide) free

private theorem isInstance_ofText_word {text : String} (word : text ∈ words) :
    (ofText text).isInstance = false := by
  have all : ∀ word ∈ words, (ofText word).isInstance = false := by decide +kernel
  exact all text word

/-- A class that is read from a text is named by the text, which is no word. -/
theorem of_ofText_instance {text name : String} (read : ofText text = .instanceOf name) :
    text = name ∧ name ∉ words := by
  by_cases word : text ∈ words
  · have kind := isInstance_ofText_word word
    rw [read] at kind
    cases kind
  · rw [ofText_of_not_word word] at read
    cases read
    exact ⟨rfl, word⟩

/-- Whether the text of a type cannot be taken for that of another one, for the text of a set without
types, or for the texts of several types. -/
def Legible : LuaType → Prop
  | .instanceOf name => name ∉ kinds.map text ∧ name ≠ "any" ∧ '|' ∉ name.toList
  | _ => True

instance : DecidablePred Legible
  | .instanceOf name => inferInstanceAs (Decidable (name ∉ kinds.map text ∧ name ≠ "any" ∧ '|' ∉ name.toList))
  | .nil | .boolean | .number | .string | .table | .function | .vararg | .void => .isTrue trivial

theorem Legible.text_inj {first second : LuaType} (legible : first.Legible) (other : second.Legible)
    (same : first.text = second.text) : first = second := by
  have apart {name : String} (legible : (instanceOf name).Legible) {type : LuaType}
      (kind : type ∈ kinds) : name ≠ type.text :=
    fun same => legible.1 (same ▸ List.mem_map_of_mem kind)
  cases first with
  | instanceOf name =>
    cases second with
    | instanceOf name' => exact congrArg instanceOf same
    | _ => exact absurd same (apart legible (mem_kinds.2 rfl))
  | _ =>
    cases second with
    | instanceOf name => exact absurd same.symm (apart other (mem_kinds.2 rfl))
    | _ => first
      | rfl
      | exact absurd same (by decide)

private theorem Legible.text_ne_any {type : LuaType} (legible : type.Legible) : type.text ≠ "any" := by
  cases type with
  | instanceOf name => exact legible.2.1
  | _ => decide

private theorem Legible.unbarred {type : LuaType} (legible : type.Legible) : '|' ∉ type.text.toList := by
  cases type with
  | instanceOf name => exact legible.2.2
  | _ => decide

end LuaType

namespace TypeSet

/-! ### Reading back -/

/-- The texts of the types of a set. -/
def texts (set : TypeSet) : List String := set.types.map LuaType.text

/-- The set of the types that texts are read as. -/
def ofTexts (texts : List String) : TypeSet := .ofList (texts.map LuaType.ofText)

theorem toJson_eq_strings (set : TypeSet) : set.toJson = .strings set.texts := by
  rw [toJson, Json.strings, texts, List.map_map]
  rfl

theorem mem_texts {set : TypeSet} {text : String} : text ∈ set.texts ↔ ∃ type ∈ set, type.text = text :=
  List.mem_map

theorem mem_ofTexts {texts : List String} {type : LuaType} :
    type ∈ ofTexts texts ↔ ∃ text ∈ texts, LuaType.ofText text = type := by
  rw [ofTexts, ofList, mem_foldl_insert, List.mem_map]
  exact or_iff_left List.not_mem_nil

/-- A set is read back from its texts exactly if no class in it is named by a word. -/
theorem ofTexts_texts_iff (set : TypeSet) :
    ofTexts set.texts = set ↔ ∀ name, .instanceOf name ∈ set → name ∉ LuaType.words := by
  constructor
  · intro same name member
    rw [← same, mem_ofTexts] at member
    obtain ⟨text, _, read⟩ := member
    exact (LuaType.of_ofText_instance read).2
  · intro free
    have read : ∀ type ∈ set, LuaType.ofText type.text = type := by
      intro type member
      cases type with
      | instanceOf name => exact LuaType.ofText_of_not_word (free name member)
      | _ => rfl
    refine ext fun type => ?_
    simp only [mem_ofTexts, mem_texts]
    constructor
    · rintro ⟨_, ⟨other, member, rfl⟩, rfl⟩
      rwa [read other member]
    · exact fun member => ⟨type.text, ⟨type, member, rfl⟩, read type member⟩

/-! ### What reports show -/

/-- The texts that a report shows with bars between them. -/
def shown (set : TypeSet) : List String := if set.isEmpty then ["any"] else set.texts

private theorem render_eq (set : TypeSet) : set.render = String.intercalate " | " set.shown := by
  rw [render, shown]
  split
  · rw [String.intercalate_singleton]
  · rfl

private theorem shown_ne_nil (set : TypeSet) : set.shown ≠ [] := by
  rw [shown]
  split
  next => exact List.cons_ne_nil _ _
  next filled => exact fun none => filled (List.isEmpty_iff.2 (List.map_eq_nil_iff.1 none))

/-- Texts without bars end where the first bar stands. -/
theorem eq_of_bar {first second : String} {rest rest' : List Char} (free : '|' ∉ first.toList)
    (free' : '|' ∉ second.toList)
    (same : first.toList ++ ' ' :: '|' :: rest = second.toList ++ ' ' :: '|' :: rest') :
    first = second ∧ rest = rest' := by
  have blank {text : String} (free : '|' ∉ text.toList) : '|' ∉ (text.toList ++ [' ']).reverse := by
    simp [free]
  have turned : rest.reverse ++ '|' :: (first.toList ++ [' ']).reverse =
      rest'.reverse ++ '|' :: (second.toList ++ [' ']).reverse := by
    simpa using congrArg List.reverse same
  obtain ⟨behind, before⟩ := eq_of_append_mark (blank free) (blank free') turned
  exact ⟨String.toList_injective (List.append_left_injective _ (List.reverse_injective before)),
    List.reverse_injective behind⟩

/-- Texts without bars are given away by what they are with bars between them. -/
theorem intercalate_bar_inj {first second : List String} (filled : first ≠ []) (filled' : second ≠ [])
    (free : ∀ text ∈ first, '|' ∉ text.toList) (free' : ∀ text ∈ second, '|' ∉ text.toList)
    (same : String.intercalate " | " first = String.intercalate " | " second) : first = second := by
  have longer (head next : String) (rest : List String) :
    (String.intercalate " | " (head :: next :: rest)).toList =
      head.toList ++ ' ' :: '|' :: ' ' :: (String.intercalate " | " (next :: rest)).toList := by
    rw [String.intercalate_cons_cons]
    simp
  -- A bar in one of two equal texts stands in the other one as well.
  have apart {text : String} (free : '|' ∉ text.toList) (head next : String) (rest : List String)
      (same : text = String.intercalate " | " (head :: next :: rest)) : False := by
    rw [same, longer] at free
    simp at free
  induction first generalizing second with
  | nil => exact absurd rfl filled
  | cons head rest ih =>
    obtain ⟨head', rest', rfl⟩ := List.exists_cons_of_ne_nil filled'
    rw [List.forall_mem_cons] at free free'
    cases rest with
    | nil =>
      rw [String.intercalate_singleton] at same
      cases rest' with
      | nil => rw [same, String.intercalate_singleton]
      | cons next' more' => exact (apart free.1 _ _ _ same).elim
    | cons next more =>
      cases rest' with
      | nil =>
        rw [String.intercalate_singleton] at same
        exact (apart free'.1 _ _ _ same.symm).elim
      | cons next' more' =>
        have chars := congrArg String.toList same
        rw [longer, longer] at chars
        obtain ⟨rfl, behind⟩ := eq_of_bar free.1 free'.1 chars
        have later := String.toList_injective (List.cons.inj behind).2
        rw [ih (List.cons_ne_nil _ _) (List.cons_ne_nil _ _) free.2 free'.2 later]

/-- Whether all types of a set are legible. -/
def Legible (set : TypeSet) : Prop := ∀ type ∈ set, type.Legible

private theorem Legible.unbarred {set : TypeSet} (legible : set.Legible) :
    ∀ text ∈ set.shown, '|' ∉ text.toList := by
  intro text member
  rw [shown] at member
  split at member
  next =>
    rw [List.mem_singleton.1 member]
    decide
  next =>
    obtain ⟨type, held, rfl⟩ := mem_texts.1 member
    exact (legible type held).unbarred

private theorem Legible.ne_shown_empty {set : TypeSet} (legible : set.Legible)
    (filled : set.isEmpty = false) :
    set.shown ≠ empty.shown := by
  intro same
  rw [shown, filled, if_neg Bool.false_ne_true] at same
  have member : "any" ∈ set.texts := same ▸ List.mem_cons_self
  obtain ⟨type, held, text⟩ := mem_texts.1 member
  exact (legible type held).text_ne_any text

theorem Legible.shown_inj {first second : TypeSet} (legible : first.Legible) (legible' : second.Legible)
    (same : first.shown = second.shown) : first = second := by
  have bare {set : TypeSet} (none : set.isEmpty = true) : set = empty := eq_of_types (List.isEmpty_iff.1 none)
  have within {one other : TypeSet} (legible : one.Legible) (legible' : other.Legible)
    (same : one.texts = other.texts)
      {type : LuaType} (member : type ∈ one) : type ∈ other := by
    obtain ⟨found, held, text⟩ := mem_texts.1 (same ▸ mem_texts.2 ⟨type, member, rfl⟩)
    exact (legible' found held).text_inj (legible type member) text ▸ held
  cases none : first.isEmpty with
  | true =>
    cases none' : second.isEmpty with
    | true => rw [bare none, bare none']
    | false => exact absurd (bare none ▸ same).symm (legible'.ne_shown_empty none')
  | false =>
    cases none' : second.isEmpty with
    | true => exact absurd (bare none' ▸ same) (legible.ne_shown_empty none)
    | false =>
      rw [shown, none, shown, none'] at same
      exact ext fun type => ⟨within legible legible' same, within legible' legible same.symm⟩

/-- What a report shows of a legible set gives it away. -/
theorem Legible.render_inj {first second : TypeSet} (legible : first.Legible) (legible' : second.Legible) :
    first.render = second.render ↔ first = second := by
  refine ⟨fun same => ?_, congrArg render⟩
  rw [render_eq, render_eq] at same
  exact legible.shown_inj legible'
    (intercalate_bar_inj (shown_ne_nil first) (shown_ne_nil second) legible.unbarred legible'.unbarred same)

end TypeSet
end LuaClasses
