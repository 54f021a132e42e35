import LuaClasses.Proofs.Layout
import LuaClasses.Proofs.Unplaced
import LuaClasses.Source.Grammar

/-! Reading a text and the same text with layout put in. The two readings go on side by side: they look for
tokens at corresponding places, find the same, and have steps enough for what is left of their texts. -/

namespace LuaClasses.Source

private theorem size_of_tokenAt? {place : Place} {text stop : List Char} {kind : TokenKind}
    (found : tokenAt? place text = some (kind, stop)) :
    stop.length + (if kind = .endOfText then 0 else 1) ≤ text.length := by
  obtain ⟨length, _, found⟩ := Option.bind_eq_some_iff.1 found
  refine Nat.le_trans ?_ (List.drop_suffix length text).length_le
  generalize text.drop length = text at found
  cases text with
  | nil =>
    cases found
    exact Nat.le_refl 0
  | cons char rest =>
    obtain ⟨⟨_, width⟩, token, same⟩ := Option.map_eq_some_iff.1 found
    cases same
    have pos := pos_of_tokenKind? token
    rw [List.length_drop, List.length_cons]
    split <;> omega

/-- The number of tokens that can still be read, at most. -/
def Input.size (input : Input) : Nat := input.rest.text.length + if input.head.kind = .endOfText then 0 else 1

namespace Insertion

variable (put : Insertion) {α β γ δ : Type}

/-- Whether two readings give related results if what the first one looks for is apart from what is put in. -/
def Agrees (R : α → β → Prop) (first : Reading α) (second : Reading β) : Prop :=
  (∀ attempt ∈ first.attempts, put.Apart attempt) → Option.Rel R first.result second.result

/-- Whether two readers have come to the same token and have steps to spare for what is left. Every token
is worth eight steps. -/
structure Alike (spare steps steps' : Nat) (one two : Input) : Prop where
  kind : two.head.kind = one.head.kind
  widened : put.Widened one.rest.text two.rest.text
  room : 8 * one.size + spare ≤ steps
  room' : 8 * two.size + spare ≤ steps'

variable {put} {R : α → β → Prop} {S : γ → δ → Prop}

namespace Agrees

theorem fail : put.Agrees R .fail .fail := fun _ => .none

theorem pure {first : α} {second : β} (same : R first second) : put.Agrees R (pure first) (pure second) :=
  fun _ => .some same

theorem mono {weaker : α → β → Prop} {first : Reading α} {second : Reading β}
    (agrees : put.Agrees R first second) (weaken : ∀ value value', R value value' → weaker value value') :
    put.Agrees weaker first second := by
  intro apart
  obtain ⟨result, attempts⟩ := first
  obtain ⟨result', attempts'⟩ := second
  have read : Option.Rel R result result' := agrees apart
  cases read with
  | none => exact .none
  | some same => exact .some (weaken _ _ same)

theorem bind {first : Reading α} {second : Reading β} {next : α → Reading γ} {next' : β → Reading δ}
    (one : put.Agrees R first second)
    (two : ∀ value value', R value value' → put.Agrees S (next value) (next' value')) :
    put.Agrees S (first >>= next) (second >>= next') := by
  intro apart
  obtain ⟨result, attempts⟩ := first
  obtain ⟨result', attempts'⟩ := second
  cases result with
  | none =>
    have failed : Option.Rel R none result' := one apart
    cases failed
    exact .none
  | some value =>
    have apart : ∀ attempt ∈ attempts ++ (next value).attempts, put.Apart attempt := apart
    have read : Option.Rel R (some value) result' := one fun attempt member =>
      apart attempt (List.mem_append_left _ member)
    cases read with
    | some same => exact two value _ same fun attempt member => apart attempt (List.mem_append_right _ member)

end Agrees

/-! ### Tokens -/

variable {spare steps steps' : Nat} {one two : Input}

theorem read_agrees (place : Place) {first second : Cursor} (widened : put.Widened first.text second.text)
    (room : 8 * first.text.length + spare ≤ steps) (room' : 8 * second.text.length + spare ≤ steps') :
    put.Agrees (put.Alike spare steps steps') (Input.read place first) (Input.read place second) := by
  intro apart
  have same := widened.tokenAt? (apart ⟨place, first.text⟩ (List.mem_singleton.2 rfl))
  have text := tokenAt?_text first place
  have text' := tokenAt?_text second place
  rw [text, text'] at same
  change Option.Rel _ ((first.token? place).map _) ((second.token? place).map _)
  revert same text text'
  generalize first.token? place = token, second.token? place = token'
  intro same text text'
  cases token with
  | none =>
    cases token' with
    | none => exact .none
    | some token' => cases same
  | some token =>
    cases token' with
    | none => cases same
    | some token' =>
      cases same with
      | some same =>
        have size : Input.size ⟨token.1, token.2⟩ ≤ first.text.length := size_of_tokenAt? text
        have size' : Input.size ⟨token'.1, token'.2⟩ ≤ second.text.length := size_of_tokenAt? text'
        have alike : put.Alike spare steps steps' ⟨token.1, token.2⟩ ⟨token'.1, token'.2⟩ :=
          ⟨same.1.symm, same.2, by omega, by omega⟩
        exact .some alike

namespace Alike

theorem next (alike : put.Alike spare steps steps' one two) (more : one.head.kind ≠ .endOfText)
    (place : Place) :
    put.Agrees (put.Alike (spare + 8) steps steps') (one.next place) (two.next place) := by
  obtain ⟨kind, widened, room, room'⟩ := alike
  rw [Input.size, if_neg more] at room
  rw [Input.size, kind, if_neg more] at room'
  exact read_agrees place widened (by omega) (by omega)

theorem mono {less : Nat} (alike : put.Alike spare steps steps' one two) (fewer : less ≤ spare) :
    put.Alike less steps steps' one two :=
  ⟨alike.kind, alike.widened, by have := alike.room; omega, by have := alike.room'; omega⟩

/-- A step that is taken comes out of those to spare. -/
theorem down (alike : put.Alike (spare + 1) (steps + 1) (steps' + 1) one two) :
    put.Alike spare steps steps' one two :=
  ⟨alike.kind, alike.widened, by have := alike.room; omega, by have := alike.room'; omega⟩

theorem up {less : Nat} (alike : put.Alike spare steps steps' one two) (fewer : less ≤ spare + 1) :
    put.Alike less (steps + 1) (steps' + 1) one two :=
  ⟨alike.kind, alike.widened, by have := alike.room; omega, by have := alike.room'; omega⟩

theorem exists_steps (alike : put.Alike (spare + 1) steps steps' one two) :
    ∃ left left', steps = left + 1 ∧ steps' = left' + 1 :=
  ⟨steps - 1, steps' - 1, by have := alike.room; omega, by have := alike.room'; omega⟩

theorem expect (alike : put.Alike spare steps steps' one two) {kind : TokenKind}
    (more : kind ≠ .endOfText) (place : Place) :
    put.Agrees (fun first second => put.Alike (spare + 8) steps steps' first.2 second.2)
      (Grammar.expect kind place one) (Grammar.expect kind place two) := by
  rw [Grammar.expect, Grammar.expect, alike.kind]
  split
  next same => exact (alike.next (same ▸ more) place).bind fun _ _ alike => .pure alike
  next => exact .fail

theorem symbol (alike : put.Alike spare steps steps' one two) (kind : Symbol) (place : Place) :
    put.Agrees (fun first second => put.Alike (spare + 8) steps steps' first.2 second.2)
      (Grammar.symbol kind place one) (Grammar.symbol kind place two) :=
  alike.expect (by simp) place

theorem keyword (alike : put.Alike spare steps steps' one two) (word : Keyword) (place : Place) :
    put.Agrees (fun first second => put.Alike (spare + 8) steps steps' first.2 second.2)
      (Grammar.keyword word place one) (Grammar.keyword word place two) :=
  alike.expect (by simp) place

theorem name (alike : put.Alike spare steps steps' one two) (place : Place) :
    put.Agrees (fun first second => first.1 = second.1 ∧
      put.Alike (spare + 8) steps steps' first.2.2 second.2.2)
      (Grammar.name place one) (Grammar.name place two) := by
  rw [Grammar.name, Grammar.name, alike.kind]
  split
  next word => exact (alike.next (by simp [word]) place).bind fun _ _ alike => .pure ⟨rfl, alike⟩
  next => exact .fail

theorem isAt (alike : put.Alike spare steps steps' one two) (kind : Symbol) :
    Grammar.isAt kind two = Grammar.isAt kind one := by
  rw [Grammar.isAt, Grammar.isAt, alike.kind]

theorem keyword? (alike : put.Alike spare steps steps' one two) : two.head.keyword? = one.head.keyword? := by
  rw [Token.keyword?, Token.keyword?, alike.kind]

theorem endsBody (alike : put.Alike spare steps steps' one two) (words : List Keyword) :
    Grammar.endsBody words two = Grammar.endsBody words one := by
  rw [Grammar.endsBody, Grammar.endsBody, alike.kind, alike.keyword?]

theorem attrib (alike : put.Alike spare steps steps' one two) (stop stop' : Position) :
    put.Agrees (fun first second => first.1 = second.1 ∧ put.Alike spare steps steps' first.2.2 second.2.2)
      (Grammar.attrib stop one) (Grammar.attrib stop' two) := by
  rw [Grammar.attrib, Grammar.attrib, alike.isAt]
  split
  · refine (alike.symbol _ _).bind fun (_, _) (_, _) alike => ?_
    refine (alike.name _).bind fun (_, _, _) (_, _, _) ⟨_, alike⟩ => ?_
    refine (alike.symbol _ _).bind fun (_, _) (_, _) alike => ?_
    exact .pure ⟨rfl, alike.mono (by omega)⟩
  · exact .pure ⟨rfl, alike⟩

/-! ### Names -/

theorem declaredNames {spare steps steps' : Nat} {one two : Input}
    (alike : put.Alike (spare + 1) steps steps' one two) :
    put.Agrees (fun first second =>
        (first.1.1.map (fun name => (name.1, Span.none)) = second.1.1.map (fun name => (name.1, Span.none)) ∧
          first.1.2 = second.1.2) ∧ put.Alike (spare + 9) steps steps' first.2.2 second.2.2)
      (Grammar.declaredNames steps one) (Grammar.declaredNames steps' two) := by
  obtain ⟨steps, steps', rfl, rfl⟩ := alike.exists_steps
  rw [Grammar.declaredNames, Grammar.declaredNames]
  refine (alike.down.name _).bind ?_
  rintro ⟨text, span, rest⟩ ⟨_, span', rest'⟩ ⟨rfl, alike⟩
  refine (alike.attrib _ _).bind ?_
  rintro ⟨attributed, stop, rest⟩ ⟨_, stop', rest'⟩ ⟨rfl, alike⟩
  dsimp only
  rw [alike.isAt]
  split
  · refine (alike.symbol _ _).bind ?_
    rintro ⟨_, rest⟩ ⟨_, rest'⟩ alike
    refine (declaredNames alike).bind ?_
    rintro ⟨⟨names, others⟩, stop, rest⟩ ⟨⟨names', _⟩, stop', rest'⟩ ⟨⟨same, rfl⟩, alike⟩
    exact .pure ⟨⟨congrArg ((text, Span.none) :: ·) same, rfl⟩, alike.up (by omega)⟩
  · exact .pure ⟨⟨rfl, rfl⟩, alike.up (by omega)⟩

theorem moreNames {spare steps steps' : Nat} {one two : Input}
    (alike : put.Alike (spare + 1) steps steps' one two) :
    put.Agrees (fun first second => first.1 = second.1 ∧ put.Alike (spare + 1) steps steps' first.2 second.2)
      (Grammar.moreNames steps one) (Grammar.moreNames steps' two) := by
  obtain ⟨steps, steps', rfl, rfl⟩ := alike.exists_steps
  rw [Grammar.moreNames, Grammar.moreNames, alike.isAt]
  split
  · refine (alike.down.symbol _ _).bind ?_
    rintro ⟨_, rest⟩ ⟨_, rest'⟩ alike
    refine (alike.name _).bind ?_
    rintro ⟨text, _, rest⟩ ⟨_, _, rest'⟩ ⟨rfl, alike⟩
    refine (moreNames alike).bind ?_
    rintro ⟨names, rest⟩ ⟨_, rest'⟩ ⟨rfl, alike⟩
    exact .pure ⟨rfl, alike.up (by omega)⟩
  · exact .pure ⟨rfl, alike⟩

theorem nameSegments {spare steps steps' : Nat} {one two : Input}
    (alike : put.Alike (spare + 1) steps steps' one two) :
    put.Agrees (fun first second => first.1 = second.1 ∧ put.Alike (spare + 1) steps steps' first.2 second.2)
      (Grammar.nameSegments steps one) (Grammar.nameSegments steps' two) := by
  obtain ⟨steps, steps', rfl, rfl⟩ := alike.exists_steps
  rw [Grammar.nameSegments, Grammar.nameSegments, alike.isAt]
  split
  · refine (alike.down.symbol _ _).bind ?_
    rintro ⟨_, rest⟩ ⟨_, rest'⟩ alike
    refine (alike.name _).bind ?_
    rintro ⟨text, _, rest⟩ ⟨_, _, rest'⟩ ⟨rfl, alike⟩
    refine (nameSegments alike).bind ?_
    rintro ⟨names, rest⟩ ⟨_, rest'⟩ ⟨rfl, alike⟩
    exact .pure ⟨rfl, alike.up (by omega)⟩
  · exact .pure ⟨rfl, alike⟩

theorem functionName (alike : put.Alike spare steps steps' one two) :
    put.Agrees (fun first second => first.1 = second.1 ∧ put.Alike (spare + 8) steps steps' first.2 second.2)
      (Grammar.functionName steps one) (Grammar.functionName steps' two) := by
  rw [Grammar.functionName, Grammar.functionName]
  refine (alike.name _).bind ?_
  rintro ⟨first, _, rest⟩ ⟨_, _, rest'⟩ ⟨rfl, alike⟩
  refine (nameSegments alike).bind ?_
  rintro ⟨path, rest⟩ ⟨_, rest'⟩ ⟨rfl, alike⟩
  dsimp only
  rw [alike.isAt]
  split
  · refine (alike.symbol _ _).bind ?_
    rintro ⟨_, rest⟩ ⟨_, rest'⟩ alike
    refine (alike.name _).bind ?_
    rintro ⟨method, _, rest⟩ ⟨_, _, rest'⟩ ⟨rfl, alike⟩
    exact .pure ⟨rfl, alike.mono (by omega)⟩
  · exact .pure ⟨rfl, alike⟩

theorem parameters {spare steps steps' : Nat} {one two : Input}
    (alike : put.Alike (spare + 1) steps steps' one two) :
    put.Agrees (fun first second => first.1 = second.1 ∧ put.Alike (spare + 9) steps steps' first.2 second.2)
      (Grammar.parameters steps one) (Grammar.parameters steps' two) := by
  obtain ⟨steps, steps', rfl, rfl⟩ := alike.exists_steps
  rw [Grammar.parameters, Grammar.parameters, alike.isAt]
  split
  · refine (alike.down.symbol _ _).bind ?_
    rintro ⟨_, rest⟩ ⟨_, rest'⟩ alike
    dsimp only
    rw [alike.isAt]
    split
    · refine (alike.symbol _ _).bind ?_
      rintro ⟨_, rest⟩ ⟨_, rest'⟩ alike
      exact .pure ⟨rfl, alike.up (by omega)⟩
    · refine (alike.name _).bind ?_
      rintro ⟨text, _, rest⟩ ⟨_, _, rest'⟩ ⟨rfl, alike⟩
      refine (alike.symbol _ _).bind ?_
      rintro ⟨_, rest⟩ ⟨_, rest'⟩ alike
      exact .pure ⟨rfl, alike.up (by omega)⟩
  · refine (alike.down.name _).bind ?_
    rintro ⟨text, _, rest⟩ ⟨_, _, rest'⟩ ⟨rfl, alike⟩
    dsimp only
    rw [alike.isAt]
    split
    · refine (alike.symbol _ _).bind ?_
      rintro ⟨_, rest⟩ ⟨_, rest'⟩ alike
      refine (parameters alike).bind ?_
      rintro ⟨⟨names, vararg⟩, rest⟩ ⟨_, rest'⟩ ⟨rfl, alike⟩
      exact .pure ⟨rfl, alike.up (by omega)⟩
    · refine (alike.symbol _ _).bind ?_
      rintro ⟨_, rest⟩ ⟨_, rest'⟩ alike
      exact .pure ⟨rfl, alike.up (by omega)⟩

theorem parameterList (alike : put.Alike spare steps steps' one two) :
    put.Agrees (fun first second => first.1 = second.1 ∧ put.Alike (spare + 8) steps steps' first.2 second.2)
      (Grammar.parameterList steps one) (Grammar.parameterList steps' two) := by
  rw [Grammar.parameterList, Grammar.parameterList]
  refine (alike.symbol _ _).bind ?_
  rintro ⟨_, rest⟩ ⟨_, rest'⟩ alike
  dsimp only
  rw [alike.isAt]
  split
  · refine (alike.symbol _ _).bind ?_
    rintro ⟨_, rest⟩ ⟨_, rest'⟩ alike
    exact .pure ⟨rfl, alike.mono (by omega)⟩
  · exact (parameters alike).mono fun _ _ ⟨same, alike⟩ => ⟨same, alike.mono (by omega)⟩

end Alike
end Insertion
end LuaClasses.Source
