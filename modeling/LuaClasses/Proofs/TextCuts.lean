import LuaClasses.Source.Spelling

/-! What stands at the start of a text, and where it is seen to end. Two texts that agree up to a place,
after which the second goes on with a blank, begin with the same number, symbol or bracket as long
as the one of the first ends there at the latest: a blank is part of none of them. -/

namespace LuaClasses.Source

/-- Two texts that agree on a number of characters, after which the second goes on with a blank. -/
inductive Cut : Nat → List Char → List Char → Prop
  | here {char : Char} (blank : isBlank char = true) (text rest : List Char) : Cut 0 text (char :: rest)
  | there {count : Nat} {text other : List Char} (char : Char) : Cut count text other →
      Cut (count + 1) (char :: text) (char :: other)

/-- A run goes on where a shorter run within it ends. -/
theorem length_takeWhile_add {p q : Char → Bool} (within : ∀ char, p char = true → q char = true)
    {text : List Char} :
    (text.takeWhile q).length = (text.takeWhile p).length +
    ((text.drop (text.takeWhile p).length).takeWhile q).length := by
  induction text with
  | nil => rfl
  | cons char rest ih =>
    by_cases holds : p char = true
    · rw [List.takeWhile_cons_of_pos holds, List.takeWhile_cons_of_pos (within char holds),
        List.length_cons, List.length_cons,
        List.drop_succ_cons, ih]
      omega
    · rw [List.takeWhile_cons_of_neg holds, List.length_nil, List.drop_zero, Nat.zero_add]

/-! ### Blanks -/

theorem mem_blanks {char : Char} (blank : isBlank char = true) :
    char ∈ [' ', '\t', '\n', '\x0b', '\x0c', '\r'] := by
  simpa [isBlank, or_assoc] using blank

/-- A test that fails for each of the blanks fails for every character that is one. -/
theorem apart_of_isBlank {p : Char → Bool}
    (apart : ([' ', '\t', '\n', '\x0b', '\x0c', '\r'].all fun char => !p char) = true) {char : Char}
    (blank : isBlank char = true) : p char = false := by
  simpa using List.all_eq_true.1 apart char (mem_blanks blank)

theorem isDigit_of_isBlank {char : Char} (blank : isBlank char = true) : isDigit char = false :=
  apart_of_isBlank (by decide) blank

theorem isHexDigit_of_isBlank {char : Char} (blank : isBlank char = true) : isHexDigit char = false :=
  apart_of_isBlank (by decide) blank

private theorem isBinaryDigit_of_isBlank {char : Char} (blank : isBlank char = true) :
    isBinaryDigit char = false :=
  apart_of_isBlank (by decide) blank

/-- Characters that are listed are solid if each of them is. -/
theorem solid_of_all {chars : List Char} (solid : (chars.all fun char => !isBlank char) = true) :
    ∀ char ∈ chars, isBlank char = false :=
  fun char member => by simpa using List.all_eq_true.1 solid char member

theorem isWordPart_of_isBlank {char : Char} (blank : isBlank char = true) : isWordPart char = false := by
  simp [isWordPart, blank]

/-- Blanks stop before a character that is none. -/
theorem takeWhile_le_of_getElem? {p : Char → Bool} (within : ∀ char, p char = true → isBlank char = true)
    {text : List Char} {index : Nat} {char : Char} (present : text[index]? = some char)
    (solid : isBlank char = false) :
    (text.takeWhile p).length ≤ index := by
  induction text generalizing index with
  | nil => exact Nat.zero_le _
  | cons first rest ih =>
    rw [List.takeWhile_cons]
    split
    next holds =>
      cases index with
      | zero =>
        cases present
        exact absurd (solid.symm.trans (within char holds)) Bool.false_ne_true
      | succ index => exact Nat.succ_le_succ (ih present)
    next => exact Nat.zero_le _

theorem solid_after_blanks {text : List Char} (more : (text.takeWhile isBlank).length < text.length) :
    ∃ char, text[(text.takeWhile isBlank).length]? = some char ∧ isBlank char = false := by
  induction text with
  | nil => exact absurd more (Nat.lt_irrefl 0)
  | cons char rest ih =>
    cases blank : isBlank char with
    | true =>
      rw [List.takeWhile_cons_of_pos blank] at more ⊢
      exact ih (Nat.lt_of_succ_lt_succ more)
    | false =>
      rw [List.takeWhile_cons_of_neg (by simp [blank])]
      exact ⟨char, rfl, blank⟩

theorem ne_of_isBlank {char other : Char} (blank : isBlank char = true) (solid : isBlank other = false) :
    char ≠ other := by
  rintro rfl
  exact Bool.false_ne_true (solid.symm.trans blank)

private theorem takeWhile_le_of_mantissa? {digit : Char → Bool} {text : List Char} {count : Nat}
    (inside : ∀ width ∈ mantissa? digit text, width ≤ count) : (text.takeWhile digit).length ≤ count := by
  rw [mantissa?] at inside
  dsimp only at inside
  split at inside
  · split at inside
    next empty =>
      rw [Bool.and_eq_true, decide_eq_true_eq, decide_eq_true_eq] at empty
      omega
    next => exact Nat.le_trans (by omega) (inside _ rfl)
  · split at inside
    next empty => omega
    next => exact inside _ rfl

/-- The length of the letter of an unsigned integer, or zero. -/
def unsignedLength (text : List Char) : Nat := if isOneOf ['u', 'U'] text[0]? then 1 else 0

private theorem integerSuffix_eq (text : List Char) :
    integerSuffix text =
      if isOneOf ['l', 'L'] text[unsignedLength text]? &&
          isOneOf ['l', 'L'] text[unsignedLength text + 1]? then
        unsignedLength text + 2
      else 0 :=
  rfl

/-- The length of what follows the digits and the point of a number in one base. -/
def numberEnd (marks text : List Char) : Nat :=
  exponent marks text + imaginarySuffix (text.drop (exponent marks text))

/-- The length of the longest number that is no integer with an `LL` or `ULL`. -/
def plainNumber? (digit : Char → Bool) (marks text : List Char) : Option Nat :=
  (mantissa? digit text).map fun body => body + numberEnd marks (text.drop body)

/-- The length of the suffix of the digits at the start of a text. -/
def wideSuffix (digit : Char → Bool) (text : List Char) : Nat :=
  if (text.takeWhile digit).length = 0 then 0 else integerSuffix (text.drop (text.takeWhile digit).length)

theorem numberIn?_eq (digit : Char → Bool) (marks text : List Char) :
    numberIn? digit marks text =
      if wideSuffix digit text ≠ 0 then some ((text.takeWhile digit).length + wideSuffix digit text)
      else plainNumber? digit marks text := by
  rw [numberIn?, plainNumber?]
  dsimp only [wideSuffix]
  congr 1
  cases mantissa? digit text with
  | none => rfl
  | some body => simp [numberEnd, List.drop_drop, Nat.add_assoc]

private theorem takeWhile_le_of_plainNumber? {digit : Char → Bool} {marks text : List Char} {count : Nat}
    (inside : ∀ width ∈ plainNumber? digit marks text, width ≤ count) :
    (text.takeWhile digit).length ≤ count := by
  refine takeWhile_le_of_mantissa? fun body found => ?_
  have := inside _ (Option.mem_map_of_mem _ found)
  omega

private theorem binaryNumber?_eq (text : List Char) :
    binaryNumber? text =
      let whole := (text.takeWhile isBinaryDigit).length
      if whole = 0 then none
      else some (whole + if wideSuffix isBinaryDigit text = 0 then imaginarySuffix (text.drop whole)
        else wideSuffix isBinaryDigit text) := by
  rw [binaryNumber?, wideSuffix]
  dsimp only
  split <;> rfl

/-- The length of the longest number at the start of a text that is not decimal. -/
def basedNumber? : List Char → Option Nat
  | '0' :: mark :: rest =>
    if mark = 'x' || mark = 'X' then (numberIn? isHexDigit ['p', 'P'] rest).map (· + 2)
    else if mark = 'b' || mark = 'B' then (binaryNumber? rest).map (· + 2)
    else none
  | _ => none

theorem number?_eq (text : List Char) :
    number? text = (basedNumber? text).or (numberIn? isDigit ['e', 'E'] text) :=
  rfl

private theorem basedNumber?_of_ne {first : Char} (apart : first ≠ '0') (rest : List Char) :
    basedNumber? (first :: rest) = none := by
  rw [basedNumber?]
  intro mark tail same
  exact apart (List.cons.inj same).1

theorem le_of_mem_basedNumber? {text : List Char} {width : Nat} (found : width ∈ basedNumber? text) :
    2 ≤ width := by
  rw [basedNumber?.eq_def] at found
  split at found
  next mark rest =>
    have more (number : Option Nat) (found : width ∈ number.map (· + 2)) : 2 ≤ width := by
      obtain ⟨digits, _, rfl⟩ := Option.map_eq_some_iff.1 found
      exact Nat.le_add_left 2 digits
    split at found
    next => exact more _ found
    next =>
      split at found
      next => exact more _ found
      next => cases found
  next => cases found

private theorem basedNumber?_of_isBlank {mark : Char} (blank : isBlank mark = true) (first : Char)
    (rest : List Char) :
    basedNumber? (first :: mark :: rest) = none := by
  by_cases zero : first = '0'
  case neg => exact basedNumber?_of_ne zero _
  have apart (char : Char) (solid : isBlank char = false) : mark ≠ char := ne_of_isBlank blank solid
  subst zero
  rw [basedNumber?, if_neg (by simp [apart 'x' (by decide), apart 'X' (by decide)]),
    if_neg (by simp [apart 'b' (by decide), apart 'B' (by decide)])]

/-- The length of a sign, or zero. -/
def signLength (text : List Char) : Nat := if isOneOf ['+', '-'] text[0]? then 1 else 0

/-- The length of the digits after a mark and a sign, with both of them if there are any. -/
theorem exponent_cons {marks : List Char} {mark : Char} (known : marks.contains mark = true)
    (rest : List Char) :
    exponent marks (mark :: rest) =
      let digits := ((rest.drop (signLength rest)).takeWhile isDigit).length
      if digits = 0 then 0 else 1 + signLength rest + digits := by
  rw [exponent.eq_def]
  refine (if_pos known).trans ?_
  split
  next => rfl
  next => rfl
  next plus minus =>
    have unsigned : signLength rest = 0 := by
      cases rest with
      | nil => rfl
      | cons char rest =>
        have apart : char ≠ '+' ∧ char ≠ '-' :=
          ⟨fun same => plus rest (same ▸ rfl), fun same => minus rest (same ▸ rfl)⟩
        simp [signLength, isOneOf, apart]
    rw [unsigned]

private theorem exponent_of_not {marks : List Char} {mark : Char}
    (unknown : ¬ marks.contains mark = true) (rest : List Char) :
    exponent marks (mark :: rest) = 0 :=
  if_neg unknown

namespace Cut

variable {count : Nat} {text other : List Char}

theorem length_le (cut : Cut count text other) : count ≤ text.length := by
  induction cut with
  | here => exact Nat.zero_le _
  | there _ _ ih => exact Nat.succ_le_succ ih

theorem drop {skipped : Nat} (cut : Cut (skipped + count) text other) :
    Cut count (text.drop skipped) (other.drop skipped) := by
  induction skipped generalizing text other with
  | zero => rwa [Nat.zero_add] at cut
  | succ skipped ih =>
    rw [Nat.succ_add] at cut
    cases cut with
    | there _ rest => exact ih rest

theorem take {length : Nat} (cut : Cut count text other) (inside : length ≤ count) :
    other.take length = text.take length := by
  induction cut generalizing length with
  | here => rw [Nat.le_zero.1 inside, List.take_zero, List.take_zero]
  | there char _ ih =>
    cases length with
    | zero => rfl
    | succ length => exact congrArg (char :: ·) (ih (Nat.le_of_succ_le_succ inside))

theorem getElem? {index : Nat} (cut : Cut count text other) (inside : index < count) :
    other[index]? = text[index]? := by
  induction cut generalizing index with
  | here => exact absurd inside (Nat.not_lt_zero _)
  | there char _ ih =>
    cases index with
    | zero => rfl
    | succ index => simpa using ih (Nat.lt_of_succ_lt_succ inside)

/-- A run that ends before the cut is the same in both texts. -/
theorem takeWhile_of_lt (cut : Cut count text other) {p : Char → Bool}
    (inside : (text.takeWhile p).length < count) :
    other.takeWhile p = text.takeWhile p := by
  induction cut with
  | here => exact absurd inside (Nat.not_lt_zero _)
  | there char rest ih =>
    rw [List.takeWhile_cons, List.takeWhile_cons]
    rw [List.takeWhile_cons] at inside
    split at inside
    next holds => rw [if_pos holds, if_pos holds, ih (Nat.lt_of_succ_lt_succ inside)]
    next fails => rw [if_neg fails, if_neg fails]

/-- So is a run without blanks that ends at the cut. -/
theorem takeWhile (cut : Cut count text other) {p : Char → Bool}
    (solid : ∀ char, isBlank char = true → p char = false) (inside : (text.takeWhile p).length ≤ count) :
    other.takeWhile p = text.takeWhile p := by
  induction cut with
  | @here char blank text rest =>
    rw [List.takeWhile_cons, if_neg (by simp [solid char blank])]
    exact (List.eq_nil_of_length_eq_zero (Nat.le_zero.1 inside)).symm
  | there char rest ih =>
    rw [List.takeWhile_cons, List.takeWhile_cons]
    rw [List.takeWhile_cons] at inside
    split at inside
    next holds => rw [if_pos holds, if_pos holds, ih (Nat.le_of_succ_le_succ inside)]
    next fails => rw [if_neg fails, if_neg fails]

/-- Any run without blanks ends at the cut at the latest. -/
theorem length_takeWhile (cut : Cut count text other) {p : Char → Bool}
    (solid : ∀ char, isBlank char = true → p char = false) :
    (other.takeWhile p).length = min (text.takeWhile p).length count := by
  induction cut with
  | @here char blank text rest => simp [solid char blank]
  | there char rest ih =>
    rw [List.takeWhile_cons, List.takeWhile_cons]
    split
    next => rw [List.length_cons, List.length_cons, ih, Nat.succ_min_succ]
    next => rw [List.length_nil, Nat.zero_min]

/-- The second text begins with characters that are no blanks exactly if the first does, before the cut. -/
theorem isPrefix_iff (cut : Cut count text other) {chars : List Char}
    (solid : ∀ char ∈ chars, isBlank char = false) :
    chars <+: other ↔ chars <+: text ∧ chars.length ≤ count := by
  induction cut generalizing chars with
  | @here char blank text rest =>
    cases chars with
    | nil => simp
    | cons first chars =>
      have apart : char ≠ first := ne_of_isBlank blank (solid first List.mem_cons_self)
      simp [List.cons_prefix_cons, apart.symm]
  | there char rest ih =>
    cases chars with
    | nil => simp
    | cons first chars =>
      rw [List.cons_prefix_cons, List.cons_prefix_cons,
        ih fun char member => solid char (List.mem_cons_of_mem _ member),
        List.length_cons, Nat.succ_le_succ_iff, and_assoc]

/-- A character at the cut or before it is one of some that are no blanks exactly if it is so in the
first text, before the cut. -/
theorem isOneOf {letters : List Char} {index : Nat} (cut : Cut count text other)
    (solid : ∀ char ∈ letters, isBlank char = false) (inside : index ≤ count) :
    Source.isOneOf letters other[index]? =
      (decide (index < count) && Source.isOneOf letters text[index]?) := by
  induction cut generalizing index with
  | @here char blank text rest =>
    obtain rfl : index = 0 := Nat.le_zero.1 inside
    have absent : char ∉ letters := fun member => ne_of_isBlank blank (solid char member) rfl
    simpa [Source.isOneOf] using absent
  | there char rest ih =>
    cases index with
    | zero => simp
    | succ index => simpa using ih (Nat.le_of_succ_le_succ inside)

/-! ### Numbers -/

theorem mantissa? {digit : Char → Bool} (cut : Cut count text other)
    (solid : ∀ char, isBlank char = true → digit char = false)
    (inside : ∀ width ∈ Source.mantissa? digit text, width ≤ count) :
    Source.mantissa? digit other = Source.mantissa? digit text := by
  have whole := takeWhile_le_of_mantissa? inside
  have same := cut.takeWhile solid whole
  obtain ⟨left, rfl⟩ := Nat.exists_eq_add_of_le whole
  have after := cut.drop
  rw [Source.mantissa?] at inside ⊢
  rw [Source.mantissa?, same]
  clear cut same whole
  dsimp only at inside ⊢
  generalize (text.takeWhile digit).length = whole at *
  generalize text.drop whole = tail, other.drop whole = otherTail at *
  cases after with
  | @here char blank _ rest =>
    -- no point follows the digits in the second text, and one in the first would end beyond the cut
    have apart : char ≠ '.' := ne_of_isBlank blank (by decide)
    split
    next point => exact absurd (List.cons.inj point).1 apart
    next =>
      split at inside
      next part =>
        split at inside
        next empty =>
          rw [Bool.and_eq_true, decide_eq_true_eq, decide_eq_true_eq] at empty
          simp [empty]
        next =>
          have := inside _ rfl
          omega
      next => simp
  | @there left tail otherTail char rest =>
    split at inside
    next point =>
      obtain ⟨rfl, rfl⟩ := List.cons.inj point
      have part : (tail.takeWhile digit).length ≤ left := by
        split at inside
        next empty =>
          rw [Bool.and_eq_true, decide_eq_true_eq, decide_eq_true_eq] at empty
          exact empty.2 ▸ Nat.zero_le _
        next =>
          have := inside _ rfl
          omega
      simp only [rest.takeWhile solid part]
    next noPoint =>
      have apart : char ≠ '.' := fun point => noPoint tail (point ▸ rfl)
      simp [apart]

theorem exponent {marks : List Char} (cut : Cut count text other)
    (solid : ∀ char ∈ marks, isBlank char = false) (inside : Source.exponent marks text ≤ count) :
    Source.exponent marks other = Source.exponent marks text := by
  cases cut with
  | @here char blank text rest =>
    have absent : char ∉ marks := fun member => ne_of_isBlank blank (solid char member) rfl
    rw [Nat.le_zero.1 inside, exponent_of_not (by simpa using absent)]
  | @there count text other mark cut =>
    by_cases known : marks.contains mark = true
    case neg => rw [exponent_of_not known, exponent_of_not known]
    rw [exponent_cons known] at inside ⊢
    rw [exponent_cons known]
    dsimp only at inside ⊢
    cases cut with
    | @here char blank text rest =>
      -- a single mark is no exponent
      have sign : signLength (char :: rest) = 0 := by
        rw [signLength, (here blank text rest).isOneOf (solid_of_all (by decide)) (Nat.zero_le _)]
        rfl
      have digits : ((char :: rest).takeWhile isDigit).length = 0 := by simp [isDigit_of_isBlank blank]
      rw [sign, List.drop_zero, if_pos digits]
      split at inside
      next none => rw [if_pos none]
      next => omega
    | @there count text other char cut =>
      have same : signLength (char :: other) = signLength (char :: text) := rfl
      have small : signLength (char :: text) ≤ count + 1 := by
        rw [signLength]
        split <;> omega
      rw [same]
      obtain ⟨left, longer⟩ := Nat.exists_eq_add_of_le small
      generalize signLength (char :: text) = sign at *
      have cut : Cut (count + 1) (char :: text) (char :: other) := .there char cut
      rw [longer] at cut
      have digits : (((char :: text).drop sign).takeWhile isDigit).length ≤ left := by
        split at inside <;> omega
      rw [cut.drop.takeWhile (fun _ => isDigit_of_isBlank) digits]

theorem integerSuffix (cut : Cut count text other) (inside : Source.integerSuffix text ≤ count) :
    Source.integerSuffix other = Source.integerSuffix text := by
  rw [integerSuffix_eq] at inside ⊢
  rw [integerSuffix_eq]
  have same : unsignedLength other = if count = 0 then 0 else unsignedLength text := by
    rw [unsignedLength, unsignedLength, cut.isOneOf (solid_of_all (by decide)) (Nat.zero_le _)]
    cases count <;> simp
  have small : unsignedLength text ≤ 1 := by
    rw [unsignedLength]
    split <;> omega
  rw [same]
  generalize unsignedLength text = unsigned at *
  have first : Source.isOneOf ['l', 'L'] other[if count = 0 then 0 else unsigned]? =
      (decide (unsigned < count) && Source.isOneOf ['l', 'L'] text[unsigned]?) := by
    split
    next empty =>
      rw [cut.isOneOf (solid_of_all (by decide)) (Nat.zero_le _)]
      simp [empty]
    next => rw [cut.isOneOf (solid_of_all (by decide)) (by omega)]
  rw [first]
  by_cases room : unsigned + 1 ≤ count
  · have solid : count ≠ 0 := by omega
    rw [if_neg solid, cut.isOneOf (solid_of_all (by decide)) room]
    split at inside
    next suffix => simp [suffix, show unsigned < count by omega, show unsigned + 1 < count by omega]
    next none => rw [if_neg (by simp_all), if_neg none]
  · have tight : ¬ unsigned < count := by omega
    split at inside
    next => omega
    next none => simp [tight, none]

theorem imaginarySuffix (cut : Cut count text other) (inside : Source.imaginarySuffix text ≤ count) :
    Source.imaginarySuffix other = Source.imaginarySuffix text := by
  rw [Source.imaginarySuffix, cut.isOneOf (solid_of_all (by decide)) (Nat.zero_le _)]
  rw [Source.imaginarySuffix] at inside ⊢
  split at inside
  next letter => simp [letter, Nat.lt_of_lt_of_le Nat.one_pos inside]
  next none => simp [none]

private theorem numberEnd {marks : List Char} (cut : Cut count text other)
    (solid : ∀ char ∈ marks, isBlank char = false) (inside : Source.numberEnd marks text ≤ count) :
    Source.numberEnd marks other = Source.numberEnd marks text := by
  rw [Source.numberEnd] at inside ⊢
  have length : Source.exponent marks text ≤ count := by omega
  rw [Source.numberEnd, cut.exponent solid length]
  obtain ⟨left, rfl⟩ := Nat.exists_eq_add_of_le length
  rw [cut.drop.imaginarySuffix (by omega)]

private theorem plainNumber? {digit : Char → Bool} {marks : List Char} (cut : Cut count text other)
    (digits : ∀ char, isBlank char = true → digit char = false) (solid : ∀ char ∈ marks, isBlank char = false)
    (inside : ∀ width ∈ Source.plainNumber? digit marks text, width ≤ count) :
    Source.plainNumber? digit marks other = Source.plainNumber? digit marks text := by
  rw [Source.plainNumber?] at inside ⊢
  rw [Source.plainNumber?]
  cases found : Source.mantissa? digit text with
  | none => rw [cut.mantissa? digits (by simp [found]), found]; rfl
  | some body =>
    rw [found, Option.map_some] at inside
    have whole := inside _ rfl
    have length : body ≤ count := by omega
    rw [cut.mantissa? digits (by simpa [found] using length), found]
    obtain ⟨left, rfl⟩ := Nat.exists_eq_add_of_le length
    rw [Option.map_some, Option.map_some, cut.drop.numberEnd solid (by omega)]

private theorem wideSuffix {digit : Char → Bool} (cut : Cut count text other)
    (digits : ∀ char, isBlank char = true → digit char = false)
    (inside : (text.takeWhile digit).length + Source.wideSuffix digit text ≤ count) :
    Source.wideSuffix digit other = Source.wideSuffix digit text := by
  rw [Source.wideSuffix] at inside ⊢
  rw [Source.wideSuffix, cut.takeWhile digits (by omega)]
  split
  next => rfl
  next some =>
    rw [if_neg some] at inside
    obtain ⟨left, rfl⟩ := Nat.exists_eq_add_of_le (Nat.le_of_add_right_le inside)
    exact cut.drop.integerSuffix (by omega)

theorem numberIn? {digit : Char → Bool} {marks : List Char} (cut : Cut count text other)
    (digits : ∀ char, isBlank char = true → digit char = false) (solid : ∀ char ∈ marks, isBlank char = false)
    (inside : ∀ width ∈ Source.numberIn? digit marks text, width ≤ count) :
    Source.numberIn? digit marks other = Source.numberIn? digit marks text := by
  rw [numberIn?_eq] at inside ⊢
  rw [numberIn?_eq]
  split at inside
  next wide =>
    have length := inside _ rfl
    rw [cut.wideSuffix digits length, if_pos wide, if_pos wide, cut.takeWhile digits (by omega)]
  next plain =>
    have length : (text.takeWhile digit).length + Source.wideSuffix digit text ≤ count := by
      have := takeWhile_le_of_plainNumber? inside
      omega
    rw [cut.wideSuffix digits length, if_neg plain, if_neg plain, cut.plainNumber? digits solid inside]

theorem binaryNumber? (cut : Cut count text other)
    (inside : ∀ width ∈ Source.binaryNumber? text, width ≤ count) :
    Source.binaryNumber? other = Source.binaryNumber? text := by
  rw [binaryNumber?_eq] at inside ⊢
  rw [binaryNumber?_eq]
  dsimp only at inside ⊢
  split at inside
  next empty => rw [cut.takeWhile (fun _ => isBinaryDigit_of_isBlank) (empty ▸ Nat.zero_le _),
    if_pos empty, if_pos empty]
  next some =>
    have length := inside _ rfl
    have whole : (text.takeWhile isBinaryDigit).length + Source.wideSuffix isBinaryDigit text ≤ count := by
      split at length
      next none => omega
      next => exact length
    rw [cut.wideSuffix (fun _ => isBinaryDigit_of_isBlank) whole]
    rw [cut.takeWhile (fun _ => isBinaryDigit_of_isBlank) (Nat.le_of_add_right_le whole),
      if_neg some, if_neg some]
    split
    next wide =>
      rw [if_pos wide] at length
      obtain ⟨left, rfl⟩ := Nat.exists_eq_add_of_le (Nat.le_of_add_right_le whole)
      rw [cut.drop.imaginarySuffix (by omega)]
    next => rfl

private theorem basedNumber? (cut : Cut count text other)
    (inside : ∀ width ∈ Source.basedNumber? text, width ≤ count) :
    Source.basedNumber? other = Source.basedNumber? text := by
  cases cut with
  | @here char blank text rest =>
    rw [basedNumber?_of_ne (ne_of_isBlank blank (by decide))]
    cases found : Source.basedNumber? text with
    | none => rfl
    | some width => exact absurd (inside width found) (by have := le_of_mem_basedNumber? found; omega)
  | @there count text other first cut =>
    cases cut with
    | @here char blank text rest =>
      rw [basedNumber?_of_isBlank blank]
      cases found : Source.basedNumber? (first :: text) with
      | none => rfl
      | some width => exact absurd (inside width found) (by have := le_of_mem_basedNumber? found; omega)
    | @there count text other mark cut =>
      by_cases zero : first = '0'
      case neg => rw [basedNumber?_of_ne zero, basedNumber?_of_ne zero]
      subst zero
      rw [Source.basedNumber?] at inside ⊢
      rw [Source.basedNumber?]
      split at inside
      next hex =>
        rw [if_pos hex, if_pos hex, cut.numberIn? (fun _ => isHexDigit_of_isBlank) (solid_of_all (by decide))]
        intro width found
        exact Nat.le_of_add_le_add_right (inside _ (Option.mem_map_of_mem _ found))
      next decimal =>
        rw [if_neg decimal, if_neg decimal]
        split at inside
        next binary =>
          rw [if_pos binary, if_pos binary, cut.binaryNumber?]
          intro width found
          exact Nat.le_of_add_le_add_right (inside _ (Option.mem_map_of_mem _ found))
        next other => rw [if_neg other, if_neg other]

theorem number? (cut : Cut count text other) (inside : ∀ width ∈ Source.number? text, width ≤ count) :
    Source.number? other = Source.number? text := by
  rw [number?_eq] at inside ⊢
  rw [number?_eq]
  have based : Source.basedNumber? other = Source.basedNumber? text :=
    cut.basedNumber? fun width found => inside width (by simp [Option.mem_def.1 found])
  rw [based]
  cases found : Source.basedNumber? text with
  | none =>
    rw [found, Option.none_or] at inside
    rw [Option.none_or, Option.none_or, cut.numberIn? (fun _ => isDigit_of_isBlank)
      (solid_of_all (by decide)) inside]
  | some width => rw [Option.some_or, Option.some_or]

end Cut
end LuaClasses.Source
