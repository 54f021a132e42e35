import LuaClasses.Proofs.TextCuts

/-! Comments and the gaps that they stand in, in texts that agree up to a cut. A gap that ends before the cut
is a gap of both texts, and so is every comment of it. -/

namespace LuaClasses.Source

/-! ### Long brackets -/

/-- A bracket, equals signs and the bracket again. -/
def longBracket (bracket : Char) (signs : Nat) : List Char :=
  bracket :: (List.replicate signs '=' ++ [bracket])

theorem length_longBracket (bracket : Char) (signs : Nat) :
    (longBracket bracket signs).length = signs + 2 := by
  simp [longBracket]

private theorem solid_longBracket {bracket : Char} (solid : isBlank bracket = false) (signs : Nat) :
    ∀ char ∈ longBracket bracket signs, isBlank char = false := by
  intro char member
  rw [longBracket, List.mem_cons, List.mem_append, List.mem_replicate, List.mem_singleton] at member
  rcases member with rfl | ⟨_, rfl⟩ | rfl
  · exact solid
  · decide
  · exact solid

theorem signs_prefix_iff {bracket : Char} (apart : bracket ≠ '=') {signs : Nat} {rest : List Char} :
    List.replicate signs '=' ++ [bracket] <+: rest ↔
      (rest.takeWhile (· = '=')).length = signs ∧ rest[signs]? = some bracket := by
  induction rest generalizing signs with
  | nil => simp
  | cons char rest ih =>
    cases signs with
    | zero =>
      by_cases same : char = '='
      · simp [same, apart]
      · simp [same, eq_comm]
    | succ signs =>
      rw [List.replicate_succ, List.cons_append, List.cons_prefix_cons, ih,
        List.getElem?_cons_succ, List.takeWhile_cons]
      by_cases same : char = '='
      · simp [same]
      · simp [same, Ne.symm same]

theorem longBracket_prefix_iff {bracket : Char} (apart : bracket ≠ '=') {signs : Nat} {char : Char}
    {rest : List Char} :
    longBracket bracket signs <+: char :: rest ↔
      char = bracket ∧ (rest.takeWhile (· = '=')).length = signs ∧ rest[signs]? = some bracket := by
  rw [longBracket, List.cons_prefix_cons, signs_prefix_iff apart, eq_comm]

theorem longOpening?_eq_some_iff {text : List Char} {width level : Nat} :
    longOpening? text = some (width, level) ↔
      ∃ signs, longBracket '[' signs <+: text ∧ width = signs + 2 ∧ level = longLevel signs := by
  cases text with
  | nil => simp [longOpening?, longBracket]
  | cons char rest =>
    simp only [longBracket_prefix_iff (show '[' ≠ '=' by decide)]
    by_cases same : char = '['
    · subst same
      simp only [longOpening?, true_and, Option.ite_none_right_eq_some, Option.some_inj, Prod.mk.injEq]
      constructor
      · rintro ⟨opens, rfl, rfl⟩
        exact ⟨_, ⟨rfl, opens⟩, rfl, rfl⟩
      · rintro ⟨_, ⟨rfl, opens⟩, rfl, rfl⟩
        exact ⟨opens, rfl, rfl⟩
    · simp [longOpening?, same]

theorem longClosing?_eq_some_iff {text : List Char} {width level : Nat} :
    longClosing? level text = some width ↔
      ∃ signs, longBracket ']' signs <+: text ∧ width = signs + 2 ∧ level = longLevel signs := by
  cases text with
  | nil => simp [longClosing?, longBracket]
  | cons char rest =>
    simp only [longBracket_prefix_iff (show ']' ≠ '=' by decide)]
    by_cases same : char = ']'
    · subst same
      simp only [longClosing?, Option.ite_none_right_eq_some, Option.some.injEq,
        Bool.and_eq_true, decide_eq_true_eq]
      constructor
      · rintro ⟨⟨rfl, closed⟩, rfl⟩
        exact ⟨_, ⟨trivial, rfl, closed⟩, rfl, rfl⟩
      · rintro ⟨_, ⟨_, rfl, closed⟩, rfl, rfl⟩
        exact ⟨⟨rfl, closed⟩, rfl⟩
    · simp [longClosing?, same]

theorem blockOpening?_eq_some_iff {text : List Char} {width level : Nat} :
    blockOpening? text = some (width, level) ↔
      ∃ signs, '-' :: '-' :: longBracket '[' signs <+: text ∧ width = signs + 4 ∧
        level = longLevel signs := by
  rw [blockOpening?.eq_def]
  split
  next rest =>
    simp only [Option.map_eq_some_iff, Prod.exists, Prod.mk.injEq, longOpening?_eq_some_iff,
      List.cons_prefix_cons, true_and]
    constructor
    · rintro ⟨_, _, ⟨signs, opens, rfl, rfl⟩, rfl, rfl⟩
      exact ⟨signs, opens, rfl, rfl⟩
    · rintro ⟨signs, opens, rfl, rfl⟩
      exact ⟨_, _, ⟨signs, opens, rfl, rfl⟩, rfl, rfl⟩
  next _ none =>
    simp only [reduceCtorEq, false_iff]
    rintro ⟨signs, ⟨rest, rfl⟩, _⟩
    exact none _ rfl

private theorem le_of_longContent? {level start content closing : Nat} {text : List Char}
    (found : longContent? level start text = some (content, closing)) : start + 2 ≤ content + closing := by
  induction text generalizing start with
  | nil => cases found
  | cons char rest ih =>
    rw [longContent?] at found
    split at found
    next width closed =>
      cases found
      obtain ⟨signs, _, rfl, _⟩ := longClosing?_eq_some_iff.1 closed
      omega
    next => exact Nat.le_trans (by omega) (ih found)

/-- The number of characters up to the end of the line. -/
def lineLength (text : List Char) : Nat := (text.takeWhile fun char => !endsLine char).length

/-- The number of blanks before that. -/
def indent (text : List Char) : Nat := (text.takeWhile fun char => isBlank char && !endsLine char).length

private theorem lineLength_eq (text : List Char) :
    lineLength text = indent text + lineLength (text.drop (indent text)) :=
  length_takeWhile_add fun char within => by
    rw [Bool.and_eq_true] at within
    exact within.2

private theorem lineLength_dashes (rest : List Char) :
    lineLength ('-' :: '-' :: rest) = lineLength rest + 2 := by
  rw [lineLength, List.takeWhile_cons_of_pos (by decide), List.takeWhile_cons_of_pos (by decide)]
  rfl

theorem atLineEnd_iff {text : List Char} : atLineEnd text = true ↔ lineLength text = 0 := by
  cases text with
  | nil => simp [atLineEnd, lineLength]
  | cons char rest => cases ends : endsLine char <;> simp [atLineEnd, lineLength, ends]

/-- Blanks and two dashes make up the rest of the line. -/
theorem bareDashes?_eq_some_iff {text : List Char} {blanks : Nat} :
    bareDashes? text = some blanks ↔
      indent text = blanks ∧ ['-', '-'] <+: text.drop blanks ∧ lineLength text = blanks + 2 := by
  rw [lineLength_eq, bareDashes?.eq_def]
  dsimp only
  rw [← indent]
  generalize indent text = count
  split
  next rest same =>
    rw [Option.ite_none_right_eq_some, atLineEnd_iff, same, lineLength_dashes, Option.some.injEq]
    constructor
    · rintro ⟨ends, rfl⟩
      exact ⟨rfl, ⟨rest, same.symm⟩, by omega⟩
    · rintro ⟨rfl, _, ends⟩
      exact ⟨by omega, rfl⟩
  next none =>
    simp only [reduceCtorEq, false_iff]
    rintro ⟨rfl, ⟨rest, same⟩, _⟩
    exact none rest same.symm

theorem pos_of_blockOpeningAhead? {text : List Char} {opening level : Nat}
    (opens : blockOpeningAhead? text = some (opening, level)) : 0 < opening := by
  obtain ⟨⟨width, level⟩, opens, same⟩ := Option.map_eq_some_iff.1 opens
  cases same
  obtain ⟨signs, _, long, _⟩ := blockOpening?_eq_some_iff.1 opens
  omega

private theorem lineComment?_of_block {pending start opening level : Nat} {text : List Char}
    (opens : blockOpeningAhead? text = some (opening, level)) :
    lineComment? pending start text = (longRest? level (text.drop opening)).bind fun width =>
      lineComment? pending (start + opening + width) (text.drop (opening + width)) := by
  cases text with
  | nil => cases opens
  | cons first rest =>
    obtain ⟨opening, rfl⟩ := Nat.exists_eq_add_of_lt (pos_of_blockOpeningAhead? opens)
    rw [lineComment?, opens]
    dsimp only
    rw [Nat.zero_add, List.drop_succ_cons, Nat.add_sub_cancel]
    cases closes : longRest? level (rest.drop opening) with
    | none => rfl
    | some width => rw [Option.bind_some, Nat.add_right_comm opening 1 width, List.drop_succ_cons]

private theorem lineComment?_of_dashes {pending start blanks : Nat} {text : List Char}
    (open_ : blockOpeningAhead? text = none) (dashes : bareDashes? text = some blanks) :
    lineComment? pending start text = lineComment? (pending + 1) (start + blanks + 2)
      (text.drop (blanks + 2)) := by
  cases text with
  | nil => cases dashes
  | cons first rest => rw [lineComment?, open_, dashes, List.drop_succ_cons]

theorem lineComment?_of_text {start : Nat} {text : List Char} (open_ : blockOpeningAhead? text = none)
    (plain : bareDashes? text = none) : lineComment? 0 start text = some (start + lineLength text) := by
  cases text with
  | nil => rw [lineComment?, lineLength, List.takeWhile_nil, List.length_nil, Nat.add_zero start]
  | cons first rest => rw [lineComment?, open_, plain]; rfl

private theorem lineComment?_of_more {pending start : Nat} {text : List Char}
    (open_ : blockOpeningAhead? text = none) (plain : bareDashes? text = none) :
    lineComment? (pending + 1) start text = lineComment? pending (start + lineLength text)
      (text.drop (lineLength text)) := by
  cases text with
  | nil => rw [lineComment?, lineLength, List.takeWhile_nil, List.length_nil, List.drop_nil,
    lineComment?, Nat.add_zero]
  | cons first rest => rw [lineComment?, open_, plain]; rfl

private theorem le_of_lineComment? {pending start width : Nat} {text : List Char}
    (found : lineComment? pending start text = some width) : start ≤ width := by
  fun_induction lineComment? pending start text with
  | case1 => exact Nat.le_of_eq (Option.some.inj found)
  | case2 => cases found
  | case3 _ _ _ _ _ _ _ _ _ ih => exact Nat.le_trans (by omega) (ih found)
  | case4 _ _ _ _ _ _ _ ih => exact Nat.le_trans (by omega) (ih found)
  | case5 => exact Option.some.inj found ▸ Nat.le_add_right _ _
  | case6 _ _ _ _ _ _ _ ih => exact Nat.le_trans (by omega) (ih found)

/-! ### Gaps -/

/-- The length of the comment at the start of a text, if there is one, with the bracket before it that it
breaks. Nothing at all comes of a comment that is not closed. -/
def commentAt? (longStrings : Bool) (text : List Char) : Option (Option Nat) :=
  let broken := if longStrings then brokenOpening text else 0
  match blockOpening? (text.drop broken) with
  | some (opening, level) =>
    (longRest? level (text.drop (broken + opening))).map fun width => some (broken + opening + width)
  | none =>
    match text with
    | '-' :: '-' :: line => (lineComment? 0 0 line).map fun width => some (2 + width)
    | _ => some none

private theorem pos_of_commentAt? {longStrings : Bool} {text : List Char} {width : Nat}
    (comment : commentAt? longStrings text = some (some width)) : 0 < width := by
  rw [commentAt?.eq_def] at comment
  dsimp only at comment
  split at comment
  next opens =>
    obtain ⟨_, _, same⟩ := Option.map_eq_some_iff.1 comment
    obtain ⟨signs, _, rfl, _⟩ := blockOpening?_eq_some_iff.1 opens
    cases same
    omega
  next =>
    split at comment
    next =>
      obtain ⟨_, _, same⟩ := Option.map_eq_some_iff.1 comment
      cases same
      omega
    next => cases comment

/-- The length of the bracket that a comment would break. -/
def brokenLength (longStrings : Bool) (text : List Char) : Nat :=
  if longStrings then brokenOpening text else 0

theorem commentAt?_of_block {longStrings : Bool} {text : List Char} {opening level : Nat}
    (opens : blockOpening? (text.drop (brokenLength longStrings text)) = some (opening, level)) :
    commentAt? longStrings text =
      (longRest? level (text.drop (brokenLength longStrings text + opening))).map
        fun width => some (brokenLength longStrings text + opening + width) := by
  rw [brokenLength] at opens
  rw [commentAt?.eq_def]
  dsimp only
  rw [opens]
  rfl

theorem commentAt?_of_line {longStrings : Bool} {line : List Char}
    (open_ : blockOpening? (('-' :: '-' :: line).drop (brokenLength longStrings ('-' :: '-' :: line))) = none)
    :
    commentAt? longStrings ('-' :: '-' :: line) = (lineComment? 0 0 line).map
      fun width => some (2 + width) := by
  rw [brokenLength] at open_
  rw [commentAt?.eq_def]
  dsimp only
  rw [open_]
  rfl

theorem commentAt?_of_none {longStrings : Bool} {text : List Char}
    (open_ : blockOpening? (text.drop (brokenLength longStrings text)) = none)
    (plain : ¬ ['-', '-'] <+: text) :
    commentAt? longStrings text = some none := by
  rw [brokenLength] at open_
  rw [commentAt?.eq_def]
  dsimp only
  rw [open_]
  dsimp only
  split
  next line => exact (plain ⟨line, rfl⟩).elim
  next => rfl

private theorem none_of_commentAt? {longStrings : Bool} {text : List Char}
    (absent : commentAt? longStrings text = some none) :
    blockOpening? (text.drop (brokenLength longStrings text)) = none ∧ ¬ ['-', '-'] <+: text := by
  cases opens : blockOpening? (text.drop (brokenLength longStrings text)) with
  | some opening =>
    rw [commentAt?_of_block opens] at absent
    obtain ⟨_, _, same⟩ := Option.map_eq_some_iff.1 absent
    cases same
  | none =>
    refine ⟨rfl, ?_⟩
    rintro ⟨line, rfl⟩
    rw [List.cons_append, List.cons_append, List.nil_append] at opens absent
    rw [commentAt?_of_line opens] at absent
    obtain ⟨_, _, same⟩ := Option.map_eq_some_iff.1 absent
    cases same

/-- A gap is made up of blanks and comments. -/
theorem gap?_eq (longStrings : Bool) (text : List Char) :
    gap? longStrings text =
      (commentAt? longStrings (text.drop (text.takeWhile isBlank).length)).bind fun comment =>
        match comment with
        | none => some ⟨(text.takeWhile isBlank).length, false⟩
        | some width =>
          (gap? longStrings (text.drop ((text.takeWhile isBlank).length + width))).map
            (Gap.afterComment ((text.takeWhile isBlank).length + width)) := by
  cases text with
  | nil =>
    rw [gap?]
    cases longStrings <;> rfl
  | cons char rest =>
    rw [gap?]
    generalize ((char :: rest).takeWhile isBlank).length = blanks
    generalize same : (char :: rest).drop blanks = text
    rw [← brokenLength]
    split
    next opening level opens =>
      obtain ⟨signs, _, rfl, _⟩ := blockOpening?_eq_some_iff.1 opens
      rw [commentAt?_of_block opens]
      cases longRest? level (text.drop (brokenLength longStrings text + (signs + 4))) with
      | none => rfl
      | some width =>
        have shape : blanks + (brokenLength longStrings text + (signs + 4) + width) =
            blanks + brokenLength longStrings text + (signs + 4) + width - 1 + 1 := by omega
        have sum : blanks + (brokenLength longStrings text + (signs + 4) + width) =
            blanks + brokenLength longStrings text + (signs + 4) + width := by omega
        rw [Option.map_some, Option.bind_some]
        dsimp only
        rw [← sum, shape, List.drop_succ_cons, Nat.add_sub_cancel]
    next open_ =>
      split
      next line =>
        rw [commentAt?_of_line open_]
        cases lineComment? 0 0 line with
        | none => rfl
        | some width =>
          have shape : blanks + (2 + width) = blanks + width + 1 + 1 := by omega
          have sum : blanks + (2 + width) = blanks + 2 + width := by omega
          rw [Option.map_some, Option.bind_some]
          dsimp only
          rw [← sum, shape, List.drop_succ_cons]
      next other =>
        rw [commentAt?_of_none open_, Option.bind_some]
        rintro ⟨line, dashes⟩
        exact other line dashes.symm

/-- A gap ends at the end of the text or at a character that is no blank. -/
theorem solid_of_gap? {longStrings : Bool} {text : List Char} {gap : Gap}
    (found : gap? longStrings text = some gap) (more : gap.length < text.length) :
    ∃ char, text[gap.length]? = some char ∧ isBlank char = false := by
  rw [gap?_eq] at found
  obtain ⟨comment, at_, found⟩ := Option.bind_eq_some_iff.1 found
  cases comment with
  | none =>
    cases found
    exact solid_after_blanks more
  | some width =>
    obtain ⟨rest, read, rfl⟩ := Option.map_eq_some_iff.1 found
    have short := pos_of_commentAt? at_
    have more : rest.length < (text.drop ((text.takeWhile isBlank).length + width)).length := by
      rw [List.length_drop]
      exact Nat.lt_sub_of_add_lt (by simpa [Gap.afterComment, Nat.add_comm] using more)
    obtain ⟨char, present, solid⟩ := solid_of_gap? read more
    rw [List.getElem?_drop] at present
    exact ⟨char, present, solid⟩
termination_by text.length
decreasing_by
  rw [List.length_drop]
  omega

/-! ### Openings and closings -/

namespace Cut

variable {count : Nat} {text other : List Char}

/-- A long bracket opens the second text exactly if it opens the first one before the cut. -/
theorem longOpening?_eq_some_iff (cut : Cut count text other) {width level : Nat} :
    longOpening? other = some (width, level) ↔ longOpening? text = some (width, level) ∧ width ≤ count := by
  simp only [Source.longOpening?_eq_some_iff,
    cut.isPrefix_iff (solid_longBracket (show isBlank '[' = false by decide) _),
    length_longBracket]
  constructor
  · rintro ⟨signs, ⟨opens, inside⟩, rfl, rfl⟩
    exact ⟨⟨signs, opens, rfl, rfl⟩, inside⟩
  · rintro ⟨⟨signs, opens, rfl, rfl⟩, inside⟩
    exact ⟨signs, ⟨opens, inside⟩, rfl, rfl⟩

theorem longClosing?_eq_some_iff (cut : Cut count text other) {level width : Nat} :
    longClosing? level other = some width ↔ longClosing? level text = some width ∧ width ≤ count := by
  simp only [Source.longClosing?_eq_some_iff,
    cut.isPrefix_iff (solid_longBracket (show isBlank ']' = false by decide) _),
    length_longBracket]
  constructor
  · rintro ⟨signs, ⟨closes, inside⟩, rfl, rfl⟩
    exact ⟨⟨signs, closes, rfl, rfl⟩, inside⟩
  · rintro ⟨⟨signs, closes, rfl, rfl⟩, inside⟩
    exact ⟨signs, ⟨closes, inside⟩, rfl, rfl⟩

theorem blockOpening?_eq_some_iff (cut : Cut count text other) {width level : Nat} :
    blockOpening? other = some (width, level) ↔ blockOpening? text = some (width, level) ∧ width ≤ count := by
  have solid (signs : Nat) : ∀ char ∈ '-' :: '-' :: longBracket '[' signs, isBlank char = false := by
    simpa using ⟨show isBlank '-' = false by decide, solid_longBracket (by decide) signs⟩
  simp only [Source.blockOpening?_eq_some_iff, cut.isPrefix_iff (solid _),
    List.length_cons, length_longBracket]
  constructor
  · rintro ⟨signs, ⟨opens, inside⟩, rfl, rfl⟩
    exact ⟨⟨signs, opens, rfl, rfl⟩, inside⟩
  · rintro ⟨⟨signs, opens, rfl, rfl⟩, inside⟩
    exact ⟨signs, ⟨opens, inside⟩, rfl, rfl⟩

theorem longOpening?_eq_none (cut : Cut count text other) (absent : longOpening? text = none) :
    longOpening? other = none :=
  Option.eq_none_iff_forall_ne_some.2 fun _ found =>
    Option.some_ne_none _ ((cut.longOpening?_eq_some_iff.1 found).1.symm.trans absent)

private theorem longClosing?_eq_none (cut : Cut count text other) {level : Nat}
    (absent : longClosing? level text = none) :
    longClosing? level other = none :=
  Option.eq_none_iff_forall_ne_some.2 fun _ found =>
    Option.some_ne_none _ ((cut.longClosing?_eq_some_iff.1 found).1.symm.trans absent)

private theorem blockOpening?_eq_none (cut : Cut count text other) (absent : blockOpening? text = none) :
    blockOpening? other = none :=
  Option.eq_none_iff_forall_ne_some.2 fun _ found =>
    Option.some_ne_none _ ((cut.blockOpening?_eq_some_iff.1 found).1.symm.trans absent)

/-! ### Long brackets and what they hold -/

theorem longContent? (cut : Cut count text other) {level start content closing : Nat}
    (found : Source.longContent? level start text = some (content, closing))
    (inside : content + closing ≤ start + count) :
    Source.longContent? level start other = some (content, closing) := by
  induction cut generalizing start with
  | here =>
    have := le_of_longContent? found
    omega
  | @there count text other char cut ih =>
    rw [Source.longContent?] at found ⊢
    cases closed : longClosing? level (char :: text) with
    | some width =>
      rw [closed] at found
      cases found
      rw [(cut.there char).longClosing?_eq_some_iff.2 ⟨closed, by omega⟩]
    | none =>
      rw [closed] at found
      rw [(cut.there char).longClosing?_eq_none closed]
      exact ih found (by omega)

theorem longRest? (cut : Cut count text other) {level width : Nat}
    (found : Source.longRest? level text = some width) (inside : width ≤ count) :
    Source.longRest? level other = some width := by
  obtain ⟨⟨content, closing⟩, read, rfl⟩ := Option.map_eq_some_iff.1 found
  dsimp only at inside
  rw [Source.longRest?, cut.longContent? read (by omega), Option.map_some]

/-! ### Comments -/

theorem blockOpeningAhead? (cut : Cut count text other) {width level : Nat}
    (found : Source.blockOpeningAhead? text = some (width, level)) (inside : width ≤ count) :
    Source.blockOpeningAhead? other = some (width, level) := by
  obtain ⟨⟨opening, level⟩, opens, same⟩ := Option.map_eq_some_iff.1 found
  cases same
  obtain ⟨signs, _, long, _⟩ := Source.blockOpening?_eq_some_iff.1 opens
  rw [Source.blockOpeningAhead?, cut.takeWhile_of_lt (by omega)]
  obtain ⟨left, rfl⟩ := Nat.exists_eq_add_of_le (show (text.takeWhile isBlank).length ≤ count by omega)
  rw [cut.drop.blockOpening?_eq_some_iff.2 ⟨opens, by omega⟩, Option.map_some]

theorem blockOpeningAhead?_eq_none (cut : Cut count text other)
    (ahead : (text.takeWhile isBlank).length < count) (absent : Source.blockOpeningAhead? text = none) :
    Source.blockOpeningAhead? other = none := by
  rw [Source.blockOpeningAhead?, Option.map_eq_none_iff] at absent ⊢
  rw [cut.takeWhile_of_lt ahead]
  obtain ⟨left, rfl⟩ := Nat.exists_eq_add_of_le (Nat.le_of_lt ahead)
  exact cut.drop.blockOpening?_eq_none absent

theorem lineLength (cut : Cut count text other) (line : Source.lineLength text < count) :
    Source.lineLength other = Source.lineLength text :=
  congrArg List.length (cut.takeWhile_of_lt line)

theorem bareDashes? (cut : Cut count text other) (line : Source.lineLength text < count) :
    Source.bareDashes? other = Source.bareDashes? text := by
  have short := lineLength_eq text
  have indent : Source.indent other = Source.indent text :=
    congrArg List.length (cut.takeWhile_of_lt (show Source.indent text < count by omega))
  refine Option.ext fun blanks => ?_
  rw [Source.bareDashes?_eq_some_iff, Source.bareDashes?_eq_some_iff, cut.lineLength line, indent]
  refine and_congr_right fun same => and_congr_left fun long => ?_
  obtain ⟨left, rfl⟩ := Nat.exists_eq_add_of_le (show blanks ≤ count by omega)
  rw [cut.drop.isPrefix_iff (solid_of_all (by decide)), and_iff_left]
  exact show 2 ≤ left by omega

theorem lineComment? (cut : Cut count text other) {pending start width index : Nat} {char : Char}
    (found : Source.lineComment? pending start text = some width) (after : width ≤ start + index)
    (present : text[index]? = some char) (solid : isBlank char = false) (inside : index < count) :
    Source.lineComment? pending start other = some width := by
  fun_induction Source.lineComment? pending start text generalizing count other index with
  | case1 => cases present
  | case2 => cases found
  | case3 pending start first rest opening level opens comment closes ih =>
    have long := le_of_lineComment? found
    have tail (more : Nat) : rest.drop (opening - 1 + more) = (first :: rest).drop (opening + more) := by
      have := pos_of_blockOpeningAhead? opens
      rw [show opening + more = opening - 1 + more + 1 by omega, List.drop_succ_cons]
    rw [← Nat.add_zero (opening - 1), tail] at closes
    rw [tail] at found ih
    obtain ⟨left, rfl⟩ := Nat.exists_eq_add_of_le (show opening + comment ≤ count by omega)
    have within : Cut (comment + left) ((first :: rest).drop opening) (other.drop opening) :=
      Cut.drop (by rwa [← Nat.add_assoc])
    rw [lineComment?_of_block (cut.blockOpeningAhead? opens (by omega)),
      within.longRest? closes (by omega), Option.bind_some]
    have further : ((first :: rest).drop (opening + comment))[index - (opening + comment)]? = some char := by
      rwa [List.getElem?_drop, Nat.add_sub_of_le (by omega)]
    exact ih cut.drop found (by omega) further (by omega)
  | case4 pending start first rest open_ blanks dashes ih =>
    have long := le_of_lineComment? found
    obtain ⟨_, _, line⟩ := Source.bareDashes?_eq_some_iff.1 dashes
    have ahead := takeWhile_le_of_getElem? (fun _ => id) present solid
    have open_' := cut.blockOpeningAhead?_eq_none (by omega) open_
    rw [lineComment?_of_dashes open_' ((cut.bareDashes? (by omega)).trans dashes)]
    obtain ⟨left, rfl⟩ := Nat.exists_eq_add_of_le (show blanks + 2 ≤ count by omega)
    have further : ((first :: rest).drop (blanks + 2))[index - (blanks + 2)]? = some char := by
      rwa [List.getElem?_drop, Nat.add_sub_of_le (by omega)]
    exact ih cut.drop found (by omega) further (by omega)
  | case5 start first rest open_ plain =>
    cases found
    have line : Source.lineLength (first :: rest) ≤ index := Nat.le_of_add_le_add_left after
    have ahead := takeWhile_le_of_getElem? (fun _ => id) present solid
    have open_ := cut.blockOpeningAhead?_eq_none (by omega) open_
    rw [lineComment?_of_text open_ ((cut.bareDashes? (by omega)).trans plain), cut.lineLength (by omega)]
    rfl
  | case6 start first rest open_ plain line pending =>
    rename_i ih
    change Source.lineComment? pending (start + Source.lineLength (first :: rest))
      ((first :: rest).drop (Source.lineLength (first :: rest))) = some width at found
    have long := le_of_lineComment? found
    have ahead := takeWhile_le_of_getElem? (fun _ => id) present solid
    have before : Source.lineLength (first :: rest) ≤ index := by omega
    have open_ := cut.blockOpeningAhead?_eq_none (by omega) open_
    rw [lineComment?_of_more open_ ((cut.bareDashes? (by omega)).trans plain), cut.lineLength (by omega)]
    obtain ⟨left, rfl⟩ := Nat.exists_eq_add_of_le (show Source.lineLength (first :: rest) ≤ count by omega)
    have further : ((first :: rest).drop (Source.lineLength (first :: rest)))[index - Source.lineLength
      (first :: rest)]? =
        some char := by
      rwa [List.getElem?_drop, Nat.add_sub_of_le before]
    have after : width ≤ start + Source.lineLength (first :: rest) +
      (index - Source.lineLength (first :: rest)) := by omega
    exact ih cut.drop found after further (by omega)

/-! ### Gaps -/

private theorem brokenLength (cut : Cut count text other) (longStrings : Bool) :
    Source.brokenLength longStrings other = min (Source.brokenLength longStrings text) count := by
  cases longStrings with
  | false => exact (Nat.zero_min _).symm
  | true =>
    change Source.brokenOpening other = min (Source.brokenOpening text) count
    cases cut with
    | @here char blank text rest =>
      have apart : char ≠ '[' := ne_of_isBlank blank (by decide)
      simp [Source.brokenOpening, apart]
    | @there count text other char cut =>
      by_cases bracket : char = '['
      · subst bracket
        have solid (char : Char) (blank : isBlank char = true) : decide (char = '=') = false :=
          decide_eq_false (ne_of_isBlank blank (by decide))
        rw [Source.brokenOpening, Source.brokenOpening, cut.length_takeWhile solid, Nat.succ_min_succ]
      · simp [Source.brokenOpening, bracket]

/-- A comment after a broken bracket opens in the second text exactly if it opens in the first one before
the cut. -/
theorem blockOpening?_drop_iff (cut : Cut count text other) {broken width level : Nat} :
    blockOpening? (other.drop (min broken count)) = some (width, level) ↔
      blockOpening? (text.drop broken) = some (width, level) ∧ broken + width ≤ count := by
  by_cases before : broken ≤ count
  · obtain ⟨left, rfl⟩ := Nat.exists_eq_add_of_le before
    rw [Nat.min_eq_left before, cut.drop.blockOpening?_eq_some_iff, Nat.add_le_add_iff_left]
  · have beyond : ¬ broken + width ≤ count := by omega
    have end_ : Cut 0 (text.drop count) (other.drop count) :=
      Cut.drop (show Cut (count + 0) text other from cut)
    rw [Nat.min_eq_right (by omega), end_.blockOpening?_eq_some_iff,
      iff_false_intro beyond, and_false, iff_false]
    rintro ⟨opens, short⟩
    obtain ⟨signs, _, rfl, _⟩ := Source.blockOpening?_eq_some_iff.1 opens
    omega

private theorem commentAt?_none (cut : Cut count text other) {longStrings : Bool}
    (absent : Source.commentAt? longStrings text = some none) :
    Source.commentAt? longStrings other = some none := by
  obtain ⟨open_, plain⟩ := none_of_commentAt? absent
  refine commentAt?_of_none ?_ fun dashes => plain ((cut.isPrefix_iff (solid_of_all (by decide))).1 dashes).1
  refine Option.eq_none_iff_forall_ne_some.2 fun opening found => ?_
  rw [cut.brokenLength, cut.blockOpening?_drop_iff, open_] at found
  cases found.1

/-- A comment that ends before a character that is no blank, which stands before the cut, is one of both
texts. -/
theorem commentAt? (cut : Cut count text other) {longStrings : Bool} {width index : Nat} {char : Char}
    (comment : Source.commentAt? longStrings text = some (some width)) (after : width ≤ index)
    (present : text[index]? = some char) (solid : isBlank char = false) (inside : index < count) :
    Source.commentAt? longStrings other = some (some width) := by
  cases opens : blockOpening? (text.drop (Source.brokenLength longStrings text)) with
  | some found =>
    obtain ⟨opening, level⟩ := found
    rw [commentAt?_of_block opens] at comment
    obtain ⟨inner, closes, same⟩ := Option.map_eq_some_iff.1 comment
    cases same
    have broken : Source.brokenLength longStrings other = Source.brokenLength longStrings text := by
      rw [cut.brokenLength, Nat.min_eq_left (by omega)]
    have opens' : blockOpening? (other.drop (Source.brokenLength longStrings other)) =
        some (opening, level) := by
      rw [cut.brokenLength, cut.blockOpening?_drop_iff]
      exact ⟨opens, by omega⟩
    rw [commentAt?_of_block opens', broken]
    obtain ⟨left, rfl⟩ := Nat.exists_eq_add_of_le
      (show Source.brokenLength longStrings text + opening ≤ count by omega)
    rw [cut.drop.longRest? closes (by omega), Option.map_some]
  | none =>
    have dashes : ['-', '-'] <+: text := Decidable.byContradiction fun plain => by
      rw [commentAt?_of_none opens plain] at comment
      cases comment
    obtain ⟨line, rfl⟩ := dashes
    rw [List.cons_append, List.cons_append, List.nil_append] at *
    rw [commentAt?_of_line opens] at comment
    obtain ⟨inner, closes, same⟩ := Option.map_eq_some_iff.1 comment
    cases same
    have open_ : blockOpening? (other.drop (Source.brokenLength longStrings other)) = none := by
      refine Option.eq_none_iff_forall_ne_some.2 fun opening found => ?_
      rw [cut.brokenLength, cut.blockOpening?_drop_iff, opens] at found
      cases found.1
    cases cut with
    | here => omega
    | @there count _ other _ cut =>
      cases cut with
      | here => omega
      | @there count _ other _ cut =>
        obtain ⟨index, rfl⟩ := Nat.exists_eq_add_of_le (show 2 ≤ index by omega)
        rw [Nat.add_comm 2 index, List.getElem?_cons_succ, List.getElem?_cons_succ] at present
        rw [commentAt?_of_line open_, cut.lineComment? closes (by omega) present solid (by omega),
          Option.map_some]

theorem gap? {count : Nat} {text other : List Char} (cut : Cut count text other) {longStrings : Bool}
    {gap : Gap} (found : Source.gap? longStrings text = some gap) (inside : gap.length < count) :
    Source.gap? longStrings other = some gap := by
  obtain ⟨char, present, solid⟩ := solid_of_gap? found (Nat.lt_of_lt_of_le inside cut.length_le)
  have start := takeWhile_le_of_getElem? (fun _ => id) present solid
  rw [gap?_eq] at found ⊢
  obtain ⟨comment, at_, found⟩ := Option.bind_eq_some_iff.1 found
  rw [cut.takeWhile_of_lt (by omega)]
  obtain ⟨left, rfl⟩ := Nat.exists_eq_add_of_le (show (text.takeWhile isBlank).length ≤ count by omega)
  cases comment with
  | none => rw [cut.drop.commentAt?_none at_, Option.bind_some, ← found]
  | some width =>
    obtain ⟨rest, read, rfl⟩ := Option.map_eq_some_iff.1 found
    have length : (Gap.afterComment ((text.takeWhile isBlank).length + width) rest).length =
        (text.takeWhile isBlank).length + (width + rest.length) := Nat.add_assoc _ _ _
    rw [length] at present inside
    rw [← List.getElem?_drop] at present
    rw [cut.drop.commentAt? at_ (Nat.le_add_right _ _) present solid (by omega), Option.bind_some]
    have pos := pos_of_commentAt? at_
    obtain ⟨more, rfl⟩ := Nat.exists_eq_add_of_le (show width ≤ left by omega)
    have cut : Cut ((text.takeWhile isBlank).length + width + more) text other := by rwa [Nat.add_assoc]
    dsimp only
    have same := gap? cut.drop read (by omega)
    rw [same, Option.map_some]
termination_by text.length
decreasing_by
  have := cut.length_le
  rw [List.length_drop]
  omega

end Cut
end LuaClasses.Source
