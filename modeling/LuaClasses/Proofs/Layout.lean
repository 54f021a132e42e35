import LuaClasses.Proofs.TokenCuts

/-! White space and comments put in between two tokens. Where they are no part of a token, and every comment
next to them is read as one by itself, they change neither the tokens before them nor those after them. -/

namespace LuaClasses.Source

/-- White space and comments before `rest`. Each comment is read as one that ends where it is written to
end. -/
inductive Layout (rest : List Char) : List Char → Prop
  | nil : Layout rest []
  | blank {char : Char} {gap : List Char} : isBlank char = true → Layout rest gap → Layout rest (char :: gap)
  | comment {chars gap : List Char} : commentAt? false (chars ++ (gap ++ rest)) = some (some chars.length) →
      Layout rest gap → Layout rest (chars ++ gap)

/-! ### Gaps -/

def gapLength? (longStrings : Bool) (text : List Char) : Option Nat := (gap? longStrings text).map Gap.length

private theorem gapLength?_eq (longStrings : Bool) (text : List Char) :
    gapLength? longStrings text =
      (commentAt? longStrings (text.drop (text.takeWhile isBlank).length)).bind fun comment =>
        match comment with
        | none => some (text.takeWhile isBlank).length
        | some width =>
          (gapLength? longStrings (text.drop ((text.takeWhile isBlank).length + width))).map
            ((text.takeWhile isBlank).length + width + ·) := by
  rw [gapLength?, gap?_eq, Option.map_bind]
  congr 1
  funext comment
  cases comment with
  | none => rfl
  | some width =>
    dsimp only [Function.comp]
    rw [gapLength?, Option.map_map, Option.map_map]
    rfl

theorem gapLength?_blank {char : Char} (blank : isBlank char = true) (longStrings : Bool) (text : List Char) :
    gapLength? longStrings (char :: text) = (gapLength? longStrings text).map (1 + ·) := by
  rw [gapLength?_eq, gapLength?_eq longStrings text, List.takeWhile_cons_of_pos blank,
    List.length_cons, List.drop_succ_cons,
    Option.map_bind]
  congr 1
  funext comment
  cases comment with
  | none => exact congrArg some (Nat.add_comm _ _)
  | some width =>
    dsimp only [Function.comp]
    rw [Nat.add_right_comm, List.drop_succ_cons, Option.map_map]
    congr 1
    funext more
    dsimp only [Function.comp]
    omega

/-- A comment begins with a dash, so it breaks no bracket. -/
theorem dash_of_commentAt? {text : List Char} {width : Nat}
    (comment : commentAt? false text = some (some width)) :
    ['-'] <+: text := by
  cases opens : blockOpening? text with
  | some opening =>
    obtain ⟨signs, ⟨rest, rfl⟩, _⟩ := blockOpening?_eq_some_iff.1 opens
    exact ⟨_, rfl⟩
  | none =>
    have dashes : ['-', '-'] <+: text := Decidable.byContradiction fun plain => by
      have absent : commentAt? false text = some none := commentAt?_of_none opens plain
      rw [absent] at comment
      cases comment
    obtain ⟨rest, rfl⟩ := dashes
    exact ⟨_, rfl⟩

private theorem gapLength?_comment {text : List Char} {width : Nat}
    (comment : commentAt? false text = some (some width)) (longStrings : Bool) :
    gapLength? longStrings text = (gapLength? longStrings (text.drop width)).map (width + ·) := by
  obtain ⟨rest, rfl⟩ := dash_of_commentAt? comment
  have same : commentAt? longStrings (['-'] ++ rest) = commentAt? false (['-'] ++ rest) := by
    cases longStrings <;> rfl
  rw [gapLength?_eq, List.cons_append, List.takeWhile_cons_of_neg (by decide),
    List.length_nil, List.drop_zero]
  rw [List.cons_append] at same comment
  rw [same, comment, Option.bind_some]
  simp only [Nat.zero_add]

theorem Layout.gapLength? {rest gap : List Char} (layout : Layout rest gap) (longStrings : Bool) :
    gapLength? longStrings (gap ++ rest) = (Source.gapLength? longStrings rest).map (gap.length + ·) := by
  induction layout with
  | nil => simp
  | blank blank _ ih =>
    rw [List.cons_append, gapLength?_blank blank, ih, Option.map_map, List.length_cons]
    congr 1
    funext more
    dsimp only [Function.comp]
    omega
  | comment read _ ih =>
    rw [List.append_assoc, gapLength?_comment read, List.drop_left, ih, Option.map_map, List.length_append]
    congr 1
    funext more
    exact (Nat.add_assoc _ _ _).symm

/-! ### Ordinary comments -/

private theorem takeWhile_before {p : Char → Bool} {chars : List Char}
    (all : ∀ char ∈ chars, p char = true) {char : Char} (stops : p char = false) (rest : List Char) :
    (chars ++ char :: rest).takeWhile p = chars := by
  rw [List.takeWhile_append_of_pos all, List.takeWhile_cons_of_neg (by simp [stops]), List.append_nil]

private theorem endsLine_of_solid {char : Char} (solid : isBlank char = false) : endsLine char = false :=
  Bool.eq_false_iff.2 fun ends => by
    rw [endsLine, Bool.or_eq_true, decide_eq_true_eq, decide_eq_true_eq] at ends
    rcases ends with rfl | rfl <;> cases solid

private theorem blockOpening?_of_ne {char : Char} (apart : char ≠ '-') (rest : List Char) :
    blockOpening? (char :: rest) = none :=
  Option.eq_none_iff_forall_ne_some.2 fun (width, level) found => by
    obtain ⟨_, ⟨_, same⟩, _⟩ := blockOpening?_eq_some_iff.1 found
    exact apart (List.cons.inj same).1.symm

private theorem longOpening?_of_ne {char : Char} (apart : char ≠ '[') (rest : List Char) :
    longOpening? (char :: rest) = none :=
  Option.eq_none_iff_forall_ne_some.2 fun (width, level) found => by
    obtain ⟨_, ⟨_, same⟩, _⟩ := longOpening?_eq_some_iff.1 found
    exact apart (List.cons.inj same).1.symm

/-- A comment whose text begins with a character other than a dash or a bracket, after blanks or none,
ends with its line. -/
theorem Layout.line {rest gap blanks words : List Char} {char : Char}
    (space : ∀ char ∈ blanks, isBlank char = true ∧ endsLine char = false) (solid : isBlank char = false)
    (noDash : char ≠ '-') (noBracket : char ≠ '[') (line : ∀ char ∈ words, endsLine char = false)
    (further : Layout rest ('\n' :: gap)) :
    Layout rest ('-' :: '-' :: (blanks ++ char :: words) ++ '\n' :: gap) := by
  refine .comment ?_ further
  have shape : '-' :: '-' :: (blanks ++ char :: words) ++ ('\n' :: gap ++ rest) =
      '-' :: '-' :: (blanks ++ char :: (words ++ '\n' :: (gap ++ rest))) := by simp
  have noBlock : blockOpening? ('-' :: '-' :: (blanks ++ char :: (words ++ '\n' :: (gap ++ rest)))) =
      none := by
    rw [blockOpening?, Option.map_eq_none_iff]
    cases blanks with
    | nil => exact longOpening?_of_ne noBracket _
    | cons blank blanks =>
      exact longOpening?_of_ne (ne_of_isBlank (space blank List.mem_cons_self).1 (by decide)) _
  have start : (blanks ++ char :: (words ++ '\n' :: (gap ++ rest))).takeWhile isBlank = blanks :=
    takeWhile_before (fun blank member => (space blank member).1) solid _
  have ahead : blockOpeningAhead? (blanks ++ char :: (words ++ '\n' :: (gap ++ rest))) = none := by
    rw [blockOpeningAhead?, start, List.drop_left, blockOpening?_of_ne noDash, Option.map_none]
  have inLine : indent (blanks ++ char :: (words ++ '\n' :: (gap ++ rest))) = blanks.length := by
    rw [indent, takeWhile_before (by simpa using space) (by simp [solid])]
  have plain : bareDashes? (blanks ++ char :: (words ++ '\n' :: (gap ++ rest))) = none :=
    Option.eq_none_iff_forall_ne_some.2 fun _ found => by
      obtain ⟨rfl, ⟨_, same⟩, _⟩ := bareDashes?_eq_some_iff.1 found
      rw [inLine, List.drop_left] at same
      exact noDash (List.cons.inj same).1.symm
  have width : lineLength (blanks ++ char :: (words ++ '\n' :: (gap ++ rest))) =
      (blanks ++ char :: words).length := by
    rw [lineLength, ← List.cons_append, ← List.append_assoc, takeWhile_before _ (by decide)]
    simpa [or_imp, forall_and] using ⟨fun blank member => (space blank member).2,
      endsLine_of_solid solid, line⟩
  have comment : commentAt? false ('-' :: '-' :: (blanks ++ char :: (words ++ '\n' :: (gap ++ rest)))) =
      (lineComment? 0 0 (blanks ++ char :: (words ++ '\n' :: (gap ++ rest)))).map
      fun width => some (2 + width) :=
    commentAt?_of_line noBlock
  rw [shape, comment, lineComment?_of_text ahead plain, width, Option.map_some, Nat.zero_add]
  exact congrArg (fun width => some (some width)) (Nat.add_comm _ _)

private theorem longContent?_of_plain {words : List Char} (plain : ']' ∉ words) (signs start : Nat)
    (rest : List Char) :
    longContent? (longLevel signs) start (words ++ (longBracket ']' signs ++ rest)) =
      some (start + words.length, signs + 2) := by
  induction words generalizing start with
  | nil =>
    have closes : longClosing? (longLevel signs) (longBracket ']' signs ++ rest) = some (signs + 2) :=
      longClosing?_eq_some_iff.2 ⟨signs, List.prefix_append _ _, rfl, rfl⟩
    rw [longBracket, List.cons_append] at closes
    rw [List.nil_append, longBracket, List.cons_append, longContent?, closes]
    rfl
  | cons char words ih =>
    rw [List.mem_cons, not_or] at plain
    have open_ : longClosing? (longLevel signs) (char :: (words ++ (longBracket ']' signs ++ rest))) = none :=
      Option.eq_none_iff_forall_ne_some.2 fun _ found => by
        obtain ⟨_, ⟨_, same⟩, _⟩ := longClosing?_eq_some_iff.1 found
        exact plain.1 (List.cons.inj same).1
    rw [List.cons_append, longContent?, open_]
    dsimp only
    rw [ih plain.2, List.length_cons, Nat.add_assoc, Nat.add_comm 1]

/-- A comment in long brackets ends with them if its text has no closing bracket. -/
theorem Layout.block {rest gap words : List Char} (plain : ']' ∉ words) (signs : Nat)
    (further : Layout rest gap) :
    Layout rest (('-' :: '-' :: longBracket '[' signs ++ (words ++ longBracket ']' signs)) ++ gap) := by
  refine .comment ?_ further
  have opens : blockOpening? ('-' :: '-' :: longBracket '[' signs ++
    (words ++ longBracket ']' signs) ++ (gap ++ rest)) =
      some (signs + 4, longLevel signs) :=
    blockOpening?_eq_some_iff.2 ⟨signs, ⟨_, (List.append_assoc _ _ _).symm⟩, rfl, rfl⟩
  have comment : commentAt? false ('-' :: '-' :: longBracket '[' signs ++
    (words ++ longBracket ']' signs) ++ (gap ++ rest)) =
      (longRest? (longLevel signs)
        (('-' :: '-' :: longBracket '[' signs ++ (words ++ longBracket ']' signs) ++ (gap ++ rest)).drop
          (0 + (signs + 4)))).map
          fun width => some (0 + (signs + 4) + width) := commentAt?_of_block opens
  have inner : ('-' :: '-' :: longBracket '[' signs ++ (words ++ longBracket ']' signs) ++
    (gap ++ rest)).drop (0 + (signs + 4)) =
      words ++ (longBracket ']' signs ++ (gap ++ rest)) := by
    rw [List.append_assoc, List.append_assoc, List.drop_append_of_le_length (by simp [length_longBracket]),
      List.drop_eq_nil_of_le (by simp [length_longBracket]), List.nil_append]
  have width : ('-' :: '-' :: longBracket '[' signs ++ (words ++ longBracket ']' signs)).length =
      0 + (signs + 4) + (0 + words.length + (signs + 2)) := by
    simp only [List.length_append, List.length_cons, length_longBracket]
    omega
  rw [comment, inner, longRest?, longContent?_of_plain plain, width]
  rfl

/-! ### Tokens -/

/-- The token that a text begins with where no gap comes before it, and the text after it. -/
def tokenFrom? (place : Place) : List Char → Option (TokenKind × List Char)
  | [] => some (.endOfText, [])
  | char :: rest => (tokenKind? place char rest).map fun (kind, width) => (kind, (char :: rest).drop width)

/-- The first token of a text, and the text after it. -/
def tokenAt? (place : Place) (text : List Char) : Option (TokenKind × List Char) :=
  (gapLength? place.admitsLongString text).bind fun length => tokenFrom? place (text.drop length)

theorem tokenAt?_text (cursor : Cursor) (place : Place) :
    tokenAt? place cursor.text = (cursor.token? place).map fun (token, rest) => (token.kind, rest.text) := by
  rw [tokenAt?, gapLength?, Cursor.token?]
  cases gap? place.admitsLongString cursor.text with
  | none => rfl
  | some gap =>
    have start : (cursor.pass gap).text = cursor.text.drop gap.length := rfl
    rw [Option.map_some, Option.bind_some, ← start]
    dsimp only [Option.bind_eq_bind, Option.bind_some]
    split
    next text =>
      rw [text, Option.map_some]
      dsimp only
      rw [text, tokenFrom?]
    next char rest text =>
      rw [text, tokenFrom?]
      cases tokenKind? place char rest with
      | none => rfl
      | some token =>
        dsimp only [Option.map_some, Option.bind_some, Cursor.skip]
        rw [text]

private theorem suffix_of_tokenAt? {place : Place} {text stop : List Char} {kind : TokenKind}
    (found : tokenAt? place text = some (kind, stop)) : stop <:+ text := by
  obtain ⟨length, _, found⟩ := Option.bind_eq_some_iff.1 found
  refine List.IsSuffix.trans ?_ (List.drop_suffix length text)
  generalize text.drop length = text at found
  cases text with
  | nil =>
    cases found
    exact List.suffix_refl []
  | cons char rest =>
    obtain ⟨_, _, same⟩ := Option.map_eq_some_iff.1 found
    cases same
    exact List.drop_suffix _ _

/-- What comes before a token does not matter if it is layout. -/
theorem Layout.tokenAt? {rest gap : List Char} (layout : Layout rest gap) (place : Place) :
    Source.tokenAt? place (gap ++ rest) = Source.tokenAt? place rest := by
  rw [Source.tokenAt?, Source.tokenAt?, layout.gapLength?]
  cases Source.gapLength? place.admitsLongString rest with
  | none => rfl
  | some length => rw [Option.map_some, Option.bind_some, Option.bind_some, ← List.drop_drop, List.drop_left]

theorem length_lt_of_tokenFrom? {place : Place} {text stop : List Char} {kind : TokenKind}
    (found : tokenFrom? place text = some (kind, stop)) (more : stop ≠ []) : stop.length < text.length := by
  cases text with
  | nil =>
    cases found
    exact absurd rfl more
  | cons char rest =>
    obtain ⟨⟨_, width⟩, token, same⟩ := Option.map_eq_some_iff.1 found
    cases same
    have pos := pos_of_tokenKind? token
    rw [List.length_drop, List.length_cons]
    omega

private theorem tokenAt?_of_gap? {place : Place} {text rest : List Char} {char : Char} {gap : Gap}
    (passed : gap? place.admitsLongString text = some gap) (left : text.drop gap.length = char :: rest) :
    tokenAt? place text =
      (tokenKind? place char rest).map fun (kind, width) => (kind, text.drop (gap.length + width)) := by
  rw [tokenAt?, gapLength?, passed, Option.map_some, Option.bind_some, left, tokenFrom?]
  congr 1
  funext found
  cases found
  dsimp only
  rw [← List.drop_drop, left]

theorem Cut.append {char : Char} (blank : isBlank char = true) (filler rest : List Char) :
    (chars : List Char) → Cut chars.length (chars ++ rest) (chars ++ (char :: filler ++ rest))
  | [] => .here blank rest _
  | first :: chars => .there first (append blank filler rest chars)

/-! ### What is put in -/

/-- White space, with comments or none, that is put in before the rest of a text. -/
structure Insertion where
  filler : List Char
  after : List Char
  opens : ∃ char tail, filler = char :: tail ∧ isBlank char = true
  layout : Layout after filler
  more : after ≠ []

namespace Insertion

variable (put : Insertion)

/-- Whether a look for a token has nothing to do with what is put in. -/
inductive Apart (attempt : Attempt) : Prop
  /-- The token ends there or before. -/
  | before {kind : TokenKind} {stop : List Char} : tokenAt? attempt.place attempt.text = some (kind, stop) →
      put.after <:+ stop → Apart attempt
  /-- Before that there is something that begins no token. -/
  | barren {length : Nat} : gapLength? attempt.place.admitsLongString attempt.text = some length →
      put.after.length < (attempt.text.drop length).length → tokenFrom? attempt.place
        (attempt.text.drop length) = none →
      opensString attempt.place (attempt.text.drop length) = false → Apart attempt
  /-- The gap before the token goes on from there, and the comments before that are read as they were. -/
  | within {gap : List Char} : attempt.text = gap ++ put.after → Layout put.after gap →
      Layout (put.filler ++ put.after) gap → Apart attempt
  /-- The look begins after that. -/
  | behind : attempt.text <:+ put.after → Apart attempt

/-- The same text with something put in, unless the place for it has been passed. -/
inductive Widened : List Char → List Char → Prop
  | before (chars : List Char) : Widened (chars ++ put.after) (chars ++ (put.filler ++ put.after))
  | behind {text : List Char} : text <:+ put.after → Widened text text

/-- Whether the same token is found in a text and in the wider one. -/
abbrev SameToken : Option (TokenKind × List Char) → Option (TokenKind × List Char) → Prop :=
  Option.Rel fun first second => first.1 = second.1 ∧ put.Widened first.2 second.2

variable {put}

theorem cut (put : Insertion) (chars : List Char) :
    Cut chars.length (chars ++ put.after) (chars ++ (put.filler ++ put.after)) := by
  obtain ⟨blank, tail, opens, isBlank⟩ := put.opens
  rw [opens]
  exact Cut.append isBlank tail put.after chars

private theorem sameToken_of_suffix {text : List Char} {place : Place} (passed : text <:+ put.after) :
    put.SameToken (tokenAt? place text) (tokenAt? place text) := by
  cases found : tokenAt? place text with
  | none => exact .none
  | some token => exact .some ⟨rfl, .behind ((suffix_of_tokenAt? found).trans passed)⟩

private theorem sameToken_of_layout {gap : List Char} (place : Place) (layout : Layout put.after gap)
    (wider : Layout (put.filler ++ put.after) gap) :
    put.SameToken (tokenAt? place (gap ++ put.after))
      (tokenAt? place (gap ++ (put.filler ++ put.after))) := by
  rw [layout.tokenAt?, wider.tokenAt?, put.layout.tokenAt?]
  exact sameToken_of_suffix (List.suffix_refl put.after)

/-- Where a gap ends before the insertion, the character after it is the same in both texts. -/
theorem tokenAt?_before {chars : List Char} {gap : Gap} {place : Place}
    (passed : gap? place.admitsLongString (chars ++ put.after) = some gap)
    (before : gap.length < chars.length) :
    ∃ first front, chars.drop gap.length = first :: front ∧
      tokenAt? place (chars ++ put.after) = (tokenKind? place first (front ++ put.after)).map
        (fun (kind, width) => (kind, (chars ++ put.after).drop (gap.length + width))) ∧
      tokenAt? place (chars ++ (put.filler ++ put.after)) =
        (tokenKind? place first (front ++ (put.filler ++ put.after))).map
          (fun (kind, width) => (kind, (chars ++ (put.filler ++ put.after)).drop (gap.length + width))) := by
  obtain ⟨first, front, left⟩ := List.exists_cons_of_length_pos (show 0 < (chars.drop gap.length).length by
    rw [List.length_drop]
    omega)
  have drop (tail : List Char) : (chars ++ tail).drop gap.length = first :: (front ++ tail) := by
    rw [List.drop_append_of_le_length (Nat.le_of_lt before), left, List.cons_append]
  exact ⟨first, front, left, tokenAt?_of_gap? passed (drop _),
    tokenAt?_of_gap? ((put.cut chars).gap? passed before) (drop _)⟩

private theorem sameToken_of_stop {chars stop : List Char} {kind : TokenKind} {place : Place}
    (found : tokenAt? place (chars ++ put.after) = some (kind, stop)) (ends : put.after <:+ stop) :
    put.SameToken (tokenAt? place (chars ++ put.after))
      (tokenAt? place (chars ++ (put.filler ++ put.after))) := by
  obtain ⟨more, rfl⟩ := ends
  obtain ⟨length, reach, token⟩ := Option.bind_eq_some_iff.1 found
  obtain ⟨gap, passed, rfl⟩ := Option.map_eq_some_iff.1 reach
  have length := length_lt_of_tokenFrom? token (by simp [put.more])
  rw [List.length_drop, List.length_append, List.length_append] at length
  obtain ⟨first, front, left, one, two⟩ := tokenAt?_before passed (by omega)
  rw [one] at found
  obtain ⟨⟨_, width⟩, kinds, same⟩ := Option.map_eq_some_iff.1 found
  obtain ⟨rfl, ends⟩ := Prod.mk.inj same
  have inside : gap.length + width ≤ chars.length := by
    have total := congrArg List.length ends
    have some := List.length_pos_iff.2 put.more
    rw [List.length_drop, List.length_append, List.length_append] at total
    omega
  have width : width ≤ front.length + 1 := by
    have total := congrArg List.length left
    rw [List.length_drop, List.length_cons] at total
    omega
  rw [one, two, kinds, (put.cut front).tokenKind? kinds width, Option.map_some, Option.map_some]
  dsimp only
  rw [List.drop_append_of_le_length inside, List.drop_append_of_le_length inside]
  exact .some ⟨rfl, .before _⟩

private theorem sameToken_of_barren {chars : List Char} {length : Nat} {place : Place}
    (gap : gapLength? place.admitsLongString (chars ++ put.after) = some length)
    (before : put.after.length < ((chars ++ put.after).drop length).length)
    (absent : tokenFrom? place ((chars ++ put.after).drop length) = none)
    (plain : opensString place ((chars ++ put.after).drop length) = false) :
    put.SameToken (tokenAt? place (chars ++ put.after))
      (tokenAt? place (chars ++ (put.filler ++ put.after))) := by
  obtain ⟨gap, passed, rfl⟩ := Option.map_eq_some_iff.1 gap
  rw [List.length_drop, List.length_append] at before
  obtain ⟨first, front, left, one, two⟩ := tokenAt?_before passed (by omega)
  rw [List.drop_append_of_le_length (by omega), left, List.cons_append] at absent plain
  rw [tokenFrom?, Option.map_eq_none_iff] at absent
  rw [one, two, absent, (put.cut front).tokenKind?_eq_none absent plain]
  exact .none

/-- What is put in does not change any token that is looked for apart from it. -/
theorem Widened.tokenAt? {text other : List Char} {place : Place} (widened : put.Widened text other)
    (apart : put.Apart ⟨place, text⟩) :
    put.SameToken (Source.tokenAt? place text) (Source.tokenAt? place other) := by
  cases widened with
  | behind passed => exact sameToken_of_suffix passed
  | before chars =>
    cases apart with
    | before found ends => exact sameToken_of_stop found ends
    | barren gap before absent plain => exact sameToken_of_barren gap before absent plain
    | within same layout wider =>
      obtain rfl : chars = _ := List.append_cancel_right same
      exact sameToken_of_layout place layout wider
    | behind passed =>
      obtain rfl : chars = [] := by
        have short := passed.length_le
        rw [List.length_append] at short
        exact List.eq_nil_of_length_eq_zero (by omega)
      exact sameToken_of_layout place .nil .nil

end Insertion
end LuaClasses.Source
