import LuaClasses.Proofs.CommentCuts
import LuaClasses.Source.Grammar

/-! Tokens in texts that agree up to a cut. A token that ends there at the latest is one of both texts. -/

namespace LuaClasses.Source

/-! ### Strings -/

theorem length_takeWhile_take (p : Char → Bool) (limit : Nat) (text : List Char) :
    ((text.take limit).takeWhile p).length = min limit (text.takeWhile p).length := by
  induction text generalizing limit with
  | nil => simp
  | cons char rest ih =>
    cases limit with
    | zero => simp
    | succ limit =>
      rw [List.take_succ_cons, List.takeWhile_cons, List.takeWhile_cons]
      split
      next => rw [List.length_cons, List.length_cons, ih, Nat.succ_min_succ]
      next => rw [List.length_nil, Nat.min_zero]

private theorem pieces?_of_comment {quote : Char} {text : List Char} {opening level : Nat}
    (opens : blockOpeningAhead? text = some (opening, level)) :
    pieces? quote text = (longRest? level (text.drop opening)).bind fun width =>
      (pieces? quote (text.drop (opening + width))).map (.comment (text.take (opening + width)) :: ·) := by
  cases text with
  | nil => cases opens
  | cons first rest =>
    obtain ⟨opening, rfl⟩ := Nat.exists_eq_add_of_lt (pos_of_blockOpeningAhead? opens)
    rw [pieces?, opens]
    dsimp only
    rw [Nat.zero_add, List.drop_succ_cons, Nat.add_sub_cancel]
    cases longRest? level (rest.drop opening) with
    | none => rfl
    | some width =>
      rw [Option.bind_some, Nat.add_right_comm opening 1 width, List.drop_succ_cons, List.take_succ_cons]

private theorem pieces?_of_quote {quote : Char} {rest : List Char}
    (open_ : blockOpeningAhead? (quote :: rest) = none) :
    pieces? quote (quote :: rest) = some [] := by
  rw [pieces?, open_]
  exact if_pos rfl

private theorem pieces?_of_escape {quote : Char} {rest : List Char} (apart : '\\' ≠ quote)
    (open_ : blockOpeningAhead? ('\\' :: rest) = none) :
    pieces? quote ('\\' :: rest) = (escapeLength? rest).bind fun width =>
      (pieces? quote (rest.drop width)).map (.escape ('\\' :: rest.take width) :: ·) := by
  rw [pieces?, open_]
  dsimp only
  rw [if_neg apart, if_pos rfl]
  cases escapeLength? rest with
  | none => rfl
  | some width => rfl

private theorem pieces?_of_plain {quote char : Char} {rest : List Char} (apart : char ≠ quote)
    (plain : char ≠ '\\') (open_ : blockOpeningAhead? (char :: rest) = none) :
    pieces? quote (char :: rest) =
      (pieces? quote (rest.drop (rest.takeWhile fun char => char ≠ quote && char ≠ '\\').length)).map
        (.plain (char :: rest.take (rest.takeWhile fun char => char ≠ quote && char ≠
          '\\').length) :: ·) := by
  rw [pieces?, open_]
  dsimp only
  rw [if_neg apart, if_neg plain]

private theorem piecesLength_cons (piece : Piece) (pieces : List Piece) :
    piecesLength (piece :: pieces) = piece.text.length + piecesLength pieces := by
  rw [piecesLength, List.flatMap_cons, List.length_append, piecesLength]

theorem length_take_of_getElem? {text : List Char} {count index : Nat} {char : Char}
    (present : (text.drop count)[index]? = some char) : (text.take count).length = count := by
  rw [List.getElem?_drop] at present
  have long := (List.getElem?_eq_some_iff.1 present).1
  rw [List.length_take, Nat.min_eq_left (by omega)]

/-- What stands at a place after the first characters of a text stands after them in the whole text. -/
theorem getElem?_after {first : Char} {rest : List Char} {count index : Nat} {char : Char}
    (present : (rest.drop count)[index]? = some char) :
    (first :: rest)[(first :: rest.take count).length + index]? = some char := by
  rw [List.length_cons, length_take_of_getElem? present, Nat.add_right_comm,
    List.getElem?_cons_succ, ← List.getElem?_drop,
    present]

/-- The closing quote comes after the pieces. -/
theorem quote_of_pieces? {quote : Char} {text : List Char} {pieces : List Piece}
    (found : pieces? quote text = some pieces) :
    text[piecesLength pieces]? = some quote := by
  fun_induction pieces? quote text generalizing pieces with
  | case1 => cases found
  | case2 => cases found
  | case3 first rest opening level opens width closes ih =>
    obtain ⟨pieces, read, rfl⟩ := Option.map_eq_some_iff.1 found
    rw [piecesLength_cons]
    exact getElem?_after (ih read)
  | case4 =>
    cases found
    rfl
  | case5 => cases found
  | case6 rest open_ apart width escape ih =>
    obtain ⟨pieces, read, rfl⟩ := Option.map_eq_some_iff.1 found
    rw [piecesLength_cons]
    exact getElem?_after (ih read)
  | case7 first rest open_ apart plain width =>
    rename_i ih
    obtain ⟨pieces, read, rfl⟩ := Option.map_eq_some_iff.1 found
    rw [piecesLength_cons]
    exact getElem?_after (ih read)

/-! ### Widths of tokens -/

private theorem pos_of_mantissa? {digit : Char → Bool} {text : List Char} {width : Nat}
    (found : mantissa? digit text = some width) :
    0 < width := by
  rw [mantissa?.eq_def] at found
  dsimp only at found
  split at found
  · obtain ⟨_, same⟩ := Option.ite_none_left_eq_some.1 found
    cases same
    omega
  · obtain ⟨some, same⟩ := Option.ite_none_left_eq_some.1 found
    cases same
    omega

private theorem pos_of_numberIn? {digit : Char → Bool} {marks text : List Char} {width : Nat}
    (found : numberIn? digit marks text = some width) : 0 < width := by
  rw [numberIn?_eq] at found
  split at found
  next wide =>
    cases found
    omega
  next =>
    obtain ⟨body, read, rfl⟩ := Option.map_eq_some_iff.1 found
    have := pos_of_mantissa? read
    omega

private theorem pos_of_number? {text : List Char} {width : Nat} (found : number? text = some width) :
    0 < width := by
  rw [number?_eq, Option.or_eq_some_iff] at found
  rcases found with based | ⟨_, decimal⟩
  · have := le_of_mem_basedNumber? based
    omega
  · exact pos_of_numberIn? decimal

private theorem pos_of_numberOrSymbol? {place : Place} {text : List Char} {kind : TokenKind} {width : Nat}
    (found : numberOrSymbol? place text = some (kind, width)) : 0 < width := by
  rw [numberOrSymbol?] at found
  split at found
  next number =>
    cases found
    exact pos_of_number? (Option.ite_none_right_eq_some.1 number).2
  next =>
    obtain ⟨symbol, _, same⟩ := Option.map_eq_some_iff.1 found
    cases same
    cases symbol <;> decide

/-- A token has a character at least. -/
theorem pos_of_tokenKind? {place : Place} {char : Char} {rest : List Char} {kind : TokenKind} {width : Nat}
    (found : tokenKind? place char rest = some (kind, width)) : 0 < width := by
  rw [tokenKind?] at found
  split at found
  next =>
    cases found
    omega
  next =>
    split at found
    next =>
      obtain ⟨_, _, same⟩ := Option.map_eq_some_iff.1 found
      cases same
      omega
    next =>
      split at found
      next opens =>
        obtain ⟨signs, _, rfl, _⟩ := longOpening?_eq_some_iff.1 (Option.ite_none_right_eq_some.1 opens).2
        obtain ⟨_, _, same⟩ := Option.map_eq_some_iff.1 found
        cases same
        omega
      next => exact pos_of_numberOrSymbol? found

/-! ### Tokens that begin something -/

namespace Grammar

theorem more_of_isAt {kind : Symbol} {input : Input} (here : isAt kind input = true) :
    input.head.kind ≠ .endOfText := by
  intro ends
  rw [isAt, ends] at here
  cases here

theorem more_of_unaryOp? {token : Token} {op : UnaryOp} (found : unaryOp? token = some op) :
    token.kind ≠ .endOfText := by
  intro ends
  rw [unaryOp?, Token.keyword?, ends] at found
  cases found

theorem more_of_binaryOp? {token : Token} {op : BinaryOp} (found : binaryOp? token = some op) :
    token.kind ≠ .endOfText := by
  intro ends
  rw [binaryOp?, Token.keyword?, ends] at found
  cases found

theorem more_of_literal? {token : Token} {form : TermForm} (found : literal? token = some form) :
    token.kind ≠ .endOfText := by
  intro ends
  rw [literal?, Token.keyword?, ends] at found
  cases found

end Grammar

/-! ### Texts with a cut -/

/-- Whether a quoted or a long string begins a text, whether it has an end or not. -/
def opensString (place : Place) : List Char → Bool
  | [] => false
  | char :: rest =>
    char = '"' || char = '\'' || (place.admitsLongString && (longOpening? (char :: rest)).isSome)

private theorem solid_symbol (symbol : Symbol) : ∀ char ∈ symbol.text, isBlank char = false :=
  solid_of_all (by cases symbol <;> decide)

private theorem some_ite {P : Prop} [Decidable P] {width : Nat} {one two first second : Option Nat}
    (positive : one = some width → first = some width) (negative : two = some width → second = some width) :
    (if P then one else two) = some width → (if P then first else second) = some width := by
  split
  · exact positive
  · exact negative

namespace Cut

variable {count : Nat} {text other : List Char}

theorem escapeLength? (cut : Cut count text other) {width : Nat}
    (found : Source.escapeLength? text = some width) (inside : width < count) :
    Source.escapeLength? other = some width := by
  cases cut with
  | here => omega
  | @there count text other char cut =>
    have most (p : Char → Bool) (solid : ∀ char, isBlank char = true → p char = false) :
        ((other.take 2).takeWhile p).length = min 2 (min (text.takeWhile p).length count) := by
      rw [length_takeWhile_take, cut.length_takeWhile solid]
    rw [Source.escapeLength?.eq_def] at found ⊢
    dsimp only at found ⊢
    rw [length_takeWhile_take, length_takeWhile_take] at found
    rw [most isDigit fun _ => isDigit_of_isBlank, most isHexDigit fun _ => isHexDigit_of_isBlank]
    refine some_ite id (some_ite (fun skipped => ?_) (some_ite (fun decimal => ?_) (some_ite (fun hex => ?_)
      (some_ite (fun code => ?_) id)))) found
    · cases skipped
      rw [cut.takeWhile_of_lt (by omega)]
    · cases decimal
      rw [Option.some.injEq]
      omega
    · obtain ⟨two, same⟩ := Option.ite_none_right_eq_some.1 hex
      cases same
      rw [if_pos (by omega)]
    · split at code
      next digits =>
        obtain ⟨closed, same⟩ := Option.ite_none_right_eq_some.1 code
        cases same
        cases cut with
        | here => omega
        | @there count _ other _ cut =>
          have run := cut.takeWhile_of_lt (show (digits.takeWhile isHexDigit).length < count by omega)
          rw [← cut.getElem? (by omega), ← run] at closed
          rw [← run]
          exact if_pos closed
      next => cases code

theorem pieces? (cut : Cut count text other) {quote : Char} {pieces : List Piece}
    (solid : isBlank quote = false) (found : Source.pieces? quote text = some pieces)
    (inside : piecesLength pieces < count) :
    Source.pieces? quote other = some pieces := by
  have ahead := takeWhile_le_of_getElem? (fun _ => id) (quote_of_pieces? found) solid
  fun_induction Source.pieces? quote text generalizing count other pieces with
  | case1 => cases found
  | case2 => cases found
  | case3 first rest opening level opens width closes ih =>
    obtain ⟨pieces, read, rfl⟩ := Option.map_eq_some_iff.1 found
    have shape (more : Nat) : rest.drop (opening - 1 + more) = (first :: rest).drop (opening + more) := by
      have := pos_of_blockOpeningAhead? opens
      rw [show opening + more = opening - 1 + more + 1 by omega, List.drop_succ_cons]
    have piece : first :: rest.take (opening - 1 + width) = (first :: rest).take (opening + width) := by
      have := pos_of_blockOpeningAhead? opens
      rw [show opening + width = opening - 1 + width + 1 by omega, List.take_succ_cons]
    rw [← Nat.add_zero (opening - 1), shape, Nat.add_zero] at closes
    rw [shape] at read ih
    rw [piece] at inside ⊢
    have closing := quote_of_pieces? read
    rw [piecesLength_cons, Piece.text, length_take_of_getElem? closing] at inside
    obtain ⟨left, rfl⟩ := Nat.exists_eq_add_of_le (show opening + width ≤ count by omega)
    have within : Cut (width + left) ((first :: rest).drop opening) (other.drop opening) :=
      Cut.drop (by rwa [← Nat.add_assoc])
    have ahead := takeWhile_le_of_getElem? (fun _ => id) closing solid
    rw [pieces?_of_comment (cut.blockOpeningAhead? opens (by omega)),
      within.longRest? closes (by omega), Option.bind_some,
      ih cut.drop read (by omega) ahead, Option.map_some, cut.take (Nat.le_add_right _ _)]
  | case4 rest open_ =>
    cases found
    cases cut with
    | here => omega
    | @there count _ other _ cut =>
      exact pieces?_of_quote ((cut.there quote).blockOpeningAhead?_eq_none (by omega) open_)
  | case5 => cases found
  | case6 rest width escape open_ apart ih =>
    obtain ⟨pieces, read, rfl⟩ := Option.map_eq_some_iff.1 found
    have closing := quote_of_pieces? read
    rw [piecesLength_cons, Piece.text, List.length_cons, length_take_of_getElem? closing] at inside ahead
    cases cut with
    | here => omega
    | @there count _ other _ cut =>
      have open_ := (cut.there '\\').blockOpeningAhead?_eq_none (by omega) open_
      obtain ⟨left, rfl⟩ := Nat.exists_eq_add_of_le (show width ≤ count by omega)
      have ahead := takeWhile_le_of_getElem? (fun _ => id) closing solid
      rw [pieces?_of_escape apart open_, cut.escapeLength? escape (by omega), Option.bind_some,
        ih cut.drop read (by omega) ahead, Option.map_some, cut.take (Nat.le_add_right _ _)]
  | case7 first rest open_ apart plain width =>
    rename_i ih
    obtain ⟨pieces, read, rfl⟩ := Option.map_eq_some_iff.1 found
    have closing := quote_of_pieces? read
    rw [piecesLength_cons, Piece.text, List.length_cons, length_take_of_getElem? closing] at inside ahead
    cases cut with
    | here => omega
    | @there count _ other _ cut =>
      have open_ := (cut.there first).blockOpeningAhead?_eq_none (by omega) open_
      have same : (rest.takeWhile fun char => char ≠ quote && char ≠ '\\').length = width := rfl
      have run := cut.takeWhile_of_lt (show (rest.takeWhile fun char => char ≠ quote && char ≠
        '\\').length < count by omega)
      clear_value width
      rw [pieces?_of_plain apart plain open_, run, same]
      obtain ⟨left, rfl⟩ := Nat.exists_eq_add_of_le (show width ≤ count by omega)
      have ahead := takeWhile_le_of_getElem? (fun _ => id) closing solid
      rw [ih cut.drop read (by omega) ahead, Option.map_some, cut.take (Nat.le_add_right _ _)]

/-! ### Tokens -/

theorem textOf (cut : Cut count text other) {length : Nat} (inside : length ≤ count) :
    Source.textOf other length = Source.textOf text length := by
  rw [Source.textOf, Source.textOf, cut.take inside]

theorem fits_iff (cut : Cut count text other) {place : Place} {symbol : Symbol} :
    (place.admits symbol && symbol.text.isPrefixOf other) = true ↔
      (place.admits symbol && symbol.text.isPrefixOf text) = true ∧ symbol.text.length ≤ count := by
  rw [Bool.and_eq_true, Bool.and_eq_true, List.isPrefixOf_iff_prefix, List.isPrefixOf_iff_prefix,
    cut.isPrefix_iff (solid_symbol symbol), and_assoc]

theorem symbol? (cut : Cut count text other) {place : Place} {symbol : Symbol}
    (found : Source.symbol? place text = some symbol) (inside : symbol.text.length ≤ count) :
    Source.symbol? place other = some symbol := by
  rw [Source.symbol?, List.find?_eq_some_iff_append] at found ⊢
  obtain ⟨first, before, after, same, others⟩ := found
  refine ⟨cut.fits_iff.2 ⟨first, inside⟩, before, after, same, fun earlier member => ?_⟩
  have fails := others earlier member
  rw [Bool.not_eq_true'] at fails ⊢
  exact Bool.eq_false_iff.2 fun holds => Bool.eq_false_iff.1 fails (cut.fits_iff.1 holds).1

private theorem symbol?_eq_none (cut : Cut count text other) {place : Place}
    (absent : Source.symbol? place text = none) :
    Source.symbol? place other = none := by
  rw [Source.symbol?, List.find?_eq_none] at absent ⊢
  exact fun symbol member holds => absent symbol member (cut.fits_iff.1 holds).1

theorem numberOrSymbol? (cut : Cut count text other) {place : Place} {kind : TokenKind} {width : Nat}
    (found : Source.numberOrSymbol? place text = some (kind, width)) (inside : width ≤ count) :
    Source.numberOrSymbol? place other = some (kind, width) := by
  rw [Source.numberOrSymbol?] at found ⊢
  have symbols (found : (Source.symbol? place text).map
    (fun symbol => (TokenKind.symbol symbol, symbol.text.length)) =
      some (kind, width)) :
      (Source.symbol? place other).map (fun symbol => (TokenKind.symbol symbol, symbol.text.length)) =
      some (kind, width) := by
    obtain ⟨symbol, read, same⟩ := Option.map_eq_some_iff.1 found
    cases same
    rw [cut.symbol? read inside, Option.map_some]
  by_cases admits : place.admitsNumber = true
  case neg =>
    rw [if_neg admits] at found ⊢
    exact symbols found
  case pos =>
    rw [if_pos admits] at found ⊢
    cases number : Source.number? text with
    | none =>
      rw [number] at found
      rw [cut.number? (by simp [number]), number]
      exact symbols found
    | some length =>
      rw [number] at found
      cases found
      rw [cut.number? (by simpa [number] using inside), number]
      dsimp only
      rw [cut.textOf inside]

private theorem numberOrSymbol?_eq_none (cut : Cut count text other) {place : Place}
    (absent : Source.numberOrSymbol? place text = none) : Source.numberOrSymbol? place other = none := by
  rw [Source.numberOrSymbol?] at absent ⊢
  split at absent
  next => cases absent
  next number =>
    rw [Option.map_eq_none_iff] at absent
    have noNumber : (if place.admitsNumber then Source.number? other else none) = none := by
      split
      next admits =>
        rw [if_pos admits] at number
        rw [cut.number? (by simp [number]), number]
      next => rfl
    rw [noNumber]
    dsimp only
    rw [cut.symbol?_eq_none absent, Option.map_none]

/-- The token at the start of a text, if it ends at the cut or before it. -/
theorem tokenKind? (cut : Cut count text other) {place : Place} {char : Char} {kind : TokenKind} {width : Nat}
    (found : Source.tokenKind? place char text = some (kind, width)) (inside : width ≤ count + 1) :
    Source.tokenKind? place char other = some (kind, width) := by
  have whole := cut.there char
  rw [Source.tokenKind?] at found ⊢
  split at found
  next word =>
    rw [if_pos word]
    cases found
    rw [cut.takeWhile (fun _ => isWordPart_of_isBlank) (Nat.le_of_succ_le_succ inside)]
    dsimp only
    rw [whole.textOf inside]
  next noWord =>
    rw [if_neg noWord]
    split at found
    next quote =>
      rw [if_pos quote]
      obtain ⟨pieces, read, same⟩ := Option.map_eq_some_iff.1 found
      cases same
      have solid : isBlank char = false := by
        rw [Bool.or_eq_true, decide_eq_true_eq, decide_eq_true_eq] at quote
        rcases quote with rfl | rfl <;> decide
      rw [cut.pieces? solid read (by omega), Option.map_some]
    next noQuote =>
      rw [if_neg noQuote]
      by_cases admits : place.admitsLongString = true
      case neg =>
        rw [if_neg admits] at found ⊢
        exact whole.numberOrSymbol? found inside
      case pos =>
        rw [if_pos admits] at found ⊢
        cases opens : Source.longOpening? (char :: text) with
        | none =>
          rw [opens] at found
          rw [whole.longOpening?_eq_none opens]
          exact whole.numberOrSymbol? found inside
        | some opening =>
          obtain ⟨opening, level⟩ := opening
          rw [opens] at found
          obtain ⟨⟨content, closing⟩, read, same⟩ := Option.map_eq_some_iff.1 found
          cases same
          have starts := whole.longOpening?_eq_some_iff.2 ⟨opens, by omega⟩
          obtain ⟨left, length⟩ := Nat.exists_eq_add_of_le (show opening ≤ count + 1 by omega)
          rw [length] at whole
          rw [starts]
          dsimp only
          rw [whole.drop.longContent? read (by omega), Option.map_some]
          dsimp only
          rw [whole.drop.textOf (by omega)]

/-- Where no token begins and no string either, none begins in the other text. -/
theorem tokenKind?_eq_none (cut : Cut count text other) {place : Place} {char : Char}
    (absent : Source.tokenKind? place char text = none) (plain : opensString place (char :: text) = false) :
    Source.tokenKind? place char other = none := by
  rw [Source.tokenKind?] at absent ⊢
  split at absent
  next => cases absent
  next noWord =>
    rw [opensString, Bool.or_eq_false_iff] at plain
    rw [if_neg noWord]
    rw [if_neg (Bool.eq_false_iff.1 plain.1)] at absent ⊢
    have noBracket : (if place.admitsLongString then Source.longOpening? (char :: text) else none) =
        none := by
      split
      next admits => simpa [admits] using plain.2
      next => rfl
    have noBracket' : (if place.admitsLongString then Source.longOpening? (char :: other) else none) =
        none := by
      split
      next admits =>
        rw [if_pos admits] at noBracket
        exact (cut.there char).longOpening?_eq_none noBracket
      next => rfl
    rw [noBracket] at absent
    rw [noBracket']
    exact (cut.there char).numberOrSymbol?_eq_none absent

end Cut
end LuaClasses.Source
