import LuaClasses.Proofs.DescentAgreement
import LuaClasses.Proofs.LayoutGrammar

/-! Layout does not matter. White space and comments that are put in between two tokens change neither
the program nor the error that comes of a text, but for the ranges in it. -/

namespace LuaClasses.Source

/-! ### What comes before the statements -/

def withoutMark (text : List Char) : List Char := if text.head? = some '\ufeff' then text.drop 1 else text

/-- Whether a text begins with a line of `#`, and what comes after that. -/
def pastLine (text : List Char) : Bool × List Char :=
  if text.head? = some '#' then (true, text.drop (text.takeWhile (· ≠ '\n')).length) else (false, text)

/-- The text that the statements are read from. -/
def afterHeader? (text : List Char) : Option (Bool × List Char) :=
  (gap? false (withoutMark text)).map fun gap => pastLine ((withoutMark text).drop gap.length)

private theorem afterHeader?_text (cursor : Cursor) :
    afterHeader? cursor.text = cursor.passHeader?.map fun (hasLine, cursor) => (hasLine, cursor.text) := by
  have start : withoutMark cursor.text =
      (if cursor.text.head? = some '\ufeff' then cursor.skip 1 else cursor).text := by
    rw [withoutMark]
    split <;> rfl
  rw [afterHeader?, Cursor.passHeader?, start]
  generalize (if cursor.text.head? = some '\ufeff' then cursor.skip 1 else cursor) = cursor
  dsimp only [Option.bind_eq_bind]
  cases gap? false cursor.text with
  | none => rfl
  | some gap =>
    rw [Option.map_some, Option.bind_some, pastLine]
    have text : (cursor.pass gap).text = cursor.text.drop gap.length := rfl
    rw [← text]
    split <;> rfl

private theorem afterHeader?_ofText (chars : List Char) :
    (Cursor.ofText (String.ofList chars)).passHeader?.map (fun (hasLine, cursor) => (hasLine, cursor.text)) =
      afterHeader? chars := by
  have text : (Cursor.ofText (String.ofList chars)).text = chars := String.toList_ofList
  rw [← afterHeader?_text, text]

private theorem withoutMark_append {before : List Char} (filled : before ≠ []) (rest : List Char) :
    withoutMark (before ++ rest) = withoutMark before ++ rest := by
  cases before with
  | nil => exact absurd rfl filled
  | cons char before =>
    rw [withoutMark, withoutMark]
    by_cases mark : char = '\ufeff' <;> simp [mark]

theorem length_withoutMark_le (text : List Char) : (withoutMark text).length ≤ text.length := by
  rw [withoutMark]
  split
  · rw [List.length_drop]
    omega
  · exact Nat.le_refl _

theorem length_pastLine_le (text : List Char) : (pastLine text).2.length ≤ text.length := by
  rw [pastLine]
  split
  · dsimp only
    rw [List.length_drop]
    omega
  · exact Nat.le_refl _

namespace Insertion

variable {put : Insertion}

private theorem pastLine {front inner : List Char} {hasLine : Bool}
    (header : Source.pastLine (front ++ put.after) = (hasLine, inner ++ put.after)) (more : inner ≠ []) :
    Source.pastLine (front ++ (put.filler ++ put.after)) = (hasLine, inner ++ (put.filler ++ put.after)) := by
  have inside := List.length_pos_iff.2 more
  have length := length_pastLine_le (front ++ put.after)
  rw [header, List.length_append, List.length_append] at length
  have head (rest : List Char) : (front ++ rest).head? = front.head? := by
    obtain ⟨first, others, rfl⟩ := List.exists_cons_of_length_pos (show 0 < front.length by omega)
    rfl
  rw [Source.pastLine, head] at header ⊢
  split at header
  next hash =>
    rw [if_pos hash]
    obtain ⟨rfl, same⟩ := Prod.mk.inj header
    have total := congrArg List.length same
    rw [List.length_drop, List.length_append, List.length_append] at total
    have before : ((front ++ put.after).takeWhile (· ≠ '\n')).length < front.length := by
      have := List.length_pos_iff.2 put.more
      omega
    rw [List.drop_append_of_le_length (Nat.le_of_lt before)] at same
    rw [(put.cut front).takeWhile_of_lt before, List.drop_append_of_le_length (Nat.le_of_lt before),
      List.append_cancel_right same]
  next plain =>
    rw [if_neg plain]
    obtain ⟨rfl, same⟩ := Prod.mk.inj header
    rw [List.append_cancel_right same]

private theorem afterHeader? {before inner : List Char} {hasLine : Bool}
    (header : Source.afterHeader? (before ++ put.after) = some (hasLine, inner ++ put.after))
    (more : inner ≠ []) :
    Source.afterHeader? (before ++ (put.filler ++ put.after)) =
      some (hasLine, inner ++ (put.filler ++ put.after)) := by
  have inside := List.length_pos_iff.2 more
  obtain ⟨gap, passed, line⟩ := Option.map_eq_some_iff.1 header
  have length := length_pastLine_le ((withoutMark (before ++ put.after)).drop gap.length)
  rw [line, List.length_append, List.length_drop] at length
  have filled : before ≠ [] := by
    rintro rfl
    have := length_withoutMark_le ([] ++ put.after)
    rw [List.nil_append] at this length
    omega
  rw [withoutMark_append filled, List.length_append] at length
  rw [withoutMark_append filled] at passed line
  rw [List.drop_append_of_le_length (by omega)] at line
  rw [Source.afterHeader?, withoutMark_append filled, (put.cut _).gap? passed (by omega), Option.map_some,
    List.drop_append_of_le_length (by omega), pastLine line more]

/-- Whether what is put in after some characters stands between two tokens: the statements begin before
it, and every look for a token is apart from it. -/
structure Between (put : Insertion) (before : List Char) : Prop where
  clean : '\x00' ∉ put.filler
  begun : ∃ hasLine cursor inner, (Cursor.ofText (String.ofList (before ++ put.after))).passHeader? =
    some (hasLine, cursor) ∧
    cursor.text = inner ++ put.after ∧ inner ≠ []
  apart : ∀ attempt ∈ (File.reading (String.ofList (before ++ put.after))).attempts, put.Apart attempt

private theorem reading_agrees {before : List Char} (between : put.Between before) :
    put.Agrees (fun first second => statementsUnplaced first.body = statementsUnplaced second.body)
      (File.reading (String.ofList (before ++ put.after)))
      (File.reading (String.ofList (before ++ (put.filler ++ put.after)))) := by
  obtain ⟨hasLine, cursor, inner, passed, text, more⟩ := between.begun
  obtain ⟨cursor', passed', text'⟩ : ∃ cursor',
      (Cursor.ofText (String.ofList (before ++ (put.filler ++ put.after)))).passHeader? =
      some (hasLine, cursor') ∧
        cursor'.text = inner ++ (put.filler ++ put.after) := by
    have header : Source.afterHeader? (before ++ put.after) = some (hasLine, inner ++ put.after) := by
      rw [← afterHeader?_ofText, passed, ← text, Option.map_some]
    have wider := (afterHeader?_ofText _).trans (afterHeader? header more)
    obtain ⟨⟨_, cursor'⟩, passed', same⟩ := Option.map_eq_some_iff.1 wider
    obtain ⟨rfl, text'⟩ := Prod.mk.inj same
    exact ⟨cursor', passed', text'⟩
  have clean : (before ++ (put.filler ++ put.after)).contains '\x00' =
      (before ++ put.after).contains '\x00' := by
    have filler : put.filler.contains '\x00' = false := by simpa using between.clean
    rw [List.contains_append, List.contains_append, List.contains_append, filler, Bool.false_or]
  rw [File.reading, File.reading, String.toList_ofList, String.toList_ofList, clean, passed, passed']
  split
  · exact .fail
  have begun : put.Agrees (fun first second => put.Widened first.2.text second.2.text)
      (Reading.ofOption (some (hasLine, cursor))) (Reading.ofOption (some (hasLine, cursor'))) :=
    fun _ => .some (show put.Widened cursor.text cursor'.text from text ▸ text' ▸ .before inner)
  refine begun.bind ?_
  rintro ⟨_, cursor⟩ ⟨_, cursor'⟩ widened
  have read : put.Agrees (put.Alike 8 (8 * cursor.text.length + 8) (8 * cursor'.text.length + 8))
      (Input.read .other cursor) (Input.read .other cursor') :=
    read_agrees .other widened (Nat.le_refl _) (Nat.le_refl _)
  refine read.bind fun input input' alike => ?_
  refine ((lockstep put _ _).block .none alike).bind ?_
  rintro ⟨body, rest⟩ ⟨body', rest'⟩ ⟨same, alike⟩
  dsimp only
  rw [alike.kind]
  split
  · exact .pure same
  · exact .fail

/-! ### The outcome -/

/-- White space and comments between two tokens leave the program as it is, and so the error, up to ranges. -/
theorem unplacedOutcome_ofText {before : List Char} (between : put.Between before) :
    unplacedOutcome (Program.ofText (String.ofList (before ++ (put.filler ++ put.after)))) =
      unplacedOutcome (Program.ofText (String.ofList (before ++ put.after))) := by
  have agrees := reading_agrees between between.apart
  rw [Program.ofText_eq, Program.ofText_eq, File.ofText?, File.ofText?]
  revert agrees
  generalize (File.reading (String.ofList (before ++ put.after))).result = file,
    (File.reading (String.ofList (before ++ (put.filler ++ put.after)))).result = wider
  intro agrees
  cases agrees with
  | none => rfl
  | some same => exact (unplacedOutcome_program same).symm

/-- A comment of its own line after a parenthesis. -/
def lineComment : List Char := [' ', '-', '-', ' ', 'a', '\n']

private theorem layout_lineComment (rest : List Char) : Layout rest lineComment :=
  have line : Layout rest ('-' :: '-' :: ([' '] ++ 'a' :: []) ++ '\n' :: []) :=
    .line (by simp [isBlank, endsLine]) (by decide) (by decide) (by decide) (by simp) (.blank rfl .nil)
  .blank rfl line

/-- Blanks and two comments before the argument of a call. -/
def beforeArgument : Insertion where
  filler := '\t' :: '-' :: '-' :: (longBracket '[' 0 ++ ('b' :: longBracket ']' 0)) ++ lineComment
  after := ['g', ')']
  opens := ⟨'\t', _, rfl, rfl⟩
  layout := .blank rfl (.block (show ']' ∉ ['b'] by decide) 0 (layout_lineComment _))
  more := by simp

theorem beforeArgument_between : beforeArgument.Between ('f' :: '(' :: lineComment) where
  clean := by decide
  begun := ⟨false, Cursor.ofText (String.ofList ('f' :: '(' :: lineComment ++ beforeArgument.after)),
    'f' :: '(' :: lineComment,
    by decide +kernel, String.toList_ofList, by simp⟩
  apart := by
    have attempts : (File.reading (String.ofList
      ('f' :: '(' :: lineComment ++ beforeArgument.after))).attempts =
        [⟨.other, 'f' :: '(' :: lineComment ++ beforeArgument.after⟩,
          ⟨.callee, '(' :: lineComment ++ beforeArgument.after⟩,
          ⟨.operand, lineComment ++ beforeArgument.after⟩, ⟨.callee, [')']⟩, ⟨.callee, []⟩] := by
      decide +kernel
    have function : tokenAt? .other ('f' :: '(' :: lineComment ++ beforeArgument.after) =
        some (.word "f", '(' :: lineComment ++ beforeArgument.after) := by decide +kernel
    have opening : tokenAt? .callee ('(' :: lineComment ++ beforeArgument.after) =
        some (.symbol .parenOpen, lineComment ++ beforeArgument.after) := by decide +kernel
    rw [attempts]
    simp only [List.forall_mem_cons, List.not_mem_nil, false_implies, implies_true, and_true]
    exact ⟨.before function (List.suffix_append _ _), .before opening (List.suffix_append _ _),
      .within rfl (layout_lineComment _) (layout_lineComment _),
        .behind (List.suffix_append ['g'] _), .behind List.nil_suffix⟩

end Insertion
end LuaClasses.Source
