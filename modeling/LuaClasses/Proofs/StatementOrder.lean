import LuaClasses.Proofs.Layout
import LuaClasses.Proofs.OutlineGrammar
import LuaClasses.Proofs.StateGrowth
import LuaClasses.Proofs.TextOutcomes

/-! The ranges of a program against the order of its text. They are the recorded spans of its statements,
so they keep the order of the spans as long as lines and columns are small enough to be recorded. Then no
two statements have one range, and a problem with the one is never taken for a problem with the other. -/

namespace LuaClasses

open Source Discovery

/-- The span that a range stands for. -/
def Range.span (range : Range) : Span :=
  ⟨⟨range.startLine.toNat, range.startColumn.toNat⟩, ⟨range.endLine.toNat, range.endColumn.toNat⟩⟩

/-- Whether the places where a span starts and stops are small enough to be recorded. -/
def Span.Recordable (span : Span) : Prop :=
  (span.start.line < UInt32.size ∧ span.start.column < UInt16.size) ∧ span.stop.line < UInt32.size ∧
  span.stop.column < UInt16.size

instance (span : Span) : Decidable span.Recordable := inferInstanceAs (Decidable (_ ∧ _))

private theorem Range.span_ofSpan {span : Span} (recordable : span.Recordable) :
    (Range.ofSpan span).span = span := by
  obtain ⟨⟨line, column⟩, ⟨line', column'⟩⟩ := span
  obtain ⟨⟨startLine, startColumn⟩, stopLine, stopColumn⟩ := recordable
  simp only [Range.span, Range.ofSpan, UInt32.toNat_ofNat', UInt16.toNat_ofNat']
  rw [Nat.mod_eq_of_lt startLine, Nat.mod_eq_of_lt startColumn, Nat.mod_eq_of_lt stopLine,
    Nat.mod_eq_of_lt stopColumn]

/-- Whether the same problem with two statements is recorded for each of them. -/
def ToldApart (first second : Range) : Prop := ∀ (state : State) (kind : DiagnosticKind) (message : String),
  ⟨kind, message, some first⟩ ∉ state.diagnostics → ⟨kind, message, some second⟩ ∉ state.diagnostics →
    ((state.warn kind message (some first)).warn kind message (some second)).diagnostics =
      state.diagnostics ++ [⟨kind, message, some first⟩, ⟨kind, message, some second⟩]

private theorem toldApart_of_ne {first second : Range} (apart : first ≠ second) : ToldApart first second := by
  intro state kind message new new'
  have fresh : (⟨kind, message, some second⟩ : Diagnostic) ∉ state.diagnostics ++
      [⟨kind, message, some first⟩] := by
    intro member
    rcases List.mem_append.1 member with known | same
    · exact new' known
    · cases List.mem_singleton.1 same
      exact apart rfl
  rw [State.diagnostics_warn, State.diagnostics_warn, if_neg new, if_neg fresh,
    List.append_assoc, List.singleton_append]

/-- The ranges of a program are the recorded spans of its statements, which stand in the order of the
text: each of them stops after it starts, none starts before the one in front of it has stopped, and what
a statement holds lies within it. As long as the spans are small enough to be recorded, all this is true
of the ranges too. Then the range of each statement is its own. -/
theorem statements_in_order {text : String} {file : File} {program : Program}
    (read : File.ofText? text = some file) (parsed : Program.ofText text = .ok program) :
    (∃ last, Spread .start last file.outlines) ∧ program.outlines = mapOutlines .ofSpan file.outlines ∧
      ((∀ span ∈ placesOf file.outlines, span.Recordable) →
        (∃ last, Spread .start last (mapOutlines Range.span program.outlines)) ∧
        (placesOf program.outlines).Nodup ∧
          (placesOf program.outlines).Pairwise fun first second => ToldApart first second ∧
          ToldApart second first) := by
  have lowered : file.program = .ok program := by rw [← parsed, Program.ofText_eq, read]
  have recorded := File.outlines_program lowered
  obtain ⟨last, spread⟩ := File.spread_outlines read
  refine ⟨⟨last, spread⟩, recorded, ?_⟩
  intro recordable
  have same : mapOutlines Range.span program.outlines = file.outlines := by
    rw [recorded, mapOutlines_map]
    exact mapOutlines_eq_self file.outlines fun span member => Range.span_ofSpan (recordable span member)
  have own : (placesOf program.outlines).Nodup := by
    have spans := (Spread.ascending file.outlines spread).nodup
    rw [← same, placesOf_map] at spans
    exact List.Pairwise.of_map Range.span (fun _ _ apart same => apart (congrArg Range.span same)) spans
  refine ⟨⟨last, same ▸ spread⟩, own, own.imp ?_⟩
  intro first second apart
  exact ⟨toldApart_of_ne apart, toldApart_of_ne apart.symm⟩

/-- The text of a function with a loop in it. -/
def loopText : String := "function f()\n  while x do y = function() return 1 end end\nend z = 2"

theorem loopText_in_order :
    ∃ file program, File.ofText? loopText = some file ∧ Program.ofText loopText = .ok program ∧
    (placesOf program.outlines).length = 5 ∧ (placesOf program.outlines).Nodup ∧
    ∃ last, Spread .start last (mapOutlines Range.span program.outlines) := by
  obtain ⟨file, program, read, parsed, tested⟩ : ∃ file program, File.ofText? loopText = some file ∧
      Program.ofText loopText = .ok program ∧ (decide ((placesOf program.outlines).length = 5) &&
        (placesOf file.outlines).all fun span => decide span.Recordable) = true :=
        exists_parsed (by decide +kernel)
  obtain ⟨count, small⟩ := Bool.and_eq_true_iff.1 tested
  obtain ⟨spread, own, _⟩ := (statements_in_order read parsed).2.2 fun span member =>
    of_decide_eq_true (List.all_eq_true.1 small span member)
  exact ⟨file, program, read, parsed, of_decide_eq_true count, own, spread⟩

/-! ### A line that is too long -/

private theorem Position.after_blanks (position : Position) (count : Nat) :
    position.after (List.replicate count ' ') = ⟨position.line, position.column + count⟩ := by
  induction count generalizing position with
  | zero => rfl
  | succ count ih =>
    have step : position.advance ' ' = ⟨position.line, position.column + 1⟩ := rfl
    rw [List.replicate_succ, after, List.foldl_cons, step]
    refine (ih _).trans ?_
    rw [Nat.add_assoc, Nat.add_comm 1]

private theorem gapLength?_blanks (count : Nat) (rest : List Char) :
    gapLength? false (List.replicate count ' ' ++ rest) = (gapLength? false rest).map (count + ·) := by
  induction count with
  | zero => simp
  | succ count ih =>
    rw [List.replicate_succ, List.cons_append, gapLength?_blank (by decide), ih, Option.map_map]
    congr 1
    funext length
    dsimp only [Function.comp]
    omega

/-- The cursor behind blanks at the start of a text. -/
theorem passHeader?_blanks {count : Nat} {char : Char} {rest : List Char} (plain : char ≠ '#')
    (positive : 0 < count) (solid : gapLength? false (char :: rest) = some 0) :
    ∃ commented, (Cursor.ofText (String.ofList (List.replicate count ' ' ++ char :: rest))).passHeader? =
      some (false, ⟨⟨1, count⟩, char :: rest, commented⟩) := by
  have length : gapLength? false (List.replicate count ' ' ++ char :: rest) = some count := by
    rw [gapLength?_blanks, solid]
    rfl
  obtain ⟨gap, passed, rfl⟩ := Option.map_eq_some_iff.1 length
  have blank : (List.replicate gap.length ' ' ++ char :: rest).head? = some ' ' := by
    obtain ⟨fewer, more⟩ := Nat.exists_eq_add_of_lt positive
    rw [more, List.replicate_succ]
    rfl
  have through : Cursor.pass ⟨.start, List.replicate gap.length ' ' ++ char :: rest, false⟩ gap =
      ⟨⟨1, gap.length⟩, char :: rest, gap.commented⟩ := by
    have width : (List.replicate gap.length ' ').length = gap.length := List.length_replicate
    rw [Cursor.pass, Cursor.skip, List.take_left' width, List.drop_left' width, Position.after_blanks,
      Position.start, Nat.zero_add,
      Bool.false_or]
  have unmarked : ¬some ' ' = some '\ufeff' := by decide
  refine ⟨gap.commented, ?_⟩
  simp only [Cursor.passHeader?, Cursor.ofText, String.toList_ofList, blank, unmarked, if_false,
    Option.bind_eq_bind, passed,
    Option.bind_some, through, List.head?_cons, Option.some.injEq, plain]

/-- An assignment after some blanks. -/
def indentedText (blanks : Nat) : String := String.ofList (List.replicate blanks ' ' ++ ['x', '=', '1'])

/-- The reading of the assignment, once the blanks are behind. -/
theorem reading_indentedText {blanks : Nat} (positive : 0 < blanks) :
    ∃ commented, (File.reading (indentedText blanks)).result =
    ((do
      let input ← Input.read .other ⟨⟨1, blanks⟩, ['x', '=', '1'], commented⟩
      let (body, rest) ← Grammar.block 32 .none input
      if rest.head.kind = .endOfText then
        return { hasInterpreterLine := false, hasComment := rest.rest.commented, body }
      else .fail : Reading File)).result := by
  have solid : gapLength? false ['x', '=', '1'] = some 0 := by decide +kernel
  obtain ⟨commented, header⟩ := passHeader?_blanks (by decide : 'x' ≠ '#') positive solid
  refine ⟨commented, ?_⟩
  have printed : ¬(indentedText blanks).toList.contains '\x00' = true := by
    rw [indentedText, String.toList_ofList]
    simp [List.mem_replicate]
  rw [File.reading, if_neg printed, indentedText, header]
  rfl

/-- The range of an assignment that crosses the last column that can be recorded starts after it stops. -/
theorem wide_statement_reversed : ∃ program, Program.ofText (indentedText 65535) = .ok program ∧
    placesOf program.outlines = [⟨1, 65535, 1, 2⟩] ∧ ∀ range ∈ placesOf program.outlines,
      range.span.stop < range.span.start := by
  obtain ⟨commented, reading⟩ := reading_indentedText (by decide : 0 < 65535)
  obtain ⟨_, program, _, parsed, single⟩ : ∃ file program, File.ofText? (indentedText 65535) = some file ∧
      Program.ofText (indentedText 65535) = .ok program ∧
        decide (placesOf program.outlines = [⟨1, 65535, 1, 2⟩]) = true := by
    apply exists_parsed
    rw [File.ofText?, reading]
    cases commented <;> decide +kernel
  have single := of_decide_eq_true single
  refine ⟨program, parsed, single, ?_⟩
  rw [single, List.forall_mem_singleton]
  exact .inr ⟨rfl, by decide⟩

end LuaClasses
