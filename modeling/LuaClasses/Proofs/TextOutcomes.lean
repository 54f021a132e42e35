import LuaClasses.Proofs.DescentAgreement
import LuaClasses.Proofs.ListAlignment

/-! What comes of a text, by its source tree: which of its nodes keep it from being a program, and which
of the words in its lists are missing in the program. -/

namespace LuaClasses.Source

/-- A text that is read as a program, where both the tree of the text and the program pass a test. -/
theorem exists_parsed {text : String} {test : File → Program → Bool}
    (passes : (File.ofText? text).any (fun file => file.program.toOption.any (test file)) = true) :
    ∃ file program, File.ofText? text = some file ∧ Program.ofText text = .ok program ∧
      test file program = true := by
  obtain ⟨file, read, passes⟩ := (Option.any_eq_true _ _).1 passes
  obtain ⟨program, lowered, passes⟩ := (Option.any_eq_true _ _).1 passes
  refine ⟨file, program, read, ?_, passes⟩
  rw [Program.ofText_eq, read]
  cases outcome : file.program with
  | error problem => rw [outcome] at lowered; cases lowered
  | ok other => rw [outcome] at lowered; cases lowered; exact outcome

/-! ### The limit of nesting -/

/-- The limit is exact for every text in the grammar, if the words `global` that are left out of
lists have no level. If they have one, it is exact unless the first node beyond it is such a word.
The count of levels is what it rests on: after any part of any tree it is what it was before, but
for a node that is too deep, so that no part makes a difference to the level of the next. -/
theorem nesting_limit_exact {text : String} {file : File} (read : File.ofText? text = some file) :
    Decides file.counted (Program.ofText text) ∧
      ((∀ node, StopsAt file.visits node → node.omitted = false) →
        Decides file.visits (Program.ofText text)) ∧
      ∀ node : SyntaxNode, Descent.Steady (Descent.statement node) ∧
        Descent.Steady (Descent.expression node) ∧ Descent.Steady (Descent.statements node) := by
  have outcome : Program.ofText text = file.program := by rw [Program.ofText_eq, read]
  rw [outcome]
  exact ⟨file.decides_counted, file.decides_visits, fun node =>
    ⟨Descent.statement_steady node, Descent.expression_steady node, Descent.statements_steady node⟩⟩

theorem nesting_limit_of_function : ∃ file, File.ofText? "f(function() return #x end)" = some file ∧
    Decides file.counted (Program.ofText "f(function() return #x end)") ∧
    Decides file.visits (Program.ofText "f(function() return #x end)") := by
  obtain ⟨file, read, counted⟩ : ∃ file, File.ofText? "f(function() return #x end)" = some file ∧
      (file.visits.all fun node => !node.omitted) = true := (Option.any_eq_true _ _).1 (by decide +kernel)
  refine ⟨file, read, (nesting_limit_exact read).1, (nesting_limit_exact read).2.1 ?_⟩
  intro node stops
  obtain ⟨before, after, split, _⟩ := stops
  have member : node ∈ file.visits := split ▸ List.mem_append_right _ List.mem_cons_self
  simpa using List.all_eq_true.1 counted node member

/-- A function within as many operators as the limit leaves room for, which returns the word `global`. -/
def deepChars : List Char := "x=".toList ++ List.replicate 253 '#' ++ "function()return global end".toList

def deepText : String := .ofList deepChars

/-- There is a program of the text, in spite of the node beyond the limit. -/
theorem deep_global_passes :
    ∃ file program, File.ofText? deepText = some file ∧ Program.ofText deepText = .ok program ∧
    (∀ node ∈ file.visits, node.obstacle = none) ∧ ∃ node ∈ file.visits, maxLevel < node.level := by
  obtain ⟨file, program, read, parsed, tested⟩ : ∃ file program, File.ofText? deepText = some file ∧
      Program.ofText deepText = .ok program ∧ (file.visits.all (fun node => node.obstacle.isNone) &&
        file.visits.any fun node => decide (maxLevel < node.level)) = true := by
    apply exists_parsed
    -- The characters of the text are at hand. To find them in the text again takes far longer than to
    -- read it.
    rw [File.ofText?, File.reading, Cursor.ofText, deepText, String.toList_ofList]
    decide +kernel
  obtain ⟨supported, deep⟩ := Bool.and_eq_true_iff.1 tested
  refine ⟨file, program, read, parsed, ?_, ?_⟩
  · intro node member
    exact Option.isNone_iff_eq_none.1 (List.all_eq_true.1 supported node member)
  · obtain ⟨node, member, beyond⟩ := List.any_eq_true.1 deep
    exact ⟨node, member, of_decide_eq_true beyond⟩

/-! ### Lists -/

/-- A program is the counterpart of its text without the words `global` in lists. So each list of it has
one entry for each expression of the list in the text, in the same order, exactly if no list of the text
has such a word. -/
theorem lists_aligned_iff {text : String} {file : File} {program : Program}
    (read : File.ofText? text = some file) (parsed : Program.ofText text = .ok program) :
    program = file.counterpart false ∧ (program = file.counterpart true ↔ NoneOmitted file.visits) := by
  have outcome : file.program = .ok program := by rw [← parsed, Program.ofText_eq, read]
  have same := file.program_gives program outcome
  rw [same]
  exact ⟨rfl, file.counterpart_eq_iff⟩

theorem lists_aligned_of_call : ∃ file program, File.ofText? "x, y = f(1, z), 2" = some file ∧
    Program.ofText "x, y = f(1, z), 2" = .ok program ∧ program = file.counterpart true := by
  obtain ⟨file, program, read, parsed, counted⟩ : ∃ file program,
    File.ofText? "x, y = f(1, z), 2" = some file ∧
      Program.ofText "x, y = f(1, z), 2" = .ok program ∧ (file.visits.all fun node => !node.omitted) = true :=
    exists_parsed (by decide +kernel)
  refine ⟨file, program, read, parsed, (lists_aligned_iff read parsed).2.2 ?_⟩
  intro node member
  simpa using List.all_eq_true.1 counted node member

/-- The names and the types of literals on the two sides of an assignment. -/
def assignedSides : Stmt → List (Option String) × List (Option LuaType)
  | ⟨.assign targets values, _⟩ => (targets.map Expr.name?, values.map Expr.literalType?)
  | _ => ([], [])

/-- The number is the second of two values in the text and the only one in the program, so that it goes
to the first target. -/
theorem global_value_lost : ∃ file program, File.ofText? "x, y = global, 1" = some file ∧
    Program.ofText "x, y = global, 1" = .ok program ∧
    (file.counterpart true).body.map assignedSides = [([some "x", some "y"], [none, some .number])] ∧
    program.body.map assignedSides = [([some "x", some "y"], [some .number])] := by
  obtain ⟨file, program, read, parsed, sides⟩ : ∃ file program, File.ofText? "x, y = global, 1" = some file ∧
      Program.ofText "x, y = global, 1" = .ok program ∧
      (decide ((file.counterpart true).body.map assignedSides =
        [([some "x", some "y"], [none, some .number])]) &&
        decide (program.body.map assignedSides = [([some "x", some "y"], [some .number])])) = true :=
    exists_parsed (by decide +kernel)
  obtain ⟨whole, left⟩ := Bool.and_eq_true_iff.1 sides
  exact ⟨file, program, read, parsed, of_decide_eq_true whole, of_decide_eq_true left⟩

end LuaClasses.Source
