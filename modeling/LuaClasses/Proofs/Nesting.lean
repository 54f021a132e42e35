import LuaClasses.Source.Lowering

/-! The nodes of a source tree in the order in which the lowering comes to them, each with its level.
What comes of a text is decided by the first node that is too deep or has no counterpart in a program,
and by nothing else. -/

namespace LuaClasses.Source

/-- A node on the way through a source tree. -/
structure Visit where
  level : Nat
  span : Span
  /-- The kind of the node, if programs have no counterpart of it. -/
  obstacle : Option String
  /-- Whether the node is the word `global` as an element of a list, where it is left out. -/
  omitted : Bool

def TermForm.obstacle : TermForm → Option String
  | .global => some "global"
  | .paren inner => if inner.isGlobal then some "parenthesized_expression" else none
  | _ => none

def StatementForm.obstacle : StatementForm → Option String
  | .declareAll _ => some "implicit_variable_declaration"
  | _ => none

/-- The names of a declaration with values are nodes as the targets of an assignment are. -/
def namesVisits (level : Nat) (names : List (String × Span)) : List Visit :=
  names.map fun (_, span) => ⟨level, span, none, false⟩

mutual
/-- An expression at a level, and all that it holds one level below. -/
def Term.visits (level : Nat) : Term → List Visit
  | ⟨span, form⟩ => ⟨level, span, form.obstacle, false⟩ :: form.visits (level + 1)

/-- What a form holds, at the level of its parts. The arguments of a call come before what is called. -/
def TermForm.visits (level : Nat) : TermForm → List Visit
  | .nil => []
  | .boolean _ => []
  | .number _ => []
  | .string _ => []
  | .vararg => []
  | .name _ => []
  | .global => []
  | .function body => body.visits level
  | .table entries => fieldsVisits level entries
  | .member object _ => object.visits level
  | .index object key => object.visits level ++ key.visits level
  | .call callee args => termsVisits level args ++ callee.visits level
  | .methodCall object _ args => termsVisits level args ++ object.visits level
  | .paren inner => inner.visits level
  | .unary _ operand => operand.visits level
  | .binary _ left right => left.visits level ++ right.visits level

def termsVisits (level : Nat) : List Term → List Visit
  | [] => []
  | head :: rest =>
    (if head.isGlobal then [⟨level, head.span, none, true⟩] else head.visits level) ++ termsVisits level rest

def fieldsVisits (level : Nat) : List Field → List Visit
  | [] => []
  | head :: rest => head.visits level ++ fieldsVisits level rest

/-- The value of a field comes before its key. -/
def Field.visits (level : Nat) : Field → List Visit
  | .named _ value => value.visits level
  | .keyed key value => value.visits level ++ key.visits level
  | .positional value => value.visits level

def Callable.visits (level : Nat) : Callable → List Visit
  | ⟨_, _, body⟩ => statementsVisits level body

def statementsVisits (level : Nat) : List Statement → List Visit
  | [] => []
  | head :: rest => head.visits level ++ statementsVisits level rest

def Statement.visits (level : Nat) : Statement → List Visit
  | ⟨span, form⟩ => ⟨level, span, form.obstacle, false⟩ :: form.visits (level + 1)

/-- The body of a loop with a variable comes before the expressions that it runs over. The name of a
function is no node. -/
def StatementForm.visits (level : Nat) : StatementForm → List Visit
  | .empty => []
  | .declare _ _ => []
  | .define names _ values => namesVisits level names ++ termsVisits level values
  | .declareAll _ => []
  | .assign targets values => termsVisits level targets ++ termsVisits level values
  | .call call => call.visits level
  | .function _ _ body => body.visits level
  | .return_ values => termsVisits level values
  | .if_ first others otherwise =>
    first.visits level ++ (clausesVisits level others ++ otherwiseVisits level otherwise)
  | .while_ condition body => condition.visits level ++ statementsVisits level body
  | .repeat_ body condition => statementsVisits level body ++ condition.visits level
  | .do_ body => statementsVisits level body
  | .forNumeric _ start limit step body =>
    statementsVisits level body ++ (start.visits level ++ (limit.visits level ++ stepVisits level step))
  | .forGeneric _ exprs body => statementsVisits level body ++ termsVisits level exprs
  | .break_ => []
  | .goto _ => []
  | .label _ => []

def Clause.visits (level : Nat) : Clause → List Visit
  | ⟨condition, body⟩ => condition.visits level ++ statementsVisits level body

def clausesVisits (level : Nat) : List Clause → List Visit
  | [] => []
  | head :: rest => head.visits level ++ clausesVisits level rest

def otherwiseVisits (level : Nat) : Option Block → List Visit
  | none => []
  | some ⟨body⟩ => statementsVisits level body

def stepVisits (level : Nat) : Option Term → List Visit
  | none => []
  | some step => step.visits level
end

/-- The nodes of a whole text. Its own statements have level one. -/
def File.visits (file : File) : List Visit := statementsVisits 1 file.body

/-! ### The first problem -/

/-- What the lowering says of a node alone. -/
def Visit.problem? (visit : Visit) : Option ParseError :=
  if visit.omitted then none
  else if maxLevel < visit.level then some (.tooDeep (.ofSpan visit.span))
  else visit.obstacle.map fun kind => .unsupported kind (.ofSpan visit.span)

namespace Lowering

variable {α β : Type}

def problem? : Except ParseError α → Option ParseError
  | .ok _ => none
  | .error problem => some problem

private theorem problem?_bind {first : Except ParseError α} {next : α → Except ParseError β}
    {problem : Option ParseError} (after : ∀ value, problem? (next value) = problem) :
    problem? (first >>= next) = (problem? first).or problem := by
  cases first with
  | error early => rfl
  | ok value => exact after value

private theorem problem?_map (first : Except ParseError α) (next : α → β) :
    problem? (first >>= fun value => pure (next value)) = problem? first := by
  cases first with
  | error early => rfl
  | ok value => rfl

/-- The first problem of some nodes. -/
def firstProblem? (visits : List Visit) : Option ParseError := visits.findSome? Visit.problem?

private theorem firstProblem?_append (before after : List Visit) :
    firstProblem? (before ++ after) = (firstProblem? before).or (firstProblem? after) := List.findSome?_append

/-- The problem with a node that is an obstacle. -/
def refusal? (span : Span) (obstacle : Option String) : Option ParseError :=
  obstacle.map fun kind => .unsupported kind (.ofSpan span)

/-- A node is entered and, unless it is too deep, refused or gone through. -/
theorem problem?_enter {level : Nat} {span : Span} {obstacle : Option String} {inner : List Visit}
    {next : Unit → Except ParseError α}
    (rest : problem? (next ()) = (refusal? span obstacle).or (firstProblem? inner)) :
    problem? (enter level span >>= next) = firstProblem? (⟨level, span, obstacle, false⟩ :: inner) := by
  rw [firstProblem?, List.findSome?_cons, Visit.problem?, enter]
  by_cases deep : maxLevel < level
  · simp only [deep, if_true]
    rfl
  · simp only [deep, if_false]
    refine Eq.trans rest ?_
    cases obstacle <;> rfl

private theorem names_problem? (level : Nat) (declared : List (String × Span)) :
    problem? (names level declared) = firstProblem? (namesVisits level declared) := by
  induction declared with
  | nil => rfl
  | cons head rest ih =>
    obtain ⟨name, span⟩ := head
    rw [names, namesVisits, List.map_cons]
    apply problem?_enter
    rw [problem?_map, ih]
    rfl

mutual
theorem term_problem? (level : Nat) :
    (written : Term) → problem? (term level written) = firstProblem? (written.visits level)
  | ⟨span, form⟩ => by
    rw [term, Term.visits]
    exact problem?_enter (termForm_problem? level span form)

theorem termForm_problem? (level : Nat) (span : Span) : (form : TermForm) →
    problem? (termForm level span form) = (refusal? span form.obstacle).or
      (firstProblem? (form.visits (level + 1)))
  | .nil | .boolean _ | .number _ | .string _ | .vararg | .name _ | .global => by
    rw [termForm, TermForm.visits]
    rfl
  | .function body => by
    rw [termForm, TermForm.visits, problem?_map, callable_problem? level body]
    rfl
  | .table entries => by
    rw [termForm, TermForm.visits, problem?_map, fields_problem? level entries]
    rfl
  | .member object _ => by
    rw [termForm, TermForm.visits, problem?_map, term_problem? (level + 1) object]
    rfl
  | .index object key => by
    rw [termForm, TermForm.visits, firstProblem?_append, ← term_problem? (level + 1) object]
    apply problem?_bind
    intro _
    rw [problem?_map, term_problem? (level + 1) key]
  | .call callee args => by
    rw [termForm, TermForm.visits, firstProblem?_append, ← terms_problem? (level + 1) args]
    apply problem?_bind
    intro _
    rw [problem?_map, term_problem? (level + 1) callee]
  | .methodCall object _ args => by
    rw [termForm, TermForm.visits, firstProblem?_append, ← terms_problem? (level + 1) args]
    apply problem?_bind
    intro _
    rw [problem?_map, term_problem? (level + 1) object]
  | .paren inner => by
    rw [termForm, TermForm.visits, TermForm.obstacle]
    split
    · rfl
    · rw [problem?_map, term_problem? (level + 1) inner]
      rfl
  | .unary _ operand => by
    rw [termForm, TermForm.visits, problem?_map, term_problem? (level + 1) operand]
    rfl
  | .binary _ left right => by
    rw [termForm, TermForm.visits, firstProblem?_append, ← term_problem? (level + 1) left]
    apply problem?_bind
    intro _
    rw [problem?_map, term_problem? (level + 1) right]

theorem terms_problem? (level : Nat) :
    (written : List Term) → problem? (terms level written) = firstProblem? (termsVisits level written)
  | [] => rfl
  | head :: rest => by
    rw [terms, termsVisits, firstProblem?_append, ← terms_problem? level rest]
    split
    · rfl
    · rw [← term_problem? level head]
      exact problem?_bind fun _ => problem?_map _ _

theorem fields_problem? (level : Nat) :
    (written : List Field) → problem? (fields level written) = firstProblem?
    (fieldsVisits (level + 1) written)
  | [] => rfl
  | head :: rest => by
    rw [fields, fieldsVisits, firstProblem?_append, ← field_problem? level head, ← fields_problem? level rest]
    exact problem?_bind fun _ => problem?_map _ _

theorem field_problem? (level : Nat) :
    (written : Field) → problem? (field level written) = firstProblem? (written.visits (level + 1))
  | .named _ value | .positional value => by
    rw [field, Field.visits, problem?_map, term_problem? (level + 1) value]
  | .keyed key value => by
    rw [field, Field.visits, firstProblem?_append, ← term_problem?
      (level + 1) value, ← term_problem? (level + 1) key]
    exact problem?_bind fun _ => problem?_map _ _

theorem callable_problem? (level : Nat) :
    (written : Callable) → problem? (callable level written) = firstProblem? (written.visits (level + 1))
  | ⟨_, _, body⟩ => by
    rw [callable, Callable.visits, problem?_map, statements_problem? (level + 1) body]

theorem statements_problem? (level : Nat) :
    (written : List Statement) →
      problem? (statements level written) = firstProblem? (statementsVisits level written)
  | [] => rfl
  | head :: rest => by
    rw [statements, statementsVisits, firstProblem?_append, ← statement_problem? level
      head, ← statements_problem? level rest]
    exact problem?_bind fun _ => problem?_map _ _

theorem statement_problem? (level : Nat) :
    (written : Statement) → problem? (statement level written) = firstProblem? (written.visits level)
  | ⟨span, form⟩ => by
    rw [statement, Statement.visits]
    apply problem?_enter
    rw [problem?_map, statementForm_problem? level span form]

theorem statementForm_problem? (level : Nat) (span : Span) : (form : StatementForm) →
    problem? (statementForm level span form) = (refusal? span form.obstacle).or
      (firstProblem? (form.visits (level + 1)))
  | .empty | .declare _ _ | .declareAll _ | .break_ | .goto _ | .label _ => by
    rw [statementForm, StatementForm.visits]
    rfl
  | .define declared _ values => by
    rw [statementForm, StatementForm.visits, firstProblem?_append, ← names_problem? (level + 1) declared,
      ← terms_problem? (level + 1) values]
    exact problem?_bind fun _ => problem?_map _ _
  | .assign targets values => by
    rw [statementForm, StatementForm.visits, firstProblem?_append, ← terms_problem? (level + 1) targets,
      ← terms_problem? (level + 1) values]
    exact problem?_bind fun _ => problem?_map _ _
  | .call call => by
    rw [statementForm, StatementForm.visits, problem?_map, term_problem? (level + 1) call]
    rfl
  | .function _ _ body => by
    rw [statementForm, StatementForm.visits, problem?_map, callable_problem? level body]
    rfl
  | .return_ values => by
    rw [statementForm, StatementForm.visits, problem?_map, terms_problem? (level + 1) values]
    rfl
  | .if_ first others otherwise => by
    rw [statementForm, StatementForm.visits, firstProblem?_append,
      firstProblem?_append, ← clause_problem? level first,
      ← clauses_problem? level others]
    apply problem?_bind
    intro _
    match otherwise with
    | none =>
      rw [otherwiseVisits]
      exact problem?_bind fun _ => rfl
    | some ⟨body⟩ =>
      rw [otherwiseVisits, ← statements_problem? (level + 1) body]
      exact problem?_bind fun _ => problem?_map _ _
  | .while_ condition body => by
    rw [statementForm, StatementForm.visits, firstProblem?_append, ← term_problem? (level + 1) condition,
      ← statements_problem? (level + 1) body]
    exact problem?_bind fun _ => problem?_map _ _
  | .repeat_ body condition => by
    rw [statementForm, StatementForm.visits, firstProblem?_append, ← term_problem? (level + 1) condition,
      ← statements_problem? (level + 1) body]
    exact problem?_bind fun _ => problem?_map _ _
  | .do_ body => by
    rw [statementForm, StatementForm.visits, problem?_map, statements_problem? (level + 1) body]
    rfl
  | .forNumeric _ start limit step body => by
    rw [statementForm, StatementForm.visits, firstProblem?_append, firstProblem?_append, firstProblem?_append,
      ← statements_problem? (level + 1) body, ← term_problem?
        (level + 1) start, ← term_problem? (level + 1) limit]
    refine problem?_bind fun _ => problem?_bind fun _ => ?_
    match step with
    | none =>
      rw [stepVisits]
      exact problem?_bind fun _ => rfl
    | some step =>
      rw [stepVisits, ← term_problem? (level + 1) step]
      exact problem?_bind fun _ => problem?_map _ _
  | .forGeneric _ exprs body => by
    rw [statementForm, StatementForm.visits, firstProblem?_append, ← terms_problem? (level + 1) exprs,
      ← statements_problem? (level + 1) body]
    exact problem?_bind fun _ => problem?_map _ _

theorem clause_problem? (level : Nat) :
    (written : Clause) → problem? (clause level written) = firstProblem? (written.visits (level + 1))
  | ⟨condition, body⟩ => by
    rw [clause, Clause.visits, firstProblem?_append, ← term_problem? (level + 1) condition,
      ← statements_problem? (level + 1) body]
    exact problem?_bind fun _ => problem?_map _ _

theorem clauses_problem? (level : Nat) :
    (written : List Clause) → problem? (clauses level written) = firstProblem?
    (clausesVisits (level + 1) written)
  | [] => rfl
  | head :: rest => by
    rw [clauses, clausesVisits, firstProblem?_append, ← clause_problem? level
      head, ← clauses_problem? level rest]
    exact problem?_bind fun _ => problem?_map _ _
end

end Lowering

open Lowering

/-- What comes of a source tree is decided by the first problem of its nodes. -/
theorem File.program_problem? (file : File) : problem? file.program = firstProblem? file.visits := by
  rw [File.program, problem?_map, statements_problem? 1 file.body, File.visits]

/-! ### Levels -/

/-- Lists of nodes in which each node stands one level above what it holds. -/
inductive Nested : Nat → List Visit → Prop
  | nil {level : Nat} : Nested level []
  | append {level : Nat} {first rest : List Visit} : Nested level first → Nested level rest →
    Nested level (first ++ rest)
  | node {level : Nat} {inner : List Visit} (span : Span) (obstacle : Option String) :
      Nested (level + 1) inner → Nested level (⟨level, span, obstacle, false⟩ :: inner)
  | omitted {level : Nat} (span : Span) : Nested level [⟨level, span, none, true⟩]

private theorem nested_names (level : Nat) (names : List (String × Span)) :
    Nested level (namesVisits level names) := by
  induction names with
  | nil => exact .nil
  | cons head rest ih => exact .append (.node head.2 none .nil) ih

mutual
theorem nested_term (level : Nat) : (term : Term) → Nested level (term.visits level)
  | ⟨span, form⟩ => by
    rw [Term.visits]
    exact .node span form.obstacle (nested_termForm (level + 1) form)

theorem nested_termForm (level : Nat) : (form : TermForm) → Nested level (form.visits level)
  | .nil | .boolean _ | .number _ | .string _ | .vararg | .name _ | .global => by
    rw [TermForm.visits]
    exact .nil
  | .function body => nested_callable level body
  | .table entries => nested_fields level entries
  | .member object _ => nested_term level object
  | .index object key => .append (nested_term level object) (nested_term level key)
  | .call callee args => .append (nested_terms level args) (nested_term level callee)
  | .methodCall object _ args => .append (nested_terms level args) (nested_term level object)
  | .paren inner => nested_term level inner
  | .unary _ operand => nested_term level operand
  | .binary _ left right => .append (nested_term level left) (nested_term level right)

theorem nested_terms (level : Nat) : (terms : List Term) → Nested level (termsVisits level terms)
  | [] => .nil
  | head :: rest => by
    rw [termsVisits]
    split
    · exact .append (.omitted head.span) (nested_terms level rest)
    · exact .append (nested_term level head) (nested_terms level rest)

theorem nested_fields (level : Nat) : (fields : List Field) → Nested level (fieldsVisits level fields)
  | [] => .nil
  | head :: rest => .append (nested_field level head) (nested_fields level rest)

theorem nested_field (level : Nat) : (field : Field) → Nested level (field.visits level)
  | .named _ value => nested_term level value
  | .keyed key value => .append (nested_term level value) (nested_term level key)
  | .positional value => nested_term level value

theorem nested_callable (level : Nat) : (callable : Callable) → Nested level (callable.visits level)
  | ⟨_, _, body⟩ => nested_statements level body

theorem nested_statements (level : Nat) : (body : List Statement) → Nested level (statementsVisits level body)
  | [] => .nil
  | head :: rest => .append (nested_statement level head) (nested_statements level rest)

theorem nested_statement (level : Nat) : (statement : Statement) → Nested level (statement.visits level)
  | ⟨span, form⟩ => by
    rw [Statement.visits]
    exact .node span form.obstacle (nested_statementForm (level + 1) form)

theorem nested_statementForm (level : Nat) : (form : StatementForm) → Nested level (form.visits level)
  | .empty | .declare _ _ | .declareAll _ | .break_ | .goto _ | .label _ => by
    rw [StatementForm.visits]
    exact .nil
  | .define names _ values => .append (nested_names level names) (nested_terms level values)
  | .assign targets values => .append (nested_terms level targets) (nested_terms level values)
  | .call call => nested_term level call
  | .function _ _ body => nested_callable level body
  | .return_ values => nested_terms level values
  | .if_ first others otherwise =>
    .append (nested_clause level first) (.append (nested_clauses level others)
      (nested_otherwise level otherwise))
  | .while_ condition body => .append (nested_term level condition) (nested_statements level body)
  | .repeat_ body condition => .append (nested_statements level body) (nested_term level condition)
  | .do_ body => nested_statements level body
  | .forNumeric _ start limit step body =>
    .append (nested_statements level body)
      (.append (nested_term level start) (.append (nested_term level limit) (nested_step level step)))
  | .forGeneric _ exprs body => .append (nested_statements level body) (nested_terms level exprs)

theorem nested_clause (level : Nat) : (clause : Clause) → Nested level (clause.visits level)
  | ⟨condition, body⟩ => .append (nested_term level condition) (nested_statements level body)

theorem nested_clauses (level : Nat) : (clauses : List Clause) → Nested level (clausesVisits level clauses)
  | [] => .nil
  | head :: rest => .append (nested_clause level head) (nested_clauses level rest)

theorem nested_otherwise (level : Nat) :
    (otherwise : Option Block) → Nested level (otherwiseVisits level otherwise)
  | none => .nil
  | some ⟨body⟩ => nested_statements level body

theorem nested_step (level : Nat) : (step : Option Term) → Nested level (stepVisits level step)
  | none => .nil
  | some step => nested_term level step
end

/-- The node that holds a node comes before it. -/
theorem Nested.exists_holder {level : Nat} {nodes before after : List Visit} {node : Visit}
    (nested : Nested level nodes) (split : nodes = before ++ node :: after) :
    node.level = level ∨ ∃ earlier ∈ before, earlier.omitted = false ∧ earlier.level + 1 = node.level := by
  induction nested generalizing before after with
  | nil => cases before <;> cases split
  | @append level first rest _ _ one two =>
    rcases List.append_eq_append_iff.1 split with ⟨further, rfl, same⟩ | ⟨further, rfl, same⟩
    · apply (two same).imp_right
      intro ⟨earlier, member, others⟩
      exact ⟨earlier, List.mem_append_right _ member, others⟩
    · cases further with
      | nil =>
        have alone : rest = [] ++ node :: after := same.symm
        exact (two alone).imp_right fun ⟨_, member, _⟩ => absurd member List.not_mem_nil
      | cons head tail =>
        obtain ⟨rfl, rfl⟩ := List.cons.inj same
        exact one rfl
  | @node level inner span obstacle _ ih =>
    cases before with
    | nil =>
      obtain ⟨rfl, _⟩ := List.cons.inj split
      exact .inl rfl
    | cons head tail =>
      obtain ⟨rfl, same⟩ := List.cons.inj split
      rcases ih same with top | ⟨earlier, member, others⟩
      · exact .inr ⟨_, List.mem_cons_self, rfl, top.symm⟩
      · exact .inr ⟨earlier, List.mem_cons_of_mem _ member, others⟩
  | omitted span =>
    cases before with
    | nil =>
      obtain ⟨rfl, _⟩ := List.cons.inj split
      exact .inl rfl
    | cons head tail =>
      obtain ⟨_, same⟩ := List.cons.inj split
      cases tail <;> cases same

/-! ### The limit -/

/-- Whether a node is within the limit and has a counterpart in programs. -/
def Visit.Passes (visit : Visit) : Prop := visit.level ≤ maxLevel ∧ visit.obstacle = none

/-- Whether a node is the first that does not pass. -/
def StopsAt (nodes : List Visit) (node : Visit) : Prop :=
  ∃ before after, nodes = before ++ node :: after ∧ (∀ earlier ∈ before, earlier.Passes) ∧ ¬node.Passes

private theorem exists_stopsAt {nodes : List Visit} (fails : ¬∀ node ∈ nodes, node.Passes) :
    ∃ node, StopsAt nodes node := by
  induction nodes with
  | nil => exact absurd (fun _ member => absurd member List.not_mem_nil) fails
  | cons head rest ih =>
    by_cases pass : head.Passes
    · obtain ⟨node, before, after, rfl, passed, stopped⟩ := ih fun all =>
        fails (List.forall_mem_cons.2 ⟨pass, all⟩)
      exact ⟨node, head :: before, after, rfl, List.forall_mem_cons.2 ⟨pass, passed⟩, stopped⟩
    · exact ⟨head, [], rest, rfl, fun _ member => absurd member List.not_mem_nil, pass⟩

/-- Whether some nodes decide what comes of a text: there is a program exactly if all of them pass, and
else the error is that of the first one that does not. If that is too deep, it is so by one level. -/
structure Decides (nodes : List Visit) (outcome : Except ParseError Program) : Prop where
  succeeds_iff : (∃ program, outcome = .ok program) ↔ ∀ node ∈ nodes, node.Passes
  tooDeep : ∀ node, StopsAt nodes node → maxLevel < node.level →
    node.level = maxLevel + 1 ∧ outcome = .error (.tooDeep (.ofSpan node.span))
  unsupported : ∀ node kind, StopsAt nodes node → node.level ≤ maxLevel → node.obstacle = some kind →
    outcome = .error (.unsupported kind (.ofSpan node.span))

/-- The nodes but for the words `global` that are left out of lists. -/
def File.counted (file : File) : List Visit := file.visits.filter fun node => !node.omitted

theorem Visit.problem?_eq_none_iff {visit : Visit} (counted : visit.omitted = false) :
    visit.problem? = none ↔ visit.Passes := by
  rw [problem?, counted, Passes]
  by_cases deep : maxLevel < visit.level
  · simp [deep, Nat.not_le.2 deep]
  · simp [deep, Nat.not_lt.1 deep]

private theorem firstProblem?_counted (nodes : List Visit) :
    firstProblem? (nodes.filter fun node => !node.omitted) = firstProblem? nodes := by
  induction nodes with
  | nil => rfl
  | cons head rest ih =>
    cases omitted : head.omitted with
    | false =>
      rw [List.filter_cons_of_pos (by simp [omitted]), firstProblem?, List.findSome?_cons,
        firstProblem?, List.findSome?_cons]
      cases head.problem? with
      | none => exact ih
      | some problem => rfl
    | true =>
      have silent : head.problem? = none := by simp [Visit.problem?, omitted]
      rw [List.filter_cons_of_neg (by simp [omitted]), ih, firstProblem?, firstProblem?,
        List.findSome?_cons_of_isNone]
      rw [silent, Option.isNone_none]

private theorem firstProblem?_stopsAt {nodes : List Visit} {node : Visit}
    (counted : ∀ node ∈ nodes, node.omitted = false) (stops : StopsAt nodes node) :
    firstProblem? nodes = node.problem? := by
  obtain ⟨before, after, rfl, pass, fails⟩ := stops
  have silent : firstProblem? before = none := by
    apply List.findSome?_eq_none_iff.2
    intro earlier member
    exact (Visit.problem?_eq_none_iff (counted earlier (List.mem_append_left _ member))).2
      (pass earlier member)
  have own := counted node (List.mem_append_right _ List.mem_cons_self)
  obtain ⟨problem, found⟩ := Option.ne_none_iff_exists'.1 (mt (Visit.problem?_eq_none_iff own).1 fails)
  rw [firstProblem?_append, silent, Option.none_or, firstProblem?, List.findSome?_cons, found]

private theorem stopsAt_counted {nodes : List Visit} {node : Visit} (stops : StopsAt nodes node)
    (counted : node.omitted = false) :
    StopsAt (nodes.filter fun node => !node.omitted) node := by
  obtain ⟨before, after, rfl, pass, fails⟩ := stops
  refine ⟨before.filter fun node => !node.omitted, after.filter fun node => !node.omitted, ?_, ?_, fails⟩
  · rw [List.filter_append, List.filter_cons_of_pos (by simp [counted])]
  · intro earlier member
    exact pass earlier (List.mem_filter.1 member).1

/-- The first node beyond the limit is beyond it by one level: what holds it comes before it and passes. -/
theorem File.level_of_stopsAt {file : File} {node : Visit} (stops : StopsAt file.counted node)
    (deep : maxLevel < node.level) :
    node.level = maxLevel + 1 := by
  obtain ⟨before, after, split, pass, _⟩ := stops
  obtain ⟨first, rest, whole, counted, tail⟩ := List.filter_eq_append_iff.1 split
  obtain ⟨skipped, last, rfl, omitted, _, _⟩ := List.filter_eq_cons_iff.1 tail
  rw [← List.append_assoc] at whole
  rcases (nested_statements 1 file.body).exists_holder whole with top | ⟨earlier, member, own, holds⟩
  · rw [top] at deep
    exact absurd deep (by decide)
  · have listed : earlier ∈ before := by
      rw [← counted]
      rcases List.mem_append.1 member with member | member
      · exact List.mem_filter.2 ⟨member, by simp [own]⟩
      · exact absurd (by simp [own]) (omitted earlier member)
    have within := (pass earlier listed).1
    omega

theorem File.decides_counted (file : File) : Decides file.counted file.program := by
  have counted : ∀ node ∈ file.counted, node.omitted = false := by
    intro node member
    simpa using (List.mem_filter.1 member).2
  have first : problem? file.program = firstProblem? file.counted := by
    rw [file.program_problem?, File.counted, firstProblem?_counted]
  have failed : ∀ problem, problem? file.program = some problem → file.program = .error problem := by
    intro problem found
    cases outcome : file.program with
    | ok program => rw [outcome] at found; cases found
    | error other => rw [outcome] at found; cases found; rfl
  refine ⟨?_, ?_, ?_⟩
  · calc
      (∃ program, file.program = .ok program) ↔ problem? file.program = none := by
        cases file.program <;> simp [problem?]
      _ ↔ ∀ node ∈ file.counted, node.problem? = none := by
        rw [first, firstProblem?, List.findSome?_eq_none_iff]
      _ ↔ ∀ node ∈ file.counted, node.Passes :=
        forall₂_congr fun node member => Visit.problem?_eq_none_iff (counted node member)
  · intro node stops deep
    refine ⟨file.level_of_stopsAt stops deep, failed _ ?_⟩
    obtain ⟨before, after, split, _, _⟩ := id stops
    have own := counted node (split ▸ List.mem_append_right _ List.mem_cons_self)
    rw [first, firstProblem?_stopsAt counted stops, Visit.problem?, own]
    simp [deep]
  · intro node kind stops within obstacle
    apply failed
    obtain ⟨before, after, split, _, _⟩ := id stops
    have own := counted node (split ▸ List.mem_append_right _ List.mem_cons_self)
    rw [first, firstProblem?_stopsAt counted stops, Visit.problem?, own, obstacle]
    simp [Nat.not_lt.2 within]

/-- Where the first node that does not pass is no omitted word, the omitted words need not be told from
the other nodes. -/
theorem File.decides_visits {file : File} (seen : ∀ node, StopsAt file.visits node → node.omitted = false) :
    Decides file.visits file.program := by
  have decided := file.decides_counted
  refine ⟨decided.succeeds_iff.trans ⟨?_, ?_⟩, ?_, ?_⟩
  · intro pass
    apply Classical.byContradiction
    intro fails
    obtain ⟨node, stops⟩ := exists_stopsAt fails
    have own := seen node stops
    obtain ⟨before, after, split, _, fails⟩ := stops
    have member : node ∈ file.visits := split ▸ List.mem_append_right _ List.mem_cons_self
    exact fails (pass node (List.mem_filter.2 ⟨member, by simp [own]⟩))
  · intro pass node member
    exact pass node (List.mem_filter.1 member).1
  · intro node stops deep
    exact decided.tooDeep node (stopsAt_counted stops (seen node stops)) deep
  · intro node kind stops within obstacle
    exact decided.unsupported node kind (stopsAt_counted stops (seen node stops)) within obstacle

end LuaClasses.Source
