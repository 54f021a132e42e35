import LuaClasses.Proofs.Nesting

/-! The program that a source tree stands for, node by node. The lowering yields it but for the words
`global` in lists: where one of them is an element of a list, the elements after it move up by one
place. -/

namespace LuaClasses.Source

mutual
/-- The counterpart of an expression. The word `global` as an element of a list has one if it is kept, as
a name. -/
def Term.expr (keep : Bool) : Term → Expr
  | ⟨_, form⟩ => form.expr keep

def TermForm.expr (keep : Bool) : TermForm → Expr
  | .nil => .nil
  | .boolean value => .boolean value
  | .number text => .number text
  | .string literal => .string literal.content
  | .vararg => .vararg
  | .name name => .name name
  | .global => .name Keyword.global.text
  | .function body => .function (body.functionBody keep)
  | .table entries => .table (tableFieldsOf keep entries)
  | .member object name => .member (object.expr keep) name
  | .index object key => .index (object.expr keep) (key.expr keep)
  | .call callee args => .call (callee.expr keep) (exprsOf keep args)
  | .methodCall object method args => .methodCall (object.expr keep) method (exprsOf keep args)
  | .paren inner => .paren (inner.expr keep)
  | .unary op operand => .unary op (operand.expr keep)
  | .binary op left right => .binary op (left.expr keep) (right.expr keep)

def exprsOf (keep : Bool) : List Term → List Expr
  | [] => []
  | head :: rest => if head.isGlobal && !keep then exprsOf keep rest else head.expr keep :: exprsOf keep rest

def tableFieldsOf (keep : Bool) : List Field → List TableField
  | [] => []
  | head :: rest => head.tableField keep :: tableFieldsOf keep rest

def Field.tableField (keep : Bool) : Field → TableField
  | .named name value => .named name (value.expr keep)
  | .keyed key value => .keyed (key.expr keep) (value.expr keep)
  | .positional value => .positional (value.expr keep)

def Callable.functionBody (keep : Bool) : Callable → FunctionBody
  | ⟨params, vararg, body⟩ => ⟨params, vararg, stmtsOf keep body⟩

def stmtsOf (keep : Bool) : List Statement → List Stmt
  | [] => []
  | head :: rest => (head.stmt? keep).toList ++ stmtsOf keep rest

def Statement.stmt? (keep : Bool) : Statement → Option Stmt
  | ⟨span, form⟩ => (form.kind? keep).map fun kind => ⟨kind, .ofSpan span⟩

/-- Empty statements and the declaration `global *` have no counterpart. -/
def StatementForm.kind? (keep : Bool) : StatementForm → Option StmtKind
  | .empty => none
  | .declare names _ => some (.local_ (names.map Prod.fst) [])
  | .define names _ values => some (.local_ (names.map Prod.fst) (exprsOf keep values))
  | .declareAll _ => none
  | .assign targets values => some (.assign (exprsOf keep targets) (exprsOf keep values))
  | .call call => some (.call (call.expr keep))
  | .function name isLocal body => some (.function name isLocal (body.functionBody keep))
  | .return_ values => some (.return_ (exprsOf keep values))
  | .if_ first others otherwise =>
    some (.if_ (first.ifClause keep :: (ifClausesOf keep others ++ elseOf keep otherwise)))
  | .while_ condition body => some (.while_ (condition.expr keep) (stmtsOf keep body))
  | .repeat_ body condition => some (.repeat_ (stmtsOf keep body) (condition.expr keep))
  | .do_ body => some (.do_ (stmtsOf keep body))
  | .forNumeric var start limit step body =>
    some (.forNumeric var (start.expr keep) (limit.expr keep) (stepOf keep step) (stmtsOf keep body))
  | .forGeneric names exprs body => some (.forGeneric names (exprsOf keep exprs) (stmtsOf keep body))
  | .break_ => some .break_
  | .goto label => some (.goto label)
  | .label name => some (.label name)

def Clause.ifClause (keep : Bool) : Clause → IfClause
  | ⟨condition, body⟩ => ⟨some (condition.expr keep), stmtsOf keep body⟩

def ifClausesOf (keep : Bool) : List Clause → List IfClause
  | [] => []
  | head :: rest => head.ifClause keep :: ifClausesOf keep rest

def elseOf (keep : Bool) : Option Block → List IfClause
  | none => []
  | some ⟨body⟩ => [⟨none, stmtsOf keep body⟩]

def stepOf (keep : Bool) : Option Term → Option Expr
  | none => none
  | some step => some (step.expr keep)
end

/-- The counterpart of a whole text. -/
def File.counterpart (keep : Bool) (file : File) : Program := ⟨stmtsOf keep file.body⟩

/-- Where nothing is left out, a list has one entry for each expression. -/
theorem exprsOf_true (terms : List Term) : exprsOf true terms = terms.map (Term.expr true) := by
  induction terms with
  | nil => rfl
  | cons head rest ih =>
    rw [exprsOf, ih, Bool.not_true, Bool.and_false, List.map_cons, if_neg Bool.false_ne_true]

/-- Where the words `global` are left out, the other expressions keep their order. -/
theorem exprsOf_false (terms : List Term) :
    exprsOf false terms = (terms.filter fun term => !term.isGlobal).map (Term.expr false) := by
  induction terms with
  | nil => rfl
  | cons head rest ih =>
    rw [exprsOf, ih]
    cases left : head.isGlobal <;> simp [left]

namespace Lowering

variable {α β : Type}

/-- Whether a value is all that can come of a lowering, unless it fails. -/
def Gives (outcome : Except ParseError α) (value : α) : Prop := ∀ given, outcome = .ok given → given = value

theorem Gives.ok (value : α) : Gives (.ok value) value := by
  intro given same
  cases same
  rfl

theorem Gives.error (problem : ParseError) (value : α) : Gives (.error problem) value := by
  intro given same
  cases same

theorem Gives.bind {first : Except ParseError α} {next : α → Except ParseError β} {middle : α} {last : β}
    (one : Gives first middle) (two : Gives (next middle) last) : Gives (first >>= next) last := by
  cases first with
  | error problem => exact .error problem last
  | ok value =>
    cases one value rfl
    exact two

theorem Gives.map {first : Except ParseError α} {middle : α} (one : Gives first middle) (next : α → β) :
    Gives (first >>= fun value => pure (next value)) (next middle) := one.bind (.ok _)

private theorem enter_gives {level : Nat} {span : Span} {next : Unit → Except ParseError α} {last : α}
    (rest : Gives (next ()) last) :
    Gives (enter level span >>= next) last := Gives.bind (fun () _ => rfl) rest

theorem names_gives (level : Nat) (declared : List (String × Span)) :
    Gives (names level declared) (declared.map Prod.fst) := by
  induction declared with
  | nil => exact .ok []
  | cons head rest ih => exact enter_gives (ih.map _)

mutual
theorem term_gives (level : Nat) : (written : Term) → Gives (term level written) (written.expr false)
  | ⟨span, form⟩ => by
    rw [term, Term.expr]
    exact enter_gives (termForm_gives level span form)

theorem termForm_gives (level : Nat) (span : Span) :
    (form : TermForm) → Gives (termForm level span form) (form.expr false)
  | .nil | .boolean _ | .number _ | .string _ | .vararg | .name _ => by
    rw [termForm, TermForm.expr]
    exact .ok _
  | .global => .error _ _
  | .function body => by
    rw [termForm, TermForm.expr]
    exact (callable_gives level body).map _
  | .table entries => by
    rw [termForm, TermForm.expr]
    exact (fields_gives level entries).map _
  | .member object name => by
    rw [termForm, TermForm.expr]
    exact (term_gives (level + 1) object).map (Expr.member · name)
  | .index object key => by
    rw [termForm, TermForm.expr]
    exact (term_gives (level + 1) object).bind ((term_gives (level + 1) key).map _)
  | .call callee args => by
    rw [termForm, TermForm.expr]
    exact (terms_gives (level + 1) args).bind
      ((term_gives (level + 1) callee).map (Expr.call · (exprsOf false args)))
  | .methodCall object method args => by
    rw [termForm, TermForm.expr]
    exact (terms_gives (level + 1) args).bind
      ((term_gives (level + 1) object).map (Expr.methodCall · method (exprsOf false args)))
  | .paren inner => by
    rw [termForm, TermForm.expr]
    split
    · exact .error _ _
    · exact (term_gives (level + 1) inner).map _
  | .unary op operand => by
    rw [termForm, TermForm.expr]
    exact (term_gives (level + 1) operand).map _
  | .binary op left right => by
    rw [termForm, TermForm.expr]
    exact (term_gives (level + 1) left).bind ((term_gives (level + 1) right).map _)

theorem terms_gives (level : Nat) :
    (written : List Term) → Gives (terms level written) (exprsOf false written)
  | [] => .ok []
  | head :: rest => by
    rw [terms, exprsOf, Bool.not_false, Bool.and_true]
    split
    · exact terms_gives level rest
    · exact (term_gives level head).bind ((terms_gives level rest).map _)

theorem fields_gives (level : Nat) :
    (written : List Field) → Gives (fields level written) (tableFieldsOf false written)
  | [] => .ok []
  | head :: rest => (field_gives level head).bind ((fields_gives level rest).map _)

theorem field_gives (level : Nat) : (written : Field) → Gives (field level written) (written.tableField false)
  | .named _ value => (term_gives (level + 1) value).map _
  | .positional value => (term_gives (level + 1) value).map _
  | .keyed key value =>
    (term_gives (level + 1) value).bind ((term_gives (level + 1) key).map
      (TableField.keyed · (value.expr false)))

theorem callable_gives (level : Nat) :
    (written : Callable) → Gives (callable level written) (written.functionBody false)
  | ⟨params, vararg, body⟩ => (statements_gives (level + 1) body).map (FunctionBody.mk params vararg)

theorem statements_gives (level : Nat) :
    (written : List Statement) → Gives (statements level written) (stmtsOf false written)
  | [] => .ok []
  | head :: rest => (statement_gives level head).bind ((statements_gives level rest).map _)

theorem statement_gives (level : Nat) :
    (written : Statement) → Gives (statement level written) (written.stmt? false)
  | ⟨span, form⟩ => by
    rw [statement, Statement.stmt?]
    exact enter_gives ((statementForm_gives level span form).map _)

theorem statementForm_gives (level : Nat) (span : Span) : (form : StatementForm) →
    Gives (statementForm level span form) (form.kind? false)
  | .empty | .declare _ _ | .break_ | .goto _ | .label _ => by
    rw [statementForm, StatementForm.kind?]
    exact .ok _
  | .declareAll _ => .error _ _
  | .define declared _ values => by
    rw [statementForm, StatementForm.kind?]
    exact (names_gives (level + 1) declared).bind ((terms_gives (level + 1) values).map _)
  | .assign targets values => by
    rw [statementForm, StatementForm.kind?]
    exact (terms_gives (level + 1) targets).bind ((terms_gives (level + 1) values).map _)
  | .call call => by
    rw [statementForm, StatementForm.kind?]
    exact (term_gives (level + 1) call).map _
  | .function name isLocal body => by
    rw [statementForm, StatementForm.kind?]
    exact (callable_gives level body).map _
  | .return_ values => by
    rw [statementForm, StatementForm.kind?]
    exact (terms_gives (level + 1) values).map _
  | .if_ first others otherwise => by
    rw [statementForm, StatementForm.kind?]
    refine (clause_gives level first).bind ((clauses_gives level others).bind ?_)
    match otherwise with
    | none =>
      rw [elseOf, List.append_nil]
      exact .ok _
    | some ⟨body⟩ => exact (statements_gives (level + 1) body).map _
  | .while_ condition body => by
    rw [statementForm, StatementForm.kind?]
    exact (term_gives (level + 1) condition).bind ((statements_gives (level + 1) body).map _)
  | .repeat_ body condition => by
    rw [statementForm, StatementForm.kind?]
    exact (statements_gives (level + 1) body).bind ((term_gives (level + 1) condition).map _)
  | .do_ body => by
    rw [statementForm, StatementForm.kind?]
    exact (statements_gives (level + 1) body).map _
  | .forNumeric var start limit step body => by
    rw [statementForm, StatementForm.kind?]
    refine (statements_gives (level + 1) body).bind
      ((term_gives (level + 1) start).bind ((term_gives (level + 1) limit).bind ?_))
    match step with
    | none => exact .ok _
    | some step => exact (term_gives (level + 1) step).map _
  | .forGeneric names exprs body => by
    rw [statementForm, StatementForm.kind?]
    exact (statements_gives (level + 1) body).bind
      ((terms_gives (level + 1) exprs).map fun exprs =>
        some (StmtKind.forGeneric names exprs (stmtsOf false body)))

theorem clause_gives (level : Nat) :
    (written : Clause) → Gives (clause level written) (written.ifClause false)
  | ⟨condition, body⟩ => (term_gives (level + 1) condition).bind ((statements_gives (level + 1) body).map _)

theorem clauses_gives (level : Nat) :
    (written : List Clause) → Gives (clauses level written) (ifClausesOf false written)
  | [] => .ok []
  | head :: rest => (clause_gives level head).bind ((clauses_gives level rest).map _)
end

end Lowering

open Lowering

theorem File.program_gives (file : File) : Gives file.program (file.counterpart false) :=
  (statements_gives 1 file.body).map Program.mk

/-! ### Aligned lists -/

/-- Whether no node is a word `global` that is left out of a list. -/
def NoneOmitted (nodes : List Visit) : Prop := ∀ node ∈ nodes, node.omitted = false

private theorem noneOmitted_nil : NoneOmitted [] := fun _ member => absurd member List.not_mem_nil

@[simp] theorem noneOmitted_cons {node : Visit} {rest : List Visit} :
    NoneOmitted (node :: rest) ↔ node.omitted = false ∧ NoneOmitted rest := List.forall_mem_cons

@[simp] theorem noneOmitted_append {before after : List Visit} :
    NoneOmitted (before ++ after) ↔ NoneOmitted before ∧ NoneOmitted after := List.forall_mem_append

private theorem noneOmitted_names (level : Nat) (names : List (String × Span)) :
    NoneOmitted (namesVisits level names) := by
  intro node member
  obtain ⟨_, _, rfl⟩ := List.mem_map.1 member
  rfl

theorem length_exprsOf_le (terms : List Term) :
    (exprsOf false terms).length ≤ (exprsOf true terms).length := by
  rw [exprsOf_true, exprsOf_false, List.length_map, List.length_map]
  exact List.length_filter_le _ terms

theorem Statement.length_stmt? (statement : Statement) :
    (statement.stmt? false).toList.length = (statement.stmt? true).toList.length := by
  obtain ⟨span, form⟩ := statement
  cases form <;> rfl

theorem length_ifClausesOf (clauses : List Clause) :
    (ifClausesOf false clauses).length = (ifClausesOf true clauses).length := by
  induction clauses with
  | nil => rfl
  | cons head rest ih => exact congrArg Nat.succ ih

mutual
theorem Term.expr_eq_iff (level : Nat) :
    (term : Term) → (term.expr false = term.expr true ↔ NoneOmitted (term.visits level))
  | ⟨span, form⟩ => by
    simp only [Term.expr, Term.visits, noneOmitted_cons, true_and, form.expr_eq_iff (level + 1)]

theorem TermForm.expr_eq_iff (level : Nat) : (form : TermForm) →
    (form.expr false = form.expr true ↔ NoneOmitted (form.visits level))
  | .nil | .boolean _ | .number _ | .string _ | .vararg | .name _ | .global => by
    rw [TermForm.visits]
    exact iff_of_true rfl noneOmitted_nil
  | .function body => by
    simp only [TermForm.expr, TermForm.visits, Expr.function.injEq, body.functionBody_eq_iff level]
  | .table entries => by
    simp only [TermForm.expr, TermForm.visits, Expr.table.injEq, tableFieldsOf_eq_iff level entries]
  | .member object _ => by
    simp only [TermForm.expr, TermForm.visits, Expr.member.injEq, and_true, object.expr_eq_iff level]
  | .index object key => by
    simp only [TermForm.expr, TermForm.visits, Expr.index.injEq, noneOmitted_append, object.expr_eq_iff level,
      key.expr_eq_iff level]
  | .call callee args => by
    simp only [TermForm.expr, TermForm.visits, Expr.call.injEq, noneOmitted_append, callee.expr_eq_iff level,
      exprsOf_eq_iff level args, and_comm]
  | .methodCall object _ args => by
    simp only [TermForm.expr, TermForm.visits, Expr.methodCall.injEq, true_and, noneOmitted_append,
      object.expr_eq_iff level,
      exprsOf_eq_iff level args, and_comm]
  | .paren inner => by
    simp only [TermForm.expr, TermForm.visits, Expr.paren.injEq, inner.expr_eq_iff level]
  | .unary _ operand => by
    simp only [TermForm.expr, TermForm.visits, Expr.unary.injEq, true_and, operand.expr_eq_iff level]
  | .binary _ left right => by
    simp only [TermForm.expr, TermForm.visits, Expr.binary.injEq, true_and,
      noneOmitted_append, left.expr_eq_iff level,
      right.expr_eq_iff level]

theorem exprsOf_eq_iff (level : Nat) : (terms : List Term) →
    (exprsOf false terms = exprsOf true terms ↔ NoneOmitted (termsVisits level terms))
  | [] => iff_of_true rfl noneOmitted_nil
  | head :: rest => by
    cases left : head.isGlobal with
    | true =>
      -- The list without the word is too short, whatever follows.
      refine iff_of_false ?_ ?_
      · intro same
        have lengths := congrArg List.length same
        have shorter := length_exprsOf_le rest
        simp [exprsOf, left] at lengths
        omega
      · simp [termsVisits, left]
    | false =>
      simp [exprsOf, termsVisits, left, head.expr_eq_iff level, exprsOf_eq_iff level rest]

theorem tableFieldsOf_eq_iff (level : Nat) : (fields : List Field) →
    (tableFieldsOf false fields = tableFieldsOf true fields ↔ NoneOmitted (fieldsVisits level fields))
  | [] => iff_of_true rfl noneOmitted_nil
  | head :: rest => by
    simp only [tableFieldsOf, fieldsVisits, List.cons.injEq, noneOmitted_append, head.tableField_eq_iff level,
      tableFieldsOf_eq_iff level rest]

theorem Field.tableField_eq_iff (level : Nat) : (field : Field) →
    (field.tableField false = field.tableField true ↔ NoneOmitted (field.visits level))
  | .named _ value => by
    simp only [Field.tableField, Field.visits, TableField.named.injEq, true_and, value.expr_eq_iff level]
  | .keyed key value => by
    simp only [Field.tableField, Field.visits, TableField.keyed.injEq,
      noneOmitted_append, key.expr_eq_iff level,
      value.expr_eq_iff level, and_comm]
  | .positional value => by
    simp only [Field.tableField, Field.visits, TableField.positional.injEq, value.expr_eq_iff level]

theorem Callable.functionBody_eq_iff (level : Nat) : (callable : Callable) →
    (callable.functionBody false = callable.functionBody true ↔ NoneOmitted (callable.visits level))
  | ⟨params, vararg, body⟩ => by
    simp only [Callable.functionBody, Callable.visits, FunctionBody.mk.injEq, true_and,
      stmtsOf_eq_iff level body]

theorem stmtsOf_eq_iff (level : Nat) : (body : List Statement) →
    (stmtsOf false body = stmtsOf true body ↔ NoneOmitted (statementsVisits level body))
  | [] => iff_of_true rfl noneOmitted_nil
  | head :: rest => by
    simp only [stmtsOf, statementsVisits, List.append_eq_append_iff_of_size_eq_left head.length_stmt?,
      noneOmitted_append,
      head.stmt?_eq_iff level, stmtsOf_eq_iff level rest]

theorem Statement.stmt?_eq_iff (level : Nat) : (statement : Statement) →
    ((statement.stmt? false).toList = (statement.stmt? true).toList ↔ NoneOmitted (statement.visits level))
  | ⟨span, form⟩ => by
    simp only [Statement.stmt?, Statement.visits, noneOmitted_cons, true_and, ← form.kind?_eq_iff (level + 1)]
    cases form.kind? false <;> cases form.kind? true <;> simp

theorem StatementForm.kind?_eq_iff (level : Nat) : (form : StatementForm) →
    (form.kind? false = form.kind? true ↔ NoneOmitted (form.visits level))
  | .empty | .declare _ _ | .declareAll _ | .break_ | .goto _ | .label _ => by
    rw [StatementForm.visits]
    exact iff_of_true rfl noneOmitted_nil
  | .define names _ values => by
    simp only [StatementForm.kind?, StatementForm.visits, Option.some.injEq, StmtKind.local_.injEq,
      true_and, noneOmitted_append,
      noneOmitted_names, exprsOf_eq_iff level values]
  | .assign targets values => by
    simp only [StatementForm.kind?, StatementForm.visits, Option.some.injEq,
      StmtKind.assign.injEq, noneOmitted_append,
      exprsOf_eq_iff level targets, exprsOf_eq_iff level values]
  | .call call => by
    simp only [StatementForm.kind?, StatementForm.visits, Option.some.injEq,
      StmtKind.call.injEq, call.expr_eq_iff level]
  | .function _ _ body => by
    simp only [StatementForm.kind?, StatementForm.visits, Option.some.injEq,
      StmtKind.function.injEq, true_and,
      body.functionBody_eq_iff level]
  | .return_ values => by
    simp only [StatementForm.kind?, StatementForm.visits, Option.some.injEq, StmtKind.return_.injEq,
      exprsOf_eq_iff level values]
  | .if_ first others otherwise => by
    simp only [StatementForm.kind?, StatementForm.visits, Option.some.injEq,
      StmtKind.if_.injEq, List.cons.injEq,
      List.append_eq_append_iff_of_size_eq_left (length_ifClausesOf others), noneOmitted_append,
        first.ifClause_eq_iff level,
      ifClausesOf_eq_iff level others, elseOf_eq_iff level otherwise]
  | .while_ condition body => by
    simp only [StatementForm.kind?, StatementForm.visits, Option.some.injEq,
      StmtKind.while_.injEq, noneOmitted_append,
      condition.expr_eq_iff level, stmtsOf_eq_iff level body]
  | .repeat_ body condition => by
    simp only [StatementForm.kind?, StatementForm.visits, Option.some.injEq,
      StmtKind.repeat_.injEq, noneOmitted_append,
      condition.expr_eq_iff level, stmtsOf_eq_iff level body]
  | .do_ body => by
    simp only [StatementForm.kind?, StatementForm.visits, Option.some.injEq, StmtKind.do_.injEq,
      stmtsOf_eq_iff level body]
  | .forNumeric _ start limit step body => by
    simp only [StatementForm.kind?, StatementForm.visits, Option.some.injEq,
      StmtKind.forNumeric.injEq, true_and,
      noneOmitted_append, start.expr_eq_iff level, limit.expr_eq_iff level, stepOf_eq_iff level step,
        stmtsOf_eq_iff level body,
      and_comm, and_left_comm, and_assoc]
  | .forGeneric _ exprs body => by
    simp only [StatementForm.kind?, StatementForm.visits, Option.some.injEq,
      StmtKind.forGeneric.injEq, true_and,
      noneOmitted_append, exprsOf_eq_iff level exprs, stmtsOf_eq_iff level body, and_comm]

theorem Clause.ifClause_eq_iff (level : Nat) : (clause : Clause) →
    (clause.ifClause false = clause.ifClause true ↔ NoneOmitted (clause.visits level))
  | ⟨condition, body⟩ => by
    simp only [Clause.ifClause, Clause.visits, IfClause.mk.injEq, Option.some.injEq, noneOmitted_append,
      condition.expr_eq_iff level, stmtsOf_eq_iff level body]

theorem ifClausesOf_eq_iff (level : Nat) : (clauses : List Clause) →
    (ifClausesOf false clauses = ifClausesOf true clauses ↔ NoneOmitted (clausesVisits level clauses))
  | [] => iff_of_true rfl noneOmitted_nil
  | head :: rest => by
    simp only [ifClausesOf, clausesVisits, List.cons.injEq, noneOmitted_append, head.ifClause_eq_iff level,
      ifClausesOf_eq_iff level rest]

theorem elseOf_eq_iff (level : Nat) : (otherwise : Option Block) →
    (elseOf false otherwise = elseOf true otherwise ↔ NoneOmitted (otherwiseVisits level otherwise))
  | none => iff_of_true rfl noneOmitted_nil
  | some ⟨body⟩ => by
    simp only [elseOf, otherwiseVisits, List.cons.injEq, and_true, IfClause.mk.injEq, true_and,
      stmtsOf_eq_iff level body]

theorem stepOf_eq_iff (level : Nat) : (step : Option Term) →
    (stepOf false step = stepOf true step ↔ NoneOmitted (stepVisits level step))
  | none => iff_of_true rfl noneOmitted_nil
  | some step => by
    simp only [stepOf, stepVisits, Option.some.injEq, step.expr_eq_iff level]
end

theorem File.counterpart_eq_iff (file : File) :
    file.counterpart false = file.counterpart true ↔ NoneOmitted file.visits := by
  simp only [File.counterpart, Program.mk.injEq, File.visits, stmtsOf_eq_iff 1 file.body]

end LuaClasses.Source
