import LuaClasses.Source.Lowering

/-! Programs and source trees without their places. Where two trees differ in places only, so do the
programs that come from them, and so do the errors. -/

namespace LuaClasses

mutual
def Expr.unplaced : Expr → Expr
  | .nil => .nil
  | .boolean value => .boolean value
  | .number text => .number text
  | .string value => .string value
  | .vararg => .vararg
  | .function body => .function (bodyUnplaced body)
  | .table fields => .table (fieldsUnplaced fields)
  | .name name => .name name
  | .member object name => .member object.unplaced name
  | .index object key => .index object.unplaced key.unplaced
  | .call callee args => .call callee.unplaced (exprsUnplaced args)
  | .methodCall object method args => .methodCall object.unplaced method (exprsUnplaced args)
  | .paren inner => .paren inner.unplaced
  | .unary op operand => .unary op operand.unplaced
  | .binary op left right => .binary op left.unplaced right.unplaced

def exprsUnplaced : List Expr → List Expr
  | [] => []
  | first :: rest => first.unplaced :: exprsUnplaced rest

def fieldsUnplaced : List TableField → List TableField
  | [] => []
  | first :: rest => fieldUnplaced first :: fieldsUnplaced rest

def fieldUnplaced : TableField → TableField
  | .named name value => .named name value.unplaced
  | .keyed key value => .keyed key.unplaced value.unplaced
  | .positional value => .positional value.unplaced

def bodyUnplaced : FunctionBody → FunctionBody
  | ⟨params, vararg, body⟩ => ⟨params, vararg, stmtsUnplaced body⟩

def stmtsUnplaced : List Stmt → List Stmt
  | [] => []
  | first :: rest => stmtUnplaced first :: stmtsUnplaced rest

def stmtUnplaced : Stmt → Stmt
  | ⟨kind, _⟩ => ⟨kindUnplaced kind, .none⟩

def kindUnplaced : StmtKind → StmtKind
  | .local_ names values => .local_ names (exprsUnplaced values)
  | .assign targets values => .assign (exprsUnplaced targets) (exprsUnplaced values)
  | .call call => .call call.unplaced
  | .function name isLocal body => .function name isLocal (bodyUnplaced body)
  | .return_ values => .return_ (exprsUnplaced values)
  | .if_ clauses => .if_ (clausesUnplaced clauses)
  | .while_ condition body => .while_ condition.unplaced (stmtsUnplaced body)
  | .repeat_ body condition => .repeat_ (stmtsUnplaced body) condition.unplaced
  | .do_ body => .do_ (stmtsUnplaced body)
  | .forNumeric var start limit step body =>
    .forNumeric var start.unplaced limit.unplaced (optionUnplaced step) (stmtsUnplaced body)
  | .forGeneric names exprs body => .forGeneric names (exprsUnplaced exprs) (stmtsUnplaced body)
  | .break_ => .break_
  | .goto label => .goto label
  | .label name => .label name

def clausesUnplaced : List IfClause → List IfClause
  | [] => []
  | first :: rest => clauseUnplaced first :: clausesUnplaced rest

def clauseUnplaced : IfClause → IfClause
  | ⟨condition, body⟩ => ⟨optionUnplaced condition, stmtsUnplaced body⟩

def optionUnplaced : Option Expr → Option Expr
  | none => none
  | some expr => some expr.unplaced
end

/-- A program without the ranges of its statements, at every depth. -/
def Program.unplaced (program : Program) : Program := ⟨stmtsUnplaced program.body⟩

/-- An error without the range that it concerns. -/
def ParseError.unplaced : ParseError → ParseError
  | .malformed => .malformed
  | .unsupported kind _ => .unsupported kind .none
  | .tooDeep _ => .tooDeep .none

/-- What comes of reading a text, without any ranges. -/
def unplacedOutcome : Except ParseError Program → Except ParseError Program
  | .ok program => .ok program.unplaced
  | .error problem => .error problem.unplaced

theorem stmtsUnplaced_append : (first second : List Stmt) →
    stmtsUnplaced (first ++ second) = stmtsUnplaced first ++ stmtsUnplaced second
  | [], _ => rfl
  | head :: rest, second => congrArg (stmtUnplaced head :: ·) (stmtsUnplaced_append rest second)

private theorem clausesUnplaced_append : (first second : List IfClause) →
    clausesUnplaced (first ++ second) = clausesUnplaced first ++ clausesUnplaced second
  | [], _ => rfl
  | head :: rest, second => congrArg (clauseUnplaced head :: ·) (clausesUnplaced_append rest second)

namespace Source

/-- A span that stands for every span. -/
def Span.none : Span := ⟨.start, .start⟩

mutual
def Term.unplaced : Term → Term
  | ⟨_, form⟩ => ⟨Span.none, form.unplaced⟩

def TermForm.unplaced : TermForm → TermForm
  | .nil => .nil
  | .boolean value => .boolean value
  | .number text => .number text
  | .string literal => .string literal
  | .vararg => .vararg
  | .name name => .name name
  | .global => .global
  | .function body => .function body.unplaced
  | .table fields => .table (fieldsUnplaced fields)
  | .member object name => .member object.unplaced name
  | .index object key => .index object.unplaced key.unplaced
  | .call callee args => .call callee.unplaced (termsUnplaced args)
  | .methodCall object method args => .methodCall object.unplaced method (termsUnplaced args)
  | .paren inner => .paren inner.unplaced
  | .unary op operand => .unary op operand.unplaced
  | .binary op left right => .binary op left.unplaced right.unplaced

def termsUnplaced : List Term → List Term
  | [] => []
  | first :: rest => first.unplaced :: termsUnplaced rest

def Field.unplaced : Field → Field
  | .named name value => .named name value.unplaced
  | .keyed key value => .keyed key.unplaced value.unplaced
  | .positional value => .positional value.unplaced

def fieldsUnplaced : List Field → List Field
  | [] => []
  | first :: rest => first.unplaced :: fieldsUnplaced rest

def Callable.unplaced : Callable → Callable
  | ⟨params, vararg, body⟩ => ⟨params, vararg, statementsUnplaced body⟩

def statementsUnplaced : List Statement → List Statement
  | [] => []
  | first :: rest => first.unplaced :: statementsUnplaced rest

def Statement.unplaced : Statement → Statement
  | ⟨_, form⟩ => ⟨Span.none, form.unplaced⟩

def StatementForm.unplaced : StatementForm → StatementForm
  | .empty => .empty
  | .declare names attributed => .declare (names.map fun name => (name.1, Span.none)) attributed
  | .define names attributed values =>
    .define (names.map fun name => (name.1, Span.none)) attributed (termsUnplaced values)
  | .declareAll attributed => .declareAll attributed
  | .assign targets values => .assign (termsUnplaced targets) (termsUnplaced values)
  | .call call => .call call.unplaced
  | .function name isLocal body => .function name isLocal body.unplaced
  | .return_ values => .return_ (termsUnplaced values)
  | .if_ first others otherwise => .if_ first.unplaced (clausesUnplaced others) (otherwiseUnplaced otherwise)
  | .while_ condition body => .while_ condition.unplaced (statementsUnplaced body)
  | .repeat_ body condition => .repeat_ (statementsUnplaced body) condition.unplaced
  | .do_ body => .do_ (statementsUnplaced body)
  | .forNumeric var start limit step body =>
    .forNumeric var start.unplaced limit.unplaced (stepUnplaced step) (statementsUnplaced body)
  | .forGeneric names exprs body => .forGeneric names (termsUnplaced exprs) (statementsUnplaced body)
  | .break_ => .break_
  | .goto label => .goto label
  | .label name => .label name

def Clause.unplaced : Clause → Clause
  | ⟨condition, body⟩ => ⟨condition.unplaced, statementsUnplaced body⟩

def clausesUnplaced : List Clause → List Clause
  | [] => []
  | first :: rest => first.unplaced :: clausesUnplaced rest

def otherwiseUnplaced : Option Block → Option Block
  | none => none
  | some ⟨body⟩ => some ⟨statementsUnplaced body⟩

def stepUnplaced : Option Term → Option Term
  | none => none
  | some step => some step.unplaced
end

@[simp] theorem Term.isGlobal_unplaced (written : Term) : written.unplaced.isGlobal = written.isGlobal := by
  obtain ⟨span, form⟩ := written
  cases form <;> rfl

@[simp] theorem Term.isCall_unplaced (written : Term) : written.unplaced.isCall = written.isCall := by
  obtain ⟨span, form⟩ := written
  cases form <;> rfl

@[simp] theorem Term.isTarget_unplaced (written : Term) : written.unplaced.isTarget = written.isTarget := by
  obtain ⟨span, form⟩ := written
  cases form <;> rfl

namespace Lowering

/-- Whether two outcomes are errors of one sort, or results that are related. -/
def Corresponds {α β : Type} (related : α → β → Prop) : Except ParseError α → Except ParseError β → Prop
  | .ok first, .ok second => related first second
  | .error first, .error second => first.unplaced = second.unplaced
  | _, _ => False

namespace Corresponds

variable {α β γ δ : Type} {related : α → β → Prop} {later : γ → δ → Prop}

theorem pure {first : α} {second : β} (same : related first second) :
    Corresponds related (pure first) (pure second) :=
  same

theorem bind {first : Except ParseError α} {second : Except ParseError β} {next : α → Except ParseError γ}
    {next' : β → Except ParseError δ} (one : Corresponds related first second)
    (two : ∀ value value', related value value' → Corresponds later (next value) (next' value')) :
    Corresponds later (first >>= next) (second >>= next') := by
  match first, second, one with
  | .ok value, .ok value', one => exact two value value' one
  | .error _, .error _, one => exact one

theorem enter (level : Nat) (span span' : Span) {next : Unit → Except ParseError γ}
    {next' : Unit → Except ParseError δ} (two : Corresponds later (next ()) (next' ())) :
    Corresponds later (Lowering.enter level span >>= next) (Lowering.enter level span' >>= next') := by
  rw [Lowering.enter, Lowering.enter]
  split
  · exact rfl
  · exact two

end Corresponds

private theorem names_unplaced (level : Nat) : (declared : List (String × Span)) →
    Corresponds (· = ·) (names level declared) (names level (declared.map fun name => (name.1, Span.none)))
  | [] => .pure rfl
  | (name, span) :: rest => by
    rw [List.map_cons, names, names]
    refine .enter level span Span.none ?_
    exact (names_unplaced level rest).bind fun _ _ same => .pure (same ▸ rfl)

mutual
theorem term_unplaced (level : Nat) : (written : Term) →
    Corresponds (fun first second => first.unplaced = second.unplaced) (term level written)
      (term level written.unplaced)
  | ⟨span, form⟩ => by
    rw [Term.unplaced, term, term]
    exact .enter level span _ (termForm_unplaced level span form)

theorem termForm_unplaced (level : Nat) (span : Span) : (form : TermForm) →
    Corresponds (fun first second => first.unplaced = second.unplaced) (termForm level span form)
      (termForm level Span.none form.unplaced)
  | .nil | .boolean _ | .number _ | .string _ | .vararg | .name _ => by
    rw [TermForm.unplaced, termForm, termForm]
    exact .pure rfl
  | .global => by
    rw [TermForm.unplaced, termForm, termForm]
    exact rfl
  | .function body => by
    rw [TermForm.unplaced, termForm, termForm]
    refine (callable_unplaced level body).bind fun _ _ same => .pure ?_
    rw [Expr.unplaced, Expr.unplaced, same]
  | .table entries => by
    rw [TermForm.unplaced, termForm, termForm]
    refine (fields_unplaced level entries).bind fun _ _ same => .pure ?_
    rw [Expr.unplaced, Expr.unplaced, same]
  | .member object _ => by
    rw [TermForm.unplaced, termForm, termForm]
    refine (term_unplaced (level + 1) object).bind fun _ _ same => .pure ?_
    rw [Expr.unplaced, Expr.unplaced, same]
  | .index object key => by
    rw [TermForm.unplaced, termForm, termForm]
    refine (term_unplaced (level + 1) object).bind fun _ _ one => ?_
    refine (term_unplaced (level + 1) key).bind fun _ _ two => .pure ?_
    rw [Expr.unplaced, Expr.unplaced, one, two]
  | .call callee args => by
    rw [TermForm.unplaced, termForm, termForm]
    refine (terms_unplaced (level + 1) args).bind fun _ _ one => ?_
    refine (term_unplaced (level + 1) callee).bind fun _ _ two => .pure ?_
    rw [Expr.unplaced, Expr.unplaced, one, two]
  | .methodCall object _ args => by
    rw [TermForm.unplaced, termForm, termForm]
    refine (terms_unplaced (level + 1) args).bind fun _ _ one => ?_
    refine (term_unplaced (level + 1) object).bind fun _ _ two => .pure ?_
    rw [Expr.unplaced, Expr.unplaced, one, two]
  | .paren inner => by
    rw [TermForm.unplaced, termForm, termForm, Term.isGlobal_unplaced]
    split
    · exact rfl
    · refine (term_unplaced (level + 1) inner).bind fun _ _ same => .pure ?_
      rw [Expr.unplaced, Expr.unplaced, same]
  | .unary _ operand => by
    rw [TermForm.unplaced, termForm, termForm]
    refine (term_unplaced (level + 1) operand).bind fun _ _ same => .pure ?_
    rw [Expr.unplaced, Expr.unplaced, same]
  | .binary _ left right => by
    rw [TermForm.unplaced, termForm, termForm]
    refine (term_unplaced (level + 1) left).bind fun _ _ one => ?_
    refine (term_unplaced (level + 1) right).bind fun _ _ two => .pure ?_
    rw [Expr.unplaced, Expr.unplaced, one, two]

theorem terms_unplaced (level : Nat) : (written : List Term) →
    Corresponds (fun first second => exprsUnplaced first = exprsUnplaced second) (terms level written)
      (terms level (termsUnplaced written))
  | [] => .pure rfl
  | head :: rest => by
    rw [termsUnplaced, terms, terms, Term.isGlobal_unplaced]
    split
    · exact terms_unplaced level rest
    · refine (term_unplaced level head).bind fun _ _ one => ?_
      refine (terms_unplaced level rest).bind fun _ _ two => .pure ?_
      rw [exprsUnplaced, exprsUnplaced, one, two]

theorem fields_unplaced (level : Nat) : (written : List Field) →
    Corresponds (fun first second => LuaClasses.fieldsUnplaced first = LuaClasses.fieldsUnplaced second)
      (fields level written)
      (fields level (fieldsUnplaced written))
  | [] => .pure rfl
  | head :: rest => by
    rw [fieldsUnplaced, fields, fields]
    refine (field_unplaced level head).bind fun _ _ one => ?_
    refine (fields_unplaced level rest).bind fun _ _ two => .pure ?_
    rw [LuaClasses.fieldsUnplaced, LuaClasses.fieldsUnplaced, one, two]

theorem field_unplaced (level : Nat) : (written : Field) →
    Corresponds (fun first second => fieldUnplaced first = fieldUnplaced second) (field level written)
      (field level written.unplaced)
  | .named _ value => by
    rw [Field.unplaced, field, field]
    refine (term_unplaced (level + 1) value).bind fun _ _ same => .pure ?_
    rw [fieldUnplaced, fieldUnplaced, same]
  | .keyed key value => by
    rw [Field.unplaced, field, field]
    refine (term_unplaced (level + 1) value).bind fun _ _ one => ?_
    refine (term_unplaced (level + 1) key).bind fun _ _ two => .pure ?_
    rw [fieldUnplaced, fieldUnplaced, one, two]
  | .positional value => by
    rw [Field.unplaced, field, field]
    refine (term_unplaced (level + 1) value).bind fun _ _ same => .pure ?_
    rw [fieldUnplaced, fieldUnplaced, same]

theorem callable_unplaced (level : Nat) : (written : Callable) →
    Corresponds (fun first second => bodyUnplaced first = bodyUnplaced second) (callable level written)
      (callable level written.unplaced)
  | ⟨params, vararg, body⟩ => by
    rw [Callable.unplaced, callable, callable]
    refine (statements_unplaced (level + 1) body).bind fun _ _ same => .pure ?_
    rw [bodyUnplaced, bodyUnplaced, same]

theorem statements_unplaced (level : Nat) : (written : List Statement) →
    Corresponds (fun first second => stmtsUnplaced first = stmtsUnplaced second) (statements level written)
      (statements level (statementsUnplaced written))
  | [] => .pure rfl
  | head :: rest => by
    rw [statementsUnplaced, statements, statements]
    refine (statement_unplaced level head).bind fun _ _ one => ?_
    refine (statements_unplaced level rest).bind fun _ _ two => .pure ?_
    rw [stmtsUnplaced_append, stmtsUnplaced_append, one, two]

theorem statement_unplaced (level : Nat) : (written : Statement) →
    Corresponds (fun first second => stmtsUnplaced first.toList = stmtsUnplaced second.toList)
      (statement level written)
      (statement level written.unplaced)
  | ⟨span, form⟩ => by
    rw [Statement.unplaced, statement, statement]
    refine .enter level span _ ((statementForm_unplaced level span form).bind fun kind kind' same => .pure ?_)
    match kind, kind', same with
    | none, none, _ => rfl
    | some _, some _, same =>
      simp only [Option.map_some, Option.toList_some, stmtsUnplaced, stmtUnplaced, Option.some.inj same]

theorem statementForm_unplaced (level : Nat) (span : Span) : (form : StatementForm) →
    Corresponds (fun first second => first.map kindUnplaced = second.map kindUnplaced)
      (statementForm level span form)
      (statementForm level Span.none form.unplaced)
  | .empty | .break_ | .goto _ | .label _ => by
    rw [StatementForm.unplaced, statementForm, statementForm]
    exact .pure rfl
  | .declare declared _ => by
    rw [StatementForm.unplaced, statementForm, statementForm, List.map_map]
    exact .pure rfl
  | .declareAll _ => by
    rw [StatementForm.unplaced, statementForm, statementForm]
    exact rfl
  | .define declared _ values => by
    rw [StatementForm.unplaced, statementForm, statementForm]
    refine (names_unplaced (level + 1) declared).bind fun _ _ one => ?_
    refine (terms_unplaced (level + 1) values).bind fun _ _ two => .pure ?_
    rw [Option.map_some, Option.map_some, kindUnplaced, kindUnplaced, one, two]
  | .assign targets values => by
    rw [StatementForm.unplaced, statementForm, statementForm]
    refine (terms_unplaced (level + 1) targets).bind fun _ _ one => ?_
    refine (terms_unplaced (level + 1) values).bind fun _ _ two => .pure ?_
    rw [Option.map_some, Option.map_some, kindUnplaced, kindUnplaced, one, two]
  | .call call => by
    rw [StatementForm.unplaced, statementForm, statementForm]
    refine (term_unplaced (level + 1) call).bind fun _ _ same => .pure ?_
    rw [Option.map_some, Option.map_some, kindUnplaced, kindUnplaced, same]
  | .function _ _ body => by
    rw [StatementForm.unplaced, statementForm, statementForm]
    refine (callable_unplaced level body).bind fun _ _ same => .pure ?_
    rw [Option.map_some, Option.map_some, kindUnplaced, kindUnplaced, same]
  | .return_ values => by
    rw [StatementForm.unplaced, statementForm, statementForm]
    refine (terms_unplaced (level + 1) values).bind fun _ _ same => .pure ?_
    rw [Option.map_some, Option.map_some, kindUnplaced, kindUnplaced, same]
  | .if_ first others otherwise => by
    rw [StatementForm.unplaced, statementForm, statementForm]
    refine (clause_unplaced level first).bind fun _ _ one => ?_
    refine (clauses_unplaced level others).bind fun _ _ two => ?_
    match otherwise with
    | none =>
      refine .pure ?_
      rw [Option.map_some, Option.map_some, kindUnplaced, kindUnplaced, LuaClasses.clausesUnplaced,
        LuaClasses.clausesUnplaced, one, two]
    | some ⟨body⟩ =>
      refine (statements_unplaced (level + 1) body).bind fun _ _ three => .pure ?_
      rw [Option.map_some, Option.map_some, kindUnplaced, kindUnplaced,
        clausesUnplaced_append, clausesUnplaced_append]
      simp only [LuaClasses.clausesUnplaced, clauseUnplaced, one, two, three]
  | .while_ condition body => by
    rw [StatementForm.unplaced, statementForm, statementForm]
    refine (term_unplaced (level + 1) condition).bind fun _ _ one => ?_
    refine (statements_unplaced (level + 1) body).bind fun _ _ two => .pure ?_
    rw [Option.map_some, Option.map_some, kindUnplaced, kindUnplaced, one, two]
  | .repeat_ body condition => by
    rw [StatementForm.unplaced, statementForm, statementForm]
    refine (statements_unplaced (level + 1) body).bind fun _ _ one => ?_
    refine (term_unplaced (level + 1) condition).bind fun _ _ two => .pure ?_
    rw [Option.map_some, Option.map_some, kindUnplaced, kindUnplaced, one, two]
  | .do_ body => by
    rw [StatementForm.unplaced, statementForm, statementForm]
    refine (statements_unplaced (level + 1) body).bind fun _ _ same => .pure ?_
    rw [Option.map_some, Option.map_some, kindUnplaced, kindUnplaced, same]
  | .forNumeric _ start limit step body => by
    rw [StatementForm.unplaced, statementForm, statementForm]
    refine (statements_unplaced (level + 1) body).bind fun _ _ one => ?_
    refine (term_unplaced (level + 1) start).bind fun _ _ two => ?_
    refine (term_unplaced (level + 1) limit).bind fun _ _ three => ?_
    match step with
    | none =>
      refine .pure ?_
      rw [Option.map_some, Option.map_some, kindUnplaced, kindUnplaced, one, two, three]
    | some step =>
      refine (term_unplaced (level + 1) step).bind fun _ _ four => .pure ?_
      rw [Option.map_some, Option.map_some, kindUnplaced, kindUnplaced, optionUnplaced,
        optionUnplaced, one, two, three, four]
  | .forGeneric _ exprs body => by
    rw [StatementForm.unplaced, statementForm, statementForm]
    refine (statements_unplaced (level + 1) body).bind fun _ _ one => ?_
    refine (terms_unplaced (level + 1) exprs).bind fun _ _ two => .pure ?_
    rw [Option.map_some, Option.map_some, kindUnplaced, kindUnplaced, one, two]

theorem clause_unplaced (level : Nat) : (written : Clause) →
    Corresponds (fun first second => clauseUnplaced first = clauseUnplaced second) (clause level written)
      (clause level written.unplaced)
  | ⟨condition, body⟩ => by
    rw [Clause.unplaced, clause, clause]
    refine (term_unplaced (level + 1) condition).bind fun _ _ one => ?_
    refine (statements_unplaced (level + 1) body).bind fun _ _ two => .pure ?_
    rw [clauseUnplaced, clauseUnplaced, optionUnplaced, optionUnplaced, one, two]

theorem clauses_unplaced (level : Nat) : (written : List Clause) →
    Corresponds (fun first second => LuaClasses.clausesUnplaced first = LuaClasses.clausesUnplaced second)
      (clauses level written) (clauses level (clausesUnplaced written))
  | [] => .pure rfl
  | head :: rest => by
    rw [clausesUnplaced, clauses, clauses]
    refine (clause_unplaced level head).bind fun _ _ one => ?_
    refine (clauses_unplaced level rest).bind fun _ _ two => .pure ?_
    rw [LuaClasses.clausesUnplaced, LuaClasses.clausesUnplaced, one, two]
end

end Lowering

/-- What source trees come to that differ in places only differs in places only. -/
theorem unplacedOutcome_program {first second : File}
    (same : statementsUnplaced first.body = statementsUnplaced second.body) :
    unplacedOutcome first.program = unplacedOutcome second.program := by
  have outcome : ∀ file : File, unplacedOutcome file.program =
      unplacedOutcome (File.program { file with body := statementsUnplaced file.body }) := by
    intro file
    have lowered := Lowering.statements_unplaced 1 file.body
    simp only [File.program]
    match written : Lowering.statements 1 file.body, other :
      Lowering.statements 1 (statementsUnplaced file.body), lowered with
    | .ok body, .ok body', lowered => exact congrArg (fun body => Except.ok (Program.mk body)) lowered
    | .error _, .error _, lowered => exact congrArg Except.error lowered
  rw [outcome first, outcome second]
  simp only [File.program, same]

end Source
end LuaClasses
