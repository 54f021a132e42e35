import LuaClasses.Proofs.Names
import LuaClasses.Source.Lowering

/-! The form of the programs that source texts give: which names they use, what their statements hold, and
where a return may stand. A source tree has such a form of its own, and the way from the tree to the
program keeps it. -/

namespace LuaClasses

/-- Whether a source text can use a text as a name. -/
def Identifier (name : String) : Prop := name ≠ "" ∧ '.' ∉ name.toList

/-- The expressions to which a statement can assign. -/
def Expr.isTarget : Expr → Bool
  | .name _ | .member _ _ | .index _ _ => true
  | _ => false

def StmtKind.isReturn : StmtKind → Bool
  | .return_ _ => true
  | _ => false

/-- Whether the name of a function has a segment, and only segments that are names. -/
def FunctionName.Proper (name : FunctionName) : Prop :=
  name.path ≠ [] ∧ ∀ segment ∈ name.path ++ name.method.toList, Identifier segment

mutual
def Expr.Proper : Expr → Prop
  | .nil => True
  | .boolean _ => True
  | .number _ => True
  | .string _ => True
  | .vararg => True
  | .function body => bodyProper body
  | .table fields => fieldsProper fields
  | .name name => Identifier name
  | .member object name => object.Proper ∧ Identifier name
  | .index object key => object.Proper ∧ key.Proper
  | .call callee args => callee.Proper ∧ exprsProper args
  | .methodCall object method args => object.Proper ∧ Identifier method ∧ exprsProper args
  | .paren inner => inner.Proper
  | .unary _ operand => operand.Proper
  | .binary _ left right => left.Proper ∧ right.Proper

def exprsProper : List Expr → Prop
  | [] => True
  | first :: rest => first.Proper ∧ exprsProper rest

def fieldsProper : List TableField → Prop
  | [] => True
  | first :: rest => fieldProper first ∧ fieldsProper rest

def fieldProper : TableField → Prop
  | .named name value => Identifier name ∧ value.Proper
  | .keyed key value => key.Proper ∧ value.Proper
  | .positional value => value.Proper

def bodyProper : FunctionBody → Prop
  | ⟨params, _, body⟩ => (∀ param ∈ params, Identifier param) ∧ stmtsProper body

/-- A return is the last of the statements of a body. -/
def stmtsProper : List Stmt → Prop
  | [] => True
  | first :: rest => (first.kind.isReturn = true → rest = []) ∧ stmtProper first ∧ stmtsProper rest

def stmtProper : Stmt → Prop
  | ⟨kind, _⟩ => kindProper kind

/-- Only what can be assigned to is. A local function has a plain name. An `if` statement has an
arm, and none but the last is without a condition. -/
def kindProper : StmtKind → Prop
  | .local_ names values => (∀ name ∈ names, Identifier name) ∧ exprsProper values
  | .assign targets values =>
    (∀ target ∈ targets, target.isTarget = true) ∧ exprsProper targets ∧ exprsProper values
  | .call call => call.Proper
  | .function name isLocal body =>
    name.Proper ∧ (isLocal = true → name.plain?.isSome = true) ∧ bodyProper body
  | .return_ values => exprsProper values
  | .if_ clauses =>
    clauses ≠ [] ∧ (∀ clause ∈ clauses.dropLast, clause.condition.isSome = true) ∧ clausesProper clauses
  | .while_ condition body => condition.Proper ∧ stmtsProper body
  | .repeat_ body condition => stmtsProper body ∧ condition.Proper
  | .do_ body => stmtsProper body
  | .forNumeric var start limit step body =>
    Identifier var ∧ start.Proper ∧ limit.Proper ∧ optionProper step ∧ stmtsProper body
  | .forGeneric names exprs body => (∀ name ∈ names, Identifier name) ∧ exprsProper exprs ∧ stmtsProper body
  | .break_ => True
  | .goto label => Identifier label
  | .label name => Identifier name

def clausesProper : List IfClause → Prop
  | [] => True
  | first :: rest => clauseProper first ∧ clausesProper rest

def clauseProper : IfClause → Prop
  | ⟨condition, body⟩ => optionProper condition ∧ stmtsProper body

def optionProper : Option Expr → Prop
  | none => True
  | some expr => expr.Proper
end

/-- Whether a program has the form of one that comes from a source text, at every depth. -/
def Program.Proper (program : Program) : Prop := stmtsProper program.body

/-! ### The names of proper programs -/

mutual
theorem exprProper_names : (expr : Expr) → expr.Proper → ∀ name ∈ expr.names, Identifier name
  | .nil, _ | .boolean _, _ | .number _, _ | .string _, _ | .vararg, _ => nofun
  | .function body, proper => bodyProper_names body proper
  | .table fields, proper => fieldsProper_names fields proper
  | .name _, proper => fun _ member => List.mem_singleton.1 member ▸ proper
  | .member object name, ⟨inner, named⟩ => by
    have own := exprProper_names object inner
    simp only [Expr.names, List.mem_append, List.mem_singleton]
    rintro other (below | rfl)
    · exact own other below
    · exact named
  | .index object key, ⟨left, right⟩ =>
    List.forall_mem_append.2 ⟨exprProper_names object left, exprProper_names key right⟩
  | .call callee args, ⟨left, right⟩ =>
    List.forall_mem_append.2 ⟨exprProper_names callee left, exprsProper_names args right⟩
  | .methodCall object method args, ⟨left, named, right⟩ =>
    List.forall_mem_append.2 ⟨exprProper_names object left,
      List.forall_mem_cons.2 ⟨named, exprsProper_names args right⟩⟩
  | .paren inner, proper => exprProper_names inner proper
  | .unary _ operand, proper => exprProper_names operand proper
  | .binary _ left right, ⟨one, two⟩ =>
    List.forall_mem_append.2 ⟨exprProper_names left one, exprProper_names right two⟩

theorem exprsProper_names :
    (exprs : List Expr) → exprsProper exprs → ∀ name ∈ exprsNames exprs, Identifier name
  | [], _ => nofun
  | first :: rest, ⟨one, others⟩ =>
    List.forall_mem_append.2 ⟨exprProper_names first one, exprsProper_names rest others⟩

theorem fieldsProper_names :
    (fields : List TableField) → fieldsProper fields → ∀ name ∈ fieldsNames fields, Identifier name
  | [], _ => nofun
  | first :: rest, ⟨one, others⟩ =>
    List.forall_mem_append.2 ⟨fieldProper_names first one, fieldsProper_names rest others⟩

theorem fieldProper_names :
    (field : TableField) → fieldProper field → ∀ name ∈ fieldNames field, Identifier name
  | .named _ value, ⟨named, proper⟩ => List.forall_mem_cons.2 ⟨named, exprProper_names value proper⟩
  | .keyed key value, ⟨one, two⟩ =>
    List.forall_mem_append.2 ⟨exprProper_names key one, exprProper_names value two⟩
  | .positional value, proper => exprProper_names value proper

theorem bodyProper_names : (body : FunctionBody) → bodyProper body → ∀ name ∈ bodyNames body, Identifier name
  | ⟨_, _, body⟩, ⟨params, proper⟩ => List.forall_mem_append.2 ⟨params, stmtsProper_names body proper⟩

theorem stmtsProper_names : (body : List Stmt) → stmtsProper body → ∀ name ∈ stmtsNames body, Identifier name
  | [], _ => nofun
  | first :: rest, ⟨_, one, others⟩ =>
    List.forall_mem_append.2 ⟨stmtProper_names first one, stmtsProper_names rest others⟩

theorem stmtProper_names : (stmt : Stmt) → stmtProper stmt → ∀ name ∈ stmtNames stmt, Identifier name
  | ⟨kind, _⟩, proper => kindProper_names kind proper

theorem kindProper_names : (kind : StmtKind) → kindProper kind → ∀ name ∈ kindNames kind, Identifier name
  | .local_ _ values, ⟨named, proper⟩ => List.forall_mem_append.2 ⟨named, exprsProper_names values proper⟩
  | .assign targets values, ⟨_, one, two⟩ =>
    List.forall_mem_append.2 ⟨exprsProper_names targets one, exprsProper_names values two⟩
  | .call call, proper => exprProper_names call proper
  | .function _ _ body, ⟨⟨_, named⟩, _, proper⟩ =>
    List.forall_mem_append.2 ⟨named, bodyProper_names body proper⟩
  | .return_ values, proper => exprsProper_names values proper
  | .if_ clauses, ⟨_, _, proper⟩ => clausesProper_names clauses proper
  | .while_ condition body, ⟨one, two⟩ =>
    List.forall_mem_append.2 ⟨exprProper_names condition one, stmtsProper_names body two⟩
  | .repeat_ body condition, ⟨one, two⟩ =>
    List.forall_mem_append.2 ⟨stmtsProper_names body one, exprProper_names condition two⟩
  | .do_ body, proper => stmtsProper_names body proper
  | .forNumeric _ start limit step body, ⟨named, one, two, three, proper⟩ =>
    List.forall_mem_append.2 ⟨List.forall_mem_append.2 ⟨List.forall_mem_append.2
      ⟨List.forall_mem_cons.2 ⟨named, exprProper_names start one⟩, exprProper_names limit two⟩,
      optionProper_names step three⟩, stmtsProper_names body proper⟩
  | .forGeneric _ exprs body, ⟨named, one, two⟩ =>
    List.forall_mem_append.2 ⟨List.forall_mem_append.2 ⟨named, exprsProper_names exprs one⟩,
      stmtsProper_names body two⟩
  | .break_, _ => nofun
  | .goto _, proper | .label _, proper => fun _ member => List.mem_singleton.1 member ▸ proper

theorem clausesProper_names :
    (clauses : List IfClause) → clausesProper clauses → ∀ name ∈ clausesNames clauses, Identifier name
  | [], _ => nofun
  | first :: rest, ⟨one, others⟩ =>
    List.forall_mem_append.2 ⟨clauseProper_names first one, clausesProper_names rest others⟩

theorem clauseProper_names :
    (clause : IfClause) → clauseProper clause → ∀ name ∈ clauseNames clause, Identifier name
  | ⟨condition, body⟩, ⟨one, two⟩ =>
    List.forall_mem_append.2 ⟨optionProper_names condition one, stmtsProper_names body two⟩

theorem optionProper_names :
    (expr : Option Expr) → optionProper expr → ∀ name ∈ optionNames expr, Identifier name
  | none, _ => nofun
  | some expr, proper => exprProper_names expr proper
end

/-- All names of a proper program are names that a source text can use. -/
theorem Program.Proper.names {program : Program} (proper : program.Proper) :
    ∀ name ∈ program.names, Identifier name :=
  stmtsProper_names program.body proper

end LuaClasses

/-! ### Source trees -/

namespace LuaClasses.Source

/-- Whether a statement is a return. -/
def StatementForm.isReturn : StatementForm → Bool
  | .return_ _ => true
  | _ => false

/-- Whether a statement can have a place: only a call can be one, and its place is that of the call. -/
def StatementForm.Fits (span : Span) : StatementForm → Prop
  | .call value => value.isCall = true ∧ value.span = span
  | _ => True

mutual
def Term.Proper : Term → Prop
  | ⟨_, form⟩ => form.Proper

def TermForm.Proper : TermForm → Prop
  | .nil => True
  | .boolean _ => True
  | .number _ => True
  | .string _ => True
  | .vararg => True
  | .name name => Identifier name
  | .global => True
  | .function body => body.Proper
  | .table fields => fieldsProper fields
  | .member object name => object.Proper ∧ Identifier name
  | .index object key => object.Proper ∧ key.Proper
  | .call callee args => callee.Proper ∧ termsProper args
  | .methodCall object method args => object.Proper ∧ Identifier method ∧ termsProper args
  | .paren inner => inner.Proper
  | .unary _ operand => operand.Proper
  | .binary _ left right => left.Proper ∧ right.Proper

def termsProper : List Term → Prop
  | [] => True
  | first :: rest => first.Proper ∧ termsProper rest

def Field.Proper : Field → Prop
  | .named name value => (Identifier name ∧ '[' ∉ name.toList) ∧ value.Proper
  | .keyed key value => key.Proper ∧ value.Proper
  | .positional value => value.Proper

def fieldsProper : List Field → Prop
  | [] => True
  | first :: rest => first.Proper ∧ fieldsProper rest

def Callable.Proper : Callable → Prop
  | ⟨params, _, body⟩ => (∀ param ∈ params, Identifier param) ∧ statementsProper body

def statementsProper : List Statement → Prop
  | [] => True
  | first :: rest => (first.form.isReturn = true → rest = []) ∧ first.Proper ∧ statementsProper rest

def Statement.Proper : Statement → Prop
  | ⟨span, form⟩ => form.Fits span ∧ form.Proper

def StatementForm.Proper : StatementForm → Prop
  | .empty => True
  | .declare names _ => ∀ name ∈ names, Identifier name.1
  | .define names _ values => (∀ name ∈ names, Identifier name.1) ∧ termsProper values
  | .declareAll _ => True
  | .assign targets values =>
    (∀ target ∈ targets, target.isTarget = true) ∧ termsProper targets ∧ termsProper values
  | .call call => call.Proper
  | .function name isLocal body => name.Proper ∧ (isLocal = true → name.plain?.isSome = true) ∧ body.Proper
  | .return_ values => termsProper values
  | .if_ first others otherwise => first.Proper ∧ clausesProper others ∧ otherwiseProper otherwise
  | .while_ condition body => condition.Proper ∧ statementsProper body
  | .repeat_ body condition => statementsProper body ∧ condition.Proper
  | .do_ body => statementsProper body
  | .forNumeric var start limit step body =>
    Identifier var ∧ start.Proper ∧ limit.Proper ∧ stepProper step ∧ statementsProper body
  | .forGeneric names exprs body =>
    (∀ name ∈ names, Identifier name) ∧ termsProper exprs ∧ statementsProper body
  | .break_ => True
  | .goto label => Identifier label
  | .label name => Identifier name

def Clause.Proper : Clause → Prop
  | ⟨condition, body⟩ => condition.Proper ∧ statementsProper body

def clausesProper : List Clause → Prop
  | [] => True
  | first :: rest => first.Proper ∧ clausesProper rest

def otherwiseProper : Option Block → Prop
  | none => True
  | some ⟨body⟩ => statementsProper body

def stepProper : Option Term → Prop
  | none => True
  | some step => step.Proper
end

/-! ### Lowering -/

theorem bind_eq_ok_iff {ε α β : Type} {first : Except ε α} {next : α → Except ε β} {result : β} :
    first >>= next = .ok result ↔ ∃ value, first = .ok value ∧ next value = .ok result := by
  cases first with
  | error problem => exact ⟨nofun, nofun⟩
  | ok value => exact ⟨fun given => ⟨value, rfl, given⟩, fun ⟨_, same, given⟩ => Except.ok.inj same ▸ given⟩

theorem pure_eq_ok_iff {ε α : Type} {value result : α} :
    (pure value : Except ε α) = .ok result ↔ value = result :=
  ⟨Except.ok.inj, congrArg Except.ok⟩

namespace Lowering

/-- A target that is not left out is lowered to a target. -/
theorem isTarget_term {level : Nat} {target : Term} {expr : Expr} (lowered : term level target = .ok expr)
    (assignable : target.isTarget = true) : expr.isTarget = true := by
  obtain ⟨span, form⟩ := target
  rw [term] at lowered
  obtain ⟨_, _, lowered⟩ := bind_eq_ok_iff.1 lowered
  cases form <;> cases assignable <;> rw [termForm] at lowered
  case name => cases lowered; rfl
  case global => cases lowered
  case member =>
    obtain ⟨_, _, lowered⟩ := bind_eq_ok_iff.1 lowered
    cases lowered
    rfl
  case index =>
    obtain ⟨_, _, lowered⟩ := bind_eq_ok_iff.1 lowered
    obtain ⟨_, _, lowered⟩ := bind_eq_ok_iff.1 lowered
    cases lowered
    rfl

private theorem isTarget_terms {level : Nat} :
    {targets : List Term} → {exprs : List Expr} → terms level targets = .ok exprs →
    (∀ target ∈ targets, target.isTarget = true) → ∀ expr ∈ exprs, expr.isTarget = true
  | [], _, lowered, _ => by
    cases lowered
    nofun
  | head :: rest, exprs, lowered, assignable => by
    obtain ⟨first, others⟩ := List.forall_mem_cons.1 assignable
    rw [terms] at lowered
    split at lowered
    next => exact isTarget_terms lowered others
    next =>
      simp only [bind_eq_ok_iff, pure_eq_ok_iff] at lowered
      obtain ⟨expr, one, lower, two, rfl⟩ := lowered
      exact List.forall_mem_cons.2 ⟨isTarget_term one first, isTarget_terms two others⟩

private theorem clausesProper_append {first second : List IfClause} :
    LuaClasses.clausesProper (first ++ second) ↔ LuaClasses.clausesProper first ∧
      LuaClasses.clausesProper second := by
  induction first with
  | nil => exact ⟨fun proper => ⟨trivial, proper⟩, And.right⟩
  | cons head rest ih => exact (and_congr_right fun _ => ih).trans and_assoc.symm

private theorem names_eq {level : Nat} : {declared : List (String × Span)} → {result : List String} →
    names level declared = .ok result → result = declared.map Prod.fst
  | [], _, lowered => by cases lowered; rfl
  | (name, span) :: rest, result, lowered => by
    simp only [names, bind_eq_ok_iff, pure_eq_ok_iff] at lowered
    obtain ⟨_, _, others, lower, rfl⟩ := lowered
    rw [names_eq lower, List.map_cons]

/-- What is lowered to a return is one. -/
theorem isReturn_statementForm {level : Nat} {span : Span} {form : StatementForm} {kind : StmtKind}
    (lowered : statementForm level span form = .ok (some kind)) (return_ : kind.isReturn = true) :
    form.isReturn = true := by
  cases form with
  | return_ values => rfl
  | if_ first others otherwise =>
    rw [statementForm] at lowered
    obtain ⟨_, _, lowered⟩ := bind_eq_ok_iff.1 lowered
    obtain ⟨_, _, lowered⟩ := bind_eq_ok_iff.1 lowered
    cases otherwise with
    | none => cases lowered; cases return_
    | some block =>
      obtain ⟨_⟩ := block
      obtain ⟨_, _, lowered⟩ := bind_eq_ok_iff.1 lowered
      cases lowered
      cases return_
  | forNumeric var start limit step body =>
    rw [statementForm] at lowered
    obtain ⟨_, _, lowered⟩ := bind_eq_ok_iff.1 lowered
    obtain ⟨_, _, lowered⟩ := bind_eq_ok_iff.1 lowered
    obtain ⟨_, _, lowered⟩ := bind_eq_ok_iff.1 lowered
    cases step with
    | none => cases lowered; cases return_
    | some step =>
      obtain ⟨_, _, lowered⟩ := bind_eq_ok_iff.1 lowered
      cases lowered
      cases return_
  | empty | declareAll =>
    rw [statementForm] at lowered
    cases lowered
  | declare | break_ | goto | label =>
    rw [statementForm] at lowered
    cases lowered
    cases return_
  | call | function | do_ =>
    rw [statementForm] at lowered
    obtain ⟨_, _, lowered⟩ := bind_eq_ok_iff.1 lowered
    cases lowered
    cases return_
  | define | assign | while_ | repeat_ | forGeneric =>
    rw [statementForm] at lowered
    obtain ⟨_, _, lowered⟩ := bind_eq_ok_iff.1 lowered
    obtain ⟨_, _, lowered⟩ := bind_eq_ok_iff.1 lowered
    cases lowered
    cases return_

mutual
theorem term_proper {level : Nat} :
    (written : Term) → written.Proper → ∀ {expr}, term level written = .ok expr → expr.Proper
  | ⟨span, form⟩, proper, expr, lowered => by
    rw [term] at lowered
    obtain ⟨_, _, lowered⟩ := bind_eq_ok_iff.1 lowered
    exact termForm_proper form proper lowered

theorem termForm_proper {level : Nat} {span : Span} :
    (form : TermForm) → form.Proper → ∀ {expr}, termForm level span form = .ok expr → expr.Proper
  | .nil, _, _, lowered | .boolean _, _, _, lowered | .number _, _, _, lowered | .string _, _, _,
    lowered | .vararg, _, _, lowered => by
    rw [termForm] at lowered
    cases lowered
    exact trivial
  | .name name, proper, _, lowered => by
    rw [termForm] at lowered
    cases lowered
    exact proper
  | .global, _, _, lowered => by
    rw [termForm] at lowered
    cases lowered
  | .function body, proper, _, lowered => by
    rw [termForm] at lowered
    obtain ⟨_, inner, lowered⟩ := bind_eq_ok_iff.1 lowered
    cases lowered
    exact callable_proper body proper inner
  | .table entries, proper, _, lowered => by
    rw [termForm] at lowered
    obtain ⟨_, inner, lowered⟩ := bind_eq_ok_iff.1 lowered
    cases lowered
    exact fields_proper entries proper inner
  | .member object _, ⟨proper, named⟩, _, lowered => by
    rw [termForm] at lowered
    obtain ⟨_, inner, lowered⟩ := bind_eq_ok_iff.1 lowered
    cases lowered
    exact ⟨term_proper object proper inner, named⟩
  | .index object key, ⟨first, second⟩, _, lowered => by
    rw [termForm] at lowered
    obtain ⟨_, one, lowered⟩ := bind_eq_ok_iff.1 lowered
    obtain ⟨_, two, lowered⟩ := bind_eq_ok_iff.1 lowered
    cases lowered
    exact ⟨term_proper object first one, term_proper key second two⟩
  | .call callee args, ⟨first, second⟩, _, lowered => by
    rw [termForm] at lowered
    obtain ⟨_, two, lowered⟩ := bind_eq_ok_iff.1 lowered
    obtain ⟨_, one, lowered⟩ := bind_eq_ok_iff.1 lowered
    cases lowered
    exact ⟨term_proper callee first one, terms_proper args second two⟩
  | .methodCall object _ args, ⟨first, named, second⟩, _, lowered => by
    rw [termForm] at lowered
    obtain ⟨_, two, lowered⟩ := bind_eq_ok_iff.1 lowered
    obtain ⟨_, one, lowered⟩ := bind_eq_ok_iff.1 lowered
    cases lowered
    exact ⟨term_proper object first one, named, terms_proper args second two⟩
  | .paren inner, proper, _, lowered => by
    rw [termForm] at lowered
    split at lowered
    next => cases lowered
    next =>
      obtain ⟨_, one, lowered⟩ := bind_eq_ok_iff.1 lowered
      cases lowered
      have kept := term_proper inner proper one
      exact kept
  | .unary _ operand, proper, _, lowered => by
    rw [termForm] at lowered
    obtain ⟨_, one, lowered⟩ := bind_eq_ok_iff.1 lowered
    cases lowered
    have kept := term_proper operand proper one
    exact kept
  | .binary _ left right, ⟨first, second⟩, _, lowered => by
    rw [termForm] at lowered
    obtain ⟨_, one, lowered⟩ := bind_eq_ok_iff.1 lowered
    obtain ⟨_, two, lowered⟩ := bind_eq_ok_iff.1 lowered
    cases lowered
    exact ⟨term_proper left first one, term_proper right second two⟩

theorem terms_proper {level : Nat} :
    (written : List Term) → termsProper written → ∀ {exprs}, terms level written =
    .ok exprs → exprsProper exprs
  | [], _, _, lowered => by
    rw [terms] at lowered
    cases lowered
    exact trivial
  | head :: rest, ⟨first, others⟩, _, lowered => by
    rw [terms] at lowered
    split at lowered
    next => exact terms_proper rest others lowered
    next =>
      obtain ⟨_, one, lowered⟩ := bind_eq_ok_iff.1 lowered
      obtain ⟨_, two, lowered⟩ := bind_eq_ok_iff.1 lowered
      cases lowered
      exact ⟨term_proper head first one, terms_proper rest others two⟩

theorem fields_proper {level : Nat} : (written : List Field) → fieldsProper written →
    ∀ {entries}, fields level written = .ok entries → LuaClasses.fieldsProper entries
  | [], _, _, lowered => by
    rw [fields] at lowered
    cases lowered
    exact trivial
  | head :: rest, ⟨first, others⟩, _, lowered => by
    rw [fields] at lowered
    obtain ⟨_, one, lowered⟩ := bind_eq_ok_iff.1 lowered
    obtain ⟨_, two, lowered⟩ := bind_eq_ok_iff.1 lowered
    cases lowered
    exact ⟨field_proper head first one, fields_proper rest others two⟩

theorem field_proper {level : Nat} :
    (written : Field) → written.Proper → ∀ {entry}, field level written = .ok entry → fieldProper entry
  | .named _ value, ⟨named, proper⟩, _, lowered => by
    rw [field] at lowered
    obtain ⟨_, one, lowered⟩ := bind_eq_ok_iff.1 lowered
    cases lowered
    exact ⟨named.1, term_proper value proper one⟩
  | .keyed key value, ⟨first, second⟩, _, lowered => by
    rw [field] at lowered
    obtain ⟨_, two, lowered⟩ := bind_eq_ok_iff.1 lowered
    obtain ⟨_, one, lowered⟩ := bind_eq_ok_iff.1 lowered
    cases lowered
    exact ⟨term_proper key first one, term_proper value second two⟩
  | .positional value, proper, _, lowered => by
    rw [field] at lowered
    obtain ⟨_, one, lowered⟩ := bind_eq_ok_iff.1 lowered
    cases lowered
    exact term_proper value proper one

theorem callable_proper {level : Nat} :
    (written : Callable) → written.Proper → ∀ {body}, callable level written = .ok body → bodyProper body
  | ⟨_, _, body⟩, ⟨params, proper⟩, _, lowered => by
    rw [callable] at lowered
    obtain ⟨_, one, lowered⟩ := bind_eq_ok_iff.1 lowered
    cases lowered
    exact ⟨params, statements_proper body proper one⟩

/-- The statements after a return are none, so none come after what it is lowered to. -/
theorem statements_proper {level : Nat} : (written : List Statement) → statementsProper written →
    ∀ {body}, statements level written = .ok body → stmtsProper body
  | [], _, _, lowered => by
    rw [statements] at lowered
    cases lowered
    exact trivial
  | ⟨span, form⟩ :: rest, ⟨last, ⟨_, first⟩, others⟩, _, lowered => by
    rw [statements] at lowered
    obtain ⟨stmt, one, lowered⟩ := bind_eq_ok_iff.1 lowered
    obtain ⟨body, two, lowered⟩ := bind_eq_ok_iff.1 lowered
    cases lowered
    have tail := statements_proper rest others two
    rw [statement] at one
    obtain ⟨_, _, one⟩ := bind_eq_ok_iff.1 one
    obtain ⟨kind, lower, one⟩ := bind_eq_ok_iff.1 one
    cases one
    cases kind with
    | none => exact tail
    | some kind =>
      refine ⟨fun return_ => ?_, statementForm_proper form first lower, tail⟩
      obtain rfl := last (isReturn_statementForm lower return_)
      rw [statements] at two
      cases two
      rfl

theorem statementForm_proper {level : Nat} {span : Span} : (form : StatementForm) → form.Proper →
    ∀ {kind}, statementForm level span form = .ok (some kind) → kindProper kind
  | .empty, _, _, lowered | .declareAll _, _, _, lowered => by
    rw [statementForm] at lowered
    cases lowered
  | .declare _ _, named, _, lowered => by
    rw [statementForm] at lowered
    cases lowered
    exact ⟨List.forall_mem_map.2 named, trivial⟩
  | .define _ _ values, ⟨named, proper⟩, _, lowered => by
    rw [statementForm] at lowered
    obtain ⟨_, one, lowered⟩ := bind_eq_ok_iff.1 lowered
    obtain ⟨_, two, lowered⟩ := bind_eq_ok_iff.1 lowered
    cases lowered
    exact ⟨names_eq one ▸ List.forall_mem_map.2 named, terms_proper values proper two⟩
  | .assign targets values, ⟨assignable, first, second⟩, _, lowered => by
    rw [statementForm] at lowered
    obtain ⟨_, one, lowered⟩ := bind_eq_ok_iff.1 lowered
    obtain ⟨_, two, lowered⟩ := bind_eq_ok_iff.1 lowered
    cases lowered
    exact ⟨isTarget_terms one assignable, terms_proper targets first one, terms_proper values second two⟩
  | .call call, proper, _, lowered => by
    rw [statementForm] at lowered
    obtain ⟨_, one, lowered⟩ := bind_eq_ok_iff.1 lowered
    cases lowered
    exact term_proper call proper one
  | .function _ _ body, ⟨named, plain, proper⟩, _, lowered => by
    rw [statementForm] at lowered
    obtain ⟨_, one, lowered⟩ := bind_eq_ok_iff.1 lowered
    cases lowered
    exact ⟨named, plain, callable_proper body proper one⟩
  | .return_ values, proper, _, lowered => by
    rw [statementForm] at lowered
    obtain ⟨_, one, lowered⟩ := bind_eq_ok_iff.1 lowered
    cases lowered
    exact terms_proper values proper one
  | .if_ first others otherwise, ⟨one, two, three⟩, _, lowered => by
    rw [statementForm] at lowered
    obtain ⟨_, start, lowered⟩ := bind_eq_ok_iff.1 lowered
    obtain ⟨_, middle, lowered⟩ := bind_eq_ok_iff.1 lowered
    obtain ⟨guard, arm⟩ := clause_proper first one start
    obtain ⟨guards, arms⟩ := clauses_proper others two middle
    have guarded := (List.forall_mem_cons (p := fun arm : IfClause => arm.condition.isSome = true)).2
      ⟨guard, guards⟩
    match otherwise, three, lowered with
    | none, _, lowered =>
      cases lowered
      refine ⟨nofun, fun arm member => ?_, arm, arms⟩
      exact guarded arm (List.dropLast_subset _ member)
    | some ⟨body⟩, proper, lowered =>
      obtain ⟨_, last, lowered⟩ := bind_eq_ok_iff.1 lowered
      cases lowered
      refine ⟨nofun, fun arm member => ?_, arm, ?_⟩
      · rw [List.dropLast_concat] at member
        exact guarded arm member
      · exact clausesProper_append.2 ⟨arms, ⟨trivial, statements_proper body proper last⟩, trivial⟩
  | .while_ condition body, ⟨first, second⟩, _, lowered => by
    rw [statementForm] at lowered
    obtain ⟨_, one, lowered⟩ := bind_eq_ok_iff.1 lowered
    obtain ⟨_, two, lowered⟩ := bind_eq_ok_iff.1 lowered
    cases lowered
    exact ⟨term_proper condition first one, statements_proper body second two⟩
  | .repeat_ body condition, ⟨first, second⟩, _, lowered => by
    rw [statementForm] at lowered
    obtain ⟨_, one, lowered⟩ := bind_eq_ok_iff.1 lowered
    obtain ⟨_, two, lowered⟩ := bind_eq_ok_iff.1 lowered
    cases lowered
    exact ⟨statements_proper body first one, term_proper condition second two⟩
  | .do_ body, proper, _, lowered => by
    rw [statementForm] at lowered
    obtain ⟨_, one, lowered⟩ := bind_eq_ok_iff.1 lowered
    cases lowered
    exact statements_proper body proper one
  | .forNumeric _ start limit step body, ⟨named, one, two, three, four⟩, _, lowered => by
    rw [statementForm] at lowered
    obtain ⟨_, inner, lowered⟩ := bind_eq_ok_iff.1 lowered
    obtain ⟨_, first, lowered⟩ := bind_eq_ok_iff.1 lowered
    obtain ⟨_, second, lowered⟩ := bind_eq_ok_iff.1 lowered
    have started := term_proper start one first
    have limited := term_proper limit two second
    have walked := statements_proper body four inner
    match step, three, lowered with
    | none, _, lowered =>
      cases lowered
      exact ⟨named, started, limited, trivial, walked⟩
    | some step, proper, lowered =>
      obtain ⟨_, third, lowered⟩ := bind_eq_ok_iff.1 lowered
      cases lowered
      exact ⟨named, started, limited, term_proper step proper third, walked⟩
  | .forGeneric _ exprs body, ⟨named, first, second⟩, _, lowered => by
    rw [statementForm] at lowered
    obtain ⟨_, two, lowered⟩ := bind_eq_ok_iff.1 lowered
    obtain ⟨_, one, lowered⟩ := bind_eq_ok_iff.1 lowered
    cases lowered
    exact ⟨named, terms_proper exprs first one, statements_proper body second two⟩
  | .break_, _, _, lowered => by
    rw [statementForm] at lowered
    cases lowered
    exact trivial
  | .goto _, proper, _, lowered | .label _, proper, _, lowered => by
    rw [statementForm] at lowered
    cases lowered
    exact proper

theorem clause_proper {level : Nat} :
    (written : Clause) → written.Proper → ∀ {arm}, clause level written = .ok arm →
    arm.condition.isSome = true ∧ clauseProper arm
  | ⟨condition, body⟩, ⟨first, second⟩, _, lowered => by
    rw [clause] at lowered
    obtain ⟨_, one, lowered⟩ := bind_eq_ok_iff.1 lowered
    obtain ⟨_, two, lowered⟩ := bind_eq_ok_iff.1 lowered
    cases lowered
    exact ⟨rfl, term_proper condition first one, statements_proper body second two⟩

theorem clauses_proper {level : Nat} :
    (written : List Clause) → clausesProper written → ∀ {arms}, clauses level written = .ok arms →
    (∀ arm ∈ arms, arm.condition.isSome = true) ∧ LuaClasses.clausesProper arms
  | [], _, _, lowered => by
    rw [clauses] at lowered
    cases lowered
    exact ⟨nofun, trivial⟩
  | head :: rest, ⟨first, others⟩, _, lowered => by
    rw [clauses] at lowered
    obtain ⟨_, one, lowered⟩ := bind_eq_ok_iff.1 lowered
    obtain ⟨_, two, lowered⟩ := bind_eq_ok_iff.1 lowered
    cases lowered
    obtain ⟨guard, arm⟩ := clause_proper head first one
    obtain ⟨guards, arms⟩ := clauses_proper rest others two
    exact ⟨List.forall_mem_cons.2 ⟨guard, guards⟩, arm, arms⟩
end

end Lowering

/-- What a tree of proper form is lowered to is a proper program. -/
theorem File.proper_program {file : File} (proper : statementsProper file.body) {program : Program}
    (lowered : file.program = .ok program) : program.Proper := by
  obtain ⟨_, body, lowered⟩ := bind_eq_ok_iff.1 lowered
  cases lowered
  exact Lowering.statements_proper file.body proper body

end LuaClasses.Source
