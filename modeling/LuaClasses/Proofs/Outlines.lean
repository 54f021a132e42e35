import LuaClasses.Proofs.ListAlignment
import Mathlib.Order.Basic

/-! Where the statements of a text stand. An outline is the tree of the statements alone, each with its
place and with the statements that it holds at the next depth, in the order of the text. A source tree
and the program that it is lowered to have the same outline, but for the narrower form of the places in a
program. -/

namespace LuaClasses

/-! ### The order of places -/

namespace Position

/-- A place comes before another one on an earlier line, or further left on the same one. -/
instance : Preorder Position where
  le first second := first.line < second.line ∨ first.line = second.line ∧ first.column ≤ second.column
  lt first second := first.line < second.line ∨ first.line = second.line ∧ first.column < second.column
  le_refl position := .inr ⟨rfl, Nat.le_refl _⟩
  le_trans first second third one two := by omega
  lt_iff_le_not_ge first second := by omega

private theorem lt_advance (position : Position) (char : Char) : position < position.advance char := by
  have wide := char.utf8Size_pos
  rw [advance]
  split
  · exact .inl (Nat.lt_succ_self _)
  · exact .inr ⟨rfl, Nat.lt_add_of_pos_right wide⟩

theorem le_after (position : Position) (text : List Char) : position ≤ position.after text := by
  induction text generalizing position with
  | nil => exact le_refl position
  | cons char rest ih => exact (position.lt_advance char).le.trans (ih _)

theorem lt_after (position : Position) (char : Char) (rest : List Char) :
    position < position.after (char :: rest) :=
  (position.lt_advance char).trans_le (le_after _ rest)

end Position

/-! ### Outlines -/

/-- A statement by its place, and the statements that it holds at the next depth. -/
structure Outline (α : Type) where
  place : α
  inner : List (Outline α)

section Places

variable {α β : Type}

mutual
def Outline.map (f : α → β) : Outline α → Outline β
  | ⟨place, inner⟩ => ⟨f place, mapOutlines f inner⟩

def mapOutlines (f : α → β) : List (Outline α) → List (Outline β)
  | [] => []
  | head :: rest => head.map f :: mapOutlines f rest
end

private theorem mapOutlines_append (f : α → β) (before after : List (Outline α)) :
    mapOutlines f (before ++ after) = mapOutlines f before ++ mapOutlines f after := by
  induction before with
  | nil => rfl
  | cons head rest ih => exact congrArg (head.map f :: ·) ih

mutual
/-- The places of a statement and of all that it holds, a statement before what it holds. -/
def Outline.places : Outline α → List α
  | ⟨place, inner⟩ => place :: placesOf inner

def placesOf : List (Outline α) → List α
  | [] => []
  | head :: rest => head.places ++ placesOf rest
end

mutual
theorem Outline.places_map (f : α → β) : (outline : Outline α) → (outline.map f).places = outline.places.map f
  | ⟨place, inner⟩ => by
    rw [Outline.map, Outline.places, Outline.places, List.map_cons, placesOf_map f inner]

theorem placesOf_map (f : α → β) :
    (outlines : List (Outline α)) → placesOf (mapOutlines f outlines) = (placesOf outlines).map f
  | [] => rfl
  | head :: rest => by
    rw [mapOutlines, placesOf, placesOf, List.map_append, head.places_map f, placesOf_map f rest]
end

mutual
theorem Outline.map_eq_self {f : α → α} :
    (outline : Outline α) → (∀ place ∈ outline.places, f place = place) →
    outline.map f = outline
  | ⟨place, inner⟩, same => by
    rw [Outline.places, List.forall_mem_cons] at same
    rw [Outline.map, same.1, mapOutlines_eq_self inner same.2]

theorem mapOutlines_eq_self {f : α → α} :
    (outlines : List (Outline α)) → (∀ place ∈ placesOf outlines, f place = place) →
    mapOutlines f outlines = outlines
  | [], _ => rfl
  | head :: rest, same => by
    rw [placesOf, List.forall_mem_append] at same
    rw [mapOutlines, head.map_eq_self same.1, mapOutlines_eq_self rest same.2]
end

mutual
theorem Outline.map_map {γ : Type} (f : α → β) (g : β → γ) : (outline : Outline α) →
    (outline.map f).map g = outline.map fun place => g (f place)
  | ⟨place, inner⟩ => by
    rw [Outline.map, Outline.map, Outline.map, mapOutlines_map f g inner]

theorem mapOutlines_map {γ : Type} (f : α → β) (g : β → γ) : (outlines : List (Outline α)) →
    mapOutlines g (mapOutlines f outlines) = mapOutlines (fun place => g (f place)) outlines
  | [] => rfl
  | head :: rest => by
    rw [mapOutlines, mapOutlines, mapOutlines, head.map_map f g, mapOutlines_map f g rest]
end

end Places

/-! ### Statements in order -/

mutual
/-- Whether what a statement holds stands in order between its start and its stop, with something of the
statement before it. -/
def Outline.InOrder : Outline Span → Prop
  | ⟨span, inner⟩ => ∃ first, span.start < first ∧ Spread first span.stop inner

/-- Whether statements stand one after the other between two places, each of them in order. -/
def Spread (first last : Position) : List (Outline Span) → Prop
  | [] => first ≤ last
  | head :: rest => first ≤ head.place.start ∧ head.InOrder ∧ Spread head.place.stop last rest
end

namespace Spread

variable {first middle last : Position} {outlines others : List (Outline Span)}

theorem earlier (spread : Spread middle last outlines) (before : first ≤ middle) :
    Spread first last outlines := by
  cases outlines with
  | nil => exact before.trans spread
  | cons head rest => exact ⟨before.trans spread.1, spread.2⟩

theorem append (one : Spread first middle outlines) (two : Spread middle last others) :
    Spread first last (outlines ++ others) := by
  induction outlines generalizing first with
  | nil => exact two.earlier one
  | cons head rest ih => exact ⟨one.1, one.2.1, ih one.2.2⟩

theorem later (spread : Spread first middle outlines) (after : middle ≤ last) :
    Spread first last outlines := by
  rw [← List.append_nil outlines]
  exact spread.append after

end Spread

mutual
theorem Outline.InOrder.lt :
    (outline : Outline Span) → outline.InOrder → outline.place.start < outline.place.stop
  | ⟨_, inner⟩, ⟨_, later, spread⟩ => later.trans_le (Spread.le inner spread)

theorem Spread.le {first last : Position} :
    (outlines : List (Outline Span)) → Spread first last outlines → first ≤ last
  | [], spread => spread
  | head :: rest, ⟨before, ordered, spread⟩ =>
    before.trans ((Outline.InOrder.lt head ordered).le.trans (Spread.le rest spread))
end

/-- Whether some spans start one after the other, and each of them lies between two places. -/
structure Ascending (first last : Position) (spans : List Span) : Prop where
  starts : spans.Pairwise fun one two => one.start < two.start
  bounds : ∀ span ∈ spans, first ≤ span.start ∧ span.start < span.stop ∧ span.stop ≤ last

/-- A span that starts later than another one is another one. -/
theorem Ascending.nodup {first last : Position} {spans : List Span}
    (ascending : Ascending first last spans) : spans.Nodup :=
  ascending.starts.imp fun before same => absurd (same ▸ before) (lt_irrefl _)

mutual
theorem Outline.InOrder.ascending : (outline : Outline Span) → outline.InOrder →
    Ascending outline.place.start outline.place.stop outline.places
  | ⟨span, inner⟩, ⟨first, later, spread⟩ => by
    have below := Spread.ascending inner spread
    have whole := later.trans_le (Spread.le inner spread)
    rw [Outline.places]
    refine ⟨List.pairwise_cons.2 ⟨?_, below.starts⟩,
      List.forall_mem_cons.2 ⟨⟨le_refl _, whole, le_refl _⟩, ?_⟩⟩
    · intro other member
      exact later.trans_le (below.bounds other member).1
    · intro other member
      obtain ⟨from_, width, upto⟩ := below.bounds other member
      exact ⟨later.le.trans from_, width, upto⟩

theorem Spread.ascending {first last : Position} :
    (outlines : List (Outline Span)) → Spread first last outlines →
    Ascending first last (placesOf outlines)
  | [], _ => ⟨List.Pairwise.nil, fun _ member => absurd member List.not_mem_nil⟩
  | head :: rest, ⟨before, ordered, spread⟩ => by
    have one := Outline.InOrder.ascending head ordered
    have two := Spread.ascending rest spread
    rw [placesOf]
    refine ⟨List.pairwise_append.2 ⟨one.starts, two.starts, ?_⟩, List.forall_mem_append.2 ⟨?_, ?_⟩⟩
    · intro earlier member later member'
      obtain ⟨_, width, upto⟩ := one.bounds earlier member
      exact (width.trans_le upto).trans_le (two.bounds later member').1
    · intro span member
      obtain ⟨from_, width, upto⟩ := one.bounds span member
      exact ⟨before.trans from_, width, upto.trans (Spread.le rest spread)⟩
    · intro span member
      obtain ⟨from_, width, upto⟩ := two.bounds span member
      exact ⟨before.trans ((Outline.InOrder.lt head ordered).le.trans from_), width, upto⟩
end

/-! ### The outline of a program -/

mutual
def Expr.outlines : Expr → List (Outline Range)
  | .nil => []
  | .boolean _ => []
  | .number _ => []
  | .string _ => []
  | .vararg => []
  | .function body => body.outlines
  | .table fields => outlinesOfFields fields
  | .name _ => []
  | .member object _ => object.outlines
  | .index object key => object.outlines ++ key.outlines
  | .call callee args => callee.outlines ++ outlinesOfExprs args
  | .methodCall object _ args => object.outlines ++ outlinesOfExprs args
  | .paren inner => inner.outlines
  | .unary _ operand => operand.outlines
  | .binary _ left right => left.outlines ++ right.outlines

def outlinesOfExprs : List Expr → List (Outline Range)
  | [] => []
  | head :: rest => head.outlines ++ outlinesOfExprs rest

def outlinesOfFields : List TableField → List (Outline Range)
  | [] => []
  | head :: rest => head.outlines ++ outlinesOfFields rest

def TableField.outlines : TableField → List (Outline Range)
  | .named _ value => value.outlines
  | .keyed key value => key.outlines ++ value.outlines
  | .positional value => value.outlines

def FunctionBody.outlines : FunctionBody → List (Outline Range)
  | ⟨_, _, body⟩ => outlinesOfStmts body

def outlinesOfStmts : List Stmt → List (Outline Range)
  | [] => []
  | head :: rest => head.outline :: outlinesOfStmts rest

def Stmt.outline : Stmt → Outline Range
  | ⟨kind, range⟩ => ⟨range, kind.outlines⟩

def StmtKind.outlines : StmtKind → List (Outline Range)
  | .local_ _ values => outlinesOfExprs values
  | .assign targets values => outlinesOfExprs targets ++ outlinesOfExprs values
  | .call call => call.outlines
  | .function _ _ body => body.outlines
  | .return_ values => outlinesOfExprs values
  | .if_ clauses => outlinesOfClauses clauses
  | .while_ condition body => condition.outlines ++ outlinesOfStmts body
  | .repeat_ body condition => outlinesOfStmts body ++ condition.outlines
  | .do_ body => outlinesOfStmts body
  | .forNumeric _ start limit step body =>
    start.outlines ++ (limit.outlines ++ (outlinesOfOption step ++ outlinesOfStmts body))
  | .forGeneric _ exprs body => outlinesOfExprs exprs ++ outlinesOfStmts body
  | .break_ => []
  | .goto _ => []
  | .label _ => []

def IfClause.outlines : IfClause → List (Outline Range)
  | ⟨condition, body⟩ => outlinesOfOption condition ++ outlinesOfStmts body

def outlinesOfClauses : List IfClause → List (Outline Range)
  | [] => []
  | head :: rest => head.outlines ++ outlinesOfClauses rest

def outlinesOfOption : Option Expr → List (Outline Range)
  | none => []
  | some expr => expr.outlines
end

/-- The statements of a program, each with what it holds. -/
def Program.outlines (program : Program) : List (Outline Range) := outlinesOfStmts program.body

private theorem outlinesOfStmts_append (before after : List Stmt) :
    outlinesOfStmts (before ++ after) = outlinesOfStmts before ++ outlinesOfStmts after := by
  induction before with
  | nil => rfl
  | cons head rest ih => rw [List.cons_append, outlinesOfStmts, ih, outlinesOfStmts, List.cons_append]

private theorem outlinesOfClauses_append (before after : List IfClause) :
    outlinesOfClauses (before ++ after) = outlinesOfClauses before ++ outlinesOfClauses after := by
  induction before with
  | nil => rfl
  | cons head rest ih => rw [List.cons_append, outlinesOfClauses, ih, outlinesOfClauses, List.append_assoc]

namespace Source

/-! ### The outline of a source tree -/

/-- The statements that programs do not have. -/
def StatementForm.isSilent : StatementForm → Bool
  | .empty => true
  | .declareAll _ => true
  | _ => false

mutual
def Term.outlines : Term → List (Outline Span)
  | ⟨_, form⟩ => form.outlines

def TermForm.outlines : TermForm → List (Outline Span)
  | .nil => []
  | .boolean _ => []
  | .number _ => []
  | .string _ => []
  | .vararg => []
  | .name _ => []
  | .global => []
  | .function body => body.outlines
  | .table entries => fieldsOutlines entries
  | .member object _ => object.outlines
  | .index object key => object.outlines ++ key.outlines
  | .call callee args => callee.outlines ++ termsOutlines args
  | .methodCall object _ args => object.outlines ++ termsOutlines args
  | .paren inner => inner.outlines
  | .unary _ operand => operand.outlines
  | .binary _ left right => left.outlines ++ right.outlines

def termsOutlines : List Term → List (Outline Span)
  | [] => []
  | head :: rest => head.outlines ++ termsOutlines rest

def fieldsOutlines : List Field → List (Outline Span)
  | [] => []
  | head :: rest => head.outlines ++ fieldsOutlines rest

def Field.outlines : Field → List (Outline Span)
  | .named _ value => value.outlines
  | .keyed key value => key.outlines ++ value.outlines
  | .positional value => value.outlines

def Callable.outlines : Callable → List (Outline Span)
  | ⟨_, _, body⟩ => statementsOutlines body

def statementsOutlines : List Statement → List (Outline Span)
  | [] => []
  | head :: rest => head.outlines ++ statementsOutlines rest

def Statement.outlines : Statement → List (Outline Span)
  | ⟨span, form⟩ => if form.isSilent then [] else [⟨span, form.outlines⟩]

def StatementForm.outlines : StatementForm → List (Outline Span)
  | .empty => []
  | .declare _ _ => []
  | .define _ _ values => termsOutlines values
  | .declareAll _ => []
  | .assign targets values => termsOutlines targets ++ termsOutlines values
  | .call call => call.outlines
  | .function _ _ body => body.outlines
  | .return_ values => termsOutlines values
  | .if_ first others otherwise => first.outlines ++ (clausesOutlines others ++ otherwiseOutlines otherwise)
  | .while_ condition body => condition.outlines ++ statementsOutlines body
  | .repeat_ body condition => statementsOutlines body ++ condition.outlines
  | .do_ body => statementsOutlines body
  | .forNumeric _ start limit step body =>
    start.outlines ++ (limit.outlines ++ (stepOutlines step ++ statementsOutlines body))
  | .forGeneric _ exprs body => termsOutlines exprs ++ statementsOutlines body
  | .break_ => []
  | .goto _ => []
  | .label _ => []

def Clause.outlines : Clause → List (Outline Span)
  | ⟨condition, body⟩ => condition.outlines ++ statementsOutlines body

def clausesOutlines : List Clause → List (Outline Span)
  | [] => []
  | head :: rest => head.outlines ++ clausesOutlines rest

def otherwiseOutlines : Option Block → List (Outline Span)
  | none => []
  | some ⟨body⟩ => statementsOutlines body

def stepOutlines : Option Term → List (Outline Span)
  | none => []
  | some step => step.outlines
end

/-- The statements of a text, each with what it holds. -/
def File.outlines (file : File) : List (Outline Span) := statementsOutlines file.body

private theorem Term.outlines_of_isGlobal {term : Term} (word : term.isGlobal = true) :
    term.outlines = [] := by
  obtain ⟨span, form⟩ := term
  cases form <;> first | rfl | cases word

theorem StatementForm.isSilent_iff (keep : Bool) (form : StatementForm) :
    form.isSilent = true ↔ form.kind? keep = none := by
  cases form <;> simp [isSilent, kind?]

/-! ### One outline for both -/

section Lowered

variable (keep : Bool)

mutual
theorem Term.outlines_expr : (term : Term) → (term.expr keep).outlines = mapOutlines .ofSpan term.outlines
  | ⟨_, form⟩ => form.outlines_expr

theorem TermForm.outlines_expr :
    (form : TermForm) → (form.expr keep).outlines = mapOutlines .ofSpan form.outlines
  | .nil | .boolean _ | .number _ | .string _ | .vararg | .name _ | .global => by
    rw [TermForm.expr, Expr.outlines, TermForm.outlines, mapOutlines]
  | .function body => by
    rw [TermForm.expr, Expr.outlines, TermForm.outlines, body.outlines_functionBody]
  | .table entries => by
    rw [TermForm.expr, Expr.outlines, TermForm.outlines, outlines_tableFieldsOf entries]
  | .member object _ => by
    rw [TermForm.expr, Expr.outlines, TermForm.outlines, object.outlines_expr]
  | .index object key => by
    rw [TermForm.expr, Expr.outlines, TermForm.outlines, mapOutlines_append,
      object.outlines_expr, key.outlines_expr]
  | .call callee args => by
    rw [TermForm.expr, Expr.outlines, TermForm.outlines, mapOutlines_append,
      callee.outlines_expr, outlines_exprsOf args]
  | .methodCall object _ args => by
    rw [TermForm.expr, Expr.outlines, TermForm.outlines, mapOutlines_append,
      object.outlines_expr, outlines_exprsOf args]
  | .paren inner => by
    rw [TermForm.expr, Expr.outlines, TermForm.outlines, inner.outlines_expr]
  | .unary _ operand => by
    rw [TermForm.expr, Expr.outlines, TermForm.outlines, operand.outlines_expr]
  | .binary _ left right => by
    rw [TermForm.expr, Expr.outlines, TermForm.outlines, mapOutlines_append,
      left.outlines_expr, right.outlines_expr]

/-- The words that are left out of a list hold no statements. -/
theorem outlines_exprsOf :
    (terms : List Term) → outlinesOfExprs (exprsOf keep terms) = mapOutlines .ofSpan (termsOutlines terms)
  | [] => rfl
  | head :: rest => by
    rw [exprsOf, termsOutlines, mapOutlines_append, ← outlines_exprsOf rest]
    split
    next left =>
      rw [Term.outlines_of_isGlobal (Bool.and_eq_true_iff.1 left).1]
      rfl
    next => rw [outlinesOfExprs, head.outlines_expr]

theorem outlines_tableFieldsOf : (fields : List Field) →
    outlinesOfFields (tableFieldsOf keep fields) = mapOutlines .ofSpan (fieldsOutlines fields)
  | [] => rfl
  | head :: rest => by
    rw [tableFieldsOf, outlinesOfFields, fieldsOutlines, mapOutlines_append, head.outlines_tableField,
      outlines_tableFieldsOf rest]

theorem Field.outlines_tableField :
    (field : Field) → (field.tableField keep).outlines = mapOutlines .ofSpan field.outlines
  | .named _ value | .positional value => by
    rw [Field.tableField, TableField.outlines, Field.outlines, value.outlines_expr]
  | .keyed key value => by
    rw [Field.tableField, TableField.outlines, Field.outlines, mapOutlines_append,
      key.outlines_expr, value.outlines_expr]

theorem Callable.outlines_functionBody : (callable : Callable) →
    (callable.functionBody keep).outlines = mapOutlines .ofSpan callable.outlines
  | ⟨_, _, body⟩ => outlines_stmtsOf body

theorem outlines_stmtsOf :
    (body : List Statement) → outlinesOfStmts (stmtsOf keep body) = mapOutlines .ofSpan
    (statementsOutlines body)
  | [] => rfl
  | head :: rest => by
    rw [stmtsOf, statementsOutlines, outlinesOfStmts_append, mapOutlines_append,
      head.outlines_stmt?, outlines_stmtsOf rest]

theorem Statement.outlines_stmt? : (statement : Statement) →
    outlinesOfStmts (statement.stmt? keep).toList = mapOutlines .ofSpan statement.outlines
  | ⟨span, form⟩ => by
    rw [Statement.stmt?, Statement.outlines]
    have inner := form.outlines_kind?
    cases written : form.kind? keep with
    | none =>
      rw [if_pos ((form.isSilent_iff keep).2 written)]
      rfl
    | some kind =>
      rw [if_neg (fun silent => by rw [(form.isSilent_iff keep).1 silent] at written; cases written)]
      have same := inner kind written
      simp [outlinesOfStmts, Stmt.outline, mapOutlines, Outline.map, same]

theorem StatementForm.outlines_kind? : (form : StatementForm) → ∀ kind, form.kind? keep = some kind →
    kind.outlines = mapOutlines .ofSpan form.outlines
  | .empty, _, same | .declareAll _, _, same => by cases same
  | .declare _ _, _, same | .break_, _, same | .goto _, _, same | .label _, _, same => by
    cases same
    rfl
  | .define _ _ values, _, same => by
    cases same
    rw [StmtKind.outlines, StatementForm.outlines, outlines_exprsOf values]
  | .assign targets values, _, same => by
    cases same
    rw [StmtKind.outlines, StatementForm.outlines, mapOutlines_append,
      outlines_exprsOf targets, outlines_exprsOf values]
  | .call call, _, same => by
    cases same
    rw [StmtKind.outlines, StatementForm.outlines, call.outlines_expr]
  | .function _ _ body, _, same => by
    cases same
    rw [StmtKind.outlines, StatementForm.outlines, body.outlines_functionBody]
  | .return_ values, _, same => by
    cases same
    rw [StmtKind.outlines, StatementForm.outlines, outlines_exprsOf values]
  | .if_ first others otherwise, _, same => by
    cases same
    rw [StmtKind.outlines, outlinesOfClauses, outlinesOfClauses_append, StatementForm.outlines,
      mapOutlines_append, mapOutlines_append,
      first.outlines_ifClause, outlines_ifClausesOf others, outlines_elseOf otherwise]
  | .while_ condition body, _, same => by
    cases same
    rw [StmtKind.outlines, StatementForm.outlines, mapOutlines_append,
      condition.outlines_expr, outlines_stmtsOf body]
  | .repeat_ body condition, _, same => by
    cases same
    rw [StmtKind.outlines, StatementForm.outlines, mapOutlines_append,
      condition.outlines_expr, outlines_stmtsOf body]
  | .do_ body, _, same => by
    cases same
    rw [StmtKind.outlines, StatementForm.outlines, outlines_stmtsOf body]
  | .forNumeric _ start limit step body, _, same => by
    cases same
    rw [StmtKind.outlines, StatementForm.outlines, mapOutlines_append, mapOutlines_append,
      mapOutlines_append, start.outlines_expr,
      limit.outlines_expr, outlines_stepOf step, outlines_stmtsOf body]
  | .forGeneric _ exprs body, _, same => by
    cases same
    rw [StmtKind.outlines, StatementForm.outlines, mapOutlines_append,
      outlines_exprsOf exprs, outlines_stmtsOf body]

theorem Clause.outlines_ifClause :
    (clause : Clause) → (clause.ifClause keep).outlines = mapOutlines .ofSpan clause.outlines
  | ⟨condition, body⟩ => by
    rw [Clause.ifClause, IfClause.outlines, outlinesOfOption, Clause.outlines,
      mapOutlines_append, condition.outlines_expr,
      outlines_stmtsOf body]

theorem outlines_ifClausesOf : (clauses : List Clause) →
    outlinesOfClauses (ifClausesOf keep clauses) = mapOutlines .ofSpan (clausesOutlines clauses)
  | [] => rfl
  | head :: rest => by
    rw [ifClausesOf, outlinesOfClauses, clausesOutlines, mapOutlines_append, head.outlines_ifClause,
      outlines_ifClausesOf rest]

theorem outlines_elseOf : (otherwise : Option Block) →
    outlinesOfClauses (elseOf keep otherwise) = mapOutlines .ofSpan (otherwiseOutlines otherwise)
  | none => rfl
  | some ⟨body⟩ => by
    rw [elseOf, outlinesOfClauses, outlinesOfClauses, IfClause.outlines, outlinesOfOption,
      List.nil_append, List.append_nil,
      otherwiseOutlines, outlines_stmtsOf body]

theorem outlines_stepOf :
    (step : Option Term) → outlinesOfOption (stepOf keep step) = mapOutlines .ofSpan (stepOutlines step)
  | none => rfl
  | some step => step.outlines_expr
end

end Lowered

/-- The ranges of a program are the recorded spans of the statements of the text. -/
theorem File.outlines_program {file : File} {program : Program} (lowered : file.program = .ok program) :
    program.outlines = mapOutlines .ofSpan file.outlines := by
  rw [file.program_gives program lowered]
  exact outlines_stmtsOf false file.body

end Source
end LuaClasses
