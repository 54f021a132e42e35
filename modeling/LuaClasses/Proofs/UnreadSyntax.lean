import LuaClasses.Proofs.GistEntry

/-! Edits to the parts of a program that discovery does not read. However many of them are made,
and wherever, the discovery stays as it is. -/

namespace LuaClasses
open Relation

/-- One item of a list is edited. -/
inductive EditAt {α : Type} (edit : α → α → Prop) : List α → List α → Prop
  | here {item edited : α} (rest : List α) (changed : edit item edited) :
    EditAt edit (item :: rest) (edited :: rest)
  | there {items edited : List α} (first : α) (changed : EditAt edit items edited) :
      EditAt edit (first :: items) (first :: edited)

/-- One edit to an expression: to a function literal, the fields of a table, the arguments of a
call, or operands that do not decide a type, at any depth. -/
inductive Expr.Edit : Expr → Expr → Prop
  | literal (body edited : FunctionBody) : Edit (.function body) (.function edited)
  | fields (fields edited : List TableField) : Edit (.table fields) (.table edited)
  | arguments (callee : Expr) (args edited : List Expr) : Edit (.call callee args) (.call callee edited)
  | methodArguments (object : Expr) (method : String) (args edited : List Expr) :
      Edit (.methodCall object method args) (.methodCall object method edited)
  | operand (op : UnaryOp) (operand edited : Expr) : Edit (.unary op operand) (.unary op edited)
  | operands {op : BinaryOp} (notAnd : op ≠ .and) (notOr : op ≠ .or) (left right newLeft newRight : Expr) :
      Edit (.binary op left right) (.binary op newLeft newRight)
  | inMember {object edited : Expr} (key : String) (inside : Edit object edited) :
      Edit (.member object key) (.member edited key)
  | inIndexed {object edited : Expr} (key : Expr) (inside : Edit object edited) :
      Edit (.index object key) (.index edited key)
  | inKey {key edited : Expr} (object : Expr) (inside : Edit key edited) :
      Edit (.index object key) (.index object edited)
  | inCallee {callee edited : Expr} (args : List Expr) (inside : Edit callee edited) :
      Edit (.call callee args) (.call edited args)
  | inReceiver {object edited : Expr} (method : String) (args : List Expr) (inside : Edit object edited) :
      Edit (.methodCall object method args) (.methodCall edited method args)
  | inParen {inner edited : Expr} (inside : Edit inner edited) : Edit (.paren inner) (.paren edited)
  | inLeft {left edited : Expr} (op : BinaryOp) (right : Expr) (inside : Edit left edited) :
      Edit (.binary op left right) (.binary op edited right)
  | inRight {right edited : Expr} (op : BinaryOp) (left : Expr) (inside : Edit right edited) :
      Edit (.binary op left right) (.binary op left edited)

/-- Whether a statement may be deleted from a body: a call, a jump, a label, or a function that is
declared there. -/
def StmtKind.deletableInside : StmtKind → Bool
  | .call _ | .break_ | .goto _ | .label _ | .function _ _ _ => true
  | _ => false

/-- Whether a statement may be deleted from the top level: a call, a jump, a label or a block. -/
def StmtKind.deletableAtTop : StmtKind → Bool
  | .call _ | .break_ | .goto _ | .label _ => true
  | .if_ _ | .while_ _ _ | .repeat_ _ _ | .do_ _ | .forNumeric _ _ _ _ _ | .forGeneric _ _ _ => true
  | _ => false

mutual
/-- One edit to a statement of a body. -/
inductive KindEdit : StmtKind → StmtKind → Prop
  | localValue {values edited : List Expr} (names : List String) (changed : EditAt Expr.Edit values edited) :
      KindEdit (.local_ names values) (.local_ names edited)
  | target {targets edited : List Expr} (values : List Expr) (changed : EditAt Expr.Edit targets edited) :
      KindEdit (.assign targets values) (.assign edited values)
  | value {values edited : List Expr} (targets : List Expr) (changed : EditAt Expr.Edit values edited) :
      KindEdit (.assign targets values) (.assign targets edited)
  | inCall {call edited : Expr} (inside : Expr.Edit call edited) : KindEdit (.call call) (.call edited)
  | inFunction {body edited : List Stmt} (name : FunctionName) (isLocal : Bool)
    (params : List String) (vararg : Bool)
      (inside : BodyEdit body edited) :
      KindEdit (.function name isLocal ⟨params, vararg, body⟩)
        (.function name isLocal ⟨params, vararg, edited⟩)
  | returned {values edited : List Expr} (changed : EditAt Expr.Edit values edited) :
      KindEdit (.return_ values) (.return_ edited)
  | firstReturned (first : Expr) (rest : List Expr) : KindEdit (.return_ (first :: rest)) (.return_ [first])
  | inArm {clauses edited : List IfClause} (inside : ClausesEdit clauses edited) :
    KindEdit (.if_ clauses) (.if_ edited)
  | whileCondition (condition edited : Expr) (body : List Stmt) :
    KindEdit (.while_ condition body) (.while_ edited body)
  | inWhile {body edited : List Stmt} (condition : Expr) (inside : BodyEdit body edited) :
      KindEdit (.while_ condition body) (.while_ condition edited)
  | untilCondition (condition edited : Expr) (body : List Stmt) :
      KindEdit (.repeat_ body condition) (.repeat_ body edited)
  | inRepeat {body edited : List Stmt} (condition : Expr) (inside : BodyEdit body edited) :
      KindEdit (.repeat_ body condition) (.repeat_ edited condition)
  | inDo {body edited : List Stmt} (inside : BodyEdit body edited) : KindEdit (.do_ body) (.do_ edited)
  | bounds (var : String) (start limit newStart newLimit : Expr)
    (step newStep : Option Expr) (body : List Stmt) :
      KindEdit (.forNumeric var start limit step body) (.forNumeric var newStart newLimit newStep body)
  | inNumeric {body edited : List Stmt} (var : String) (start limit : Expr) (step : Option Expr)
      (inside : BodyEdit body edited) :
      KindEdit (.forNumeric var start limit step body) (.forNumeric var start limit step edited)
  | generators (names : List String) (exprs edited : List Expr) (body : List Stmt) :
      KindEdit (.forGeneric names exprs body) (.forGeneric names edited body)
  | inGeneric {body edited : List Stmt} (names : List String) (exprs : List Expr)
    (inside : BodyEdit body edited) :
      KindEdit (.forGeneric names exprs body) (.forGeneric names exprs edited)

/-- One edit to the statements of a body: one of them is deleted or edited. -/
inductive BodyEdit : List Stmt → List Stmt → Prop
  | delete (stmt : Stmt) (rest : List Stmt) (deletable : stmt.kind.deletableInside = true) :
      BodyEdit (stmt :: rest) rest
  | here {kind edited : StmtKind} (range : Range) (rest : List Stmt) (changed : KindEdit kind edited) :
      BodyEdit (⟨kind, range⟩ :: rest) (⟨edited, range⟩ :: rest)
  | there {body edited : List Stmt} (first : Stmt) (changed : BodyEdit body edited) :
      BodyEdit (first :: body) (first :: edited)

/-- One edit to the arms of an `if` statement. -/
inductive ClausesEdit : List IfClause → List IfClause → Prop
  | condition (condition edited : Expr) (body : List Stmt) (rest : List IfClause) :
      ClausesEdit (⟨some condition, body⟩ :: rest) (⟨some edited, body⟩ :: rest)
  | inside {body edited : List Stmt} (condition : Option Expr) (rest : List IfClause)
    (changed : BodyEdit body edited) :
      ClausesEdit (⟨condition, body⟩ :: rest) (⟨condition, edited⟩ :: rest)
  | there {clauses edited : List IfClause} (first : IfClause) (changed : ClausesEdit clauses edited) :
      ClausesEdit (first :: clauses) (first :: edited)
end

/-- One edit to a value that the top level binds. A function literal there keeps its parameters,
and its body is edited as a body. -/
inductive Expr.BoundEdit : Expr → Expr → Prop
  | inBody {body edited : List Stmt} (params : List String) (vararg : Bool) (inside : BodyEdit body edited) :
      BoundEdit (.function ⟨params, vararg, body⟩) (.function ⟨params, vararg, edited⟩)
  | inParen {inner edited : Expr} (inside : BoundEdit inner edited) : BoundEdit (.paren inner) (.paren edited)
  | other {value edited : Expr} (noLiteral : ∀ body, value.unparen ≠ .function body)
    (changed : Expr.Edit value edited) :
      BoundEdit value edited

/-- One edit to a statement of the top level. -/
inductive StmtKind.TopEdit : StmtKind → StmtKind → Prop
  | localValue {values edited : List Expr} (names : List String)
    (changed : EditAt Expr.BoundEdit values edited) :
      TopEdit (.local_ names values) (.local_ names edited)
  | target {targets edited : List Expr} (values : List Expr) (changed : EditAt Expr.Edit targets edited) :
      TopEdit (.assign targets values) (.assign edited values)
  | value {values edited : List Expr} (targets : List Expr) (changed : EditAt Expr.BoundEdit values edited) :
      TopEdit (.assign targets values) (.assign targets edited)
  | other {kind edited : StmtKind} (unbound : Discovery.bindings? kind = none)
    (changed : KindEdit kind edited) :
      TopEdit kind edited

/-- One edit to a program: a statement of the top level is deleted or edited. -/
inductive Program.Edit : Program → Program → Prop
  | delete (before after : List Stmt) (stmt : Stmt) (deletable : stmt.kind.deletableAtTop = true) :
      Edit ⟨before ++ stmt :: after⟩ ⟨before ++ after⟩
  | change {kind edited : StmtKind} (before after : List Stmt) (range : Range)
    (changed : StmtKind.TopEdit kind edited) :
      Edit ⟨before ++ ⟨kind, range⟩ :: after⟩ ⟨before ++ ⟨edited, range⟩ :: after⟩

/-! ### Edits keep the gist -/

private theorem EditAt.map_eq {α β : Type} {edit : α → α → Prop} (view : α → β)
    (same : ∀ item edited, edit item edited → view edited = view item) {items edited : List α}
    (changed : EditAt edit items edited) : edited.map view = items.map view := by
  induction changed with
  | here rest changed => rw [List.map_cons, List.map_cons, same _ _ changed]
  | there first _ ih => rw [List.map_cons, List.map_cons, ih]

private theorem Expr.Edit.gist_eq {expr edited : Expr} (changed : Edit expr edited) :
    edited.gist = expr.gist := by
  induction changed with
  | literal | fields | arguments | methodArguments | operand | inIndexed | inKey => rfl
  | @operands op notAnd notOr left right newLeft newRight =>
    -- Only `and` and `or` give one of their operands.
    have decided : op.resultType?.isSome = true := by cases op <;> first | rfl | contradiction
    simp only [Expr.gist, BinaryOp.readOperand, decided, if_true]
  | inMember _ _ ih | inCallee _ _ ih | inReceiver _ _ _ ih | inParen _ ih | inLeft _ _ _ ih | inRight _ _ _ ih =>
    simp only [Expr.gist, ih]

private theorem EditAt.map_gist {items edited : List Expr} (changed : EditAt Expr.Edit items edited) :
    edited.map Expr.gist = items.map Expr.gist :=
  changed.map_eq Expr.gist fun _ _ => Expr.Edit.gist_eq

private theorem EditAt.map_gistBound {items edited : List Expr} (changed : EditAt Expr.Edit items edited) :
    edited.map Expr.gistBound = items.map Expr.gistBound :=
  changed.map_eq Expr.gistBound fun _ _ changed => congrArg Expr.unparen changed.gist_eq

mutual
theorem KindEdit.gist_eq {kind edited : StmtKind} : KindEdit kind edited → gistKind edited = gistKind kind
  | .localValue names changed => congrArg (StmtKind.local_ names) changed.map_gistBound
  | .target values changed => congrArg (StmtKind.assign · _) changed.map_gist
  | .value targets changed => congrArg (StmtKind.assign _) changed.map_gistBound
  | .returned changed => by
    simp only [gistKind, List.map_take, changed.map_gist]
  | .inArm inside => congrArg StmtKind.if_ inside.gist_eq
  | .inWhile _ inside => congrArg (StmtKind.while_ _) inside.gist_eq
  | .inRepeat _ inside => congrArg (StmtKind.repeat_ · _) inside.gist_eq
  | .inDo inside => congrArg StmtKind.do_ inside.gist_eq
  | .inNumeric _ _ _ _ inside => congrArg (StmtKind.forNumeric _ _ _ _) inside.gist_eq
  | .inGeneric _ _ inside => congrArg (StmtKind.forGeneric _ _) inside.gist_eq
  | .inCall _ | .inFunction _ _ _ _ _ | .firstReturned _ _ => rfl
  | .whileCondition _ _ _ | .untilCondition _ _ _ | .bounds _ _ _ _ _ _ _ _ | .generators _ _ _ _ => rfl

theorem BodyEdit.gist_eq {body others : List Stmt} : BodyEdit body others → gistStmts others = gistStmts body
  | .delete stmt rest deletable => by
    obtain ⟨kind, range⟩ := stmt
    cases kind <;> first | rfl | cases deletable
  | @BodyEdit.here kind edited range rest changed => by
    have walked : edited.isWalked = kind.isWalked := by
      rw [← isWalked_gistKind edited, changed.gist_eq, isWalked_gistKind]
    simp only [gistStmts, gistStmt, walked, changed.gist_eq]
  | .there first changed => by rw [gistStmts, gistStmts, changed.gist_eq]

theorem ClausesEdit.gist_eq {clauses edited : List IfClause} :
    ClausesEdit clauses edited → gistClauses edited = gistClauses clauses
  | .condition _ _ _ _ => rfl
  | .inside _ rest changed => by simp only [gistClauses, gistClause, changed.gist_eq]
  | .there first changed => by rw [gistClauses, gistClauses, changed.gist_eq]
end

private theorem Expr.BoundEdit.gist_eq {value edited : Expr} (changed : BoundEdit value edited) :
    edited.gistValue = value.gistValue := by
  induction changed with
  | inBody params vararg inside => simp only [Expr.gistValue, FunctionBody.gist, inside.gist_eq]
  | inParen _ ih => simp only [Expr.gistValue, ih]
  | @other value edited noLiteral changed =>
    have same := changed.gist_eq
    have noLiteral' : ∀ body, edited.unparen ≠ .function body := by
      intro body literal
      have bare : value.gist.unparen = .function ⟨[], false, []⟩ := by
        rw [← same, Expr.unparen_gist, literal]; rfl
      obtain ⟨held, written⟩ := Expr.unparen_gist_function bare
      exact noLiteral held written
    rw [Expr.gistValue_of_noLiteral value noLiteral, Expr.gistValue_of_noLiteral edited noLiteral', same]

private theorem EditAt.map_gistEntered {items edited : List Expr}
    (changed : EditAt Expr.BoundEdit items edited) :
    edited.map Expr.gistEntered = items.map Expr.gistEntered :=
  changed.map_eq Expr.gistEntered fun _ _ changed => congrArg Expr.unparen changed.gist_eq

private theorem StmtKind.TopEdit.gist_eq {kind edited : StmtKind} (changed : TopEdit kind edited) :
    edited.gistEntry = kind.gistEntry := by
  cases changed with
  | localValue names changed => exact congrArg (StmtKind.local_ names) changed.map_gistEntered
  | target values changed => exact congrArg (StmtKind.assign · _) changed.map_gist
  | value targets changed => exact congrArg (StmtKind.assign _) changed.map_gistEntered
  | other unbound changed =>
    cases changed with
    | inFunction name isLocal params vararg inside =>
      simp only [StmtKind.gistEntry, FunctionBody.gist, inside.gist_eq]
    | localValue | target | value => cases unbound
    | _ => rfl

private theorem Program.Edit.gist_eq {program edited : Program} (changed : Edit program edited) :
    edited.gist = program.gist := by
  cases changed with
  | delete before after stmt deletable =>
    have unentered : stmt.kind.isEntered = false := by
      cases kind : stmt.kind <;> rw [kind] at deletable <;> first | rfl | cases deletable
    simp only [Program.gist, List.filter_append, List.filter_cons, unentered, Bool.false_eq_true, if_false]
  | @change kind edited before after range changed =>
    have entered : edited.isEntered = kind.isEntered := by
      rw [← isEntered_gistEntry edited, changed.gist_eq, isEntered_gistEntry]
    simp only [Program.gist, List.filter_append, List.filter_cons, List.map_append, entered]
    cases kind.isEntered with
    | false => rfl
    | true => simp only [if_true, List.map_cons, Stmt.gistEntry, changed.gist_eq]

/-- Discovery does not read what edits change: after any number of them the tree, the classes, the
diagnostics, the number of sweeps and the stage are as they were. -/
theorem discover_edited {program edited : Program} (edits : ReflTransGen Program.Edit program edited)
    (config : DiscoveryConfig) : discover edited config = discover program config := by
  have gist : edited.gist = program.gist := by
    induction edits with
    | refl => rfl
    | tail _ last ih => exact last.gist_eq.trans ih
  rw [← Discovery.discover_gist config edited, gist, Discovery.discover_gist]

/-- The class of `Discovery.Run.cellProgram`, written with much that is not read. -/
def noisyCell : Program where
  body := [
    ⟨.assign [.name "Cell"] [.methodCall (.name "ISBaseObject") "derive" [.string "Cell", .vararg]],
      ⟨1, 0, 1, 34⟩⟩,
    ⟨.do_ [⟨.local_ ["unused"] [.nil], ⟨1, 38, 1, 44⟩⟩], ⟨1, 35, 1, 48⟩⟩,
    ⟨.function (.ofMember "Cell" .dot "new") false ⟨["size"], false, [
      ⟨.local_ ["o"] [.table [.positional (.name "size")]], ⟨3, 2, 3, 14⟩⟩,
      ⟨.assign [.member (.name "o") "size"] [.name "size"], ⟨4, 2, 4, 15⟩⟩,
      ⟨.call (.call (.name "print") [.name "o"]), ⟨4, 16, 4, 24⟩⟩,
      ⟨.return_ [.name "o", .name "size"], ⟨5, 2, 5, 10⟩⟩]⟩, ⟨2, 0, 6, 3⟩⟩]

/-- Without all that, the same is discovered. -/
theorem noisyCell_discovered :
    ReflTransGen Program.Edit noisyCell Discovery.Run.cellProgram ∧
      discover Discovery.Run.cellProgram .default = discover noisyCell .default := by
  have edits : ReflTransGen Program.Edit noisyCell Discovery.Run.cellProgram := by
    -- The block, the second argument, the field of the table, the call and the second value go one by one.
    refine .head (.delete [_] _ _ rfl) ?_
    refine .head (.change [] _ _ (.value _ (.here [] (.other (fun _ => Expr.noConfusion)
      (.methodArguments _ _ _ [.string "Cell"]))))) ?_
    refine .head (.change [_] [] _ (.other rfl
      (.inFunction _ _ _ _ (.here _ _ (.localValue _ (.here [] (.fields _ []))))))) ?_
    refine .head (.change [_] [] _ (.other rfl
      (.inFunction _ _ _ _ (.there _ (.there _ (.delete _ _ rfl)))))) ?_
    exact .single (.change [_] [] _ (.other rfl (.inFunction _ _ _ _ (.there _ (.there _
      (.here _ _ (.firstReturned _ _)))))))
  exact ⟨edits, discover_edited edits .default⟩

end LuaClasses
