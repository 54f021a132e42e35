import LuaClasses.Source.Descent

/-! The count of levels. Whatever tree is lowered, and however that ends, the count comes back to
where it began; only a node that is too deep leaves its own level behind. So what comes of a node
does not depend on what was visited before it, and each step can be taken by itself. -/

namespace LuaClasses.Source.Descent

variable {α β : Type}

/-! ### Steps -/

theorem run_bind (first : Descent α) (next : α → Descent β) (level : Nat) :
    (first >>= next).run.run level =
      match first.run.run level with
      | (.ok value, after) => (next value).run.run after
      | (.error problem, after) => (.error problem, after) := by
  rw [ExceptT.run_bind, StateT.run_bind]
  rcases first.run.run level with ⟨_ | _, _⟩ <;> rfl

private theorem run_enter (node : SyntaxNode) (level : Nat) :
    (enter node).run.run level =
      (if maxLevel < level + 1 then .error (.tooDeep (.ofSpan node.span)) else .ok (), level + 1) := by
  rw [enter, run_bind]
  change (if maxLevel < level + 1 then throw _ else pure _ : Descent Unit).run.run (level + 1) = _
  split <;> rfl

/-- The work in a node begins one level further down, unless that is too deep. Then the count goes
back by one. -/
theorem run_within (node : SyntaxNode) (work : Descent α) (level : Nat) :
    (within node work).run.run level =
      if maxLevel < level + 1 then (.error (.tooDeep (.ofSpan node.span)), level + 1)
      else (work.outcome (level + 1), work.levelAfter (level + 1) - 1) := by
  rw [within, run_bind, run_enter]
  by_cases deep : maxLevel < level + 1
  · rw [if_pos deep, if_pos deep]
  · rw [if_neg deep, if_neg deep]
    have lifted : (ExceptT.lift work.run : Descent (Except ParseError α)).run.run (level + 1) =
        (.ok (work.outcome (level + 1)), work.levelAfter (level + 1)) := rfl
    dsimp only
    rw [run_bind, lifted]
    dsimp only
    rw [run_bind]
    cases work.outcome (level + 1) <;> rfl

/-- The levels that are left over when work ends: one if a node was too deep. -/
def overrun : Except ParseError α → Nat
  | .error (.tooDeep _) => 1
  | _ => 0

/-- Whether work comes back to the level where it began, but for a node that is too deep. -/
def Steady (work : Descent α) : Prop :=
  ∀ level, work.levelAfter level = level + overrun (work.outcome level)

namespace Steady

theorem run_eq {work : Descent α} (steady : Steady work) (level : Nat) :
    work.run.run level = (work.outcome level, level + overrun (work.outcome level)) :=
  Prod.ext rfl (steady level)

theorem pure (value : α) : Steady (pure value) := fun _ => rfl

theorem unsupported (node : SyntaxNode) : Steady (unsupported node : Descent α) := fun _ => rfl

theorem child (node : SyntaxNode) (key : FieldName) : Steady (child node key) := by
  intro level
  rw [Descent.child]
  split <;> rfl

theorem bind {first : Descent α} {next : α → Descent β} (one : Steady first)
    (two : ∀ value, Steady (next value)) : Steady (first >>= next) := by
  intro level
  rw [levelAfter, outcome, run_bind, one.run_eq level]
  cases first.outcome level with
  | ok value => exact two value level
  | error problem => cases problem <;> rfl

/-- A node that is entered is left, so the work in it and around it can begin at any level. -/
theorem within {node : SyntaxNode} {work : Descent α} (steady : Steady work) :
    Steady (within node work) := by
  intro level
  rw [levelAfter, outcome, run_within]
  split
  next => rfl
  next =>
    have inner := steady (level + 1)
    dsimp only
    omega

end Steady

/-! ### The tree -/

private theorem identifierChild_steady (node : SyntaxNode) : Steady (identifierChild node) := by
  rw [identifierChild]
  split
  · exact .pure _
  · exact .unsupported node

private theorem namePath_steady (node : SyntaxNode) : Steady (namePath node) := by
  rw [namePath]
  split
  · exact .pure _
  · refine (Steady.child node .table).bind ?_
    rintro ⟨table, _⟩
    refine (namePath_steady table).bind fun path => ?_
    exact (Steady.child node .field).bind fun _ => .pure _
  · exact .unsupported node
  termination_by node.size

private theorem functionName_steady (node : SyntaxNode) : Steady (functionName node) := by
  rw [functionName]
  split
  · exact .pure _
  · refine (Steady.child node .table).bind fun ⟨table, _⟩ => ?_
    refine (namePath_steady table).bind fun path => ?_
    exact (Steady.child node .field).bind fun _ => .pure _
  · refine (Steady.child node .table).bind fun ⟨table, _⟩ => ?_
    refine (namePath_steady table).bind fun path => ?_
    exact (Steady.child node .method).bind fun _ => .pure _
  · exact .unsupported node

private theorem parameters_steady : (nodes : List SyntaxNode) → Steady (parameters nodes)
  | [] => .pure _
  | node :: rest => by
    rw [parameters]
    split
    · exact (parameters_steady rest).bind fun _ => .pure _
    · exact (parameters_steady rest).bind fun _ => .pure _
    · exact .unsupported node

private theorem parametersOf_steady (node : SyntaxNode) : Steady (parametersOf node) := by
  rw [parametersOf]
  split
  · exact parameters_steady _
  · exact .pure _

private theorem operator_steady (parse : String → Option α) (node : SyntaxNode) :
    Steady (operator parse node) := by
  rw [operator]
  split
  · exact .pure _
  · exact .unsupported node

mutual
theorem statements_steady (node : SyntaxNode) : Steady (statements node) := by
  rw [statements]
  exact statementList_steady node.namedChildren
  termination_by 8 * node.size
  decreasing_by
    have := node.sizes_namedChildren_lt
    omega

theorem statementList_steady (nodes : List SyntaxNode) : Steady (statementList nodes) := by
  match nodes with
  | [] =>
    rw [statementList]
    exact .pure _
  | node :: rest =>
    rw [statementList]
    refine (statement_steady node).bind fun _ => ?_
    exact (statementList_steady rest).bind fun _ => .pure _
  termination_by 8 * SyntaxNode.sizes nodes + 7
  decreasing_by all_goals
    have := node.size_pos
    simp only [SyntaxNode.sizes]
    omega

theorem block_steady (node : SyntaxNode) (key : FieldName) : Steady (block node key) := by
  rw [block]
  split
  next block smaller _ => exact statements_steady block
  next => exact .pure _
  termination_by 8 * node.size

theorem statement_steady (node : SyntaxNode) : Steady (statement node) := by
  rw [statement]
  exact (statementKind_steady node).within.bind fun _ => .pure _
  termination_by 8 * node.size + 6

theorem statementKind_steady (node : SyntaxNode) : Steady (statementKind node) := by
  rw [statementKind]
  split
  · exact .pure _
  · exact .pure _
  · exact (localDeclaration_steady node node.namedChildren).bind fun _ => .pure _
  · exact (assignment_steady [] [] node.namedChildren).bind fun _ => .pure _
  · exact (expression_steady node).bind fun _ => .pure _
  · exact (functionDeclaration_steady node).bind fun _ => .pure _
  · split
    next list smaller _ => exact (expressionList_steady list).bind fun _ => .pure _
    next => exact .pure _
  · exact (ifStatement_steady node).bind fun _ => .pure _
  · refine (Steady.child node .condition).bind fun ⟨condition, _⟩ => ?_
    refine (expression_steady condition).bind fun _ => ?_
    exact (block_steady node .body).bind fun _ => .pure _
  · refine (block_steady node .body).bind fun _ => ?_
    refine (Steady.child node .condition).bind fun ⟨condition, _⟩ => ?_
    exact (expression_steady condition).bind fun _ => .pure _
  · exact (block_steady node .body).bind fun _ => .pure _
  · exact (forStatement_steady node).bind fun _ => .pure _
  · exact .pure _
  · exact (identifierChild_steady node).bind fun _ => .pure _
  · exact (identifierChild_steady node).bind fun _ => .pure _
  · exact .unsupported node
  termination_by 8 * node.size + 5
  decreasing_by all_goals
    have := node.sizes_namedChildren_lt
    omega

theorem localDeclaration_steady (node : SyntaxNode) (parts : List SyntaxNode) :
    Steady (localDeclaration node parts) := by
  match parts with
  | [] =>
    rw [localDeclaration]
    exact .unsupported node
  | part :: rest =>
    rw [localDeclaration]
    split
    · exact (assignment_steady [] [] part.namedChildren).bind fun _ => .pure _
    · exact .pure _
    · exact localDeclaration_steady node rest
  termination_by 8 * SyntaxNode.sizes parts + 7
  decreasing_by all_goals
    have := part.sizes_namedChildren_lt
    simp only [SyntaxNode.sizes]
    omega

theorem assignment_steady (targets values : List Expr) (parts : List SyntaxNode) :
    Steady (assignment targets values parts) := by
  match parts with
  | [] =>
    rw [assignment]
    exact .pure _
  | part :: rest =>
    rw [assignment]
    split
    · refine (expressions_steady _).bind fun more => ?_
      exact assignment_steady (targets ++ more) values rest
    · refine (expressionList_steady part).bind fun values => ?_
      exact assignment_steady targets values rest
    · exact .unsupported part
  termination_by 8 * SyntaxNode.sizes parts + 7
  decreasing_by all_goals
    have := part.sizes_namedChildren_lt
    have := SyntaxNode.sizes_filter_le (fun node => node.kind ≠ .named .attribute) part.namedChildren
    simp only [SyntaxNode.sizes]
    omega

theorem expressionList_steady (node : SyntaxNode) : Steady (expressionList node) := by
  rw [expressionList]
  split
  · exact expressions_steady node.namedChildren
  · exact (expression_steady node).bind fun _ => .pure _
  termination_by 8 * node.size + 5
  decreasing_by all_goals
    have := node.sizes_namedChildren_lt
    omega

theorem expressions_steady (nodes : List SyntaxNode) : Steady (expressions nodes) := by
  match nodes with
  | [] =>
    rw [expressions]
    exact .pure _
  | node :: rest =>
    rw [expressions]
    refine (expression_steady node).bind fun _ => ?_
    exact (expressions_steady rest).bind fun _ => .pure _
  termination_by 8 * SyntaxNode.sizes nodes + 7
  decreasing_by all_goals
    have := node.size_pos
    simp only [SyntaxNode.sizes]
    omega

theorem functionDeclaration_steady (node : SyntaxNode) : Steady (functionDeclaration node) := by
  rw [functionDeclaration]
  refine (Steady.child node .name).bind fun ⟨name, _⟩ => ?_
  refine (functionName_steady name).bind fun _ => ?_
  exact (functionBody_steady node).bind fun _ => .pure _
  termination_by 8 * node.size + 2

theorem functionBody_steady (node : SyntaxNode) : Steady (functionBody node) := by
  rw [functionBody]
  refine (parametersOf_steady node).bind fun _ => ?_
  exact (block_steady node .body).bind fun _ => .pure _
  termination_by 8 * node.size + 1

theorem ifStatement_steady (node : SyntaxNode) : Steady (ifStatement node) := by
  rw [ifStatement]
  refine (arm_steady node).bind fun _ => ?_
  exact (arms_steady node.namedChildren).bind fun _ => .pure _
  termination_by 8 * node.size + 2
  decreasing_by all_goals
    have := node.sizes_namedChildren_lt
    omega

theorem arm_steady (node : SyntaxNode) : Steady (arm node) := by
  rw [arm]
  refine (Steady.child node .condition).bind fun ⟨condition, _⟩ => ?_
  refine (expression_steady condition).bind fun _ => ?_
  exact (block_steady node .consequence).bind fun _ => .pure _
  termination_by 8 * node.size + 1

theorem arms_steady (nodes : List SyntaxNode) : Steady (arms nodes) := by
  match nodes with
  | [] =>
    rw [arms]
    exact .pure _
  | node :: rest =>
    rw [arms]
    split
    · refine (arm_steady node).bind fun _ => ?_
      exact (arms_steady rest).bind fun _ => .pure _
    · refine (block_steady node .body).bind fun _ => ?_
      exact (arms_steady rest).bind fun _ => .pure _
    · exact arms_steady rest
  termination_by 8 * SyntaxNode.sizes nodes + 7
  decreasing_by all_goals
    have := node.size_pos
    simp only [SyntaxNode.sizes]
    omega

theorem forStatement_steady (node : SyntaxNode) : Steady (forStatement node) := by
  rw [forStatement]
  refine (Steady.child node .clause).bind fun ⟨clause, _⟩ => ?_
  refine (block_steady node .body).bind fun _ => ?_
  dsimp only
  split
  · refine (Steady.child clause .name).bind fun _ => ?_
    refine (Steady.child clause .start).bind fun ⟨start, _⟩ => ?_
    refine (expression_steady start).bind fun _ => ?_
    refine (Steady.child clause .end_).bind fun ⟨limit, _⟩ => ?_
    refine (expression_steady limit).bind fun _ => ?_
    exact (step_steady clause).bind fun _ => .pure _
  · exact (generic_steady [] [] clause.namedChildren).bind fun _ => .pure _
  · exact .unsupported clause
  termination_by 8 * node.size + 2
  decreasing_by all_goals
    have := clause.sizes_namedChildren_lt
    omega

theorem step_steady (clause : SyntaxNode) : Steady (step clause) := by
  rw [step]
  split
  next step smaller _ => exact (expression_steady step).bind fun _ => .pure _
  next => exact .pure _
  termination_by 8 * clause.size

theorem generic_steady (names : List String) (exprs : List Expr) (parts : List SyntaxNode) :
    Steady (generic names exprs parts) := by
  match parts with
  | [] =>
    rw [generic]
    exact .pure _
  | part :: rest =>
    rw [generic]
    split
    · exact generic_steady _ exprs rest
    · exact (expressionList_steady part).bind fun exprs => generic_steady names exprs rest
    · exact generic_steady names exprs rest
  termination_by 8 * SyntaxNode.sizes parts + 7
  decreasing_by all_goals
    have := part.size_pos
    simp only [SyntaxNode.sizes]
    omega

theorem expression_steady (node : SyntaxNode) : Steady (expression node) := by
  rw [expression]
  exact (expressionInner_steady node).within
  termination_by 8 * node.size + 4

theorem expressionInner_steady (node : SyntaxNode) : Steady (expressionInner node) := by
  rw [expressionInner]
  split
  · exact .pure _
  · exact .pure _
  · exact .pure _
  · exact .pure _
  · exact .pure _
  · exact .pure _
  · exact .pure _
  · exact (functionBody_steady node).bind fun _ => .pure _
  · exact (tableFields_steady _).bind fun _ => .pure _
  · refine (Steady.child node .table).bind fun ⟨object, _⟩ => ?_
    refine (expression_steady object).bind fun _ => ?_
    exact (Steady.child node .field).bind fun _ => .pure _
  · refine (Steady.child node .table).bind fun ⟨object, _⟩ => ?_
    refine (expression_steady object).bind fun _ => ?_
    refine (Steady.child node .field).bind fun ⟨key, _⟩ => ?_
    exact (expression_steady key).bind fun _ => .pure _
  · split
    next inner smaller _ => exact (expression_steady inner).bind fun _ => .pure _
    next => exact .unsupported node
  · exact call_steady node
  · refine (operator_steady _ node).bind fun _ => ?_
    refine (Steady.child node .operand).bind fun ⟨operand, _⟩ => ?_
    exact (expression_steady operand).bind fun _ => .pure _
  · refine (operator_steady _ node).bind fun _ => ?_
    refine (Steady.child node .left).bind fun ⟨left, _⟩ => ?_
    refine (expression_steady left).bind fun _ => ?_
    refine (Steady.child node .right).bind fun ⟨right, _⟩ => ?_
    exact (expression_steady right).bind fun _ => .pure _
  · exact .unsupported node
  termination_by 8 * node.size + 3
  decreasing_by all_goals
    have := SyntaxNode.sizes_filter_le (fun child => child.kind = .named .field) node.namedChildren
    have := node.sizes_namedChildren_lt
    omega

theorem call_steady (node : SyntaxNode) : Steady (call node) := by
  rw [call]
  refine (Steady.child node .name).bind fun ⟨callee, _⟩ => ?_
  refine (argumentsOf_steady node).bind fun _ => ?_
  dsimp only
  split
  · refine (Steady.child callee .table).bind fun ⟨object, _⟩ => ?_
    refine (expression_steady object).bind fun _ => ?_
    exact (Steady.child callee .method).bind fun _ => .pure _
  · exact (expression_steady callee).bind fun _ => .pure _
  termination_by 8 * node.size + 1

theorem argumentsOf_steady (node : SyntaxNode) : Steady (argumentsOf node) := by
  rw [argumentsOf]
  split
  next list smaller _ => exact arguments_steady list
  next => exact .pure _
  termination_by 8 * node.size

theorem arguments_steady (node : SyntaxNode) : Steady (arguments node) := by
  rw [arguments]
  split
  · exact expressions_steady node.namedChildren
  · exact (expression_steady node).bind fun _ => .pure _
  termination_by 8 * node.size + 5
  decreasing_by all_goals
    have := node.sizes_namedChildren_lt
    omega

theorem tableFields_steady (nodes : List SyntaxNode) : Steady (tableFields nodes) := by
  match nodes with
  | [] =>
    rw [tableFields]
    exact .pure _
  | node :: rest =>
    rw [tableFields]
    refine (tableField_steady node).bind fun _ => ?_
    exact (tableFields_steady rest).bind fun _ => .pure _
  termination_by 8 * SyntaxNode.sizes nodes + 7
  decreasing_by all_goals
    have := node.size_pos
    simp only [SyntaxNode.sizes]
    omega

theorem tableField_steady (node : SyntaxNode) : Steady (tableField node) := by
  rw [tableField]
  refine (Steady.child node .value).bind fun ⟨value, _⟩ => ?_
  refine (expression_steady value).bind fun _ => ?_
  split
  next => exact .pure _
  next name smaller _ =>
    split
    · exact .pure _
    · exact (expression_steady name).bind fun _ => .pure _
  termination_by 8 * node.size
end

/-! ### Outcomes -/

@[simp] theorem outcome_pure (value : α) (level : Nat) :
    outcome (pure value) level = .ok value := rfl

@[simp] theorem outcome_unsupported (node : SyntaxNode) (level : Nat) :
    outcome (unsupported node : Descent α) level =
      .error (.unsupported node.kind.name (.ofSpan node.span)) := rfl

/-- After steady work the next one begins at the same level. -/
theorem outcome_bind {first : Descent α} (steady : Steady first) (next : α → Descent β)
    (level : Nat) : (first >>= next).outcome level =
      first.outcome level >>= fun value => (next value).outcome level := by
  rw [outcome, run_bind, steady.run_eq]
  cases first.outcome level <;> rfl

theorem outcome_within (node : SyntaxNode) (work : Descent α) (level : Nat) :
    (within node work).outcome level =
      if maxLevel < level + 1 then .error (.tooDeep (.ofSpan node.span))
      else work.outcome (level + 1) := by
  rw [outcome, run_within]
  split <;> rfl

end LuaClasses.Source.Descent
