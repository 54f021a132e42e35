import LuaClasses.Discovery.Run
import LuaClasses.Proofs.Names
import LuaClasses.Proofs.ShapeSweep

/-! The definitions of the members of a class as a plain list, in the order in which they are entered. Of
several definitions of one function the last one stands. -/

namespace LuaClasses.Discovery

/-- One definition of a member of a class. -/
inductive MemberStep where
  | function (indexer : Indexer) (name : String) (body : FunctionBody) (range : Range)
  | value (name : String) (value : Option Expr) (range : Range)

/-- What the assignment of a value to a target defines of the class of a name. -/
def targetStep? (ownerName : String) (range : Range) (target : Expr) (value : Option Expr) :
    Option MemberStep :=
  match target.unparen with
  | .member object name =>
    if object.name? = some ownerName then
      match value.map Expr.unparen with
      | some (.function body) => some (.function .dot name body range)
      | value => some (.value name value range)
    else none
  | _ => none

/-- What a statement of the top level defines of the class of a name. -/
def memberSteps (ownerName : String) (stmt : Stmt) : List MemberStep :=
  match stmt.kind with
  | .function name false body =>
    match name.member? with
    | some (base, indexer, member) =>
      if base = ownerName then [.function indexer member body stmt.range] else []
    | none => []
  | .assign targets values =>
    (opposite targets values).filterMap fun entry => targetStep? ownerName stmt.range entry.1 entry.2
  | _ => []

namespace MemberStep

/-- Enter one definition. A function by the name of the constructor defines that. -/
def run (config : DiscoveryConfig) (owner : ScopeId) (ownerName : String) (state : State) : MemberStep → State
  | .function indexer name body range =>
    if name = config.constructorName then defineConstructor owner ownerName body range state
    else defineFunction owner name indexer body range state
  | .value name given range => state.withTree (defineValue config owner name given range state.tree)

/-- How a step defines the function of a name, if it does. -/
def definition? (member : String) : MemberStep → Option (Indexer × FunctionBody)
  | .function indexer name body _ => if name = member then some (indexer, body) else none
  | .value _ _ _ => none

def names : MemberStep → List String
  | .function _ name body _ => name :: bodyNames body
  | .value name given _ => name :: (given.map Expr.names).getD []

end MemberStep

/-- The last definition of the function of a name. -/
def lastDefinition? (steps : List MemberStep) (member : String) : Option (Indexer × FunctionBody) :=
  steps.reverse.findSome? (MemberStep.definition? member)

end Discovery

/-- All that the top level defines of the class of a name. -/
def Program.memberSteps (program : Program) (ownerName : String) : List Discovery.MemberStep :=
  program.body.flatMap (Discovery.memberSteps ownerName)

/-- The definition of a function of a class that stands in the end. -/
def Program.definition? (program : Program) (ownerName member : String) : Option (Indexer × FunctionBody) :=
  Discovery.lastDefinition? (program.memberSteps ownerName) member

namespace Discovery

theorem lastDefinition?_concat (steps : List MemberStep) (step : MemberStep) (member : String) :
    lastDefinition? (steps ++ [step]) member = (step.definition? member).or
      (lastDefinition? steps member) := by
  simp only [lastDefinition?, List.reverse_append, List.reverse_singleton, List.findSome?_append,
    List.findSome?_singleton]

theorem exists_step_of_lastDefinition? {steps : List MemberStep} {member : String} {indexer : Indexer}
    {body : FunctionBody} (found : lastDefinition? steps member = some (indexer, body)) :
    ∃ range, MemberStep.function indexer member body range ∈ steps := by
  obtain ⟨step, listed, defined⟩ := List.exists_of_findSome?_eq_some found
  cases step with
  | value name value range => cases defined
  | function held name held' range =>
    obtain ⟨rfl, same⟩ := Option.ite_none_right_eq_some.1 defined
    cases same
    exact ⟨range, List.mem_reverse.1 listed⟩

/-! ### The entry makes these steps -/

section Steps

variable (config : DiscoveryConfig) (program : Program) (owner : ScopeId) (ownerName : String)

private theorem defineTarget_eq (target : Expr) (value : Option Expr) (range : Range) (state : State) :
    defineTarget config owner ownerName target value range state =
      (targetStep? ownerName range target value).toList.foldl
      (MemberStep.run config owner ownerName) state := by
  rw [defineTarget, targetStep?]
  cases target.unparen with
  | member object name =>
    dsimp only
    by_cases named : object.name? = some ownerName
    · rw [if_pos named, if_pos named]
      cases value.map Expr.unparen with
      | none => rfl
      | some given => cases given <;> rfl
    · rw [if_neg named, if_neg named]
      rfl
  | _ => rfl

private theorem defineTargets_eq (range : Range) (targets values : List Expr) (state : State) :
    defineTargets config owner ownerName range targets values state =
      ((opposite targets values).filterMap fun entry => targetStep? ownerName range entry.1 entry.2).foldl
        (MemberStep.run config owner ownerName) state := by
  induction targets generalizing values state with
  | nil => rfl
  | cons target rest ih =>
    rw [defineTargets, ih, defineTarget_eq, opposite, List.filterMap_cons]
    cases targetStep? ownerName range target values.head? <;> rfl

private theorem defineStatement_eq (state : State) (stmt : Stmt) :
    defineStatement config owner ownerName state stmt =
      (memberSteps ownerName stmt).foldl (MemberStep.run config owner ownerName) state := by
  obtain ⟨kind, range⟩ := stmt
  cases kind with
  | function written isLocal body =>
    cases isLocal with
    | true => rfl
    | false =>
      simp only [defineStatement, memberSteps]
      cases written.member? with
      | none => rfl
      | some entry =>
        dsimp only
        by_cases same : entry.1 = ownerName
        · rw [if_pos same, if_pos same]
          rfl
        · rw [if_neg same, if_neg same]
          rfl
  | assign targets values => exact defineTargets_eq config owner ownerName range targets values state
  | _ => rfl

/-- The members of a class are entered one after the other, under the name that the class has. -/
theorem defineMembers_eq {state : State} {held : Class} (found : state.tree.classAt? owner = some held) :
    defineMembers config program state owner =
      (program.memberSteps held.name).foldl (MemberStep.run config owner held.name) state := by
  simp only [defineMembers, found, Program.memberSteps]
  generalize program.body = body
  clear found
  induction body generalizing state with
  | nil => rfl
  | cons stmt rest ih => rw [List.foldl_cons, List.flatMap_cons, List.foldl_append, defineStatement_eq, ih]

end Steps

/-! ### The names in these steps -/

private theorem snd_names_of_opposite {targets values : List Expr} {entry : Expr × Option Expr}
    (member : entry ∈ opposite targets values) {value : Expr} (given : entry.2 = some value) :
    value ∈ values := by
  induction targets generalizing values with
  | nil => cases member
  | cons first rest ih =>
    rcases List.mem_cons.1 member with rfl | later
    · exact List.mem_of_mem_head? given
    · exact List.mem_of_mem_tail (ih later)

private theorem names_targetStep? {ownerName : String} {range : Range} {target : Expr}
    {value : Option Expr} {step : MemberStep}
    (found : targetStep? ownerName range target value = some step) :
    step.names ⊆ target.names ++ (value.map Expr.names).getD [] := by
  rw [← Expr.names_unparen target]
  unfold targetStep? at found
  split at found
  next object name same =>
    obtain ⟨_, found⟩ := Option.ite_none_right_eq_some.1 found
    rw [same]
    have first : name ∈ (Expr.member object name).names := List.mem_append_right _ (List.mem_singleton_self _)
    split at found
    next body given =>
      cases found
      obtain ⟨expr, rfl, function⟩ := Option.map_eq_some_iff.1 given
      refine List.cons_subset.2 ⟨List.mem_append_left _ first, fun other held => List.mem_append_right _ ?_⟩
      have inner : other ∈ expr.unparen.names := by rw [function]; exact held
      rwa [Expr.names_unparen] at inner
    next =>
      cases found
      refine List.cons_subset.2 ⟨List.mem_append_left _ first, fun other held => List.mem_append_right _ ?_⟩
      cases value with
      | none => exact held
      | some expr =>
        have inner : other ∈ expr.unparen.names := held
        rwa [Expr.names_unparen] at inner
  next => cases found

theorem names_memberSteps {program : Program} {ownerName : String} {step : MemberStep}
    (member : step ∈ program.memberSteps ownerName) : step.names ⊆ program.names := by
  obtain ⟨⟨kind, range⟩, listed, made⟩ := List.mem_flatMap.1 member
  refine List.Subset.trans ?_ (stmtNames_subset listed)
  cases kind with
  | function written isLocal body =>
    cases isLocal with
    | true => cases made
    | false =>
      simp only [memberSteps] at made
      split at made
      next base indexer name found =>
        have same := FunctionName.member?_eq_some.1 found
        subst same
        split at made
        next =>
          rw [List.mem_singleton.1 made]
          refine List.cons_subset.2 ⟨List.mem_append_left _ ?_, List.subset_append_right _ _⟩
          cases indexer <;> simp [FunctionName.ofMember]
        next => cases made
      next => cases made
  | assign targets values =>
    obtain ⟨entry, opposed, found⟩ := List.mem_filterMap.1 made
    refine List.Subset.trans (names_targetStep? found) (List.append_subset.2 ⟨?_, ?_⟩)
    · exact fun name held => List.mem_append_left _ (exprNames_subset (fst_mem_of_opposite opposed) held)
    · intro name held
      cases given : entry.2 with
      | none => rw [given] at held; cases held
      | some value =>
        rw [given] at held
        exact List.mem_append_right _ (exprNames_subset (snd_names_of_opposite opposed given) held)
  | _ => cases made

end LuaClasses.Discovery
