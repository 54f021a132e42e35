import LuaClasses.Discovery.Run
import LuaClasses.Proofs.Flow

/-! References that wait for their target. A reference keeps the name that it waits for and not what was
asked of it, so once the target is there it gives the types of a variable and the results of a function,
whether the name was read or called. Where the expression asked for something else, it gives other types
than the expression would give by then. -/

namespace LuaClasses.Discovery
open ScopeTree

/-- The class around a frame. -/
def classAround? (tree : ScopeTree) (frame : Frame) : Option Class :=
  (tree.nearestClass frame.scope).bind tree.classAt?

/-- What an expression asks of a name. -/
inductive Use where
  /-- The value under a path is read. -/
  | read (path : String)
  /-- The function under a path is called. -/
  | call (path : String)
  /-- A member of the instance is read. -/
  | member (name : String)
  deriving DecidableEq

/-- The use that an expression makes of a name. -/
inductive Uses (config : DiscoveryConfig) (frame : Frame) : Expr → Use → Prop
  | name {name : String} (unknown : config.builtinType? name = none) (outside : frame.isAlias name = false) :
      Uses config frame (.name name) (.read name)
  | path {object : Expr} {base name : String} (written : object.dottedPath? = some base)
      (unknown : config.builtinType? (DottedName.child base name) = none)
      (outside : ∀ receiver, object.name? = some receiver → frame.isAlias receiver = false) :
      Uses config frame (.member object name) (.read (DottedName.child base name))
  | member {receiver name : String} (unknown : config.builtinType? (DottedName.child receiver name) = none)
      (inside : frame.isAlias receiver = true) :
      Uses config frame (.member (.name receiver) name) (.member name)
  | call {callee : Expr} {args : List Expr} {path : String} (called : callee.dottedPath? = some path)
      (unknown : config.builtinType? path = none) : Uses config frame (.call callee args) (.call path)
  | methodCall {object : Expr} {method : String} {args : List Expr} {base : String}
    (path : object.dottedPath? = some base)
      (unknown : config.builtinType? (DottedName.child base method) = none) :
      Uses config frame (.methodCall object method args) (.call (DottedName.child base method))
  | paren {inner : Expr} {use : Use} (uses : Uses config frame inner use) :
    Uses config frame (.paren inner) use

/-- Evidence for the result of a call of what is at a scope. -/
def resultOf (tree : ScopeTree) (id : ScopeId) : Evidence :=
  match (tree.entity? id).map Entity.kind with
  | some (.function _) => .resolved id
  | some (.constructor _) =>
    match instanceOfConstructor? tree id with
    | some type => .ofType type
    | none => .none
  | _ => .none

namespace Use

/-- The name under which a use is looked up. Behind the instance stands the class around the frame. -/
def target? (config : DiscoveryConfig) (tree : ScopeTree) (frame : Frame) : Use → Option String
  | read path => some path
  | call path => callTarget? config tree frame path
  | member name =>
    (classAround? tree frame).map fun owner => DottedName.child (DottedName.child owner.name fieldsName) name

/-- What a use gives in a tree. -/
def evidence (config : DiscoveryConfig) (tree : ScopeTree) (frame : Frame) : Use → Evidence
  | read path => classifyPath tree frame path
  | call path =>
    match callTarget? config tree frame path with
    | none => .none
    | some target =>
      match tree.lookup target frame.scope with
      | none => .unresolved target frame.scope
      | some id => resultOf tree id
  | member name => classifyInstanceMember tree frame name

/-- Whether nothing is there yet of what a use asks for: no scope under the name, or no such member of
the class. -/
def Missing (tree : ScopeTree) (frame : Frame) (target : String) : Use → Prop
  | member name => ∀ owner ∈ classAround? tree frame,
      owner.fields.get? name = none ∧ owner.methods.contains name = false ∧
        owner.functions.contains name = false
  | _ => tree.lookup target frame.scope = none

end Use

/-- The types that the member of an instance gives to the entity that reads it. -/
def memberTypes (tree : ScopeTree) (frame : Frame) (reader : ScopeId) (name : String) : TypeSet :=
  match classAround? tree frame with
  | none => .empty
  | some owner =>
    match owner.fields.get? name with
    | some field => if field = reader then .empty else referenceTypes tree field
    | none =>
      if owner.methods.contains name || owner.functions.contains name then .single .function else .empty

/-- Whether a use gives a reader the types that a reference brings which has found the scope of a name. -/
def Use.Agrees (config : DiscoveryConfig) (tree : ScopeTree) (frame : Frame) (reader id : ScopeId) :
    Use → Prop
  | read _ =>
    match (tree.entity? id).map Entity.kind with
    | some (.function function) => function.returns = .single .function
    | some (.constructor _) => False
    | some (.class_ _) => False
    | _ => True
  | call path =>
    -- Without the class around it, a call of the instance gives nothing.
    match callTarget? config tree frame path, (tree.entity? id).map Entity.kind with
    | none, _ => referenceTypes tree id = .empty
    | some _, some (.variable var) => var.types = .empty
    | some _, some (.class_ _) => False
    | some _, some (.table _) => False
    | some _, _ => True
  | member name => referenceTypes tree id = memberTypes tree frame reader name

variable {config : DiscoveryConfig} {frame : Frame} {tree : ScopeTree}

private theorem classifyCall_eq {path : String} (unknown : config.builtinType? path = none) :
    classifyCall config tree frame path = (Use.call path).evidence config tree frame := by
  simp only [classifyCall, unknown, Use.evidence]
  cases callTarget? config tree frame path with
  | none => rfl
  | some target => cases tree.lookup target frame.scope <;> rfl

/-- In every tree, an expression gives what its use gives. -/
theorem Uses.classify_eq {expr : Expr} {use : Use} (uses : Uses config frame expr use) :
    classify config tree frame expr = use.evidence config tree frame := by
  induction uses with
  | name unknown outside =>
    simp only [classify, classifyName, unknown, outside, Bool.false_eq_true, if_false]
    rfl
  | @path object base name written unknown outside =>
    simp only [classify, classifyMember, written, unknown]
    cases receiver : object.name? with
    | none => rfl
    | some name =>
      simp only [outside name receiver, Bool.false_eq_true, if_false]
      rfl
  | @member receiver name unknown inside =>
    have written : (Expr.name receiver).dottedPath? = some receiver := rfl
    simp only [classify, classifyMember, written, unknown, Expr.name?, inside, if_true]
    rfl
  | call called unknown =>
    rw [classify, called]
    exact classifyCall_eq unknown
  | methodCall path unknown =>
    rw [classify, path]
    exact classifyCall_eq unknown
  | paren _ ih => rw [classify, ih]

/-- What is not there yet is waited for. -/
theorem Use.evidence_missing {use : Use} {target : String}
    (leads : use.target? config tree frame = some target) (missing : use.Missing tree frame target) :
    use.evidence config tree frame = .unresolved target frame.scope := by
  cases use with
  | read path =>
    obtain rfl : path = target := Option.some.inj leads
    have missing : tree.lookup path frame.scope = none := missing
    simp only [evidence, classifyPath, missing]
  | call path =>
    have leads : callTarget? config tree frame path = some target := leads
    have missing : tree.lookup target frame.scope = none := missing
    simp only [evidence, leads, missing]
  | member name =>
    obtain ⟨owner, around, rfl⟩ := Option.map_eq_some_iff.1 leads
    obtain ⟨noField, noMethod, noFunction⟩ := missing owner around
    rw [classAround?] at around
    simp only [evidence, classifyInstanceMember, around, noField, noMethod, noFunction, Bool.or_false,
      Bool.false_eq_true, if_false]

/-! ### Types at once and types later -/

private theorem typesFor_unreferenced {evidence : Evidence} (none_ : evidence.reference = none)
    (owner : ScopeId) :
    evidence.typesFor tree owner = evidence.types := by
  simp only [Evidence.typesFor, Evidence.referenceOf, none_]
  rfl

private theorem typesFor_unresolved (target : String) (origin owner : ScopeId) :
    (Evidence.unresolved target origin).typesFor tree owner = .empty := by
  have kept : (Evidence.unresolved target origin).referenceOf owner = some (.unresolved target origin) := by
    simp [Evidence.referenceOf, Evidence.unresolved, Reference.target?]
  simp only [Evidence.typesFor, kept, Option.bind_some, Reference.target?]
  rfl

/-- An entity takes in nothing of itself. -/
theorem typesFor_own (owner : ScopeId) : (Evidence.resolved owner).typesFor tree owner = .empty := by
  have dropped : (Evidence.resolved owner).referenceOf owner = none := by
    simp [Evidence.referenceOf, Evidence.resolved, Reference.target?]
  simp only [Evidence.typesFor, dropped, Option.bind_none]
  rfl

private theorem typesFor_resolved {id owner : ScopeId} (apart : id ≠ owner) :
    (Evidence.resolved id).typesFor tree owner = referenceTypes tree id := by
  have kept : (Evidence.resolved id).referenceOf owner = some (.resolved id) := by
    simp [Evidence.referenceOf, Evidence.resolved, Reference.target?, apart]
  apply TypeSet.ext
  intro type
  simp only [Evidence.typesFor, kept, Option.bind_some, Reference.target?, TypeSet.mem_union]
  apply or_iff_right
  intro nothing
  cases nothing

/-- A reference to a constructor gives what a call of it gives. -/
theorem referenceTypes_constructor {id : ScopeId} {references : OrderedMap Reference}
    {constructor : Constructor} (held : tree.entity? id = some ⟨references, .constructor constructor⟩) :
    referenceTypes tree id = (resultOf tree id).types := by
  simp only [referenceTypes, resultOf, held, Option.map_some]
  cases instanceOfConstructor? tree id <;> rfl

private theorem reference_resultOf_constructor {id : ScopeId} {references : OrderedMap Reference}
    {constructor : Constructor} (held : tree.entity? id = some ⟨references, .constructor constructor⟩) :
    (resultOf tree id).reference = none := by
  simp only [resultOf, held, Option.map_some]
  cases instanceOfConstructor? tree id <;> rfl

/-- No constructor makes functions. -/
theorem referenceTypes_constructor_ne {id : ScopeId} {references : OrderedMap Reference}
    {constructor : Constructor} (held : tree.entity? id = some ⟨references, .constructor constructor⟩) :
    referenceTypes tree id ≠ .single .function := by
  intro same
  simp only [referenceTypes, held, Option.map_some] at same
  cases made : instanceOfConstructor? tree id with
  | none =>
    rw [made] at same
    exact TypeSet.single_ne_empty _ same.symm
  | some type =>
    rw [made] at same
    obtain ⟨owner, _, rfl⟩ := Option.map_eq_some_iff.1 made
    cases TypeSet.single_inj same

theorem read_agrees_iff {path : String} {id owner : ScopeId} (apart : id ≠ owner) :
    referenceTypes tree id = (valueOf tree id).typesFor tree owner ↔
      (Use.read path).Agrees config tree frame owner id := by
  cases held : tree.entity? id with
  | none =>
    simp [valueOf, Use.Agrees, referenceTypes, held, Evidence.none, Evidence.typesFor, Evidence.referenceOf]
  | some entity =>
    obtain ⟨references, kind⟩ := entity
    cases kind with
    | «variable» var =>
      have value : valueOf tree id = .resolved id := by simp only [valueOf, held, Option.map_some]
      rw [value, typesFor_resolved apart]
      simp only [Use.Agrees, held, Option.map_some]
    | constructor constructor =>
      have value : valueOf tree id = .ofType .function := by simp only [valueOf, held, Option.map_some]
      rw [value, typesFor_unreferenced rfl]
      simp only [Use.Agrees, held, Option.map_some, iff_false]
      exact referenceTypes_constructor_ne held
    | class_ held' =>
      have value : valueOf tree id = .ofType .table := by simp only [valueOf, held, Option.map_some]
      rw [value, typesFor_unreferenced rfl]
      simp only [Use.Agrees, referenceTypes, held, Option.map_some, iff_false]
      intro same
      cases TypeSet.single_inj same
    | function function =>
      have value : valueOf tree id = .ofType .function := by simp only [valueOf, held, Option.map_some]
      rw [value, typesFor_unreferenced rfl]
      simp only [Use.Agrees, referenceTypes, held, Option.map_some]
      rfl
    | table table =>
      have value : valueOf tree id = .ofType .table := by simp only [valueOf, held, Option.map_some]
      rw [value, typesFor_unreferenced rfl]
      simp only [Use.Agrees, referenceTypes, held, Option.map_some]
      exact iff_of_true rfl trivial
    | block block =>
      have value : valueOf tree id = .none := by simp only [valueOf, held, Option.map_some]
      rw [value, typesFor_unreferenced rfl]
      simp only [Use.Agrees, referenceTypes, held, Option.map_some]
      exact iff_of_true rfl trivial

theorem call_agrees_iff {path target : String} (names : callTarget? config tree frame path = some target)
    {id owner : ScopeId} (apart : id ≠ owner) :
    referenceTypes tree id = (resultOf tree id).typesFor tree owner ↔
      (Use.call path).Agrees config tree frame owner id := by
  cases held : tree.entity? id with
  | none =>
    simp [resultOf, Use.Agrees, names, referenceTypes, held, Evidence.none,
      Evidence.typesFor, Evidence.referenceOf]
  | some entity =>
    obtain ⟨references, kind⟩ := entity
    cases kind with
    | function function =>
      have result : resultOf tree id = .resolved id := by simp only [resultOf, held, Option.map_some]
      rw [result, typesFor_resolved apart]
      simp only [Use.Agrees, names, held, Option.map_some]
    | constructor constructor =>
      rw [typesFor_unreferenced (reference_resultOf_constructor held), referenceTypes_constructor held]
      simp only [Use.Agrees, names, held, Option.map_some]
    | «variable» var =>
      have result : resultOf tree id = .none := by simp only [resultOf, held, Option.map_some]
      rw [result, typesFor_unreferenced rfl]
      simp only [Use.Agrees, names, referenceTypes, held, Option.map_some]
      rfl
    | class_ held' =>
      have result : resultOf tree id = .none := by simp only [resultOf, held, Option.map_some]
      rw [result, typesFor_unreferenced rfl]
      simp only [Use.Agrees, names, referenceTypes, held, Option.map_some, iff_false]
      exact TypeSet.single_ne_empty _
    | table table =>
      have result : resultOf tree id = .none := by simp only [resultOf, held, Option.map_some]
      rw [result, typesFor_unreferenced rfl]
      simp only [Use.Agrees, names, referenceTypes, held, Option.map_some, iff_false]
      exact TypeSet.single_ne_empty _
    | block block =>
      have result : resultOf tree id = .none := by simp only [resultOf, held, Option.map_some]
      rw [result, typesFor_unreferenced rfl]
      simp only [Use.Agrees, names, referenceTypes, held, Option.map_some]
      exact iff_of_true rfl trivial

/-- The types of a member of the instance are those of the field or of a function. -/
theorem typesFor_instanceMember (reader : ScopeId) (name : String) :
    (classifyInstanceMember tree frame name).typesFor tree reader = memberTypes tree frame reader name := by
  unfold classifyInstanceMember memberTypes
  rw [← classAround?]
  cases classAround? tree frame with
  | none => exact typesFor_unreferenced rfl reader
  | some owner =>
    dsimp only
    cases owner.fields.get? name with
    | some field =>
      dsimp only
      by_cases own : field = reader
      · rw [if_pos own, own, typesFor_own]
      · simp only [if_neg own, typesFor_resolved own]
    | none =>
      dsimp only
      split
      next => exact typesFor_unreferenced rfl reader
      next => exact typesFor_unresolved _ _ reader

/-- What comes in along a reference that has found its target. -/
theorem incoming_found {target : String} {origin owner id : ScopeId}
    (found : tree.lookup target origin = some id) (apart : id ≠ owner) :
    incoming tree owner [.unresolved target origin] = referenceTypes tree id := by
  have leads := destination?_unresolved.2 ⟨found, apart⟩
  apply TypeSet.ext
  intro type
  rw [mem_incoming]
  constructor
  · rintro ⟨reference, member, other, reached, offered⟩
    rw [List.mem_singleton.1 member, leads] at reached
    cases reached
    exact offered
  · intro offered
    exact ⟨_, List.mem_singleton_self _, id, leads, offered⟩

/-- An expression that asks for what is not there yet leaves a reference, and the reference is settled
once its name leads somewhere. The types that it brings then are those of the expression exactly if the
use of the name agrees with the reference. -/
theorem deferred_types_agree_iff {expr : Expr} {use : Use} (uses : Uses config frame expr use)
    {before now : ScopeTree} {target : String} (leads : use.target? config before frame = some target)
    (missing : use.Missing before frame target)
    (again : ∀ other ∈ use.target? config now frame, other = target) {owner id : ScopeId}
    (found : now.lookup target frame.scope = some id) (apart : id ≠ owner) :
    classify config before frame expr = .unresolved target frame.scope ∧
      settle now owner (.unresolved target frame.scope) = .resolved id ∧
      (incoming now owner [.unresolved target frame.scope] =
        (classify config now frame expr).typesFor now owner ↔
        use.Agrees config now frame owner id) := by
  refine ⟨uses.classify_eq.trans (use.evidence_missing leads missing), ?_, ?_⟩
  · rw [settle, destination?_unresolved.2 ⟨found, apart⟩]
  · rw [incoming_found found apart, uses.classify_eq]
    cases use with
    | read path =>
      cases leads
      simp only [Use.evidence, classifyPath, found]
      exact read_agrees_iff apart
    | call path =>
      cases names : callTarget? config now frame path with
      | none =>
        simp only [Use.evidence, Use.Agrees, names]
        rw [typesFor_unreferenced rfl]
        rfl
      | some other =>
        obtain rfl := again other names
        simp only [Use.evidence, names, found]
        exact call_agrees_iff names apart
    | member name =>
      simp only [Use.evidence, typesFor_instanceMember]
      rfl

/-- So it is for a field of the instance that the reference finds where the class has it. -/
theorem Use.agrees_field {name : String} {reader id : ScopeId} {held : Class}
    (around : classAround? tree frame = some held) (field : held.fields.get? name = some id)
    (apart : id ≠ reader) : (Use.member name).Agrees config tree frame reader id := by
  simp only [Agrees, memberTypes, around, field, if_neg apart]

/-- A name that is read above the function that it stands for. -/
def forwardRead : Program where
  body := [
    ⟨.assign [.name "x"] [.name "f"], ⟨1, 0, 1, 5⟩⟩,
    ⟨.function (.plain "f") false ⟨[], false, [⟨.return_ [.number "1"], ⟨2, 13, 2, 21⟩⟩]⟩, ⟨2, 0, 2, 25⟩⟩]

/-- The reference that waits for the function brings its results, which are numbers. -/
theorem forward_read_agrees_iff :
    classify .default (.new "__G") (.at_ root) (.name "f") = .unresolved "f" root ∧
      (discover forwardRead .default).tree.lookup "f" root = some ⟨2⟩ ∧
      (incoming (discover forwardRead .default).tree ⟨1⟩ [.unresolved "f" root] =
          (classify .default (discover forwardRead .default).tree (.at_ root) (.name "f")).typesFor
            (discover forwardRead .default).tree ⟨1⟩ ↔
        (Use.read "f").Agrees .default (discover forwardRead .default).tree (.at_ root) ⟨1⟩ ⟨2⟩) := by
  have uses : Uses .default (.at_ root) (.name "f") (.read "f") := .name (by decide +kernel) rfl
  have missing : (ScopeTree.new "__G").lookup "f" root = none := by decide +kernel
  have found : (discover forwardRead .default).tree.lookup "f" root = some ⟨2⟩ := by decide +kernel
  have agrees := deferred_types_agree_iff uses rfl missing (fun _ same => (Option.some.inj same).symm) found
    (show (⟨2⟩ : ScopeId) ≠ ⟨1⟩ by decide)
  exact ⟨agrees.1, found, agrees.2.2⟩

/-- The types of a variable depend on whether the function that it is given is declared below or above. -/
theorem forward_read_gives_results :
    ((discover forwardRead .default).tree.variableAt? ⟨1⟩).map Variable.types = some (.single .number) ∧
      ((discover ⟨forwardRead.body.reverse⟩ .default).tree.variableAt? ⟨2⟩).map Variable.types =
      some (.single .function) := by
  decide +kernel

end LuaClasses.Discovery
