import LuaClasses.Proofs.ClassRecognition
import LuaClasses.Proofs.Reachability
import LuaClasses.Proofs.Staging
import LuaClasses.Proofs.Standing

/-! The ways to write that a class has a function. A function that is declared as a member of a class and
one that is assigned to it are the same to a discovery, and so is a constructor that is declared like a
method. -/

namespace LuaClasses

/-- The statements that give a class a function under a name. Only a constructor may also be declared
like a method. -/
inductive WritesMember (config : DiscoveryConfig) (base name : String) (body : FunctionBody) : StmtKind → Prop
  | declared : WritesMember config base name body (.function (.ofMember base .dot name) false body)
  | assigned : WritesMember config base name body (.assign [.member (.name base) name] [.function body])
  | method (constructor : name = config.constructorName) :
    WritesMember config base name body (.function (.ofMember base .colon name) false body)

/-- A statement of the top level and the same statement, or one that gives a declared class the same
function in another way. -/
inductive Stmt.Rephrased (config : DiscoveryConfig) (program : Program) : Stmt → Stmt → Prop
  | same (stmt : Stmt) : Rephrased config program stmt stmt
  | member {base name : String} {body : FunctionBody} {one two : StmtKind} (range : Range)
    (declared : program.DeclaresClass config base) (left : WritesMember config base name body one)
    (right : WritesMember config base name body two) : Rephrased config program ⟨one, range⟩ ⟨two, range⟩

namespace Discovery
open ScopeTree Relation

variable {config : DiscoveryConfig} {program : Program} {base name : String}
  {body : FunctionBody} {kind : StmtKind}

/-! ### What each pass makes of such a statement -/

private theorem declareStatement_member (writes : WritesMember config base name body kind)
    (range : Range) (state : State) :
    declareStatement config state ⟨kind, range⟩ = state := by
  cases writes <;> rfl

private theorem indexStatement_member (writes : WritesMember config base name body kind) (range : Range)
    {state : State} (other : isGlobalTable state.tree base = false) :
    indexStatement config state ⟨kind, range⟩ = state := by
  cases writes with
  | declared => rfl
  | method => rfl
  | assigned =>
    simp only [indexStatement, indexTargets, indexTarget, Expr.unparen, Expr.name?, other,
      Bool.false_eq_true, if_false]

private theorem defineStatement_member (writes : WritesMember config base name body kind) (range : Range)
    (owner : ScopeId) (ownerName : String) (state : State) :
    defineStatement config owner ownerName state ⟨kind, range⟩ =
      if base = ownerName then
        if name = config.constructorName then defineConstructor owner ownerName body range state
        else defineFunction owner name .dot body range state
      else state := by
  cases writes with
  | declared => rfl
  | assigned =>
    simp only [defineStatement, defineTargets, defineTarget, Expr.unparen, Expr.name?,
      Option.some.injEq, List.head?_cons,
      Option.map_some]
  | method constructor =>
    simp only [defineStatement, FunctionName.ofMember, FunctionName.member?, if_pos constructor]

/-- A pass over the top level does not tell apart what each of its turns does not. -/
theorem foldl_rephrased {step : State → Stmt → State} (holds : State → Prop)
    (keeps : ∀ stmt ∈ program.body, ∀ state, holds state → holds (step state stmt))
    (agrees : ∀ {one two state}, Stmt.Rephrased config program one two → holds state →
      step state two = step state one)
    {stmts others : List Stmt} (each : List.Forall₂ (Stmt.Rephrased config program) stmts others)
    (within : stmts ⊆ program.body) {state : State} (known : holds state) :
    others.foldl step state = stmts.foldl step state := by
  induction each generalizing state with
  | nil => rfl
  | @cons one two rest more first _ ih =>
    rw [List.foldl_cons, List.foldl_cons, agrees first known]
    apply ih fun _ member => within (List.mem_cons_of_mem _ member)
    exact keeps one (within List.mem_cons_self) state known

/-! ### The names of classes while the top level is indexed -/

/-- A name of a class under which no table hangs. -/
structure NoTable (tree : ScopeTree) (name : String) : Prop where
  known : (tree.classId? name).isSome = true
  held : ∃ id entity, tree.child? root name = some id ∧ tree.entity? id = some entity ∧ entity.isTable = false

theorem NoTable.isGlobalTable {tree : ScopeTree} (other : NoTable tree name) (formed : tree.Formed)
    (plain : '.' ∉ name.toList) :
    isGlobalTable tree name = false := by
  obtain ⟨id, entity, hangs, there, kind⟩ := other.held
  have occupied : tree.hasEntity id = true := by rw [hasEntity, there]; rfl
  rw [Discovery.isGlobalTable, lookup_root formed plain, hangs, Option.filter_some,
    if_pos occupied, Option.bind_some, there]
  exact kind

private theorem noTable_declared (config : DiscoveryConfig)
    (dotless : ∀ name ∈ program.names, '.' ∉ name.toList) (declares : program.DeclaresClass config name) :
    NoTable (declared config program).tree name := by
  have recognizes := recognizes_declared config dotless
  obtain ⟨one, listed, named⟩ := exists_derivation declares
  have key : name ∈ (declared config program).tree.globals.classes.keys := by
    rw [recognizes.keys, List.mem_eraseDups]
    exact List.mem_filterMap.2 ⟨one, listed, named⟩
  have known : ((declared config program).tree.classId? name).isSome = true := by
    rw [classId?, ← OrderedMap.contains_eq_isSome_get?]
    exact (OrderedMap.mem_keys_iff_contains _ _).1 key
  obtain ⟨id, found⟩ := Option.isSome_iff_exists.1 known
  obtain ⟨hangs, owner, _, held, _⟩ := recognizes.classes found
  obtain ⟨references, present⟩ := classAt?_eq_some held
  exact ⟨known, id, _, hangs, present, rfl⟩

theorem entity?_placeFunction {tree : ScopeTree} {id : ScopeId} {kind : FunctionKind}
    (inside : id.index < (placeFunction tree id name kind body).size) :
    (placeFunction tree id name kind body).entity? id = some (.new (.function {
      name, kind, params := (declareParams id body.params tree).2, vararg := body.vararg, values := .empty
      returns := initialReturns body.body, hasReturn := hasReturn body.body })) := by
  apply entity?_setEntity_self
  rw [← (sameShape_setEntity _ id _).size]
  exact inside

/-- A function of the top level may take the name of a class, but it is no table. -/
theorem noTable_declareGlobalFunction {state : State} (formed : state.tree.Formed)
    (level : state.tree.Level) {called : String} (plain : '.' ∉ called.toList)
    (params : ∀ name ∈ body.params, '.' ∉ name.toList) (range : Range) {id : ScopeId} {entity : Entity}
    (hangs : state.tree.child? root name = some id) (held : state.tree.entity? id = some entity)
    (other : entity.isTable = false) :
    ∃ id entity, (declareGlobalFunction called body range state).tree.child? root name = some id ∧
      (declareGlobalFunction called body range state).tree.entity? id = some entity ∧
      entity.isTable = false := by
  have place := inPlace_function formed level formed.root_lt plain .global params
    s!"global function `{called}` redefined" range
  rw [declareGlobalFunction_eq]
  dsimp only at place ⊢
  have links := place.confined.stays.child? hangs
  by_cases same : id = (state.tree.internChild root called .function).2
  · subst same
    obtain ⟨_, present, _⟩ := place.formed.child place.hangs
    exact ⟨_, _, links, entity?_placeFunction (index_lt_of_node? present), rfl⟩
  · exact ⟨id, entity, links, (place.sibling_kept (formed.parent?_of_child hangs) same).trans held, other⟩

private theorem Grows.noTable {before after : ScopeTree} (grows : before.Grows after) {id : ScopeId}
    {entity : Entity} (held : before.entity? id = some entity) (other : entity.isTable = false) :
    ∃ entity, after.entity? id = some entity ∧ entity.isTable = false := by
  obtain ⟨later, found, grown⟩ := grows.entity? held
  exact ⟨later, found, grown.isTable.trans other⟩

/-- A table of the top level takes the place of nothing. -/
theorem entity?_declareGlobalTable {tree : ScopeTree} {id : ScopeId} {entity : Entity}
    (held : tree.entity? id = some entity) (called : String) :
    (declareGlobalTable called tree).entity? id = some entity := by
  have present := (entity?_internChild .table tree root called id).trans held
  unfold declareGlobalTable
  dsimp only
  generalize tree.internChild root called .table = made at present ⊢
  split
  next => exact present
  next vacant =>
    have apart : id ≠ made.2 := by
      rintro rfl
      exact vacant (Option.isSome_of_eq_some present)
    have kept : (made.1.setEntity made.2 (.new (.table ⟨called, .empty⟩))).entity? id = some entity := by
      rw [entity?_setEntity, if_neg apart]
      exact present
    exact kept

private theorem noTable_indexStep (dotless : ∀ name ∈ program.names, '.' ∉ name.toList) {before after : State}
    (step : IndexStep config program before after) (formed : before.Formed) (blank : before.tree.Blank)
    (noTable : NoTable before.tree name) : NoTable after.tree name := by
  obtain ⟨id, entity, hangs, held, other⟩ := noTable.held
  refine ⟨(classId?_indexStep step formed name).symm ▸ noTable.known, ?_⟩
  obtain ⟨last, kept⟩ := revises_indexStep step formed
  have links := kept.links formed.tree blank.level.dotless last.tree
    (blank_indexStep dotless step formed blank).1.level.dotless hangs
  cases step with
  | function range named within free =>
    exact noTable_declareGlobalFunction formed.tree blank.level (dotless _ named)
      (fun param member => dotless param (within (params_subset _ member))) range hangs held other
  | @table called _ named free =>
    exact ⟨id, entity, links, entity?_declareGlobalTable held called, other⟩
  | @value called value range _ named free =>
    have defined := (advances_defineLocal before.tree formed.tree.root_lt called range formed.tree)
    obtain ⟨first, found, same⟩ := Grows.noTable defined.2 held other
    rw [State.withTree] at links ⊢
    rw [declareGlobalValue] at links ⊢
    dsimp only at links ⊢
    split at links
    next var =>
      obtain ⟨later, reached, equal⟩ := Grows.noTable (advances_applyEvidence _ _ _ defined.1).2 found same
      rw [if_pos var]
      exact ⟨id, later, links, reached, equal⟩
    next var =>
      rw [if_neg var]
      exact ⟨id, first, links, found, same⟩
  | member value range owned named table =>
    obtain ⟨later, found, same⟩ := Grows.noTable
      (advances_assignMember _ (.at_ root) formed.tree.root_lt _ _ _ _ formed.tree).2 held other
    exact ⟨id, later, links, found, same⟩

/-- What is known while the top level is indexed. -/
structure Indexing (config : DiscoveryConfig) (program : Program) (state : State) : Prop where
  formed : state.Formed
  blank : state.tree.Blank
  noTable : ∀ {name}, program.DeclaresClass config name → NoTable state.tree name

namespace Indexing

theorem declared (config : DiscoveryConfig) (dotless : ∀ name ∈ program.names, '.' ∉ name.toList) :
    Indexing config program (declared config program) where
  formed := formed_declared config program
  blank := (declares_declared config dotless).blank
  noTable := noTable_declared config dotless

variable {state last : State} (indexing : Indexing config program state)
  (dotless : ∀ name ∈ program.names, '.' ∉ name.toList)
include indexing dotless

theorem steps (steps : ReflTransGen (IndexStep config program) state last) :
    Indexing config program last := by
  induction steps with
  | refl => exact indexing
  | tail _ step ih =>
    obtain ⟨formed, blank, noTable⟩ := ih
    refine ⟨(revises_indexStep step formed).1, (blank_indexStep dotless step formed blank).1,
      fun declares => ?_⟩
    exact noTable_indexStep dotless step formed blank (noTable declares)

theorem isGlobalTable (declares : program.DeclaresClass config name) :
    isGlobalTable state.tree name = false :=
  (indexing.noTable declares).isGlobalTable indexing.formed.tree
  (dotless name (mem_names_of_declaresClass declares))

end Indexing

/-! ### Whole programs -/

/-- Functions of declared classes may be written in another way: the discovery stays the same. -/
theorem discover_rephrased (config : DiscoveryConfig) {rephrased : Program}
    (dotless : ∀ name ∈ program.names, '.' ∉ name.toList)
    (each : List.Forall₂ (Stmt.Rephrased config program) program.body rephrased.body) :
    discover rephrased config = discover program config := by
  have within : program.body ⊆ program.body := List.Subset.refl _
  have declared : declared config rephrased = declared config program := by
    rw [Discovery.declared, declareClasses, foldl_rephrased (fun _ => True) (fun _ _ _ _ => trivial)
      (fun same _ => ?_) each within trivial]
    · rfl
    · cases same with
      | same => rfl
      | member range _ left right => rw [declareStatement_member left, declareStatement_member right]
  have indexed : indexed config rephrased = indexed config program := by
    rw [Discovery.indexed, declared, Discovery.indexed]
    refine foldl_rephrased (fun state => Indexing config program state)
      (fun stmt member state indexing => ?_) (fun same indexing => ?_)
      each within (.declared config dotless)
    · exact indexing.steps dotless (indexStatement_steps config program member state)
    · cases same with
      | same => rfl
      | member range declares left right =>
        have other := indexing.isGlobalTable dotless declares
        rw [indexStatement_member left range other, indexStatement_member right range other]
  have defined : defined config rephrased = defined config program := by
    rw [Discovery.defined, indexed, Discovery.defined]
    congr 1
    funext state owner
    unfold defineMembers
    split
    next => rfl
    next held _ =>
      refine foldl_rephrased (fun _ => True) (fun _ _ _ _ => trivial) (fun same _ => ?_) each within trivial
      cases same with
      | same => rfl
      | member range _ left right => rw [defineStatement_member left, defineStatement_member right]
  have seeded : seeded config rephrased = seeded config program := by rw [seeded_eq, defined, ← seeded_eq]
  have ended : discover rephrased config = Run.closing
    (runToFixedPoint config 0 (Discovery.seeded config rephrased)) := rfl
  rw [ended, seeded]
  rfl

/-- A class with a constructor and a function, each written in a given way. -/
def writtenCell (constructor size : FunctionBody → StmtKind) : Program where
  body := [
    ⟨.assign [.name "Cell"] [.methodCall (.name "ISBaseObject") "derive" []], ⟨1, 0, 1, 28⟩⟩,
    ⟨constructor ⟨["o"], false, [⟨.return_ [.name "o"], ⟨2, 28, 2, 36⟩⟩]⟩, ⟨2, 0, 2, 40⟩⟩,
    ⟨size ⟨[], false, [⟨.return_ [.number "1"], ⟨3, 23, 3, 31⟩⟩]⟩, ⟨3, 0, 3, 35⟩⟩]

theorem writtenCell_rephrased :
    let first := writtenCell (fun body => .assign [.member (.name "Cell") "new"] [.function body])
      (.function (.ofMember "Cell" .dot "size") false)
    let second := writtenCell (.function (.ofMember "Cell" .colon "new") false)
      (fun body => .assign [.member (.name "Cell") "size"] [.function body])
    (∀ name ∈ first.names, '.' ∉ name.toList) ∧
      List.Forall₂ (Stmt.Rephrased .default first) first.body second.body ∧ discover second .default =
        discover first .default := by
  intro first second
  have dotless : ∀ name ∈ first.names, '.' ∉ name.toList := by decide +kernel
  have declares : first.DeclaresClass .default "Cell" :=
    ⟨_, List.mem_cons_self, _, _, _, rfl, List.mem_cons_self, rfl⟩
  have each : List.Forall₂ (Stmt.Rephrased .default first) first.body second.body :=
    .cons (.same _) (.cons (.member _ declares .assigned (.method rfl))
      (.cons (.member _ declares .declared .assigned) .nil))
  exact ⟨dotless, each, discover_rephrased .default dotless each⟩

end Discovery
end LuaClasses
