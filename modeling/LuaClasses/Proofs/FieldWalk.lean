import LuaClasses.Proofs.TopLevel
import LuaClasses.Proofs.WalkSites

/-! The assignments that stand in a body, and the fields that walks give. A walk of a body gives the class
around the body a field for each assignment to the instance that stands in the body, and no class any
other field. -/

namespace LuaClasses

/-- The field for which a target stands, of what goes by the name `self`. -/
def Expr.fieldOf? (self : String) (target : Expr) : Option String :=
  match target.unparen with
  | .member object field => if object.name? = some self then some field else none
  | _ => none

theorem Expr.fieldOf?_eq_some {self field : String} {target : Expr} :
    target.fieldOf? self = some field ↔ ∃ object, target.unparen = .member object field ∧
      object.name? = some self := by
  unfold fieldOf?
  constructor
  · intro found
    split at found
    next object other same =>
      obtain ⟨named, equal⟩ := Option.ite_none_right_eq_some.1 found
      exact ⟨object, Option.some.inj equal ▸ same, named⟩
    next => cases found
  · rintro ⟨object, same, named⟩
    rw [same]
    exact if_pos named

namespace Discovery

mutual
/-- The targets of assignments, at any depth of blocks, each with the value that stands opposite it. What
nested functions assign is not among them. -/
def assignments : List Stmt → List (Expr × Option Expr)
  | [] => []
  | stmt :: rest => stmtAssignments stmt ++ assignments rest

def stmtAssignments : Stmt → List (Expr × Option Expr)
  | ⟨kind, _⟩ => kindAssignments kind

def kindAssignments : StmtKind → List (Expr × Option Expr)
  | .assign targets values => opposite targets values
  | .if_ clauses => clausesAssignments clauses
  | .while_ _ body => assignments body
  | .repeat_ body _ => assignments body
  | .do_ body => assignments body
  | .forNumeric _ _ _ _ body => assignments body
  | .forGeneric _ _ body => assignments body
  | _ => []

def clausesAssignments : List IfClause → List (Expr × Option Expr)
  | [] => []
  | clause :: rest => clauseAssignments clause ++ clausesAssignments rest

def clauseAssignments : IfClause → List (Expr × Option Expr)
  | ⟨_, body⟩ => assignments body
end

/-- Whether a body assigns a value to a field of what it calls `self`. There may be no value opposite the
target. -/
def Assigns (body : FunctionBody) (self field : String) (value : Option Expr) : Prop :=
  ∃ target, (target, value) ∈ assignments body.body ∧ target.fieldOf? self = some field

def Action.target? : Action → Option (Expr × Option Expr)
  | .target expr value => some (expr, value)
  | _ => none

/-! ### The walk makes these assignments -/

private theorem filterMap_locals (entries : List (String × Option Expr)) (path : String) (range : Range) :
    (entries.map fun entry => (⟨path, .local_ entry.1 entry.2, range⟩ : Site)).filterMap
    (·.action.target?) = [] := by
  rw [List.filterMap_map, List.filterMap_eq_nil_iff]
  exact fun _ _ => rfl

private theorem filterMap_targets (entries : List (Expr × Option Expr)) (path : String) (range : Range) :
    (entries.map fun entry => (⟨path, .target entry.1 entry.2, range⟩ : Site)).filterMap
    (·.action.target?) = entries := by
  rw [List.filterMap_map]
  exact List.filterMap_some

mutual
theorem targets_sites (stmts : List Stmt) (path : String) (earlier : List BlockKind) :
    (sites stmts path earlier).filterMap (·.action.target?) = assignments stmts :=
  match stmts with
  | [] => rfl
  | stmt :: rest => by
    rw [sites, assignments, List.filterMap_append, targets_stmtSites stmt path earlier,
      targets_sites rest path _]

theorem targets_stmtSites (stmt : Stmt) (path : String) (earlier : List BlockKind) :
    (stmtSites stmt path earlier).filterMap (·.action.target?) = stmtAssignments stmt :=
  match stmt with
  | ⟨kind, range⟩ => targets_kindSites kind range path earlier

theorem targets_kindSites (kind : StmtKind) (range : Range) (path : String) (earlier : List BlockKind) :
    (kindSites kind range path earlier).filterMap (·.action.target?) = kindAssignments kind :=
  match kind with
  | .local_ names values => filterMap_locals (opposite names values) path range
  | .assign targets values => filterMap_targets (opposite targets values) path range
  | .if_ clauses => targets_clausesSites clauses range _ 0
  | .while_ _ body => targets_sites body _ []
  | .repeat_ body _ => targets_sites body _ []
  | .do_ body => targets_sites body _ []
  | .forNumeric _ _ _ _ body => targets_sites body _ []
  | .forGeneric names _ body => by
    have items := filterMap_locals (names.map fun name => (name, none))
      (DottedName.child path (blockName .forGeneric (earlier.count .forGeneric))) range
    rw [List.map_map] at items
    refine (List.filterMap_cons_none rfl).trans ?_
    rw [List.filterMap_append, targets_sites body _ []]
    exact congrArg (· ++ assignments body) items
  | .return_ _ | .call _ | .function _ _ _ | .break_ | .goto _ | .label _ => rfl

theorem targets_clausesSites (clauses : List IfClause) (range : Range) (path : String) (index : Nat) :
    (clausesSites clauses range path index).filterMap (·.action.target?) = clausesAssignments clauses :=
  match clauses with
  | [] => rfl
  | clause :: rest => by
    rw [clausesSites, clausesAssignments, List.filterMap_append, targets_clauseSites clause range path index,
      targets_clausesSites rest range path (index + 1)]

theorem targets_clauseSites (clause : IfClause) (range : Range) (path : String) (index : Nat) :
    (clauseSites clause range path index).filterMap (·.action.target?) = clauseAssignments clause :=
  match clause with
  | ⟨_, body⟩ => targets_sites body _ []
end

end Discovery

/-! ### The fields of a class -/

namespace ScopeTree

def HasField (tree : ScopeTree) (id : ScopeId) (name : String) : Prop :=
  (tree.fieldsOf id).contains name = true

theorem Grows.isClass {before after : ScopeTree} (grows : before.Grows after) {id : ScopeId}
    (isClass : (before.classAt? id).isSome = true) : (after.classAt? id).isSome = true := by
  rw [← Option.isSome_map, grows.classAt? id, Option.isSome_map]
  exact isClass

/-- A class of the top level with a function below it, in which a body begins. -/
structure Hosts (tree : ScopeTree) (owner function : ScopeId) : Prop where
  formed : tree.Formed
  level : tree.Level
  node : tree.ClassNode owner
  isClass : (tree.classAt? owner).isSome = true
  below : tree.parent? function = some owner

namespace Hosts

variable {before after : ScopeTree} {owner function : ScopeId}

theorem index_lt (hosts : before.Hosts owner function) : function.index < before.size := by
  obtain ⟨node, present, _⟩ := Option.bind_eq_some_iff.1 hosts.below
  exact index_lt_of_node? present

theorem grows (hosts : before.Hosts owner function) (last : after.Formed) (level : after.Level)
    (grows : before.Grows after) :
    after.Hosts owner function where
  formed := last
  level := level
  node := hosts.node.grows grows
  isClass := grows.isClass hosts.isClass
  below := (grows.parent? hosts.index_lt).trans hosts.below

/-- Wherever in a body an assignment stands, it is to the instance of the class around the body. -/
theorem nearestClass (hosts : before.Hosts owner function) {scope : ScopeId}
    (below : function ∈ before.ancestors scope) :
    before.nearestClass scope = some owner := by
  refine InBody.nearestClass ⟨hosts.node.top hosts.level, function, hosts.below, below⟩ hosts.formed
    hosts.level hosts.node ?_
  obtain ⟨held, found⟩ := Option.isSome_iff_exists.1 hosts.isClass
  obtain ⟨references, entity⟩ := classAt?_eq_some found
  rw [hasEntity, entity]
  rfl

end Hosts

/-- What a write does that gives one class fields of some names. -/
def Gives (owner : ScopeId) (names : String → Prop) (before after : ScopeTree) : Prop :=
  ∀ id name, after.HasField id name ↔ before.HasField id name ∨ id = owner ∧ names name

variable {before after : ScopeTree} {owner : ScopeId}

theorem Neutral.gives (neutral : before.Neutral after) {names : String → Prop} (none : ∀ name, ¬names name) :
    Gives owner names before after := by
  intro id name
  rw [HasField, neutral.fields id]
  exact (or_iff_left fun given => none name given.2).symm

theorem Gives.trans {third : ScopeTree} {first second : String → Prop}
    (one : Gives owner first before after) (two : Gives owner second after third) :
    Gives owner (fun name => first name ∨ second name) before third := by
  intro id name
  rw [two id name, one id name, and_or_left, or_assoc]

theorem Gives.congr {first second : String → Prop} (gives : Gives owner first before after)
    (same : ∀ name, first name ↔ second name) : Gives owner second before after := by
  intro id name
  rw [gives id name, same name]

end ScopeTree

namespace Discovery
open ScopeTree

/-! ### The assignment of a field -/

variable {tree : ScopeTree}

theorem dotless_fieldsName : '.' ∉ fieldsName.toList := by decide

private theorem neutral_internField (tree : ScopeTree) (owner : ScopeId) {name : String}
    (plain : '.' ∉ name.toList) :
    tree.Neutral (tree.internField owner name).1 :=
  (tree.neutral_internChild dotless_fieldsName owner .table nofun).trans
    (neutral_internChild _ plain (tree.internChild owner fieldsName .table).2 .field nofun)

private theorem level_assignField (frame : Frame) {name : String} (plain : '.' ∉ name.toList)
    (evidence : Evidence) (range : Range) (level : tree.Level) :
    (assignField tree frame name evidence range).1.Level := by
  cases nearest : tree.nearestClass frame.scope with
  | none => rw [assignField_outside tree nearest]; exact level
  | some owner =>
    rw [assignField_eq tree nearest]
    have occupied := (neutral_internField tree owner plain).trans
      (neutral_occupy _ (tree.internField owner name).2 name range)
    exact (neutral_applyEvidence _ _ evidence).level
      ((occupied.level level).of_sameShape (sameShape_modifyEntity _ owner _))

private theorem gives_assignField (formed : tree.Formed) {frame : Frame} {owner : ScopeId}
    (nearest : tree.nearestClass frame.scope = some owner)
    (isClass : (tree.classAt? owner).isSome = true) {name : String} (plain : '.' ∉ name.toList)
    (evidence : Evidence) (range : Range) :
    Gives owner (· = name) tree (assignField tree frame name evidence range).1 := by
  rw [assignField_eq tree nearest]
  dsimp only
  have made := neutral_internField tree owner plain
  have advances := advances_internField tree (index_lt_of_nearestClass nearest) name
  generalize tree.internField owner name = first at made advances ⊢
  have occupied := made.trans (neutral_occupy _ first.2 name range)
  have still := ((advances.trans (advances_occupy _ first.2 name range)) formed).2.isClass isClass
  generalize first.1.occupy first.2 name range = placed at occupied still ⊢
  obtain ⟨held, found⟩ := Option.isSome_iff_exists.1 still
  obtain ⟨references, entity⟩ := classAt?_eq_some found
  intro id other
  rw [HasField, (neutral_applyEvidence _ _ evidence).fields,
    HasField, ← occupied.fields, fieldsOf, modifyClass,
    entity?_modifyEntity]
  split
  next same =>
    subst same
    rw [entity, fieldsOf, entity]
    simp only [Option.map_some, Option.getD_some, Entity.mapClass, Entity.fields, Entity.asClass?, true_and]
    exact OrderedMap.contains_insertNew_iff _ _ _ _
  next apart => simp only [fieldsOf, apart, false_and, or_false]

/-! ### Steps of a body -/

/-- The field of the instance for which a target stands in a body. -/
def Frame.field? (frame : Frame) (target : Expr) : Option String := frame.selfAlias.bind target.fieldOf?

theorem Frame.field?_eq_some {frame : Frame} {target : Expr} {name : String} :
    frame.field? target = some name ↔
      ∃ object base, target.unparen = .member object name ∧ object.name? = some base ∧
        frame.isAlias base = true := by
  simp only [field?, Option.bind_eq_some_iff, Expr.fieldOf?_eq_some, isAlias, decide_eq_true_eq]
  constructor
  · rintro ⟨base, known, object, same, named⟩
    exact ⟨object, base, same, named, known⟩
  · rintro ⟨object, base, same, named, known⟩
    exact ⟨base, known, object, same, named⟩

theorem assign_field {state : State} {frame : Frame} {target : Expr} {name : String}
    (field : frame.field? target = some name) (evidence : Evidence) (range : Range) :
    (assign state frame target evidence range).1 =
      state.withTree (assignField state.tree frame name evidence range).1 := by
  obtain ⟨object, base, same, named, known⟩ := Frame.field?_eq_some.1 field
  simp only [assign, same, named, known, if_true]

private theorem neutral_assignName (state : State) (frame : Frame) {name : String}
    (plain : '.' ∉ name.toList) (evidence : Evidence) (range : Range) :
    state.tree.Neutral (assignName state frame name evidence range).1.tree := by
  unfold assignName
  split
  next => exact (neutral_defineLocal _ plain _ _).trans (neutral_applyEvidence _ _ _)
  next =>
    split
    next => exact neutral_applyEvidence _ _ _
    next => rw [State.tree_warn]; exact .refl _

private theorem neutral_assign (state : State) {frame : Frame} {target : Expr}
    (other : frame.field? target = none) (plain : ∀ name ∈ target.names, '.' ∉ name.toList)
    (evidence : Evidence) (range : Range) :
    state.tree.Neutral (assign state frame target evidence range).1.tree := by
  rw [← Expr.names_unparen] at plain
  unfold assign
  split
  next name same =>
    exact neutral_assignName state frame (plain name (by rw [same]; exact List.mem_singleton_self _)) _ _
  next object name same =>
    rw [same] at plain
    split
    next base named =>
      have foreign : frame.isAlias base = false := by
        refine Bool.eq_false_iff.2 fun known => ?_
        have field := Frame.field?_eq_some.2 ⟨object, base, same, named, known⟩
        cases other.symm.trans field
      rw [if_neg (Bool.eq_false_iff.1 foreign)]
      exact neutral_assignMember _ (plain name (List.mem_append_right _ (List.mem_singleton_self _))) frame
        (plain base (List.mem_append_left _ (Expr.name_mem_names named))) evidence range
    next => rw [State.tree_warn]; exact .refl _
  next => rw [State.tree_warn]; exact .refl _

theorem Frame.field_mem_names {frame : Frame} {target : Expr} {name : String}
    (field : frame.field? target = some name) :
    name ∈ target.names := by
  obtain ⟨object, _, same, _⟩ := Frame.field?_eq_some.1 field
  rw [← Expr.names_unparen, same]
  exact List.mem_append_right _ (List.mem_singleton_self _)

/-- The field of the instance that a step of a body assigns. -/
def Site.field? (frame : Frame) (site : Site) : Option String :=
  site.action.target?.bind fun entry => frame.field? entry.1

variable (config : DiscoveryConfig)

private theorem neutral_action (state : State) {frame : Frame} {action : Action}
    (other : ∀ entry, action.target? = some entry → frame.field? entry.1 = none)
    (plain : ∀ name ∈ action.names, '.' ∉ name.toList) (range : Range) :
    state.tree.Neutral (action.run config frame range state).1.tree := by
  cases action with
  | block kind index => exact neutral_enterBlock _ _ _ _
  | local_ name value =>
    exact (neutral_defineLocal _ (plain name (List.mem_singleton_self _)) _ _).trans
      (neutral_applyEvidence _ _ _)
  | target expr value => exact neutral_assign state (other _ rfl) plain _ range
  | return_ values =>
    unfold Action.run
    dsimp only
    split
    next => exact .refl _
    next => exact neutral_applyEvidence _ _ _

private theorem level_action {state : State} (level : state.tree.Level) {frame : Frame} {action : Action}
    (plain : ∀ name ∈ action.names, '.' ∉ name.toList) (range : Range) :
    (action.run config frame range state).1.tree.Level := by
  cases assigned : (action.target?.bind fun entry => frame.field? entry.1) with
  | none =>
    exact (neutral_action config state (fun entry found => by
      rw [found] at assigned; exact assigned) plain range).level level
  | some name =>
    obtain ⟨⟨target, value⟩, found, field⟩ := Option.bind_eq_some_iff.1 assigned
    cases action with
    | target expr value =>
      cases found
      rw [Action.run, assign_field field]
      exact level_assignField _ (plain name (Frame.field_mem_names field)) _ _ level
    | _ => cases found

theorem level_site {state : State} (level : state.tree.Level) (frame : Frame) {site : Site}
    (plain : ∀ name ∈ site.action.names, '.' ∉ name.toList) : (site.run config frame state).1.tree.Level := by
  unfold Site.run
  split
  next => exact level_action config level plain _
  next => exact level

theorem level_runSites {frame : Frame} {sites : List Site}
    (plain : ∀ site ∈ sites, ∀ name ∈ site.action.names, '.' ∉ name.toList) {state : State}
    (level : state.tree.Level) :
    (runSites config frame sites state).1.tree.Level :=
  runEach_keeps (fun state : State => state.tree.Level)
    (fun site member _ level => level_site config level frame (plain site member)) level

theorem gives_site {state : State} {frame : Frame} {owner : ScopeId}
    (hosts : state.tree.Hosts owner frame.scope) {site : Site} {scope : ScopeId}
    (found : state.tree.find? site.scope = some scope) (below : frame.scope ∈ state.tree.ancestors scope)
    (plain : ∀ name ∈ site.action.names, '.' ∉ name.toList) :
    Gives owner (fun name => site.field? frame = some name) state.tree
      (site.run config frame state).1.tree := by
  rw [Site.run, found]
  dsimp only
  cases assigned : site.field? frame with
  | none =>
    refine (neutral_action config state (fun entry target => ?_) plain site.range).gives
      fun _ known => by cases known
    rw [Site.field?, target] at assigned
    exact assigned
  | some name =>
    obtain ⟨⟨target, value⟩, targeted, field⟩ := Option.bind_eq_some_iff.1 assigned
    have inner : (frame.within scope).field? target = some name := field
    obtain ⟨path, action, range⟩ := site
    cases action with
    | target expr value =>
      cases targeted
      rw [Action.run, assign_field inner]
      refine (gives_assignField hosts.formed (hosts.nearestClass below) hosts.isClass
        (plain name (Frame.field_mem_names field)) _ range).congr fun other => ?_
      rw [Option.some.injEq, eq_comm]
    | _ => cases targeted

/-! ### Steps that find their scopes -/

section Visits

variable (frame : Frame) (holds : State → String → Prop)

/-- Whether something holds of the path of each step when its turn comes. -/
inductive Visits : List Site → State → Prop
  | nil {state : State} : Visits [] state
  | cons {site : Site} {rest : List Site} {state : State} (here : holds state site.scope)
      (others : Visits rest (site.run config frame state).1) : Visits (site :: rest) state

variable {config frame holds}

theorem Visits.append {first second : List Site} {state : State} (one : Visits config frame holds first state)
    (two : Visits config frame holds second (runSites config frame first state).1) :
    Visits config frame holds (first ++ second) state := by
  induction one with
  | nil => exact two
  | cons here _ ih => exact .cons here (ih two)

/-- Whether steps keep what holds of a path, whatever path that is. -/
def Keep (config : DiscoveryConfig) (frame : Frame) (holds : State → String → Prop) (sites : List Site) :
    Prop :=
  ∀ site ∈ sites, ∀ state path, holds state path → holds (site.run config frame state).1 path

namespace Keep

variable {first rest : List Site}

theorem left (keep : Keep config frame holds (first ++ rest)) : Keep config frame holds first :=
  fun site member => keep site (List.mem_append_left _ member)

theorem right (keep : Keep config frame holds (first ++ rest)) : Keep config frame holds rest :=
  fun site member => keep site (List.mem_append_right _ member)

theorem tail {site : Site} (keep : Keep config frame holds (site :: rest)) : Keep config frame holds rest :=
  fun other member => keep other (List.mem_cons_of_mem _ member)

theorem run {sites : List Site} (keep : Keep config frame holds sites) {state : State} {path : String}
    (here : holds state path) : holds (runSites config frame sites state).1 path :=
  runEach_keeps (fun state => holds state path) (fun site member state => keep site member state path) here

end Keep

/-- Steps that all are of one scope. -/
theorem Visits.flat {sites : List Site} {path : String} (keep : Keep config frame holds sites)
    (flat : ∀ site ∈ sites, site.scope = path) {state : State} (here : holds state path) :
    Visits config frame holds sites state := by
  induction sites generalizing state with
  | nil => exact .nil
  | cons site rest ih =>
    refine .cons (flat site List.mem_cons_self ▸ here) (ih keep.tail
      (fun other member => flat other (List.mem_cons_of_mem _ member)) ?_)
    exact keep site List.mem_cons_self state path here

/-- Whether what holds of a path holds of every block that is entered there. -/
def Deepens (config : DiscoveryConfig) (frame : Frame) (holds : State → String → Prop) : Prop :=
  ∀ state path, holds state path → ∀ kind index range,
    holds (Site.run config frame state ⟨path, .block kind index, range⟩).1
      (DottedName.child path (blockName kind index))

mutual
/-- What holds where a body begins, what its steps keep and what holds of the blocks that they enter
holds at every step. -/
theorem visits_sites (deepens : Deepens config frame holds) (stmts : List Stmt) (path : String)
    (earlier : List BlockKind) (keep : Keep config frame holds (sites stmts path earlier))
    (state : State) (here : holds state path) :
    Visits config frame holds (sites stmts path earlier) state :=
  match stmts with
  | [] => .nil
  | stmt :: rest =>
    (visits_stmtSites deepens stmt path earlier keep.left state here).append
      (visits_sites deepens rest path _ keep.right _ (keep.left.run here))

theorem visits_stmtSites (deepens : Deepens config frame holds) (stmt : Stmt) (path : String)
    (earlier : List BlockKind) (keep : Keep config frame holds (stmtSites stmt path earlier))
    (state : State) (here : holds state path) :
    Visits config frame holds (stmtSites stmt path earlier) state :=
  match stmt with
  | ⟨kind, range⟩ => visits_kindSites deepens kind range path earlier keep state here

theorem visits_kindSites (deepens : Deepens config frame holds) (kind : StmtKind) (range : Range)
    (path : String) (earlier : List BlockKind)
    (keep : Keep config frame holds (kindSites kind range path earlier)) (state : State)
    (here : holds state path) : Visits config frame holds (kindSites kind range path earlier) state :=
  match kind with
  | .local_ names values => by
    refine .flat keep (fun site member => ?_) here
    obtain ⟨_, _, rfl⟩ := List.mem_map.1 member
    rfl
  | .assign targets values => by
    refine .flat keep (fun site member => ?_) here
    obtain ⟨_, _, rfl⟩ := List.mem_map.1 member
    rfl
  | .return_ values => .cons here .nil
  | .if_ clauses =>
    .cons here (visits_clausesSites deepens clauses range _ 0 keep.tail _ (deepens _ _ here ..))
  | .while_ _ body | .repeat_ body _ | .do_ body =>
    .cons here (visits_sites deepens body _ [] keep.tail _ (deepens _ _ here ..))
  | .forNumeric var _ _ _ body => by
    have entered := deepens _ _ here .forNumeric (earlier.count .forNumeric) range
    refine .cons here (.cons entered (visits_sites deepens body _ [] keep.tail.tail _ ?_))
    exact keep.tail _ List.mem_cons_self _ _ entered
  | .forGeneric names _ body => by
    have entered := deepens _ _ here .forGeneric (earlier.count .forGeneric) range
    refine .cons here ((Visits.flat keep.tail.left (fun site member => ?_) entered).append ?_)
    · obtain ⟨_, _, rfl⟩ := List.mem_map.1 member
      rfl
    · exact visits_sites deepens body _ [] keep.tail.right _ (keep.tail.left.run entered)
  | .call _ | .function _ _ _ | .break_ | .goto _ | .label _ => .nil

theorem visits_clausesSites (deepens : Deepens config frame holds) (clauses : List IfClause)
    (range : Range) (path : String) (index : Nat)
    (keep : Keep config frame holds (clausesSites clauses range path index)) (state : State)
    (here : holds state path) :
    Visits config frame holds (clausesSites clauses range path index) state :=
  match clauses with
  | [] => .nil
  | clause :: rest =>
    (visits_clauseSites deepens clause range path index keep.left state here).append
      (visits_clausesSites deepens rest range path _ keep.right _ (keep.left.run here))

theorem visits_clauseSites (deepens : Deepens config frame holds) (clause : IfClause) (range : Range)
    (path : String) (index : Nat) (keep : Keep config frame holds (clauseSites clause range path index))
    (state : State) (here : holds state path) :
    Visits config frame holds (clauseSites clause range path index) state :=
  match clause with
  | ⟨_, body⟩ =>
    .cons here (visits_sites deepens body _ [] keep.tail _ (deepens _ _ here ..))
end

end Visits

/-- Whether each step finds its scope within the body when its turn comes. -/
inductive Stands (frame : Frame) : List Site → State → Prop
  | nil {state : State} : Stands frame [] state
  | cons {site : Site} {rest : List Site} {state : State} {scope : ScopeId}
      (found : state.tree.find? site.scope = some scope) (below : frame.scope ∈ state.tree.ancestors scope)
      (others : Stands frame rest (site.run config frame state).1) : Stands frame (site :: rest) state

/-- A moment at which a path leads to a scope of the body that begins at `function`. -/
structure State.Reaches (state : State) (function : ScopeId) (path : String) : Prop where
  formed : state.Formed
  level : state.tree.Level
  scope : ∃ scope, state.tree.find? path = some scope ∧ function ∈ state.tree.ancestors scope

theorem child?_enterBlock {tree : ScopeTree} (formed : tree.Formed) (dotless : tree.Dotless)
    {parent : ScopeId} (inside : parent.index < tree.size) (kind : BlockKind) (index : Nat) :
    (enterBlock tree parent kind index).1.child? parent (blockName kind index) =
      some (enterBlock tree parent kind index).2.1 := by
  have hangs := dotless.child?_internChild formed (plain_blockName kind index).1 inside .block
  rw [enterBlock_eq]
  dsimp only
  split
  next => exact hangs
  next => rw [(sameShape_setEntity _ _ _).child?]; exact hangs

namespace State.Reaches

variable {state : State} {frame : Frame} {path : String} (reaches : state.Reaches frame.scope path)
include reaches

theorem site {site : Site} (plain : ∀ name ∈ site.action.names, '.' ∉ name.toList) :
    (site.run config frame state).1.Reaches frame.scope path := by
  obtain ⟨last, grows⟩ := advances_site config frame state site reaches.formed
  obtain ⟨scope, found, below⟩ := reaches.scope
  exact ⟨last, level_site config reaches.level frame plain, scope, grows.tree.find? found,
    (grows.tree.ancestors (index_lt_of_find? found)).symm ▸ below⟩

/-- The block that a step enters is a scope of the body. -/
theorem block (kind : BlockKind) (index : Nat) (range : Range) :
    (Site.run config frame state ⟨path, .block kind index, range⟩).1.Reaches frame.scope
      (DottedName.child path (blockName kind index)) := by
  obtain ⟨formed, level, scope, found, below⟩ := reaches
  have step : (Site.run config frame state ⟨path, .block kind index, range⟩).1 =
      state.withTree (enterBlock state.tree scope kind index).1 := by
    simp only [Site.run, found]
    rfl
  have advances := advances_site config frame state ⟨path, .block kind index, range⟩ formed
  rw [step] at advances ⊢
  obtain ⟨last, grows⟩ := advances
  refine ⟨last, (neutral_enterBlock _ _ _ _).level level, _, find?_enterBlock found kind index, ?_⟩
  have hangs := child?_enterBlock formed.tree level.dotless (index_lt_of_find? found) kind index
  rw [ancestors_of_parent? last.tree (last.tree.parent?_of_child hangs)]
  exact List.mem_cons_of_mem _ ((grows.tree.ancestors (index_lt_of_find? found)).symm ▸ below)

end State.Reaches

/-- The names that stand in steps have no dots if those of the statements have none. -/
theorem dotless_sites {sites : List Site} {path : String} {names : List String}
    (belong : ∀ site ∈ sites, site.Belongs path names) (plain : ∀ name ∈ names, '.' ∉ name.toList) :
    ∀ site ∈ sites, ∀ name ∈ site.action.names, '.' ∉ name.toList :=
  fun site member name named => plain name ((belong site member).names named)

theorem stands_sites {frame : Frame} (stmts : List Stmt) (path : String) (earlier : List BlockKind)
    (plain : ∀ name ∈ stmtsNames stmts, '.' ∉ name.toList) (state : State)
    (reaches : state.Reaches frame.scope path) :
    Stands config frame (sites stmts path earlier) state := by
  have named := dotless_sites (sites_belong stmts path earlier) plain
  have deepens : Deepens config frame fun state path => state.Reaches frame.scope path :=
    fun _ _ => State.Reaches.block config
  have visits := visits_sites deepens stmts path earlier
    (fun site member _ _ reaches => reaches.site config (named site member)) state reaches
  generalize sites stmts path earlier = sites at visits
  clear reaches named
  induction visits with
  | nil => exact .nil
  | cons here _ ih =>
    obtain ⟨_, _, scope, found, below⟩ := here
    exact .cons found below ih

end Discovery
end LuaClasses
