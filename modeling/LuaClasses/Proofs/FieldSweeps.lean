import LuaClasses.Proofs.EnteredMembers

/-! The fields that sweeps give. Every sweep walks all bodies from their beginning, so the first one
gives all the fields that assignments in bodies can give, and no later one gives another. -/

namespace LuaClasses.Discovery
open ScopeTree

variable {config : DiscoveryConfig} {program : Program}

/-! ### One body -/

variable (config) in
private theorem gives_runSites {state : State} {frame : Frame} {owner : ScopeId} {sites : List Site}
    (stands : Stands config frame sites state) (formed : state.Formed)
    (hosts : state.tree.Hosts owner frame.scope)
    (plain : ∀ site ∈ sites, ∀ name ∈ site.action.names, '.' ∉ name.toList) :
    Gives owner (fun name => ∃ site ∈ sites, site.field? frame = some name) state.tree
      (runSites config frame sites state).1.tree := by
  induction stands with
  | nil => exact (Neutral.refl _).gives fun _ given => nomatch given
  | @cons site rest state scope found below others ih =>
    have first := plain site List.mem_cons_self
    obtain ⟨last, grows⟩ := advances_site config frame state site formed
    have later := ih last (hosts.grows last.tree (level_site config hosts.level frame first) grows.tree)
      fun other member => plain other (List.mem_cons_of_mem _ member)
    refine ((gives_site config hosts found below first).trans later).congr fun name => ?_
    rw [List.exists_mem_cons_iff]

/-- A body of a class of the top level, in a tree in which the body hangs below its class. -/
structure Tour.Hosted (tree : ScopeTree) (tour : Tour) : Prop where
  hosts : ∃ owner, tree.Hosts owner tour.frame.scope
  sites : ∃ stmts, (∀ name ∈ stmtsNames stmts, '.' ∉ name.toList) ∧
    tour.sites = Discovery.sites stmts (tree.raw tour.frame.scope) []

/-- Whether a body assigns a value to a field of the instance. -/
def Tour.Assigns (tour : Tour) (name : String) (value : Option Expr) : Prop :=
  ∃ site ∈ tour.sites, ∃ target, site.action.target? = some (target, value) ∧
    tour.frame.field? target = some name

theorem Tour.exists_assigns_iff {tour : Tour} {name : String} :
    (∃ value, tour.Assigns name value) ↔ ∃ site ∈ tour.sites, site.field? tour.frame = some name := by
  constructor
  · rintro ⟨value, site, member, target, assigned, field⟩
    exact ⟨site, member, Option.bind_eq_some_iff.2 ⟨(target, value), assigned, field⟩⟩
  · rintro ⟨site, member, given⟩
    obtain ⟨⟨target, value⟩, assigned, field⟩ := Option.bind_eq_some_iff.1 given
    exact ⟨value, site, member, target, assigned, field⟩

namespace Tour.Hosted

variable {tour : Tour}

theorem plain {tree : ScopeTree} (hosted : tour.Hosted tree) :
    ∀ site ∈ tour.sites, ∀ name ∈ site.action.names, '.' ∉ name.toList := by
  obtain ⟨stmts, dotless, same⟩ := hosted.sites
  rw [same]
  exact dotless_sites (sites_belong stmts _ []) dotless

theorem grows {before after : ScopeTree} (hosted : tour.Hosted before) (last : after.Formed)
    (level : after.Level) (grows : before.Grows after) : tour.Hosted after := by
  obtain ⟨owner, hosts⟩ := hosted.hosts
  obtain ⟨stmts, dotless, same⟩ := hosted.sites
  exact ⟨⟨owner, hosts.grows last level grows⟩, stmts, dotless, by rw [same, grows.raw hosts.index_lt]⟩

theorem stands {state : State} (hosted : tour.Hosted state.tree) (formed : state.Formed) :
    Stands config tour.frame tour.sites state := by
  obtain ⟨owner, hosts⟩ := hosted.hosts
  obtain ⟨stmts, dotless, same⟩ := hosted.sites
  rw [same]
  exact stands_sites config stmts _ [] dotless state
    ⟨formed, hosts.level, tour.frame.scope, hosts.formed.find?_raw hosts.index_lt, self_mem_ancestors _ _⟩

end Tour.Hosted

/-! ### Bodies one after the other -/

/-- The values that bodies give to the fields of a class. -/
def Tours.Give (tree : ScopeTree) (tours : List Tour) (id : ScopeId) (name : String)
    (value : Option Expr) : Prop :=
  ∃ tour ∈ tours, tree.parent? tour.frame.scope = some id ∧ tour.Assigns name value

private theorem Tours.give_grows {before after : ScopeTree} (grows : before.Grows after) {tours : List Tour}
    (hosted : ∀ tour ∈ tours, tour.Hosted before) {id : ScopeId} {name : String} {value : Option Expr} :
    Tours.Give after tours id name value ↔ Tours.Give before tours id name value := by
  refine exists_congr fun tour => and_congr_right fun member => ?_
  obtain ⟨owner, hosts⟩ := (hosted tour member).hosts
  rw [grows.parent? hosts.index_lt]

variable (config) in
private theorem hasField_runTours {tours : List Tour} {state : State} (formed : state.Formed)
    (hosted : ∀ tour ∈ tours, tour.Hosted state.tree) (id : ScopeId) (name : String) :
    (runTours config tours state).1.tree.HasField id name ↔
      state.tree.HasField id name ∨ ∃ value, Tours.Give state.tree tours id name value := by
  induction tours generalizing state with
  | nil => exact (or_iff_left fun given => by obtain ⟨_, _, member, _⟩ := given; cases member).symm
  | cons tour rest ih =>
    have first := hosted tour List.mem_cons_self
    obtain ⟨owner, hosts⟩ := first.hosts
    have gives := (gives_runSites config (first.stands formed) formed hosts first.plain).congr fun _ =>
      Tour.exists_assigns_iff.symm
    obtain ⟨last, grows⟩ := advances_runSites config tour.frame tour.sites state formed
    have level : (runSites config tour.frame tour.sites state).1.tree.Level :=
      level_runSites config first.plain hosts.level
    have others := fun other member => hosted other (List.mem_cons_of_mem _ member)
    have same : (runTours config (tour :: rest) state).1 =
        (runTours config rest (runSites config tour.frame tour.sites state).1).1 := rfl
    rw [same, ih last fun other member => (others other member).grows last.tree level grows.tree,
      gives id name,
      exists_congr fun value => Tours.give_grows grows.tree others, or_assoc]
    refine or_congr_right ?_
    simp only [Tours.Give, List.exists_mem_cons_iff, hosts.below, Option.some.injEq,
      @eq_comm _ owner, exists_or,
      exists_and_left]

/-! ### Sweeps -/

private theorem level_runTours {tours : List Tour} {state : State} (level : state.tree.Level)
    (plain : ∀ tour ∈ tours, ∀ site ∈ tour.sites, ∀ name ∈ site.action.names, '.' ∉ name.toList) :
    (runTours config tours state).1.tree.Level :=
  runEach_keeps (fun state : State => state.tree.Level)
    (fun tour member _ level => level_runSites config (plain tour member) level) level

/-! ### The bodies of a program -/

section Whole

variable {bodies : ClassBodies} {tree : ScopeTree} {held : Class}

theorem ClassBodies.Entered.constructor_iff
    (entered : bodies.Entered config (stepsOf program tree bodies.owner) tree)
    (found : tree.classAt? bodies.owner = some held) {body : FunctionBody} :
    bodies.constructor = some body ↔ ∃ indexer, program.definition? held.name config.constructorName =
      some (indexer, body) := by
  rw [entered.constructor, stepsOf, found, Option.map_eq_some_iff]
  constructor
  · rintro ⟨given, known, same⟩
    exact ⟨given.1, same ▸ known⟩
  · rintro ⟨indexer, known⟩
    exact ⟨(indexer, body), known, rfl⟩

theorem ClassBodies.Entered.member_iff
    (entered : bodies.Entered config (stepsOf program tree bodies.owner) tree)
    (found : tree.classAt? bodies.owner = some held) (indexer : Indexer) {name : String}
    {body : FunctionBody} :
    (∃ id, (name, id, body) ∈ (bodies.listed indexer).entries) ↔
      name ≠ config.constructorName ∧ program.definition? held.name name = some (indexer, body) := by
  have given := entered.members indexer name
  rw [stepsOf, found, Option.map_some, Option.getD_some] at given
  have listed : (∃ id, (name, id, body) ∈ (bodies.listed indexer).entries) ↔
      ((bodies.listed indexer).get? name).map Prod.snd = some body := by
    rw [Option.map_eq_some_iff]
    constructor
    · rintro ⟨id, member⟩
      exact ⟨(id, body), (OrderedMap.get?_eq_some_iff _ _ _).2 member, rfl⟩
    · rintro ⟨⟨id, _⟩, known, rfl⟩
      exact ⟨id, (OrderedMap.get?_eq_some_iff _ _ _).1 known⟩
  rw [listed, given, Option.ite_none_left_eq_some, bodyOf?, Option.bind_eq_some_iff]
  refine and_congr_right fun _ => ⟨?_, fun known => ⟨(indexer, body), known, if_pos rfl⟩⟩
  rintro ⟨definition, known, same⟩
  obtain ⟨rfl, equal⟩ := Option.ite_none_right_eq_some.1 same
  cases equal
  exact known

/-- Only classes have functions and methods with bodies. -/
theorem ClassBodies.Entered.isClass
    (entered : bodies.Entered config (stepsOf program tree bodies.owner) tree) (indexer : Indexer)
    {entry : String × ScopeId × FunctionBody} (member : entry ∈ (bodies.listed indexer).entries) :
    ∃ held, tree.classAt? bodies.owner = some held := by
  cases found : tree.classAt? bodies.owner with
  | some held => exact ⟨held, rfl⟩
  | none =>
    have given := entered.members indexer entry.1
    rw [stepsOf, found, (OrderedMap.get?_eq_some_iff _ _ _).2 member] at given
    dsimp only [Option.map_none, Option.getD_none] at given
    split at given <;> cases given

variable (dotless : ∀ name ∈ program.names, '.' ∉ name.toList)
include dotless

private theorem plain_definition {ownerName member : String} {indexer : Indexer} {body : FunctionBody}
    (defined : program.definition? ownerName member = some (indexer, body)) :
    ∀ name ∈ stmtsNames body.body, '.' ∉ name.toList := by
  obtain ⟨range, step⟩ := exists_step_of_lastDefinition? defined
  obtain ⟨params, vararg, stmts⟩ := body
  exact fun name within => dotless name (names_memberSteps step
    (List.mem_cons_of_mem _ (List.mem_append_right _ within)))

theorem hosted_toursOf {bodies : ClassBodies} (listed : bodies ∈ (defined config program).classes)
    {tour : Tour} (made : tour ∈ toursOf config (defined config program).tree bodies) :
    (defined config program).tree.Hosts bodies.owner tour.frame.scope ∧
    tour.Hosted (defined config program).tree := by
  have roster := roster_defined config dotless
  have formed := roster.formed.tree
  have entered := roster.entered bodies listed
  have hosted : ∀ {held : Class} {name : String} {frame : Frame} {body : FunctionBody},
      (defined config program).tree.classAt? bodies.owner = some held →
      (defined config program).tree.child? bodies.owner name = some frame.scope →
      (∀ name ∈ stmtsNames body.body, '.' ∉ name.toList) →
      (defined config program).tree.Hosts bodies.owner frame.scope ∧
        (Tour.ofBody (defined config program).tree frame body).Hosted (defined config program).tree := by
    intro held name frame body found hangs plain
    have hosts : (defined config program).tree.Hosts bodies.owner frame.scope :=
      ⟨formed, roster.level, entered.node, Option.isSome_of_eq_some found, formed.parent?_of_child hangs⟩
    exact ⟨hosts, ⟨_, hosts⟩, body.body, plain, rfl⟩
  rcases mem_toursOf.1 made with ⟨body, held, given, found, rfl⟩ | ⟨name, id, body, member,
    rfl⟩ | ⟨name, id, body, member, rfl⟩
  · obtain ⟨indexer, known⟩ := (entered.constructor_iff found).1 given
    exact hosted found (formed.child?_constructor roster.level.dotless found) (plain_definition dotless known)
  · obtain ⟨held, found⟩ := entered.isClass .dot member
    obtain ⟨_, known⟩ := (entered.member_iff found .dot).1 ⟨id, member⟩
    exact hosted found (entered.housed _ (List.mem_append_left _ member)) (plain_definition dotless known)
  · obtain ⟨held, found⟩ := entered.isClass .colon member
    obtain ⟨_, known⟩ := (entered.member_iff found .colon).1 ⟨id, member⟩
    exact hosted found (entered.housed _ (List.mem_append_right _ member)) (plain_definition dotless known)

theorem hosted_defined :
    ∀ tour ∈ tours config (defined config program), tour.Hosted (defined config program).tree := by
  intro tour made
  obtain ⟨bodies, listed, made⟩ := List.mem_flatMap.1 made
  exact (hosted_toursOf dotless listed made).2

/-- What stands between the entry of the members and the end. -/
structure Swept (config : DiscoveryConfig) (program : Program) (state : State) : Prop where
  formed : state.Formed
  level : state.tree.Level
  grows : (defined config program).Grows state

theorem Swept.hosted {state : State} (swept : Swept config program state) :
    ∀ tour ∈ tours config (defined config program), tour.Hosted state.tree := fun tour made =>
  (hosted_defined dotless tour made).grows swept.formed.tree swept.level swept.grows.tree

theorem Swept.runTours {state : State} (swept : Swept config program state) {made : List Tour}
    (within : made ⊆ tours config (defined config program)) :
    Swept config program (runTours config made state).1 := by
  obtain ⟨last, grows⟩ := advances_runTours config made state swept.formed
  exact ⟨last, level_runTours swept.level fun tour member =>
    (hosted_defined dotless tour (within member)).plain,
    swept.grows.trans grows⟩

/-- The values that the bodies of a program give to fields. -/
def Gifts (config : DiscoveryConfig) (program : Program) : ScopeId → String → Option Expr → Prop :=
  Tours.Give (defined config program).tree (tours config (defined config program))

private theorem hasField_sweep {state : State} (swept : Swept config program state) :
    Swept config program (sweep config state).1 ∧ ∀ id name,
      ((sweep config state).1.tree.HasField id name ↔ state.tree.HasField id name ∨ ∃ value,
        Gifts config program id name value) := by
  have formed := formed_defined config program
  have walked := swept.runTours dotless (List.Subset.refl _)
  have neutral := neutral_propagate (runTours config (tours config (defined config program)) state).1.tree
  have given := fun id name => (hasField_runTours config swept.formed (swept.hosted dotless) id name).trans
    (or_congr_right (exists_congr fun value => Tours.give_grows swept.grows.tree (hosted_defined dotless)))
  obtain ⟨last, grows⟩ := advances_sweep config state swept.formed
  rw [sweep_eq config swept.formed, tours_grows config formed swept.grows] at last grows ⊢
  refine ⟨⟨last, neutral.level walked.level, swept.grows.trans grows⟩, fun id name => ?_⟩
  refine Iff.trans (iff_of_eq ?_) (given id name)
  exact congrArg (fun fields : Members => fields.contains name = true) (neutral.fields id)

private theorem hasField_sweepUntilIdle {left : Nat} (some : 1 ≤ left) (total : Nat) {state : State}
    (swept : Swept config program state) (id : ScopeId) (name : String) :
    (sweepUntilIdle config left total state).1.tree.HasField id name ↔
      state.tree.HasField id name ∨ ∃ value, Gifts config program id name value := by
  induction left generalizing total state with
  | zero => cases some
  | succ left ih =>
    obtain ⟨next, given⟩ := hasField_sweep dotless swept
    rw [sweepUntilIdle]
    dsimp only
    split
    next => exact given id name
    next =>
      cases left with
      | zero =>
        rw [sweepUntilIdle, State.tree_warn]
        exact given id name
      | succ left => rw [ih (Nat.succ_pos left) (total + 1) next, given id name, or_assoc, or_self]

theorem hasField_discover (sweeps : 1 ≤ config.maxSweeps) (id : ScopeId) (name : String) :
    (discover program config).tree.HasField id name ↔
      (defined config program).tree.HasField id name ∨ ∃ value, Gifts config program id name value := by
  have base : Swept config program (defined config program) :=
    ⟨formed_defined config program, (roster_defined config dotless).level, .refl _⟩
  obtain ⟨made, within, same⟩ := exists_seeding_tours config program
  have seeded : Swept config program (seeded config program) := same ▸ base.runTours dotless within
  have swept := hasField_sweepUntilIdle dotless sweeps 0 seeded id name
  have walked := hasField_runTours config base.formed
    (fun tour member => hosted_defined dotless tour (within member)) id name
  rw [← same] at walked
  refine Iff.trans swept ?_
  rw [walked, or_assoc]
  refine or_congr_right (or_iff_right_of_imp fun given => ?_)
  obtain ⟨value, tour, member, gives⟩ := given
  exact ⟨value, tour, within member, gives⟩

end Whole
end LuaClasses.Discovery
