import LuaClasses.Proofs.WalkSites

/-! A sweep as a list of tours through the bodies of the classes. Growth leaves the list as it
is, so all sweeps after the members are entered make the same tours. -/

namespace LuaClasses

/-- A class without what walks may add to it. -/
def Class.outline (owner : Class) : Class := { owner with fields := .empty, values := .empty }

namespace ScopeTree

/-- Growth neither makes nor loses an entity of a kind that no walk places, and keeps the outline
of each. -/
theorem Grows.read {α : Type} {before after : ScopeTree} (grows : before.Grows after) (id : ScopeId)
    {f : Entity → Option α} (outlined : EntityKind → Option α)
    (same : ∀ entity, f entity = outlined entity.kind.outline)
    (unplaced : ∀ entity, entity.kind.isPlaced = true → f entity = none) :
    (after.entity? id).bind f = (before.entity? id).bind f := by
  cases held : before.entity? id with
  | some entity =>
    obtain ⟨later, reached, grown⟩ := grows.entity? held
    rw [reached, Option.bind_some, Option.bind_some, same, same, grown.outline]
  | none =>
    cases reached : after.entity? id with
    | none => rfl
    | some later => exact unplaced _ (grows.placed id later held reached)

theorem Grows.classAt? {before after : ScopeTree} (grows : before.Grows after) (id : ScopeId) :
    (after.classAt? id).map Class.outline = (before.classAt? id).map Class.outline := by
  simp only [ScopeTree.classAt?, Option.map_bind]
  refine grows.read id (fun kind => (Entity.mk .empty kind).asClass?) ?_ ?_
  all_goals rintro ⟨references, kind⟩
  · cases kind <;> rfl
  · cases kind <;> first | exact fun _ => rfl | exact fun placed => nomatch placed

end ScopeTree

namespace Discovery
open ScopeTree

/-- The name that the constructor at a scope gives to the instance. -/
def selfAliasAt? (tree : ScopeTree) (constructor : ScopeId) : Option String :=
  ((tree.entity? constructor).bind Entity.asConstructor?).bind Constructor.selfAlias

private theorem selfAliasAt?_grows {before after : ScopeTree} (grows : before.Grows after) (id : ScopeId) :
    selfAliasAt? after id = selfAliasAt? before id := by
  simp only [selfAliasAt?, Option.bind_assoc]
  refine grows.read id (fun kind => (Entity.mk .empty kind).asConstructor?.bind Constructor.selfAlias) ?_ ?_
  all_goals rintro ⟨references, kind⟩
  · cases kind <;> rfl
  · cases kind <;> first | exact fun _ => rfl | exact fun placed => nomatch placed

/-- The walk of one body. -/
structure Tour where
  frame : Frame
  sites : List Site

def Tour.ofBody (tree : ScopeTree) (frame : Frame) (body : FunctionBody) : Tour :=
  ⟨frame, Discovery.sites body.body (tree.raw frame.scope) []⟩

section Tours

variable (config : DiscoveryConfig) (tree : ScopeTree) (bodies : ClassBodies)

def constructorTour? : Option Tour := do
  let body ← bodies.constructor
  let owner ← tree.classAt? bodies.owner
  some (.ofBody tree (.ofConstructor owner.constructor (selfAliasAt? tree owner.constructor)) body)

def functionTours : List Tour :=
  bodies.functions.values.map fun (id, body) => .ofBody tree (.ofFunction id) body

def methodTours : List Tour :=
  bodies.methods.values.map fun (id, body) => .ofBody tree (.ofMethod id config.instanceAlias) body

/-- The tours through the bodies of a class. -/
def toursOf : List Tour :=
  (constructorTour? tree bodies).toList ++ functionTours tree bodies ++ methodTours config tree bodies

variable {config tree bodies} {tour : Tour}

theorem mem_constructorTour? :
    tour ∈ (constructorTour? tree bodies).toList ↔
      ∃ body held, bodies.constructor = some body ∧ tree.classAt? bodies.owner = some held ∧
        tour = .ofBody tree (.ofConstructor held.constructor (selfAliasAt? tree held.constructor)) body := by
  unfold constructorTour?
  cases bodies.constructor with
  | none => simp
  | some body =>
    cases tree.classAt? bodies.owner with
    | none => simp
    | some held => simp

/-- The bodies of a class are those of its constructor, of its functions and of its methods. -/
theorem mem_toursOf :
    tour ∈ toursOf config tree bodies ↔
      (∃ body held, bodies.constructor = some body ∧ tree.classAt? bodies.owner = some held ∧
        tour = .ofBody tree (.ofConstructor held.constructor (selfAliasAt? tree held.constructor)) body) ∨
      (∃ name id body, (name, id, body) ∈ bodies.functions.entries ∧
        tour = .ofBody tree (.ofFunction id) body) ∨
      ∃ name id body, (name, id, body) ∈ bodies.methods.entries ∧
        tour = .ofBody tree (.ofMethod id config.instanceAlias) body := by
  rw [toursOf, List.mem_append, List.mem_append, mem_constructorTour?, or_assoc, functionTours, methodTours,
    OrderedMap.values, OrderedMap.values]
  simp [eq_comm]

end Tours

def tours (config : DiscoveryConfig) (state : State) : List Tour :=
  state.classes.flatMap (toursOf config state.tree)

def runTours (config : DiscoveryConfig) (tours : List Tour) (state : State) : State × Nat :=
  runEach (fun tour => runSites config tour.frame tour.sites) tours state

variable (config : DiscoveryConfig)

theorem advances_runTours (tours : List Tour) (state : State) :
    state.Advances (runTours config tours state).1 :=
  runEach_relates State.Advances .refl .trans
    (fun tour _ state => advances_runSites config tour.frame tour.sites state) state

theorem runTours_append (first second : List Tour) (state : State) :
    runTours config (first ++ second) state =
      ((runTours config second (runTours config first state).1).1,
        (runTours config first state).2 + (runTours config second (runTours config first state).1).2) :=
  runEach_append _ first second state

/-! ### Growth keeps the tours -/

private theorem ofBody_grows {before after : ScopeTree} (grows : before.Grows after) {frame : Frame}
    (inside : frame.scope.index < before.size) (body : FunctionBody) :
    Tour.ofBody after frame body = Tour.ofBody before frame body := by
  simp only [Tour.ofBody, grows.raw inside]

theorem index_constructor {tree : ScopeTree} (formed : tree.Formed) {id : ScopeId} {owner : Class}
    (held : tree.classAt? id = some owner) : owner.constructor.index < tree.size := by
  obtain ⟨⟨references, kind⟩, found, asClass⟩ := Option.bind_eq_some_iff.1 held
  cases kind <;> cases asClass
  exact index_lt_of_find? ((formed.entity found).slots _ List.mem_cons_self)

private theorem constructorTour?_grows {before after : ScopeTree} (formed : before.Formed)
    (grows : before.Grows after) (bodies : ClassBodies) :
    constructorTour? after bodies = constructorTour? before bodies := by
  unfold constructorTour?
  cases bodies.constructor with
  | none => rfl
  | some body =>
    have outline := grows.classAt? bodies.owner
    cases held : before.classAt? bodies.owner with
    | none =>
      rw [held, Option.map_none, Option.map_eq_none_iff] at outline
      rw [outline]
      rfl
    | some owner =>
      rw [held] at outline
      obtain ⟨later, reached, same⟩ := Option.map_eq_some_iff.1 outline
      have constructor : later.outline.constructor = owner.outline.constructor := by rw [same]
      simp only [Class.outline] at constructor
      simp only [reached, Option.bind_eq_bind, Option.bind_some, constructor, selfAliasAt?_grows grows]
      rw [ofBody_grows grows (index_constructor formed held)]

theorem mem_scopes_of_function {bodies : ClassBodies} {entry : ScopeId × FunctionBody}
    (member : entry ∈ bodies.functions.values) : entry.1 ∈ bodies.scopes :=
  List.mem_cons_of_mem _ (List.mem_append_left _ (List.mem_map_of_mem member))

theorem mem_scopes_of_method {bodies : ClassBodies} {entry : ScopeId × FunctionBody}
    (member : entry ∈ bodies.methods.values) : entry.1 ∈ bodies.scopes :=
  List.mem_cons_of_mem _ (List.mem_append_right _ (List.mem_map_of_mem member))

section Bodies

variable {before after : ScopeTree} (grows : before.Grows after) {bodies : ClassBodies}
  (inside : ∀ id ∈ bodies.scopes, id.index < before.size)
include grows inside

private theorem functionTours_grows : functionTours after bodies = functionTours before bodies :=
  List.map_congr_left fun entry member =>
    ofBody_grows grows (inside entry.1 (mem_scopes_of_function member)) entry.2

theorem methodTours_grows : methodTours config after bodies = methodTours config before bodies :=
  List.map_congr_left fun entry member =>
    ofBody_grows grows (inside entry.1 (mem_scopes_of_method member)) entry.2

private theorem toursOf_grows (formed : before.Formed) :
    toursOf config after bodies = toursOf config before bodies := by
  simp only [toursOf, constructorTour?_grows formed grows, functionTours_grows grows inside,
    methodTours_grows config grows inside]

end Bodies

theorem tours_grows {before after : State} (formed : before.Formed) (grows : before.Grows after) :
    tours config after = tours config before := by
  simp only [tours, grows.classes, List.flatMap_def]
  congr 1
  exact List.map_congr_left fun bodies member =>
    toursOf_grows config grows.tree (formed.bodies bodies member) formed.tree

/-! ### A sweep makes its tours -/

private theorem walkBody_eq {frame : Frame} {state : State} (formed : state.Formed)
    (inside : frame.scope.index < state.tree.size) (body : FunctionBody) :
    walkBody config frame body state = runSites config frame
      (Tour.ofBody state.tree frame body).sites state :=
  walkStmts_eq config body.body frame [] state _ formed (formed.tree.find?_raw inside)

private theorem walkConstructor_eq {state : State} (formed : state.Formed) (bodies : ClassBodies) :
    walkConstructor config bodies state = runTours config
      (constructorTour? state.tree bodies).toList state := by
  unfold walkConstructor constructorTour?
  cases bodies.constructor with
  | none => rfl
  | some body =>
    cases held : state.tree.classAt? bodies.owner with
    | none => rfl
    | some owner => exact walkBody_eq config formed (index_constructor formed.tree held) body

/-- A loop over bodies makes the tours through them. -/
theorem foldl_walkBody_eq (frame : ScopeId → Frame) (begins : ∀ id, (frame id).scope = id)
    (items : List (ScopeId × FunctionBody)) {state : State} (formed : state.Formed)
    (inside : ∀ item ∈ items, item.1.index < state.tree.size) :
    items.foldl (fun (held : State × Nat) item =>
        ((walkBody config (frame item.1) item.2 held.1).1,
          held.2 + (walkBody config (frame item.1) item.2 held.1).2)) (state, 0) =
      runTours config (items.map fun item => .ofBody state.tree (frame item.1) item.2) state := by
  refine (foldl_eq_runEach (fun item : ScopeId × FunctionBody => walkBody config (frame item.1) item.2)
    items state 0).trans ?_
  simp only [Nat.zero_add]
  suffices ∀ (tree : ScopeTree), tree.Grows state.tree → (∀ item ∈ items, item.1.index < tree.size) →
      runEach (fun item => walkBody config (frame item.1) item.2) items state =
        runTours config (items.map fun item => .ofBody tree (frame item.1) item.2) state from
    this state.tree (.refl _) inside
  intro tree grows within
  clear inside
  induction items generalizing state with
  | nil => rfl
  | cons item rest ih =>
    have first := within item List.mem_cons_self
    rw [← begins item.1] at first
    have step := walkBody_eq config formed (grows.index_lt first) item.2
    rw [ofBody_grows grows first] at step
    obtain ⟨after, further⟩ := advances_runSites config (frame item.1)
      (Tour.ofBody tree (frame item.1) item.2).sites state formed
    rw [← step] at after further
    have others := ih after (grows.trans further.tree) fun other member =>
      within other (List.mem_cons_of_mem _ member)
    simp only [runEach, List.map_cons, others]
    simp only [step]
    rfl

private theorem walkFunctions_eq {state : State} (formed : state.Formed) {bodies : ClassBodies}
    (inside : ∀ id ∈ bodies.scopes, id.index < state.tree.size) :
    walkFunctions config bodies state = runTours config (functionTours state.tree bodies) state :=
  foldl_walkBody_eq config Frame.ofFunction (fun _ => rfl) bodies.functions.values formed
    fun _ member => inside _ (mem_scopes_of_function member)

theorem walkMethods_eq {state : State} (formed : state.Formed) {bodies : ClassBodies}
    (inside : ∀ id ∈ bodies.scopes, id.index < state.tree.size) :
    walkMethods config bodies state = runTours config (methodTours config state.tree bodies) state :=
  foldl_walkBody_eq config (fun id => Frame.ofMethod id config.instanceAlias) (fun _ => rfl)
    bodies.methods.values formed
    fun _ member => inside _ (mem_scopes_of_method member)

private theorem walkClass_eq {state : State} (formed : state.Formed) {bodies : ClassBodies}
    (inside : ∀ id ∈ bodies.scopes, id.index < state.tree.size) :
    walkClass config bodies state = runTours config (toursOf config state.tree bodies) state := by
  have constructor := walkConstructor_eq config formed bodies
  obtain ⟨second, grows⟩ := advances_runTours config (constructorTour? state.tree bodies).toList state formed
  have functions := walkFunctions_eq config second fun id member => grows.tree.index_lt (inside id member)
  rw [functionTours_grows grows.tree inside] at functions
  obtain ⟨third, further⟩ := advances_runTours config (functionTours state.tree bodies) _ second
  have methods := walkMethods_eq config third fun id member =>
    (grows.trans further).tree.index_lt (inside id member)
  rw [methodTours_grows config (grows.trans further).tree inside] at methods
  simp only [walkClass, toursOf, runTours_append, constructor, functions, methods]

/-- A sweep makes the tours through all bodies and then propagates types. -/
theorem sweep_eq {state : State} (formed : state.Formed) :
    sweep config state =
      let walked := runTours config (tours config state) state
      let propagated := propagate walked.1.tree
      (walked.1.withTree propagated.1, walked.2 + propagated.2) := by
  have walk : ∀ (classes : List ClassBodies) {before : State}, before.Formed →
      (∀ bodies ∈ classes, ∀ id ∈ bodies.scopes, id.index < state.tree.size) → state.tree.Grows before.tree →
      runEach (walkClass config) classes before = runTours config
        (classes.flatMap (toursOf config state.tree)) before := by
    intro classes
    induction classes with
    | nil => exact fun _ _ _ => rfl
    | cons bodies rest ih =>
      intro before middle within grows
      have inside := within bodies List.mem_cons_self
      have first := walkClass_eq config middle fun id member => grows.index_lt (inside id member)
      rw [toursOf_grows config grows inside formed.tree] at first
      obtain ⟨after, further⟩ := advances_runTours config (toursOf config state.tree bodies) before middle
      have others := ih after (fun other member => within other (List.mem_cons_of_mem _ member))
        (grows.trans further.tree)
      simp only [runEach, List.flatMap_cons, runTours_append, first, others]
  have whole := walk state.classes formed formed.bodies (.refl _)
  have folded := (foldl_eq_runEach (walkClass config) state.classes state 0).trans
    (by rw [whole, Nat.zero_add])
  unfold sweep
  rw [show state.classes.foldl (fun (held : State × Nat) bodies =>
    ((walkClass config bodies held.1).1, held.2 + (walkClass config bodies held.1).2))
    (state, 0) = _ from folded]
  rfl

theorem advances_sweep (state : State) : state.Advances (sweep config state).1 := by
  intro formed
  rw [sweep_eq config formed]
  exact ((advances_runTours config (tours config state) state).trans
    (State.advances_withTree _ (advances_propagate _))) formed

end Discovery
end LuaClasses
