import LuaClasses.Proofs.AlikeConstructors
import LuaClasses.Proofs.AlikeTopLevel
import LuaClasses.Proofs.LatentConstructors
import LuaClasses.Proofs.Thinning
import LuaClasses.Proofs.TopValues

/-! The entry of members beside one without the constructors that others replace. While a constructor is
missing the states differ in what a constructor writes, and after the next constructor they are the same
again. -/

namespace LuaClasses
open DottedName ScopeTree Discovery

/-! ### The names of values -/

namespace DottedName

variable {owner base path name : String} {names : List String}

private theorem not_hides_child (outside : ¬Inward owner path) (plain : '.' ∉ name.toList) :
    ¬Hides owner (child path name) := by
  have above : ∀ {outer}, Beneath outer (child path name) → Within outer path := fun below =>
    within_iff.2 (((beneath_child_iff plain).1 below).imp_left Eq.symm)
  exact fun hides => outside (hides.imp above above)

/-- What is spelled with other names than a constructor and the fields of a class does not lead to them
from outside. -/
theorem not_inward_spelled (spelled : Spelled names path) (outside : ¬Inward owner base)
    (plain : ∀ name ∈ names, PlainName name) (other : "constructor" ∉ names) :
    ¬Inward owner (child base path) := by
  have step : ∀ {path name}, name ∈ names → ¬Inward owner path → ¬Inward owner (child path name) := by
    intro path name known outside inward
    have dotless := (plain name known).1
    rcases inward with within | within <;> rcases within_iff.1 within with same | below
    · exact other ((child_inj (by decide) dotless same.symm).2 ▸ known)
    · exact not_hides_child outside dotless (.inl below)
    · exact (plain name known).2 (child_inj dotless (by decide) same).2
    · exact not_hides_child outside dotless (.inr below)
  induction spelled with
  | name known => exact step known outside
  | child _ known ih =>
    rw [← child_child]
    exact step known ih

end DottedName

section Targets

variable {config : DiscoveryConfig} {program : Program} {top ownerName : String}

/-- A value of a program leads to nothing that a constructor writes. -/
theorem Program.Spares.known_aside (spares : program.Spares top) (plain : program.Plain)
    (other : "constructor" ∉ program.names) {expr : Expr} (within : expr.names ⊆ program.names)
    (name : String) {target : String} (member : target ∈ expr.targets config []) :
    (Likeness.aside top (child top name)).known target := by
  have dotless : ∀ name ∈ program.names, '.' ∉ name.toList := fun name named => (plain name named).1
  have beside : ∀ base, ¬Inward (child top name) base → ¬Hides (child top name) (child base target) := by
    intro base outside
    rcases expr.spelled_of_mem_targets within dotless member with spelled | ⟨object,
      spelled, rfl⟩ | ⟨_, listed, _⟩
    · exact fun hides => not_inward_spelled spelled outside plain other hides.inward
    · rw [← child_child]
      exact not_hides_child (not_inward_spelled spelled outside plain other) (by decide)
    · cases listed
  refine ⟨spares.not_within_target dotless within (List.nil_subset _) member, beside _ fun inward => ?_,
    beside _ fun inward => ?_⟩
  · exact inward.ne_self rfl
  · exact not_within_parent _ _ inward.within

end Targets

/-! ### The bodies of classes -/

namespace Discovery

/-- The functions and methods of a class with their bodies, wherever they stand. -/
def ClassBodies.roll (bodies : ClassBodies) : ScopeId × OrderedMap FunctionBody × OrderedMap FunctionBody :=
  (bodies.owner, bodies.functions.mapValues Prod.snd, bodies.methods.mapValues Prod.snd)

/-- Enter a body among those of a class. -/
def enterBody (indexer : Indexer) (name : String) (body : FunctionBody) :
    ScopeId × OrderedMap FunctionBody × OrderedMap FunctionBody →
      ScopeId × OrderedMap FunctionBody × OrderedMap FunctionBody
  | (owner, functions, methods) =>
    match indexer with
    | .dot => (owner, (functions.erase name).insert name body, methods.erase name)
    | .colon => (owner, functions.erase name, (methods.erase name).insert name body)

private theorem ClassBodies.roll_enterFunction (bodies : ClassBodies) (indexer : Indexer) (name : String)
    (id : ScopeId) (body : FunctionBody) :
    (bodies.enterFunction indexer name id body).roll = enterBody indexer name body bodies.roll := by
  cases indexer <;>
    simp only [ClassBodies.enterFunction, ClassBodies.roll, enterBody,
      OrderedMap.erase_mapValues, ← OrderedMap.insert_mapValues]

private theorem rolls_defineFunction (owner : ScopeId) (name : String) (indexer : Indexer)
    (body : FunctionBody) (range : Range) (state : State) :
    (defineFunction owner name indexer body range state).classes.map ClassBodies.roll =
      (state.classes.map ClassBodies.roll).map fun roll => if roll.1 = owner then enterBody indexer name
      body roll else roll := by
  rw [defineFunction_eq]
  dsimp only
  rw [State.modifyBodies, State.withTree, classes_vacate, State.withTree, List.map_map, List.map_map]
  refine List.map_congr_left fun bodies _ => ?_
  simp only [Function.comp]
  have own : bodies.roll.1 = bodies.owner := rfl
  rw [own]
  by_cases same : bodies.owner = owner
  · rw [if_pos same, if_pos same, bodies.roll_enterFunction]
  · rw [if_neg same, if_neg same]

/-- What a step makes of the functions and methods of its class depends on those only. -/
theorem rolls_run (config : DiscoveryConfig) (owner : ScopeId) (ownerName : String) (step : MemberStep)
    {first second : State}
    (same : first.classes.map ClassBodies.roll = second.classes.map ClassBodies.roll) :
    (step.run config owner ownerName first).classes.map ClassBodies.roll =
      (step.run config owner ownerName second).classes.map ClassBodies.roll := by
  cases step with
  | value => exact same
  | function indexer name body range =>
    rw [MemberStep.run, MemberStep.run]
    split
    next => rw [map_defineConstructor _ fun _ _ => rfl, map_defineConstructor _ fun _ _ => rfl, same]
    next => rw [rolls_defineFunction, rolls_defineFunction, same]

/-! ### Steps -/

/-- The value that a definition gives, if it gives one. -/
def MemberStep.given? : MemberStep → Option Expr
  | .function _ _ _ _ => none
  | .value _ given _ => given

private theorem MemberStep.names_given? {step : MemberStep} {expr : Expr} (given : expr ∈ step.given?) :
    expr.names ⊆ step.names := by
  cases step with
  | function => cases given
  | value name value range =>
    obtain rfl : value = some expr := given
    exact List.subset_cons_self _ _

section Run

variable {config : DiscoveryConfig} {top : String} {seen known : String → Prop}
  {rough : String → Look → Look → Prop} (tame : Tame rough)
  (around : ∀ {path name}, seen (child path name) → seen path)
include tame around

/-- A definition that is not one of a constructor is entered in both states. -/
theorem AlikeStates.run {gone : List Diagnostic} {first second : State} {owner : ScopeId}
    (alike : AlikeStates gone (.close top seen known rough) first second)
    (twins : Twins first.tree second.tree owner owner) {name : String} (dotless : '.' ∉ name.toList)
    (hangs : first.tree.raw owner = child (first.tree.raw root) name) {step : MemberStep}
    (other : step.definition? config.constructorName = none)
    (plain : ∀ name ∈ step.names, '.' ∉ name.toList)
    (shown : ∀ name, '.' ∉ name.toList → seen (child (first.tree.raw owner) name))
    (visible : ∀ path, known path → seen (child (first.tree.raw owner) path) ∧
      seen (child (first.tree.raw root) path))
    (told : ∀ expr ∈ step.given?, ∀ target ∈ expr.targets config [], ¬Within top target ∧ known target)
    (ownerName : String) :
    AlikeStates gone (.close top seen known rough) (step.run config owner ownerName first)
      (step.run config owner ownerName second) := by
  cases step with
  | function indexer called body range =>
    have apart : called ≠ config.constructorName := fun same => by
      rw [MemberStep.definition?, if_pos same] at other; cases other
    obtain ⟨bound, within⟩ := List.forall_mem_cons.1 plain
    rw [MemberStep.run, MemberStep.run, if_neg apart, if_neg apart]
    exact alike.defineFunction tame around twins bound (shown called bound) indexer
      (fun param member => within param (params_subset body member))
      range
  | value called given range =>
    have bound := plain called List.mem_cons_self
    have lasting : (Likeness.close top seen known rough).Lasting := Likeness.lasting_close tame around
    exact alike.withTree (alike.trees.defineValue lasting twins dotless bound hangs (shown called bound)
      (fun path named => visible path named.2)
      config told (fun _ _ => trivial) range)

end Run

/-! ### Both entries -/

end Discovery

/-- How the states of two entries are alike at a class. Once a constructor is left out of the second one,
the class is opened. -/
def Likeness.entry (top owner : String) : Bool → Likeness
  | false => .same top
  | true => .aside top owner

namespace Discovery

/-- Two entries of members, where the second has left out no definition but constructors of one class
that others replace. -/
structure Abreast (gone : List Diagnostic) (config : DiscoveryConfig) (opened : Bool) (owner : ScopeId)
    (done all : ScopeId → List MemberStep) (first second : State) :
    Prop where
  left : Ready config done first
  right : Ready config all second
  states : AlikeStates gone (.entry config.globalScope (first.tree.raw owner) opened) first second
  begins : first.tree.raw root = config.globalScope
  paths : ∀ id ∈ first.owners, first.tree.raw id = second.tree.raw id
  names : ∀ id ∈ first.owners, (first.tree.classAt? id).map Class.name =
    (second.tree.classAt? id).map Class.name
  rolls : first.classes.map ClassBodies.roll = second.classes.map ClassBodies.roll

namespace Ready

variable {config : DiscoveryConfig} {done : ScopeId → List MemberStep} {state : State} {id : ScopeId}
  (ready : Ready config done state)
include ready

theorem inside (listed : id ∈ state.owners) : id.index < state.tree.size := by
  obtain ⟨_, present, _⟩ := ready.roster.node listed
  exact index_lt_of_node? present

theorem raw_constructor {held : Class} (found : state.tree.classAt? id = some held) :
    state.tree.raw held.constructor = child (state.tree.raw id) "constructor" :=
  raw_of_find? (ready.roster.formed.tree.find?_child
    (ready.roster.formed.tree.child?_constructor ready.roster.level.dotless found))

/-- A class has the body of a constructor if one is entered. -/
theorem constructed (listed : id ∈ state.owners) :
    ((state.bodies? id).bind ClassBodies.constructor).isSome =
    (lastDefinition? (done id) config.constructorName).isSome := by
  obtain ⟨bodies, member, known, rfl⟩ := exists_bodies? listed
  rw [known, Option.bind_some, (ready.roster.entered bodies member).constructor, Option.isSome_map]

end Ready

namespace Abreast

variable {gone : List Diagnostic} {config : DiscoveryConfig} {opened : Bool} {owner : ScopeId}
  {done all : ScopeId → List MemberStep} {first second : State}
  (abreast : Abreast gone config opened owner done all first second)
include abreast

theorem owners : first.owners = second.owners := by
  have same := congrArg (List.map Prod.fst) abreast.rolls
  rw [List.map_map, List.map_map] at same
  exact same

/-- A class that is not opened is like any other. -/
theorem close (closed : opened = false) (id : ScopeId) :
    Abreast gone config false id done all first second := by
  subst closed
  exact { abreast with states := abreast.states }

/-- In what a constructor writes the states may differ in any case. -/
theorem aside : AlikeStates gone (.aside config.globalScope (first.tree.raw owner)) first second := by
  have states := abreast.states
  cases opened with
  | false => exact ⟨states.trees.aside _, states.problems⟩
  | true => exact states

theorem sound : first.tree.Sound ∧ second.tree.Sound :=
  ⟨abreast.states.trees.left, abreast.states.trees.right⟩

/-- States that steps have led to. -/
theorem onward {done' all' : ScopeId → List MemberStep} {later last : State} {opened' : Bool}
    (listed : owner ∈ first.owners) (left : Ready config done' later) (right : Ready config all' last)
    (ahead : Retains first later) (beside : Retains second last) (keeps : first.tree.Keeps later.tree)
    (further : second.tree.Keeps last.tree)
    (states : AlikeStates gone (.entry config.globalScope (first.tree.raw owner) opened') later last)
    (rolls : later.classes.map ClassBodies.roll = last.classes.map ClassBodies.roll) :
    Abreast gone config opened' owner done' all' later last := by
  obtain ⟨sound, sound'⟩ := abreast.sound
  have raw : ∀ id ∈ first.owners, later.tree.raw id = first.tree.raw id := fun id member =>
    keeps.raw_shaped sound.shaped (abreast.left.inside member)
  refine ⟨left, right, ?_, ?_, fun id member => ?_, fun id member => ?_, rolls⟩
  · rw [raw owner listed]
    exact states
  · exact (keeps.raw_shaped sound.shaped sound.shaped.root_lt).trans abreast.begins
  · rw [ahead.owners] at member
    have there := abreast.right.inside (abreast.owners ▸ member)
    rw [raw id member, further.raw_shaped sound'.shaped there]
    exact abreast.paths id member
  · rw [ahead.owners] at member
    rw [ahead.names id member, beside.names id (abreast.owners ▸ member)]
    exact abreast.names id member

variable (listed : owner ∈ first.owners)
include listed

theorem twins : Twins first.tree second.tree owner owner :=
  ⟨abreast.left.inside listed, abreast.right.inside (abreast.owners ▸ listed), abreast.paths owner listed⟩

/-- The class hangs below the top level. -/
theorem hangs : ∃ name, '.' ∉ name.toList ∧ first.tree.raw owner = child config.globalScope name := by
  have above := (abreast.left.roster.node listed).top abreast.left.roster.level
  rcases abreast.sound.1.shaped.parent_cases (abreast.left.inside listed) with ⟨_, alone⟩ | ⟨parent,
    name, hangs, _, dotless, raw, _⟩
  · cases above.symm.trans alone
  · cases above.symm.trans hangs
    exact ⟨name, dotless, by rw [raw, abreast.begins]⟩

section Step

variable {held like : Class} (found : first.tree.classAt? owner = some held)
  (reached : second.tree.classAt? owner = some like)
include found reached

private theorem same_name : like.name = held.name := by
  have same := abreast.names owner listed
  rw [found, reached] at same
  exact (Option.some.inj same).symm

omit reached in
private theorem exists_class : ∃ like, second.tree.classAt? owner = some like ∧ like.name = held.name := by
  have same := abreast.names owner listed
  rw [found, Option.map_some, eq_comm, Option.map_eq_some_iff] at same
  exact same

variable {program : Program} (plain : program.Plain) (free : "constructor" ∉ program.names)

section Both

variable {step : MemberStep} (within : step.names ⊆ program.names)
include plain free within

omit reached in
theorem retains : Retains first (step.run config owner held.name first) := by
  have other : step.bound ≠ "constructor" := fun same => by
    refine free (within ?_)
    cases step <;> exact same ▸ List.mem_cons_self
  exact (abreast.left.run listed found abreast.sound.1 step
    (fun name member => plain name (within member)) other).2

/-- What is the same in both entries comes from what both steps keep. -/
theorem advance {opened' : Bool}
    (states : AlikeStates gone (.entry config.globalScope (first.tree.raw owner) opened')
      (step.run config owner held.name first)
      (step.run config owner held.name second)) :
    Abreast gone config opened' owner (entering done owner [step]) (entering all owner [step])
      (step.run config owner held.name first)
      (step.run config owner held.name second) := by
  obtain ⟨sound, sound'⟩ := abreast.sound
  have proper : ∀ name ∈ step.names, PlainName name := fun name member => plain name (within member)
  have other : step.bound ≠ "constructor" := fun same => by
    refine free (within ?_)
    cases step <;> exact same ▸ List.mem_cons_self
  have there := abreast.owners ▸ listed
  obtain ⟨left, ahead⟩ := abreast.left.run listed found sound step proper other
  obtain ⟨right, beside⟩ := abreast.right.run there reached sound' step proper other
  rw [abreast.same_name listed found reached] at right beside
  exact abreast.onward listed left right ahead beside
    (revises_run config held.name (abreast.left.inside listed) step abreast.left.roster.formed).2
    (revises_run config held.name (abreast.right.inside there) step abreast.right.roster.formed).2 states
    (rolls_run config owner held.name step abreast.rolls)

/-- A definition that is not one of a constructor is entered on both sides. -/
theorem keep (spares : program.Spares config.globalScope)
    (other : step.definition? config.constructorName = none) :
    Abreast gone config opened owner (entering done owner [step]) (entering all owner [step])
      (step.run config owner held.name first)
      (step.run config owner held.name second) := by
  refine abreast.advance listed found reached plain free within ?_
  obtain ⟨name, dotless, hangs⟩ := abreast.hangs listed
  have twins := abreast.twins listed
  have states := abreast.states
  have below : first.tree.raw owner = child (first.tree.raw root) name := abreast.begins ▸ hangs
  have proper : ∀ name ∈ step.names, '.' ∉ name.toList := fun name member => (plain name (within member)).1
  have inner : ∀ {expr : Expr}, expr ∈ step.given? → expr.names ⊆ program.names := fun given =>
    List.Subset.trans (MemberStep.names_given? given) within
  cases opened with
  | false =>
    refine AlikeStates.run ⟨nofun, nofun, nofun, nofun⟩ (fun _ => trivial) states twins dotless below
      other proper (fun _ _ => trivial)
      (fun _ _ => ⟨trivial, trivial⟩) (fun expr given target member => ⟨?_, trivial⟩) held.name
    exact spares.not_within_target (fun name named => (plain name named).1) (inner given)
      (List.nil_subset _) member
  | true =>
    refine AlikeStates.run (tame_aside _) (fun away hides => away (hides.child _)) states twins
      dotless below other proper
      (fun _ dotless => not_hides_member _ dotless) (fun _ away => ?_)
      (fun expr given target member => ?_) held.name
    · rw [abreast.begins]
      exact away
    · rw [hangs]
      exact spares.known_aside plain free (inner given) name member

end Both

variable {indexer : Indexer} {body : FunctionBody} {range : Range}
  (within : (MemberStep.function indexer config.constructorName body range).names ⊆ program.names)
include plain free within

/-- A constructor that is entered on both sides closes the class. -/
theorem replace (ahead : (lastDefinition? (all owner) config.constructorName).isSome = true →
    (lastDefinition? (done owner) config.constructorName).isSome = true)
    (gap : (lastDefinition? (done owner) config.constructorName).isSome = true →
      (lastDefinition? (all owner) config.constructorName).isSome = false →
      replacement held.name range ∈ gone) :
    let step := MemberStep.function indexer config.constructorName body range
    Abreast gone config false owner (entering done owner [step]) (entering all owner [step])
      (step.run config owner held.name first)
      (step.run config owner held.name second) := by
  refine abreast.advance listed found reached plain free within ?_
  obtain ⟨sound, sound'⟩ := abreast.sound
  have there := abreast.owners ▸ listed
  have path := abreast.paths owner listed
  have right := abreast.right.stripped there reached sound' range
  rw [abreast.same_name listed found reached, ← path] at right
  rw [MemberStep.run, MemberStep.run, if_pos rfl, if_pos rfl]
  refine abreast.aside.defineConstructor (abreast.twins listed) found reached
    (abreast.left.raw_constructor found) ?_
    (fun name member => (plain name (within (List.mem_cons_of_mem _ member))).1) ?_ ?_
    (abreast.left.stripped listed found sound range) right
  · rw [path]
    exact abreast.right.raw_constructor reached
  · rw [abreast.left.constructed listed, abreast.right.constructed there]
    exact ahead
  · rw [abreast.left.constructed listed, abreast.right.constructed there]
    exact gap

/-- A constructor that is entered on one side only opens the class. -/
theorem drop (caused : constructorProblems held.name body range ⊆ gone) :
    let step := MemberStep.function indexer config.constructorName body range
    Abreast gone config true owner (entering done owner [step]) all
      (step.run config owner held.name first) second := by
  intro step
  obtain ⟨sound, sound'⟩ := abreast.sound
  have proper : ∀ name ∈ step.names, PlainName name := fun name member => plain name (within member)
  have other : step.bound ≠ "constructor" := fun same => free (within (same ▸ List.mem_cons_self))
  obtain ⟨left, retains⟩ := abreast.left.run listed found sound step proper other
  refine abreast.onward listed left abreast.right retains (.refl second)
    (revises_run config held.name (abreast.left.inside listed) step abreast.left.roster.formed).2
    (fun _ _ found => found) ?_ ?_
  · have stands := (abreast.right.latent owner (abreast.owners ▸ listed) like reached).constructor
    rw [← abreast.paths owner listed] at stands
    simp only [step, MemberStep.run, if_true]
    exact abreast.aside.defineConstructorLeft found rfl (abreast.left.raw_constructor found) stands
      (fun name member => (plain name (within (List.mem_cons_of_mem _ member))).1)
      (abreast.left.stripped listed found sound range) caused
  · simp only [step, MemberStep.run, if_true]
    rw [map_defineConstructor _ fun _ _ => rfl]
    exact abreast.rolls

end Step
end Abreast

/-! ### Runs of steps -/

private theorem lastDefinition?_entering (done : ScopeId → List MemberStep) (owner : ScopeId)
    (step : MemberStep) (member : String) :
    lastDefinition? (entering done owner [step] owner) member = (step.definition? member).or
      (lastDefinition? (done owner) member) := by
  rw [entering, if_pos rfl, lastDefinition?_concat]

section Runs

variable {gone : List Diagnostic} {config : DiscoveryConfig} {program other : Program} (plain : program.Plain)
  (free : "constructor" ∉ program.names) (spares : program.Spares config.globalScope)
include plain free spares

theorem Thinned.run {leaves : MemberStep → Prop} {opened : Bool} {rest more : List MemberStep}
    (thinned : Thinned config leaves opened rest more)
    (within : ∀ step ∈ rest, step.names ⊆ program.names) {owner : ScopeId}
    {done all : ScopeId → List MemberStep} {first second : State}
    (abreast : Abreast gone config opened owner done all first second)
    (listed : owner ∈ first.owners) {ownerName : String}
    (named : (first.tree.classAt? owner).map Class.name = some ownerName)
    (ahead : (lastDefinition? (all owner) config.constructorName).isSome = true →
      (lastDefinition? (done owner) config.constructorName).isSome = true)
    (caused : ∀ step, leaves step → step.problems ownerName ⊆ gone)
    (settled : (∃ step, leaves step) → (lastDefinition? (all owner) config.constructorName).isSome = false →
      firstReplacement config ownerName more ⊆ gone)
    (level : ((lastDefinition? (done owner) config.constructorName).isSome = true →
      (lastDefinition? (all owner) config.constructorName).isSome = true) ∨ ∃ step, leaves step) :
    Abreast gone config false owner (entering done owner rest) (entering all owner more)
        (rest.foldl (MemberStep.run config owner ownerName) first)
        (more.foldl (MemberStep.run config owner ownerName) second) ∧
      (rest.foldl (MemberStep.run config owner ownerName) first).owners = first.owners := by
  have given : ∀ (done : ScopeId → List MemberStep) indexer body range,
      (lastDefinition? (entering done owner [.function indexer config.constructorName body range] owner)
        config.constructorName).isSome = true := by
    intro done indexer body range
    rw [lastDefinition?_entering, MemberStep.definition?, if_pos rfl]
    rfl
  induction thinned generalizing done all first second with
  | nil =>
    rw [entering_nil, entering_nil]
    exact ⟨abreast, rfl⟩
  | @keep opened step rest more defined _ ih =>
    obtain ⟨own, others⟩ := List.forall_mem_cons.1 within
    obtain ⟨held, found, rfl⟩ := Option.map_eq_some_iff.1 named
    obtain ⟨like, reached, _⟩ := abreast.exists_class listed found
    have retains := abreast.retains listed found plain free own
    have next := abreast.keep listed found reached plain free own spares defined
    have before : ∀ done : ScopeId → List MemberStep,
      lastDefinition? (entering done owner [step] owner) config.constructorName =
        lastDefinition? (done owner) config.constructorName := fun done => by
      rw [lastDefinition?_entering, defined, Option.none_or]
    rw [firstReplacement_cons defined] at settled
    rw [← before done, ← before all] at ahead level
    rw [← before all] at settled
    have last := ih others next (retains.owners ▸ listed)
      ((retains.names owner listed).trans named) ahead settled level
    rw [entering_cons, entering_cons, retains.owners] at last
    exact last
  | @replace opened rest more indexer body range _ ih =>
    obtain ⟨own, others⟩ := List.forall_mem_cons.1 within
    obtain ⟨held, found, rfl⟩ := Option.map_eq_some_iff.1 named
    obtain ⟨like, reached, _⟩ := abreast.exists_class listed found
    have retains := abreast.retains listed found plain free own
    have gap : (lastDefinition? (done owner) config.constructorName).isSome = true →
        (lastDefinition? (all owner) config.constructorName).isSome = false →
        replacement held.name range ∈ gone := by
      intro earlier lacks
      have left := level.resolve_left fun both => absurd (both earlier) (Bool.eq_false_iff.1 lacks)
      have first := settled left lacks
      rw [firstReplacement, if_pos rfl] at first
      exact first (List.mem_singleton_self _)
    have next := abreast.replace listed found reached plain free own ahead gap
    have last := ih others next (retains.owners ▸ listed) ((retains.names owner listed).trans named)
      (fun _ => given done _ _ _)
      (fun _ lacks => absurd (given all _ _ _) (Bool.eq_false_iff.1 lacks)) (.inl fun _ => given all _ _ _)
    rw [entering_cons, entering_cons, retains.owners] at last
    exact last
  | @drop opened rest more indexer body range left _ ih =>
    obtain ⟨own, others⟩ := List.forall_mem_cons.1 within
    obtain ⟨held, found, rfl⟩ := Option.map_eq_some_iff.1 named
    obtain ⟨like, reached, _⟩ := abreast.exists_class listed found
    have retains := abreast.retains listed found plain free own
    have next := abreast.drop listed found reached plain free own (caused _ left)
    have last := ih others next (retains.owners ▸ listed) ((retains.names owner listed).trans named)
      (fun _ => given done _ _ _) settled
      (.inr ⟨_, left⟩)
    rw [entering_cons, retains.owners] at last
    exact last

variable {leaves : String → MemberStep → Prop}
  (each : ∀ name, Thinned config (leaves name) false (program.memberSteps name) (other.memberSteps name))
  (caused : ∀ name step, leaves name step → step.problems name ⊆ gone)
  (settled : ∀ name, (∃ step, leaves name step) →
    firstReplacement config name (other.memberSteps name) ⊆ gone)
include each caused settled

/-- The members of one class are entered on both sides. -/
theorem Abreast.members {done all : ScopeId → List MemberStep} {before owner : ScopeId} {first second : State}
    (abreast : Abreast gone config false before done all first second) (listed : owner ∈ first.owners)
    (fresh : done owner = [] ∧ all owner = []) :
    ∃ done' all', Abreast gone config false owner done' all' (defineMembers config program first owner)
      (defineMembers config other second owner) ∧
      (defineMembers config program first owner).owners = first.owners ∧ ∀ id, id ≠ owner → done' id =
      done id ∧ all' id = all id := by
  have here := abreast.close rfl owner
  have names := abreast.names owner listed
  cases found : first.tree.classAt? owner with
  | none =>
    rw [found, Option.map_none, eq_comm, Option.map_eq_none_iff] at names
    rw [defineMembers_outside config program found, defineMembers_outside config other names]
    exact ⟨done, all, here, rfl, fun _ _ => ⟨rfl, rfl⟩⟩
  | some held =>
    obtain ⟨like, reached, same⟩ := here.exists_class listed found
    rw [defineMembers_eq config program owner found, defineMembers_eq config other owner reached, same]
    obtain ⟨last, owners⟩ := (each held.name).run plain free spares
      (fun _ member => names_memberSteps member) here listed (congrArg _ found)
      (fun given => by rw [fresh.2] at given; cases given) (caused held.name)
      (fun left _ => settled held.name left)
      (.inl fun given => by rw [fresh.1] at given; cases given)
    exact ⟨_, _, last, owners, fun id apart => ⟨if_neg apart, if_neg apart⟩⟩

theorem Abreast.all {owners : List ScopeId} {done all : ScopeId → List MemberStep} {before : ScopeId}
    {first second : State} (abreast : Abreast gone config false before done all first second)
    (distinct : owners.Nodup) (within : owners ⊆ first.owners)
    (fresh : ∀ id ∈ owners, done id = [] ∧ all id = []) :
    ∃ last done' all', Abreast gone config false last done' all'
      (owners.foldl (defineMembers config program) first)
      (owners.foldl (defineMembers config other) second) := by
  induction owners generalizing done all before first second with
  | nil => exact ⟨before, done, all, abreast⟩
  | cons owner rest ih =>
    obtain ⟨listed, others⟩ := List.cons_subset.1 within
    obtain ⟨apart, distinct⟩ := List.nodup_cons.1 distinct
    obtain ⟨done', all', next, owners, kept⟩ :=
      abreast.members plain free spares each caused settled listed (fresh owner List.mem_cons_self)
    refine ih next distinct (fun id member => owners ▸ others member) fun id member => ?_
    obtain ⟨left, right⟩ := kept id fun same => apart (same ▸ member)
    rw [left, right]
    exact fresh id (List.mem_cons_of_mem _ member)

/-- Once all members are entered, the states of both programs are the same. -/
theorem abreast_defined (same : indexed config other = indexed config program) :
    ∃ last done all, Abreast gone config false last done all (defined config program)
      (defined config other) := by
  have roster := roster_indexed config fun name member => (plain name member).1
  have begun : Abreast gone config false root (fun _ => []) (fun _ => []) (indexed config program)
      (indexed config program) :=
    ⟨ready_indexed config plain, ready_indexed config plain,
      ⟨alike_indexed plain spares config, .refl gone _⟩,
      (shallow_indexed config plain).begins, fun _ _ => rfl, fun _ _ => rfl, rfl⟩
  rw [defined, defined, same]
  exact begun.all plain free spares each caused settled roster.distinct (List.Subset.refl _) fun _ _ =>
    ⟨rfl, rfl⟩

end Runs
end Discovery
end LuaClasses
