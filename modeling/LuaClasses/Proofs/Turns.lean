import LuaClasses.Proofs.FieldsApart
import LuaClasses.Proofs.Intake

/-! The steps of bodies at their turns. Each step finds its scope inside the body, and below no fields.
So what a step keeps that stands so, and what the propagation of types keeps, lasts from the entry of the
members to the end of a discovery. -/

namespace LuaClasses.Discovery
open ScopeTree

section Steps

variable {config : DiscoveryConfig} {program : Program} {state : State} (plain : program.Plain)

theorem frame_function {tree : ScopeTree} {bodies : ClassBodies} {tour : Tour}
    (made : tour ∈ toursOf config tree bodies) {function : ScopeId}
    (known : tour.frame.function = some function) : function = tour.frame.scope := by
  rcases mem_toursOf.1 made with ⟨_, _, _, _, rfl⟩ | ⟨_, _, _, _, rfl⟩ | ⟨_, _, _, _, rfl⟩
  · cases known
  · exact (Option.some.inj known).symm
  · exact (Option.some.inj known).symm

include plain

theorem Moment.swept (moment : Moment program config state) : Swept config program state := by
  have dotless := fun name member => (plain name member).1
  suffices level : state.tree.Level by
    obtain ⟨formed, _, grows⟩ := moment.tends plain (formed_defined config program)
      (tidy_defined config plain)
    exact ⟨formed, level, grows⟩
  induction moment with
  | entered => exact (roster_defined config dotless).level
  | walked _ made member ih => exact level_site config ih _ ((hosted_defined dotless _ made).plain _ member)
  | propagated owner _ ih => exact (neutral_propagateInto _ owner).level ih
  | warned kind message range _ ih => rw [State.tree_warn]; exact ih

end Steps

/-- A step of a body of a class whose turn comes at a moment at which it finds its scope in the body. -/
structure Turn (config : DiscoveryConfig) (program : Program) (state : State) (tour : Tour) (site : Site)
    (owner scope : ScopeId) : Prop where
  moment : Moment program config state
  made : tour ∈ tours config (defined config program)
  member : site ∈ tour.sites
  below : (defined config program).tree.parent? tour.frame.scope = some owner
  found : state.tree.find? site.scope = some scope
  within : tour.frame.scope ∈ state.tree.ancestors scope

namespace Turn

variable {config : DiscoveryConfig} {program : Program} {state : State} {tour : Tour}
  {site : Site} {owner scope : ScopeId}
  (turn : Turn config program state tour site owner scope) (plain : program.Plain)
include turn

theorem run_eq :
    site.run config tour.frame state = site.action.run config (tour.frame.within scope) site.range state := by
  rw [Site.run, turn.found]

theorem next : Moment program config (site.run config tour.frame state).1 :=
  .walked turn.moment turn.made turn.member

include plain

theorem tidy : state.Tidy :=
  (turn.moment.tends plain (formed_defined config program) (tidy_defined config plain)).2.1

theorem hosts : state.tree.Hosts owner tour.frame.scope := by
  have swept := turn.moment.swept plain
  obtain ⟨bodies, listed, own⟩ := List.mem_flatMap.1 turn.made
  obtain ⟨hosts, _⟩ := hosted_toursOf (fun name member => (plain name member).1) listed own
  cases hosts.below.symm.trans turn.below
  exact hosts.grows swept.formed.tree swept.level swept.grows.tree

theorem nearestClass : state.tree.nearestClass (tour.frame.within scope).scope = some owner :=
  (turn.hosts plain).nearestClass turn.within

theorem fair : tour.Fair (defined config program).tree :=
  fair_tours config (formed_defined config program) (tidy_defined config plain) tour turn.made

theorem names : ∀ name ∈ site.action.names, PlainName name := by
  obtain ⟨names, named, belong⟩ := (turn.fair plain).belong
  exact fun name member => named name ((belong site turn.member).names member)

theorem named {target : Expr} {value : Option Expr}
    (assigned : site.action.target? = some (target, value)) {name : String}
    (field : tour.frame.field? target = some name) : PlainName name := by
  refine turn.names plain name ?_
  obtain ⟨path, action, range⟩ := site
  cases action with
  | target expr value =>
    cases assigned
    exact Frame.field_mem_names field
  | _ => cases assigned

/-- No scope of a body stands below the fields of a class. -/
theorem away {other fields : ScopeId} (top : (defined config program).tree.parent? other = some root)
    (hangs : (site.run config tour.frame state).1.tree.child? other fieldsName = some fields) :
    Away (site.run config tour.frame state).1.tree scope fields := by
  have begun := formed_defined config program
  obtain ⟨formed, _, grows⟩ := turn.next.swept plain
  obtain ⟨former, level, _⟩ := turn.moment.swept plain
  have onward := (advances_site config tour.frame state site former).2.tree
  have outer := onward.links.parent?_eq former.tree formed.tree ((turn.hosts plain).node.top level)
  have below := grows.tree.links.parent?_eq begun.tree formed.tree turn.below
  have fair := (turn.fair plain).grows begun.tree formed.tree grows.tree
  have around := (onward.ancestors (index_lt_of_find? turn.found)).symm ▸ turn.within
  have beside := grows.tree.links.parent?_eq begun.tree formed.tree top
  exact ⟨formed.tree, ⟨other, hangs⟩, fields_not_mem_ancestors formed.tree outer below
    fair.ordinary around beside hangs⟩

omit plain in
/-- A step that assigns a field of the instance does nothing else. -/
theorem assign_eq {target : Expr} {value : Option Expr}
    (assigned : site.action.target? = some (target, value)) {name : String}
    (field : tour.frame.field? target = some name) :
    (site.run config tour.frame state).1.tree = (assignField state.tree (tour.frame.within scope) name
      (classifyValue config state.tree (tour.frame.within scope) value) site.range).1 := by
  rw [turn.run_eq]
  have inner : (tour.frame.within scope).field? target = some name := field
  obtain ⟨path, action, range⟩ := site
  cases action with
  | target expr value =>
    cases assigned
    rw [Action.run, assign_field inner]
    rfl
  | _ => cases assigned

end Turn

/-! ### Whole discoveries -/

section Whole

variable {config : DiscoveryConfig} {program : Program} {state : State} (plain : program.Plain)
include plain

theorem exists_below {tour : Tour} (made : tour ∈ tours config (defined config program)) :
    ∃ owner, (defined config program).tree.parent? tour.frame.scope = some owner := by
  obtain ⟨bodies, listed, own⟩ := List.mem_flatMap.1 made
  exact ⟨bodies.owner, (tour_below_class config plain listed own).1⟩

theorem Moment.stands {tour : Tour} (moment : Moment program config state)
    (made : tour ∈ tours config (defined config program)) :
    Stands config tour.frame tour.sites state :=
  have swept := moment.swept plain
  (swept.hosted (fun name member => (plain name member).1) tour made).stands swept.formed

section Kept

variable (property : State → Prop)
  (each : ∀ {state tour site owner scope}, Turn config program state tour site owner scope → property state →
    property (site.run config tour.frame state).1)
include each

/-- What every step of a body keeps lasts from its beginning to its end. -/
theorem keeps_runSites {tour : Tour} (made : tour ∈ tours config (defined config program))
    {sites : List Site} (within : sites ⊆ tour.sites) (stands : Stands config tour.frame sites state)
    (kept : Moment program config state ∧ property state) :
    Moment program config (runSites config tour.frame sites state).1 ∧
      property (runSites config tour.frame sites state).1 := by
  induction stands with
  | nil => exact kept
  | cons found below others ih =>
    obtain ⟨owner, around⟩ := exists_below plain made
    have turn : Turn config program _ tour _ owner _ :=
      ⟨kept.1, made, within List.mem_cons_self, around, found, below⟩
    exact ih (fun other member => within (List.mem_cons_of_mem _ member)) ⟨turn.next, each turn kept.2⟩

theorem keeps_runTours {made : List Tour} (within : made ⊆ tours config (defined config program))
    (kept : Moment program config state ∧ property state) :
    Moment program config (runTours config made state).1 ∧ property (runTours config made state).1 :=
  runEach_keeps (fun state => Moment program config state ∧ property state)
    (fun _ member _ kept => keeps_runSites plain property each (within member) (List.Subset.refl _)
      (kept.1.stands plain (within member)) kept)
    kept

variable (propagated : ∀ {state}, Moment program config state → property state →
    property (state.withTree (propagate state.tree).1))
  (warned : ∀ {state} kind message range, property state → property (state.warn kind message range))
include propagated

theorem keeps_sweep (kept : Moment program config state ∧ property state) :
    Moment program config (sweep config state).1 ∧ property (sweep config state).1 := by
  obtain ⟨formed, _, grows⟩ := kept.1.swept plain
  obtain ⟨moment, walked⟩ := keeps_runTours plain property each (List.Subset.refl _) kept
  refine ⟨kept.1.sweep plain, ?_⟩
  rw [sweep_eq config formed, tours_grows config (formed_defined config program) grows]
  exact propagated moment walked

include warned

/-- What the steps of bodies and the propagation of types keep lasts from the entry of the members to the
end. -/
theorem keeps_discover (entered : property (defined config program)) :
    property (sweepUntilIdle config config.maxSweeps 0 (seeded config program)).1 := by
  obtain ⟨made, within, same⟩ := exists_seeding_tours config program
  have seeded : Moment program config (seeded config program) ∧ property (seeded config program) :=
    same ▸ keeps_runTours plain property each within ⟨.entered, entered⟩
  generalize config.maxSweeps = left
  generalize 0 = total
  generalize Discovery.seeded config program = state at seeded
  induction left generalizing total state with
  | zero => exact warned _ _ _ seeded.2
  | succ left ih =>
    have swept := keeps_sweep plain property each propagated seeded
    rw [sweepUntilIdle]
    dsimp only
    split
    next => exact swept.2
    next => exact ih (total + 1) _ swept

end Kept

end Whole

end LuaClasses.Discovery
