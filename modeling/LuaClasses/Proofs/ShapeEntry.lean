import LuaClasses.Proofs.EntryFormed
import LuaClasses.Proofs.ShapeAside
import LuaClasses.Proofs.ShapeSweep

/-! The entry of classes and members with plain names keeps the shape of classes. What is entered
below one class is put in place while the shape of the others stands, and its own shape follows in
the end. -/

namespace LuaClasses

namespace ScopeTree

theorem Keeps.links {before after : ScopeTree} (kept : before.Keeps after) (formed : before.Formed)
    (dotless : before.Dotless) (last : after.Formed) (still : after.Dotless) : before.Links after := by
  intro parent name id found
  obtain ⟨_, present, _, _, older, _⟩ := formed.child found
  have inside := Nat.lt_trans older (index_lt_of_node? present)
  have path := kept _ _ (formed.find?_child found)
  rw [← kept.raw formed inside, still.find?_child last (dotless.child formed found)
    (kept.index_lt formed inside)] at path
  exact path

end ScopeTree

namespace Discovery
open ScopeTree

variable {tree : ScopeTree}

/-! ### Parameters -/

/-- What is known once the parameters of a function are declared. -/
structure ParamsDeclared (before after : ScopeTree) (but owner : ScopeId) (params : List ScopeId) : Prop where
  tidy : after.TidyBut but
  links : before.Links after
  others : ∀ {other}, after.parent? other ≠ some owner → after.entity? other = before.entity? other
  locals : ∀ {other}, (before.variableAt? other).isSome = true → (after.variableAt? other).isSome = true
  shaped : after.ParamsShaped owner params

private theorem paramsDeclared {but owner : ScopeId} {names : List String}
    (plain : ∀ name ∈ names, PlainName name) (tidy : tree.TidyBut but)
    (inside : but ∈ tree.ancestors owner) (size : owner.index < tree.size) :
    ParamsDeclared tree (declareParams owner names tree).1 but owner (declareParams owner names tree).2 := by
  induction names generalizing tree with
  | nil => exact ⟨tidy, fun _ _ _ found => found, fun _ => rfl, fun held => held, nofun⟩
  | cons name rest ih =>
    have dotless := (plain name List.mem_cons_self).1
    have made := tidy.internChild size dotless .value
    have grows := tree.grows_internChild owner name .value
    have hangs := tidy.dotless.child?_internChild tidy.formed dotless size .value
    have entities := entity?_internChild .value tree owner name
    have placed := index_internChild .value tree owner name
    rw [declareParams]
    dsimp only
    generalize tree.internChild owner name .value = first at made grows hangs entities placed ⊢
    have same := sameShape_setEntity first.1 first.2 (.new (.variable (.new name none)))
    have above := made.formed.parent?_of_child hangs
    have around : but ∈ first.1.ancestors owner := by rw [grows.ancestors size]; exact inside
    have below : but ∈ first.1.ancestors first.2 := by
      rw [ancestors_of_parent? made.formed above]
      exact List.mem_cons_of_mem _ around
    have second := made.setEntity below (.new (.variable (.new name none))) (fits_variable _ _ _) fun _ => rfl
    have entities : ∀ other, other ≠ first.2 →
        (first.1.setEntity first.2 (.new (.variable (.new name none)))).entity?
        other = tree.entity? other := by
      intro other apart
      rw [entity?_setEntity, if_neg apart, entities]
    have var : ((first.1.setEntity first.2 (.new (.variable (.new name none)))).variableAt?
        first.2).isSome = true := by
      rw [variableAt?, entity?_setEntity_self placed]
      rfl
    generalize first.1.setEntity first.2 (.new (.variable (.new name none))) =
      next at same second entities var ⊢
    have others := ih (fun other member => plain other (List.mem_cons_of_mem _ member)) second
      (by rw [same.ancestors]; exact around) (by rw [same.size]; exact grows.index_lt size)
    have above := others.links.parent?_eq second.formed others.tidy.formed ((same.parent? _).trans above)
    refine ⟨others.tidy, fun _ _ _ found => others.links (same.links (grows.child? found)), ?_, ?_, ?_⟩
    · intro other apart
      rw [others.others apart, entities other]
      rintro rfl
      exact apart above
    · intro other held
      refine others.locals ?_
      by_cases new : other = first.2
      · exact new ▸ var
      · rw [variableAt?, entities other new]
        exact held
    · intro param member
      rcases List.mem_cons.1 member with rfl | later
      · exact ⟨others.locals var, above⟩
      · exact others.shaped param later

/-- What is known once an entity with parameters is placed. -/
structure Placed (before after : ScopeTree) (but id : ScopeId) (entity : Entity)
    (params : List ScopeId) : Prop where
  tidy : after.TidyBut but
  aside : ∀ owner, Aside before after owner id
  held : after.entity? id = some entity
  params : after.ParamsShaped id params

theorem placed_params {but id : ScopeId} {names : List String} (plain : ∀ name ∈ names, PlainName name)
    (tidy : tree.TidyBut but) (inside : but ∈ tree.ancestors id) (size : id.index < tree.size)
    (entity : Entity) (slots : ∀ path, entity.kind.slots path = [])
    (params : entity.kind.params = (declareParams id names tree).2) (unclassed : entity.asClass? = none) :
    Placed tree ((declareParams id names tree).1.setEntity id entity) but id entity
      (declareParams id names tree).2 := by
  have declared := paramsDeclared plain tidy inside size
  obtain ⟨_, kept, below⟩ := revises_declareParams names tidy.formed size
  generalize declareParams id names tree = made at *
  have same := sameShape_setEntity made.1 id entity
  have fits : made.1.Fits (made.1.raw id) entity.kind := by
    rw [kept.raw tidy.formed size]
    refine ⟨fun slot member => ?_, fun param member => below param (params ▸ member)⟩
    rw [slots] at member
    cases member
  have around := declared.links.mem_ancestors tidy.formed declared.tidy.formed inside
  have last := declared.tidy.setEntity around entity fits fun _ => unclassed
  have placed := kept.index_lt tidy.formed size
  refine ⟨last, fun owner => ⟨tidy.formed, last.formed,
    fun _ _ _ found => same.links (declared.links found), ?_⟩,
    entity?_setEntity_self placed entity, fun param member => ?_⟩
  · intro other _ outside
    rw [same.ancestors] at outside
    rw [entity?_setEntity, if_neg, declared.others]
    · intro above
      rw [ancestors_of_parent? declared.tidy.formed above] at outside
      exact outside (List.mem_cons_of_mem _ (self_mem_ancestors made.1 id))
    · rintro rfl
      exact outside (self_mem_ancestors made.1 other)
  · obtain ⟨var, above⟩ := declared.shaped param member
    obtain ⟨name, hangs⟩ := declared.tidy.formed.child_of_parent? above
    obtain ⟨_, _, _, _, older, _⟩ := declared.tidy.formed.child hangs
    refine ⟨?_, (same.parent? param).trans above⟩
    rw [variableAt?, entity?_setEntity, if_neg fun equal => Nat.lt_irrefl _ (equal ▸ older)]
    exact var

theorem placed_function {but id : ScopeId} {body : FunctionBody}
    (plain : ∀ name ∈ body.params, PlainName name) (tidy : tree.TidyBut but)
    (inside : but ∈ tree.ancestors id) (size : id.index < tree.size) (name : String)
    (kind : FunctionKind) :
    (placeFunction tree id name kind body).TidyBut but ∧
      (∀ owner, Aside tree (placeFunction tree id name kind body) owner id) ∧
      (placeFunction tree id name kind body).FunctionShaped kind id := by
  obtain ⟨last, aside, held, params⟩ := placed_params plain tidy inside size (.new (.function {
    name, kind, params := (declareParams id body.params tree).2, vararg := body.vararg, values := .empty
    returns := initialReturns body.body, hasReturn := hasReturn body.body })) (fun _ => rfl) rfl rfl
  exact ⟨last, aside, _, Option.bind_eq_some_iff.2 ⟨_, held, rfl⟩, rfl, params⟩

/-! ### Vacating a scope -/

theorem classes_vacate (state : State) (id : ScopeId) (message : String) (range : Range) :
    (state.vacate id message range).classes = state.classes := by
  unfold State.vacate
  split
  next => exact state.classes_warn _ _ _
  next => rfl

theorem tidyBut_vacate (state : State) {but id : ScopeId} (tidy : state.tree.TidyBut but)
    (inside : but ∈ state.tree.ancestors id) (message : String) (range : Range) :
    (state.vacate id message range).tree.TidyBut but ∧
      ∀ owner, Aside state.tree (state.vacate id message range).tree owner id := by
  unfold State.vacate
  split
  next =>
    have same := sameShape_clearDescendants state.tree id
    have last := tidy.clearDescendants inside
    refine ⟨last, fun owner => ⟨tidy.formed, last.formed, same.links, fun {other} _ outside => ?_⟩⟩
    refine (entity?_clearDescendants _ _ _).trans (if_neg fun below => outside ?_)
    exact (same.ancestors other).symm ▸ mem_ancestors_of_descendant tidy.formed below
  next => exact ⟨tidy, fun owner => ⟨tidy.formed, tidy.formed, fun _ _ _ found => found, fun _ _ => rfl⟩⟩

/-- A change keeps a state tidy if it keeps the scopes and the shape of classes, and if the bodies
that it enters are tidy. -/
theorem State.Tidy.carry {before after : State} (tidy : before.Tidy) (formed : before.Formed)
    (last : after.Formed) (kept : before.tree.Keeps after.tree) (tree : after.tree.Tidy)
    (entered : ∀ bodies ∈ after.classes, bodies ∈ before.classes ∨ bodies.Tidy after.tree) :
    after.Tidy := by
  refine ⟨tree, fun bodies member => (entered bodies member).elim (fun old => ?_) id⟩
  exact (tidy.bodies bodies old).carry formed.tree last.tree
    (kept.links formed.tree tidy.tree.dotless last.tree tree.dotless) (formed.bodies bodies old)

/-! ### The top level -/

private theorem tidy_declareGlobalFunction {state : State} (formed : state.Formed) (tidy : state.Tidy)
    {name : String} (plain : PlainName name) {body : FunctionBody}
    (params : ∀ name ∈ body.params, PlainName name) (range : Range) :
    (declareGlobalFunction name body range state).Tidy := by
  obtain ⟨last, kept⟩ := revises_declareGlobalFunction name body range state formed
  refine tidy.carry formed last kept ?_ ?_
  all_goals rw [declareGlobalFunction_eq]; dsimp only
  · have hung := hung_internChild formed.tree tidy.tree formed.tree.root_lt plain.1 .function
    have size := index_internChild .function state.tree ScopeTree.root name
    generalize state.tree.internChild ScopeTree.root name .function = made at hung size ⊢
    have first := hung.tidy.but hung.formed (hung.formed.parent?_of_child hung.hangs)
    obtain ⟨second, aside⟩ := tidyBut_vacate (state.withTree made.1) first (self_mem_ancestors _ _)
      s!"global function `{name}` redefined" range
    have same := sameShape_vacate (state.withTree made.1) made.2 s!"global function `{name}` redefined" range
    generalize (state.withTree made.1).vacate made.2 s!"global function `{name}` redefined" range = vacated
      at second aside same ⊢
    obtain ⟨third, _, function⟩ := placed_function params second (self_mem_ancestors _ _)
      (same.size ▸ size) name .global
    exact Tidy.withGlobals ⟨third.dotless, third.shaped.shaped fun held => absurd held function.unclassed⟩ _
  · rw [State.withTree, classes_vacate]
    exact fun _ => .inl

private theorem tidy_declareGlobalTable (formed : tree.Formed) (tidy : tree.Tidy) {name : String}
    (plain : PlainName name) :
    (declareGlobalTable name tree).Tidy := by
  have hung := hung_internChild formed tidy formed.root_lt plain.1 .table
  unfold declareGlobalTable
  dsimp only
  refine Tidy.withGlobals ?_ _
  split
  next => exact hung.tidy
  next =>
    have but := hung.tidy.but hung.formed (hung.formed.parent?_of_child hung.hangs)
    have last := but.setEntity (self_mem_ancestors _ _) (.new (.table ⟨name, .empty⟩))
      (fits_bare _ _ (fun _ => rfl) rfl)
      fun _ => rfl
    refine ⟨last.dotless, last.shaped.shaped fun held => ?_⟩
    obtain ⟨references, found⟩ := classAt?_eq_some held
    rw [entity?_setEntity_self (index_internChild .table tree ScopeTree.root name)] at found
    cases found

private theorem tidy_declareGlobalValue (config : DiscoveryConfig) (formed : tree.Formed)
    (tidy : tree.Tidy) {name : String} (plain : PlainName name) (value : Option Expr) (range : Range) :
    (declareGlobalValue config name value range tree).Tidy := by
  have defined := tends_defineLocal formed tidy formed.root_lt formed.ordinary_root plain range
  unfold declareGlobalValue
  dsimp only
  split
  next =>
    obtain ⟨_, last, _⟩ := (defined.trans
      (tends_applyEvidence _ (classifyValue config tree (.at_ root) value))) formed tidy
    exact last.withGlobals _
  next => exact (defined formed tidy).2.1

theorem tidy_indexStep {config : DiscoveryConfig} {program : Program} (plain : program.Plain)
    {before after : State} (step : IndexStep config program before after) (formed : before.Formed)
    (tidy : before.Tidy) : after.Tidy := by
  obtain ⟨last, kept⟩ := revises_indexStep step formed
  cases step with
  | @function name body range state named within free =>
    exact tidy_declareGlobalFunction formed tidy (plain _ named)
      (fun param member => plain param (within (params_subset body member))) range
  | table named free =>
    exact tidy.carry formed last kept (tidy_declareGlobalTable formed.tree tidy.tree (plain _ named))
      fun _ => .inl
  | value value range named free =>
    exact tidy.carry formed last kept (tidy_declareGlobalValue config formed.tree tidy.tree
      (plain _ named) value range) fun _ => .inl
  | member value range owned named table =>
    refine tidy.carry formed last kept ?_ fun _ => .inl
    have inside : (Frame.at_ root).scope.index < before.tree.size := formed.tree.root_lt
    exact (tends_assignMember formed.tree tidy.tree inside (plain _ owned) (plain _ named) _ range
      formed.tree tidy.tree).2.1

end Discovery
end LuaClasses
