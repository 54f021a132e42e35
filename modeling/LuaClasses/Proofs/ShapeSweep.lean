import LuaClasses.Proofs.Names
import LuaClasses.Proofs.ShapeWalk

/-! A sweep over bodies with plain names keeps the shape of classes. -/

namespace LuaClasses.Discovery
open ScopeTree

theorem plain_blockName (kind : BlockKind) (index : Nat) : PlainName (blockName kind index) := by
  have chars : (blockName kind index).toList = kind.stem.toList ++ '_' :: Nat.toDigits 10 index := by
    simp [blockName, Nat.repr]
  constructor
  · rw [chars]
    simp only [List.mem_append, List.mem_cons, not_or]
    refine ⟨by cases kind <;> decide, by decide, fun digit => ?_⟩
    cases Nat.isDigit_of_mem_toDigits (by decide) (by decide) digit
  · intro same
    have mark : '_' ∈ (blockName kind index).toList := by simp [chars]
    rw [same] at mark
    revert mark
    decide

/-- The names that a step may give to scopes. -/
def Action.names : Action → List String
  | .block _ _ => []
  | .local_ name _ => [name]
  | .target expr _ => expr.names
  | .return_ _ => []

/-- Where a step of a body at a path is done, and which names it uses. -/
structure Site.Belongs (site : Site) (path : String) (known : List String) : Prop where
  scope : site.scope = path ∨ ∃ outer kind index, site.scope = DottedName.child outer (blockName kind index)
  names : site.action.names ⊆ known
  values : ∀ expr ∈ site.action.values, expr.names ⊆ known

theorem Site.Belongs.mono {site : Site} {path : String} {names more : List String}
    (belongs : site.Belongs path names) (within : names ⊆ more) : site.Belongs path more :=
  ⟨belongs.scope, fun _ member => within (belongs.names member),
    fun expr told _ member => within (belongs.values expr told member)⟩

/-- What belongs to a block belongs to the body around it. -/
theorem Site.Belongs.outer {site : Site} {outer : String} {kind : BlockKind} {index : Nat}
    {names : List String} (belongs : site.Belongs (DottedName.child outer (blockName kind index)) names)
    (path : String) :
    site.Belongs path names :=
  ⟨.inr (belongs.scope.elim (fun same => ⟨_, _, _, same⟩) id), belongs.names, belongs.values⟩

theorem fst_mem_of_opposite {α β : Type} {first : List α} {second : List β} {entry : α × Option β}
    (member : entry ∈ opposite first second) : entry.1 ∈ first := by
  induction first generalizing second with
  | nil => cases member
  | cons item rest ih =>
    rcases List.mem_cons.1 member with rfl | later
    · exact List.mem_cons_self
    · exact List.mem_cons_of_mem _ (ih later)

theorem snd_mem_of_opposite {α β : Type} {first : List α} {second : List β} {entry : α × Option β}
    (member : entry ∈ opposite first second) : ∀ value ∈ entry.2.toList, value ∈ second := by
  induction first generalizing second with
  | nil => cases member
  | cons item rest ih =>
    intro value given
    rcases List.mem_cons.1 member with rfl | later
    · exact List.mem_of_mem_head? (Option.mem_toList.1 given)
    · exact List.mem_of_mem_tail (ih later value given)

/-- A block with the steps inside it. -/
theorem belongs_block {site : Site} {path : String} {kind : BlockKind} {index : Nat} {range : Range}
    {inner : List Site} {names : List String} (member : site ∈ ⟨path, .block kind index, range⟩ :: inner)
    (within : ∀ other ∈ inner, other.Belongs (DottedName.child path (blockName kind index)) names) :
    site.Belongs path names := by
  rcases List.mem_cons.1 member with rfl | later
  · exact ⟨.inl rfl, List.nil_subset _, nofun⟩
  · exact (within site later).outer path

mutual
theorem sites_belong (stmts : List Stmt) (path : String) (earlier : List BlockKind) :
    ∀ site ∈ sites stmts path earlier, site.Belongs path (stmtsNames stmts) :=
  match stmts with
  | [] => nofun
  | stmt :: rest => by
    intro site member
    rcases List.mem_append.1 member with first | later
    · exact (stmtSites_belong stmt path earlier site first).mono (List.subset_append_left _ _)
    · exact (sites_belong rest path _ site later).mono (List.subset_append_right _ _)

theorem stmtSites_belong (stmt : Stmt) (path : String) (earlier : List BlockKind) :
    ∀ site ∈ stmtSites stmt path earlier, site.Belongs path (stmtNames stmt) :=
  match stmt with
  | ⟨kind, range⟩ => kindSites_belong kind range path earlier

theorem kindSites_belong (kind : StmtKind) (range : Range) (path : String) (earlier : List BlockKind) :
    ∀ site ∈ kindSites kind range path earlier, site.Belongs path (kindNames kind) :=
  match kind with
  | .local_ names values => by
    intro site member
    obtain ⟨entry, held, rfl⟩ := List.mem_map.1 member
    refine ⟨.inl rfl, List.cons_subset.2 ⟨?_, List.nil_subset _⟩, fun value given name inside => ?_⟩
    · exact List.mem_append_left _ (fst_mem_of_opposite held)
    · exact List.mem_append_right _ (exprNames_subset (snd_mem_of_opposite held value given) inside)
  | .assign targets values => by
    intro site member
    obtain ⟨entry, held, rfl⟩ := List.mem_map.1 member
    refine ⟨.inl rfl, fun name inside => ?_, fun value given name inside => ?_⟩
    · exact List.mem_append_left _ (exprNames_subset (fst_mem_of_opposite held) inside)
    · exact List.mem_append_right _ (exprNames_subset (snd_mem_of_opposite held value given) inside)
  | .return_ values => by
    intro site member
    rw [List.mem_singleton.1 member]
    exact ⟨.inl rfl, List.nil_subset _, fun value given =>
      exprNames_subset (List.mem_of_mem_head? (Option.mem_toList.1 given))⟩
  | .if_ clauses => fun _ member =>
    belongs_block member (clausesSites_belong clauses range _ 0)
  | .while_ _ body => fun _ member =>
    (belongs_block member (sites_belong body _ [])).mono (List.subset_append_right _ _)
  | .repeat_ body _ => fun _ member =>
    (belongs_block member (sites_belong body _ [])).mono (List.subset_append_left _ _)
  | .do_ body => fun _ member => belongs_block member (sites_belong body _ [])
  | .forNumeric var start limit step body => by
    intro site member
    refine belongs_block member fun other inner => ?_
    rcases List.mem_cons.1 inner with rfl | later
    · refine ⟨.inl rfl, List.cons_subset.2 ⟨List.mem_cons_self, List.nil_subset _⟩, fun value given => ?_⟩
      rw [List.mem_singleton.1 given]
      exact List.nil_subset _
    · exact (sites_belong body _ [] other later).mono
        (List.subset_cons_of_subset _ (List.subset_append_right _ _))
  | .forGeneric names exprs body => by
    intro site member
    refine belongs_block member fun other inner => ?_
    rcases List.mem_append.1 inner with variable_ | later
    · obtain ⟨name, held, rfl⟩ := List.mem_map.1 variable_
      refine ⟨.inl rfl, List.cons_subset.2 ⟨?_, List.nil_subset _⟩, nofun⟩
      exact List.mem_append_left _ (List.mem_append_left _ held)
    · exact (sites_belong body _ [] other later).mono (List.subset_append_right _ _)
  | .call _ | .function _ _ _ | .break_ | .goto _ | .label _ => nofun

theorem clausesSites_belong (clauses : List IfClause) (range : Range) (path : String) (index : Nat) :
    ∀ site ∈ clausesSites clauses range path index, site.Belongs path (clausesNames clauses) :=
  match clauses with
  | [] => nofun
  | clause :: rest => by
    intro site member
    rcases List.mem_append.1 member with first | later
    · exact (clauseSites_belong clause range path index site first).mono (List.subset_append_left _ _)
    · exact (clausesSites_belong rest range path (index + 1) site later).mono (List.subset_append_right _ _)

theorem clauseSites_belong (clause : IfClause) (range : Range) (path : String) (index : Nat) :
    ∀ site ∈ clauseSites clause range path index, site.Belongs path (clauseNames clause) :=
  match clause with
  | ⟨_, body⟩ => fun _ member =>
    (belongs_block member (sites_belong body _ [])).mono (List.subset_append_right _ _)
end

/-! ### States -/

def ClassBodies.all (bodies : ClassBodies) : List FunctionBody :=
  bodies.constructor.toList ++ bodies.functions.values.map Prod.snd ++ bodies.methods.values.map Prod.snd

structure ClassBodies.Tidy (tree : ScopeTree) (bodies : ClassBodies) : Prop where
  top : tree.parent? bodies.owner = some root
  ordinary : ∀ id ∈ bodies.scopes, tree.Ordinary id
  named : ∀ body ∈ bodies.all, ∀ name ∈ bodyNames body, PlainName name

theorem ClassBodies.Tidy.carry {before after : ScopeTree} {bodies : ClassBodies} (tidy : bodies.Tidy before)
    (formed : before.Formed) (last : after.Formed) (links : before.Links after)
    (inside : ∀ id ∈ bodies.scopes, id.index < before.size) : bodies.Tidy after where
  top := links.parent?_eq formed last tidy.top
  ordinary := fun id scope => (tidy.ordinary id scope).links formed last links (inside id scope)
  named := tidy.named

namespace State

structure Tidy (state : State) : Prop where
  tree : state.tree.Tidy
  bodies : ∀ bodies ∈ state.classes, bodies.Tidy state.tree

/-- A change that only adds to a state and keeps its classes in shape. -/
def Tends (before after : State) : Prop :=
  before.Formed → before.Tidy → after.Formed ∧ after.Tidy ∧ before.Grows after

theorem Tends.refl (state : State) : Tends state state := fun formed tidy => ⟨formed, tidy, .refl state⟩

theorem Tends.trans {first second third : State} (one : Tends first second) (two : Tends second third) :
    Tends first third := by
  intro formed tidy
  obtain ⟨middle, kept, grows⟩ := one formed tidy
  obtain ⟨last, still, further⟩ := two middle kept
  exact ⟨last, still, grows.trans further⟩

theorem tends_withTree (state : State) {tree : ScopeTree} (tends : state.tree.Tends tree) :
    state.Tends (state.withTree tree) := by
  intro formed tidy
  obtain ⟨last, kept, grows⟩ := tends formed.tree tidy.tree
  obtain ⟨after, further⟩ := state.advances_withTree (fun _ => ⟨last, grows⟩) formed
  refine ⟨after, ⟨kept, fun bodies member => ?_⟩, further⟩
  exact (tidy.bodies bodies member).carry formed.tree last grows.links (formed.bodies bodies member)

theorem tends_warn (state : State) (kind : DiagnosticKind) (message : String) (range : Option Range) :
    state.Tends (state.warn kind message range) := by
  intro formed tidy
  obtain ⟨last, grows⟩ := state.advances_warn kind message range formed
  refine ⟨last, ⟨?_, ?_⟩, grows⟩
  · rw [tree_warn]
    exact tidy.tree
  · rw [tree_warn, classes_warn]
    exact tidy.bodies

end State

section Sweep

variable (config : DiscoveryConfig) {state : State}

private theorem tends_assignName (formed : state.Formed) (tidy : state.Tidy) {frame : Frame}
    (inside : frame.scope.index < state.tree.size) (ordinary : state.tree.Ordinary frame.scope)
    {name : String} (plain : PlainName name) (evidence : Evidence) (range : Range) :
    state.Tends (assignName state frame name evidence range).1 := by
  unfold assignName
  split
  next =>
    exact state.tends_withTree ((tends_defineLocal formed.tree tidy.tree inside ordinary plain range).trans
      (tends_applyEvidence _ evidence))
  next id _ =>
    split
    next => exact state.tends_withTree (tends_applyEvidence id evidence)
    next => exact state.tends_warn _ _ _

private theorem tends_assign (formed : state.Formed) (tidy : state.Tidy) {frame : Frame}
    (inside : frame.scope.index < state.tree.size) (ordinary : state.tree.Ordinary frame.scope)
    {target : Expr} (plain : ∀ name ∈ target.names, PlainName name) (evidence : Evidence) (range : Range) :
    state.Tends (assign state frame target evidence range).1 := by
  rw [← Expr.names_unparen] at plain
  unfold assign
  split
  next name same =>
    rw [same] at plain
    exact tends_assignName formed tidy inside ordinary (plain name List.mem_cons_self) evidence range
  next object name same =>
    rw [same] at plain
    have named := plain name (List.mem_append_right _ (List.mem_singleton_self name))
    split
    next base owned =>
      have based := plain base (List.mem_append_left _ (Expr.name_mem_names owned))
      refine state.tends_withTree ?_
      split
      next => exact tends_assignField formed.tree tidy.tree frame named evidence range
      next => exact tends_assignMember formed.tree tidy.tree inside based named evidence range
    next => exact state.tends_warn _ _ _
  next => exact state.tends_warn _ _ _

private theorem tends_action (formed : state.Formed) (tidy : state.Tidy) {frame : Frame}
    (inside : frame.scope.index < state.tree.size) (ordinary : state.tree.Ordinary frame.scope)
    {action : Action} (plain : ∀ name ∈ action.names, PlainName name) (range : Range) :
    state.Tends (action.run config frame range state).1 := by
  cases action with
  | block kind index =>
    exact state.tends_withTree (tends_enterBlock formed.tree tidy.tree inside ordinary kind index
      (plain_blockName kind index).1)
  | local_ name value =>
    have named := plain name List.mem_cons_self
    exact state.tends_withTree ((tends_defineLocal formed.tree tidy.tree inside ordinary named range).trans
      (tends_applyEvidence _ _))
  | target expr value => exact tends_assign formed tidy inside ordinary plain _ range
  | return_ values =>
    simp only [Action.run]
    split
    next => exact .refl _
    next => exact state.tends_withTree (tends_applyEvidence _ _)

/-- The scope at a path that ends in a plain name holds no instance fields. -/
theorem ordinary_of_path {tree : ScopeTree} (formed : tree.Formed) {outer name : String}
    {id : ScopeId} (plain : PlainName name) (found : tree.find? (DottedName.child outer name) = some id) :
    tree.Ordinary id := by
  intro owner below
  have path := raw_of_find? (formed.find?_child below)
  rw [raw_of_find? found] at path
  exact plain.2 (DottedName.child_inj plain.1 (by decide) path).2

theorem tends_site {frame : Frame} {site : Site} {names : List String}
    (plain : ∀ name ∈ names, PlainName name) (inside : frame.scope.index < state.tree.size)
    (ordinary : state.tree.Ordinary frame.scope)
    (belongs : site.Belongs (state.tree.raw frame.scope) names) :
    state.Tends (site.run config frame state).1 := by
  intro formed tidy
  unfold Site.run
  split
  next scope found =>
    have outer : state.tree.Ordinary scope := by
      rcases belongs.scope with same | ⟨outer, kind, index, same⟩
      · rw [same, formed.tree.find?_raw inside] at found
        cases found
        exact ordinary
      · rw [same] at found
        exact ordinary_of_path formed.tree (plain_blockName kind index) found
    exact tends_action config formed tidy (index_lt_of_find? found) outer
      (fun name member => plain name (belongs.names member)) site.range formed tidy
  next => exact State.Tends.refl state formed tidy

private theorem tends_runSites {frame : Frame} {sites : List Site} {names : List String}
    (plain : ∀ name ∈ names, PlainName name) (inside : frame.scope.index < state.tree.size)
    (ordinary : state.tree.Ordinary frame.scope)
    (belong : ∀ site ∈ sites, site.Belongs (state.tree.raw frame.scope) names) :
    state.Tends (runSites config frame sites state).1 := by
  induction sites generalizing state with
  | nil => exact .refl state
  | cons site rest ih =>
    intro formed tidy
    have first := tends_site config plain inside ordinary (belong site List.mem_cons_self)
    obtain ⟨middle, _, grows⟩ := first formed tidy
    refine (first.trans (ih (grows.tree.index_lt inside) ?_ fun other member => ?_)) formed tidy
    · exact ordinary.links formed.tree middle.tree grows.tree.links inside
    · rw [grows.tree.raw inside]
      exact belong other (List.mem_cons_of_mem _ member)

/-- Whether a tour begins in a scope that holds no instance fields and uses plain names. -/
structure Tour.Fair (tree : ScopeTree) (tour : Tour) : Prop where
  inside : tour.frame.scope.index < tree.size
  ordinary : tree.Ordinary tour.frame.scope
  belong : ∃ names, (∀ name ∈ names, PlainName name) ∧
    ∀ site ∈ tour.sites, site.Belongs (tree.raw tour.frame.scope) names

theorem Tour.Fair.grows {before after : ScopeTree} {tour : Tour} (fair : tour.Fair before)
    (formed : before.Formed) (last : after.Formed) (grows : before.Grows after) : tour.Fair after := by
  refine ⟨grows.index_lt fair.inside, fair.ordinary.links formed last grows.links fair.inside, ?_⟩
  rw [grows.raw fair.inside]
  exact fair.belong

theorem tends_runTours {tours : List Tour} (fair : ∀ tour ∈ tours, tour.Fair state.tree) :
    state.Tends (runTours config tours state).1 := by
  induction tours generalizing state with
  | nil => exact .refl state
  | cons tour rest ih =>
    intro formed tidy
    obtain ⟨inside, ordinary, names, plain, belong⟩ := fair tour List.mem_cons_self
    have first := tends_runSites config plain inside ordinary belong
    obtain ⟨middle, _, grows⟩ := first formed tidy
    refine (first.trans (ih fun other member => ?_)) formed tidy
    exact (fair other (List.mem_cons_of_mem _ member)).grows formed.tree middle.tree grows.tree

private theorem fair_ofBody {frame : Frame} (inside : frame.scope.index < state.tree.size)
    (ordinary : state.tree.Ordinary frame.scope) {body : FunctionBody}
    (plain : ∀ name ∈ bodyNames body, PlainName name) :
    (Tour.ofBody state.tree frame body).Fair state.tree := by
  obtain ⟨params, vararg, stmts⟩ := body
  refine ⟨inside, ordinary, stmtsNames stmts, fun name member => plain name ?_, sites_belong stmts _ []⟩
  exact List.mem_append_right _ member

theorem fair_methodTours (formed : state.Formed) (tidy : state.Tidy) {bodies : ClassBodies}
    (listed : bodies ∈ state.classes) :
    ∀ tour ∈ methodTours config state.tree bodies, tour.Fair state.tree := by
  intro tour member
  obtain ⟨entry, held, rfl⟩ := List.mem_map.1 member
  have scope := mem_scopes_of_method held
  refine fair_ofBody (formed.bodies bodies listed _ scope) ((tidy.bodies bodies listed).ordinary _ scope) ?_
  exact (tidy.bodies bodies listed).named entry.2 (List.mem_append_right _ (List.mem_map_of_mem held))

theorem fair_tours (formed : state.Formed) (tidy : state.Tidy) :
    ∀ tour ∈ tours config state, tour.Fair state.tree := by
  intro tour member
  obtain ⟨bodies, listed, member⟩ := List.mem_flatMap.1 member
  rcases List.mem_append.1 member with member | method
  · rcases List.mem_append.1 member with constructor | function
    · unfold constructorTour? at constructor
      cases given : bodies.constructor with
      | none => rw [given] at constructor; cases constructor
      | some body =>
        cases held : state.tree.classAt? bodies.owner with
        | none => rw [given, held] at constructor; cases constructor
        | some owner =>
          rw [given, held] at constructor
          cases List.mem_singleton.1 constructor
          refine fair_ofBody (index_constructor formed.tree held) ?_ ?_
          · exact formed.tree.ordinary_child (formed.tree.child?_constructor tidy.tree.dotless held)
              (by decide)
          · refine (tidy.bodies bodies listed).named body (List.mem_append_left _ (List.mem_append_left _ ?_))
            rw [given]
            exact List.mem_singleton_self body
    · obtain ⟨entry, held, rfl⟩ := List.mem_map.1 function
      have scope := mem_scopes_of_function held
      refine fair_ofBody (formed.bodies bodies listed _ scope)
        ((tidy.bodies bodies listed).ordinary _ scope) ?_
      refine (tidy.bodies bodies listed).named entry.2 (List.mem_append_left _ (List.mem_append_right _ ?_))
      exact List.mem_map_of_mem held
  · exact fair_methodTours config formed tidy listed tour method

theorem tends_sweep : state.Tends (sweep config state).1 := by
  intro formed tidy
  rw [sweep_eq config formed]
  exact ((tends_runTours config (fair_tours config formed tidy)).trans
    (State.tends_withTree _ (tends_propagate _))) formed tidy

end Sweep
end LuaClasses.Discovery
