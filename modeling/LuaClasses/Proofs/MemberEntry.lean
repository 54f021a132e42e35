import LuaClasses.Proofs.ClassWrites
import LuaClasses.Proofs.MemberSteps

/-! What a class holds once some of its members are entered: the bodies of the last definitions, and
fields for the literals of the last constructor only. -/

namespace LuaClasses.Discovery
open ScopeTree

/-! ### The entry of a constructor -/

/-- The literals that a constructor gives to fields of the instance in its outermost statements. -/
def FunctionBody.literals (body : FunctionBody) : List (String × LuaType × Range) :=
  match selfAlias? body.body with
  | some selfAlias => body.body.flatMap fun stmt =>
      (literalFields selfAlias stmt.kind).map fun (name, type) => (name, type, stmt.range)
  | none => []

theorem mem_opposite_of_zip {α β : Type} {first : List α} {second : List β} {left : α} {right : β}
    (member : (left, right) ∈ first.zip second) : (left, some right) ∈ opposite first second := by
  induction first generalizing second with
  | nil => cases member
  | cons head rest ih =>
    cases second with
    | nil => cases member
    | cons given others =>
      rcases List.mem_cons.1 member with same | later
      · cases same
        exact List.mem_cons_self
      · exact List.mem_cons_of_mem _ (ih later)

private theorem stmtAssignments_subset {stmts : List Stmt} {stmt : Stmt} (member : stmt ∈ stmts) :
    stmtAssignments stmt ⊆ assignments stmts := by
  induction stmts with
  | nil => cases member
  | cons first rest ih =>
    rw [assignments]
    rcases List.mem_cons.1 member with rfl | later
    · exact List.subset_append_left _ _
    · exact List.subset_append_of_subset_right _ (ih later)

/-- A literal of a constructor is the value of one of its assignments. -/
theorem assigns_of_literal {body : FunctionBody} {name : String} {type : LuaType} {range : Range}
    (member : (name, type, range) ∈ FunctionBody.literals body) :
    ∃ self value, selfAlias? body.body = some self ∧ Assigns body self name (some value) ∧
      value.literalType? = some type := by
  unfold FunctionBody.literals at member
  split at member
  next self known =>
    obtain ⟨⟨kind, range⟩, inside, listed⟩ := List.mem_flatMap.1 member
    obtain ⟨⟨name, type⟩, literal, same⟩ := List.mem_map.1 listed
    cases same
    cases kind with
    | assign targets values =>
      obtain ⟨⟨target, value⟩, opposed, given⟩ := List.mem_filterMap.1 literal
      dsimp only at given
      split at given
      next object field same =>
        obtain ⟨named, given⟩ := Option.ite_none_right_eq_some.1 given
        obtain ⟨type, typed, equal⟩ := Option.map_eq_some_iff.1 given
        cases equal
        refine ⟨self, value, known, ⟨target, ?_, Expr.fieldOf?_eq_some.2 ⟨object, same, named⟩⟩, typed⟩
        exact stmtAssignments_subset inside (mem_opposite_of_zip opposed)
      next => cases given
    | _ => cases literal
  next => cases member

theorem names_literals {body : FunctionBody} {entry : String × LuaType × Range}
    (member : entry ∈ FunctionBody.literals body) : entry.1 ∈ bodyNames body := by
  unfold FunctionBody.literals at member
  split at member
  next =>
    obtain ⟨⟨kind, range⟩, inside, listed⟩ := List.mem_flatMap.1 member
    obtain ⟨literal, given, rfl⟩ := List.mem_map.1 listed
    obtain ⟨params, vararg, stmts⟩ := body
    exact List.mem_append_right _ (stmtNames_subset inside (literalFields_subset given))
  next => cases member

/-- What the entry of a constructor does to its class. -/
structure ConstructorEntered (before after : State) (owner : ScopeId) (held : Class)
    (body : FunctionBody) : Prop where
  confined : Confined owner before.tree after.tree
  found : ∃ fields, after.tree.classAt? owner = some { held with fields } ∧
    Sown after.tree owner fields (FunctionBody.literals body)
  constructor : (after.tree.constructorAt? held.constructor).map Constructor.selfAlias =
    some (selfAlias? body.body)
  classes : after.classes =
    before.classes.map fun bodies =>
      if bodies.owner = owner then { bodies with constructor := some body } else bodies

/-- What is given to the instance is told by the constructor that stands. -/
theorem selfAliasAt?_of_stands {tree : ScopeTree} {id : ScopeId} {selfAlias : Option String}
    (stands : (tree.constructorAt? id).map Constructor.selfAlias = some selfAlias) :
    selfAliasAt? tree id = selfAlias := by
  obtain ⟨held, found, same⟩ := Option.map_eq_some_iff.1 stands
  rw [selfAliasAt?, ← constructorAt?, found, Option.bind_some, same]

private theorem vacateConstructor_bare {state : State} (formed : state.tree.Formed) {owner : ScopeId}
    {held : Class} (found : state.tree.classAt? owner = some held)
    (above : state.tree.parent? held.constructor = some owner)
    (bare : (state.bodies? owner).bind ClassBodies.constructor = none → held.fields = .empty)
    (ownerName : String) (range : Range) :
    let vacated := vacateConstructor owner held.constructor ownerName range state
    vacated.tree.Formed ∧ Confined owner state.tree vacated.tree ∧
      vacated.tree.classAt? owner = some { held with fields := .empty } ∧
        vacated.classes = state.classes := by
  unfold vacateConstructor
  dsimp only
  split
  next =>
    refine ⟨(revises_dropConstructor owner held.constructor state.tree formed).1,
      confined_dropConstructor formed above, ?_,
      state.classes_warn _ _ _⟩
    exact (classAt?_dropConstructor formed above).trans (by rw [found]; rfl)
  next first =>
    refine ⟨formed, .refl owner _, ?_, rfl⟩
    rw [found, ← bare (Option.not_isSome_iff_eq_none.1 first)]

theorem confined_placeConstructor {state : State} (formed : state.tree.Formed) (level : state.tree.Level)
    (owner : ScopeId) {constructor : ScopeId} (below : constructor.index < state.tree.size)
    {body : FunctionBody} (params : ∀ name ∈ body.params, '.' ∉ name.toList) :
    let placed := placeConstructor owner constructor body state
    placed.tree.Formed ∧ Confined constructor state.tree placed.tree ∧
      (placed.tree.constructorAt? constructor).map Constructor.selfAlias = some (selfAlias? body.body) := by
  let entity : Entity := .new (.constructor {
    params := (declareParams constructor body.params state.tree).2, vararg := body.vararg, values := .empty
    selfAlias := selfAlias? body.body })
  have last : ((declareParams constructor body.params state.tree).1.setEntity constructor entity).Formed :=
    (revises_placeParams below body.params (fun _ => rfl) rfl formed).1
  have declared := (revises_declareParams body.params formed below).2.1.index_lt formed below
  exact ⟨last, confined_placeParams params formed level below entity,
    congrArg (fun held => (held.bind Entity.asConstructor?).map Constructor.selfAlias)
      (entity?_setEntity_self declared entity)⟩

private theorem placeConstructor_bare {state : State} (formed : state.tree.Formed)
    (level : state.tree.Level) {owner : ScopeId} {held : Class}
    (found : state.tree.classAt? owner = some held)
    (above : state.tree.parent? held.constructor = some owner) {body : FunctionBody}
    (params : ∀ name ∈ body.params, '.' ∉ name.toList) :
    let placed := placeConstructor owner held.constructor body state
    placed.tree.Formed ∧ Confined owner state.tree placed.tree ∧ placed.tree.classAt? owner = some held ∧
      (placed.tree.constructorAt? held.constructor).map Constructor.selfAlias =
      some (selfAlias? body.body) := by
  obtain ⟨node, present, _⟩ := Option.bind_eq_some_iff.1 above
  obtain ⟨last, confined, given⟩ := confined_placeConstructor formed level owner
    (index_lt_of_node? present) params
  dsimp only at last confined given ⊢
  generalize placeConstructor owner held.constructor body state = placed at last confined given ⊢
  have above := confined.stays.parent? above
  refine ⟨last, confined.widen last ?_, ?_, given⟩
  · rw [ancestors_of_parent? last above]
    exact List.mem_cons_of_mem _ (self_mem_ancestors _ owner)
  · exact (congrArg (Option.bind · Entity.asClass?) (confined.others (last.not_around above))).trans found

theorem defineConstructor_entered {state : State} (formed : state.tree.Formed) (level : state.tree.Level)
    {owner : ScopeId} {held : Class} (found : state.tree.classAt? owner = some held)
    (bare : (state.bodies? owner).bind ClassBodies.constructor = none → held.fields = .empty)
    (ownerName : String) {body : FunctionBody} (plain : ∀ name ∈ bodyNames body, '.' ∉ name.toList)
    (range : Range) :
    ConstructorEntered state (defineConstructor owner ownerName body range state) owner held body := by
  have above := formed.parent?_of_child (formed.child?_constructor level.dotless found)
  obtain ⟨cleared, vacated, known, classes⟩ := vacateConstructor_bare formed found above bare ownerName range
  rw [defineConstructor_eq found]
  dsimp only
  generalize vacateConstructor owner held.constructor ownerName range state =
    middle at cleared vacated known classes ⊢
  have listed : (placeConstructor owner held.constructor body middle).classes =
      state.classes.map fun bodies =>
      if bodies.owner = owner then { bodies with constructor := some body } else bodies := by
    rw [← classes]
    rfl
  have level := vacated.level level
  have above := vacated.stays.parent? above
  obtain ⟨last, placed, known, given⟩ := placeConstructor_bare cleared level known above
    fun name member => plain name (params_subset body member)
  dsimp only at last placed known given
  generalize placeConstructor owner held.constructor body middle = made at last placed known given listed ⊢
  have sown : ∀ literals, Sown made.tree owner .empty literals := fun _ _ _ => nofun
  cases named : selfAlias? body.body with
  | none =>
    have kept := made.tree_warn .missingSelfAlias
      s!"constructor of `{ownerName}` has no trailing `return <identifier>`" (some range)
    have classes := made.classes_warn .missingSelfAlias
      s!"constructor of `{ownerName}` has no trailing `return <identifier>`" (some range)
    dsimp only
    generalize made.warn _ _ _ = warned at kept classes ⊢
    rw [← kept] at placed known given sown
    exact ⟨vacated.trans placed, ⟨.empty, known, sown _⟩, given, classes.trans listed⟩
  | some self =>
    have inside : owner.index < made.tree.size := by
      obtain ⟨references, entity⟩ := classAt?_eq_some known
      exact index_lt_of_entity? entity
    have same : FunctionBody.literals body = body.body.flatMap fun stmt =>
        (literalFields self stmt.kind).map fun (name, type) => (name, type, stmt.range) := by
      rw [FunctionBody.literals, named]
    have sows := sows_placeFields (fun entry member => plain _ (names_literals member)) [] last
      (placed.level level) inside
      known (sown [])
    rw [List.nil_append] at sows
    dsimp only
    rw [placeLiteralFields, ← same]
    refine ⟨(vacated.trans placed).trans sows.confined, sows.found, ?_, ?_⟩
    · rw [constructorAt?, sows.members (placed.stays.parent? above)]
      exact given
    · rw [classes_placeFields, listed]

end LuaClasses.Discovery
