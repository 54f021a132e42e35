import LuaClasses.Proofs.Moments
import LuaClasses.Proofs.SweepGrowth

/-! Bare names in the bodies of classes. The scope of a class lies between its functions and the top
level, and lookup does not pass it over. So a bare name is resolved by lexical scoping exactly if the
body has a variable of that name, or nothing of that name while the class has no such member either. -/

namespace LuaClasses

namespace ScopeTree

/-- The scopes of a body around one of them, innermost first: its blocks, and last the function that
hangs below the class. -/
def bodyScopes (tree : ScopeTree) (owner scope : ScopeId) : List ScopeId :=
  (tree.ancestors scope).takeWhile (· ≠ owner)

def entityBelow? (tree : ScopeTree) (name : String) (level : ScopeId) : Option ScopeId :=
  (tree.child? level name).filter fun id => tree.hasEntity id

def variableBelow? (tree : ScopeTree) (name : String) (level : ScopeId) : Option ScopeId :=
  (tree.child? level name).filter fun id => (tree.variableAt? id).isSome

/-- The innermost entity that a body has under a name. -/
def local? (tree : ScopeTree) (owner scope : ScopeId) (name : String) : Option ScopeId :=
  (tree.bodyScopes owner scope).findSome? (tree.entityBelow? name)

/-- What lexical scoping resolves a bare name of a body to: the innermost variable that the body has
under the name, and otherwise what the top level has. -/
def lexical? (tree : ScopeTree) (owner scope : ScopeId) (name : String) : Option ScopeId :=
  ((tree.bodyScopes owner scope).findSome? (tree.variableBelow? name)).or (tree.entityBelow? name root)

/-- Whether a scope belongs to the body of a function of a class of the top level. -/
structure InBody (tree : ScopeTree) (owner scope : ScopeId) : Prop where
  top : tree.parent? owner = some root
  function : ∃ member, tree.parent? member = some owner ∧ member ∈ tree.ancestors scope

variable {tree : ScopeTree} {owner scope : ScopeId} {name : String}

/-- Around a body stand its class and the top level. -/
theorem InBody.ancestors (inside : tree.InBody owner scope) (formed : tree.Formed) :
    tree.ancestors scope = tree.bodyScopes owner scope ++ [owner, root] ∧
      ∀ level ∈ tree.bodyScopes owner scope, owner.index < level.index := by
  obtain ⟨top, member, below, around⟩ := inside
  have outer : tree.ancestors owner = [owner, root] := by
    rw [ancestors_of_parent? formed top, ancestors_of_top formed.parent?_root]
  have newer : owner.index < member.index := formed.older below
  unfold bodyScopes
  -- The scopes from the inner one out to the function come first, and none of them is the class.
  induction scope using ScopeTree.ancestors_induction tree with
  | below scope parent above older ih =>
    have later : owner.index < scope.index := Nat.lt_of_lt_of_le newer (index_le_of_mem_ancestors around)
    have apart : scope ≠ owner := fun same => Nat.lt_irrefl _ (same ▸ later)
    rw [ancestors_of_parent? formed above] at around ⊢
    rw [List.takeWhile_cons_of_pos (by simpa using apart)]
    rcases List.mem_cons.1 around with rfl | further
    · cases below.symm.trans above
      rw [outer, List.takeWhile_cons_of_neg (by simp)]
      refine ⟨rfl, fun level listed => ?_⟩
      rw [List.mem_singleton.1 listed]
      exact later
    · obtain ⟨split, levels⟩ := ih further
      refine ⟨congrArg (scope :: ·) split, fun level listed => ?_⟩
      rcases List.mem_cons.1 listed with rfl | rest
      · exact later
      · exact levels level rest
  | outermost scope outermost =>
    rw [outermost.ancestors, List.mem_singleton] at around
    exact absurd (formed.older (around ▸ below)) (outermost _ (around ▸ below))

private theorem lookupAt_of_dotless (tree : ScopeTree) (dotless : '.' ∉ name.toList) :
    tree.lookupAt name = tree.entityBelow? name := by
  funext level
  simp [lookupAt, entityBelow?, resolveRelative, DottedName.segments_of_dotless dotless]

/-- A bare name is looked up in the body, then in the class, then at the top level. -/
theorem InBody.lookup (inside : tree.InBody owner scope) (formed : tree.Formed)
    (dotless : '.' ∉ name.toList) :
    tree.lookup name scope =
      (tree.local? owner scope name).or ((tree.entityBelow? name owner).or
        (tree.entityBelow? name root)) := by
  rw [lookup_eq, (inside.ancestors formed).1, List.findSome?_append, lookupAt_of_dotless tree dotless, local?,
    List.findSome?_cons, List.findSome?_cons, List.findSome?_nil]
  cases (tree.bodyScopes owner scope).findSome? (tree.entityBelow? name) <;>
    cases tree.entityBelow? name owner <;>
    cases tree.entityBelow? name root <;> rfl

private theorem child?_of_entityBelow? {level id : ScopeId} (found : tree.entityBelow? name level = some id) :
    tree.child? level name = some id :=
  (Option.filter_eq_some_iff.1 found).1

private theorem hasEntity_of_variableAt? {id : ScopeId} (var : (tree.variableAt? id).isSome = true) :
    tree.hasEntity id = true := by
  obtain ⟨held, found⟩ := Option.isSome_iff_exists.1 var
  obtain ⟨references, present⟩ := variableAt?_eq_some found
  exact Option.isSome_of_eq_some present

/-- The innermost entity of a name stands for it lexically if it is a variable. -/
theorem findSome?_variableBelow? {levels : List ScopeId} {id : ScopeId}
    (found : levels.findSome? (tree.entityBelow? name) = some id)
    (var : (tree.variableAt? id).isSome = true) :
    levels.findSome? (tree.variableBelow? name) = some id := by
  induction levels with
  | nil => cases found
  | cons level outer ih =>
    rw [List.findSome?_cons] at found ⊢
    cases hangs : tree.child? level name with
    | none =>
      simp only [entityBelow?, variableBelow?, hangs, Option.filter_none] at found ⊢
      exact ih found
    | some child =>
      simp only [entityBelow?, variableBelow?, hangs, Option.filter_some] at found ⊢
      by_cases occupied : tree.hasEntity child = true
      · rw [if_pos occupied] at found
        cases found
        rw [if_pos var]
      · have other : ¬(tree.variableAt? child).isSome = true :=
          fun known => occupied (hasEntity_of_variableAt? known)
        rw [if_neg occupied] at found
        rw [if_neg other]
        exact ih found

/-- No scope of the body has what hangs below the class or at the top level. -/
theorem InBody.local?_ne (inside : tree.InBody owner scope) (formed : tree.Formed) {level id : ScopeId}
    (hangs : tree.child? level name = some id) (outer : level.index ≤ owner.index) :
    tree.local? owner scope name ≠ some id := by
  intro found
  obtain ⟨inner, listed, below⟩ := List.exists_of_findSome?_eq_some found
  obtain ⟨rfl, _⟩ := formed.child_unique (child?_of_entityBelow? below) hangs
  exact Nat.lt_irrefl _ (Nat.lt_of_lt_of_le ((inside.ancestors formed).2 _ listed) outer)

/-- A bare name is resolved by lexical scoping exactly if what the body has of it is a variable, and the
class has no such member where the body has nothing. -/
theorem InBody.lookup_eq_lexical?_iff (inside : tree.InBody owner scope) (formed : tree.Formed)
    (dotless : '.' ∉ name.toList) :
    tree.lookup name scope = tree.lexical? owner scope name ↔
      (∀ id, tree.local? owner scope name = some id → (tree.variableAt? id).isSome = true) ∧
      (tree.local? owner scope name = none → tree.entityBelow? name owner = none) := by
  rw [inside.lookup formed dotless]
  have older : root.index ≤ owner.index := Nat.zero_le _
  cases own : tree.local? owner scope name with
  | some id =>
    simp only [Option.some_or, Option.some.injEq, forall_eq', reduceCtorEq, false_implies, and_true]
    constructor
    · intro same
      rcases Option.or_eq_some_iff.1 same.symm with var | ⟨_, top⟩
      · obtain ⟨level, _, found⟩ := List.exists_of_findSome?_eq_some var
        exact (Option.filter_eq_some_iff.1 found).2
      · exact absurd own (inside.local?_ne formed (child?_of_entityBelow? top) older)
    · intro var
      rw [lexical?, findSome?_variableBelow? own var, Option.some_or]
  | none =>
    simp only [Option.none_or, reduceCtorEq, false_implies, implies_true, true_and, true_implies]
    have vacant : (tree.bodyScopes owner scope).findSome? (tree.variableBelow? name) = none := by
      refine List.findSome?_eq_none_iff.2 fun level listed => ?_
      have empty := List.findSome?_eq_none_iff.1 own level listed
      cases found : tree.variableBelow? name level with
      | none => rfl
      | some id =>
        obtain ⟨hangs, var⟩ := Option.filter_eq_some_iff.1 found
        rw [entityBelow?, hangs, Option.filter_some, if_pos (hasEntity_of_variableAt? var)] at empty
        cases empty
    rw [lexical?, vacant, Option.none_or]
    constructor
    · intro same
      cases member : tree.entityBelow? name owner with
      | none => rfl
      | some id =>
        rw [member, Option.some_or] at same
        obtain ⟨rooted, _⟩ := formed.child_unique (child?_of_entityBelow? member)
          (child?_of_entityBelow? same.symm)
        exact absurd rooted (formed.ne_root inside.top)
    · intro absent
      rw [absent, Option.none_or]

/-- A bare name leads to the member of the class of that name exactly if the body has nothing of the name. -/
theorem InBody.lookup_eq_member_iff (inside : tree.InBody owner scope) (formed : tree.Formed)
    (dotless : '.' ∉ name.toList) {member : ScopeId} (held : tree.entityBelow? name owner = some member) :
    tree.lookup name scope = some member ↔ tree.local? owner scope name = none := by
  rw [inside.lookup formed dotless, held, Option.some_or]
  cases own : tree.local? owner scope name with
  | none => simp
  | some id =>
    simp only [Option.some_or, Option.some.injEq, reduceCtorEq, iff_false]
    rintro rfl
    exact inside.local?_ne formed (child?_of_entityBelow? held) (Nat.le_refl _) own

end ScopeTree

namespace Discovery
open ScopeTree

variable {config : DiscoveryConfig} {program : Program} {state : State}

private theorem eq_of_valueOf {tree : ScopeTree} {id target : ScopeId}
    (read : valueOf tree id = .resolved target) : id = target := by
  unfold valueOf at read
  split at read
  all_goals simp only [Evidence.resolved, Evidence.ofType, Evidence.none, Evidence.mk.injEq,
    reduceCtorEq, and_false] at read
  exact Reference.resolved.inj (Option.some.inj read.2)

/-- At every moment the scopes of a body stand inside the class whose body it is. -/
theorem Moment.inBody (moment : Moment program config state) (plain : program.Plain) {bodies : ClassBodies}
    (listed : bodies ∈ (defined config program).classes) {tour : Tour}
    (made : tour ∈ toursOf config (defined config program).tree bodies) {scope : ScopeId}
    (within : tour.frame.scope ∈ state.tree.ancestors scope) :
    state.tree.Formed ∧ state.tree.InBody bodies.owner scope := by
  obtain ⟨formed, _, grows⟩ := moment.tends plain (formed_defined config program) (tidy_defined config plain)
  obtain ⟨below, top⟩ := tour_below_class config plain listed made
  have links := grows.tree.links
  have before := (formed_defined config program).tree
  exact ⟨formed.tree, links.parent?_eq before formed.tree top, _,
    links.parent?_eq before formed.tree below, within⟩

theorem entity?_applyEvidence_other {tree : ScopeTree} {id target : ScopeId} (apart : id ≠ target)
    (evidence : Evidence) :
    (applyEvidence tree target evidence).1.entity? id = tree.entity? id := by
  cases held : tree.entity? target with
  | none => rw [applyEvidence_vacant tree held]
  | some entity => rw [applyEvidence_held tree held, entity?_setEntity, if_neg apart]

/-- A bare name is read from a variable of the class exactly if the body has nothing of the name. -/
theorem classifyName_eq_member_iff {tree : ScopeTree} {owner member : ScopeId} {frame : Frame} {name : String}
    (inside : tree.InBody owner frame.scope) (formed : tree.Formed) (dotless : '.' ∉ name.toList)
    (held : tree.entityBelow? name owner = some member) (var : (tree.variableAt? member).isSome = true)
    (builtin : config.builtinType? name = none) (other : frame.isAlias name = false) :
    classifyName config tree frame name = .resolved member ↔ tree.local? owner frame.scope name = none := by
  rw [← inside.lookup_eq_member_iff formed dotless held]
  simp only [classifyName, builtin, other, Bool.false_eq_true, if_false, classifyPath]
  cases tree.lookup name frame.scope with
  | none => simp [Evidence.unresolved, Evidence.resolved]
  | some id =>
    simp only [Option.some.injEq]
    constructor
    · exact eq_of_valueOf
    · rintro rfl
      obtain ⟨known, found⟩ := Option.isSome_iff_exists.1 var
      obtain ⟨references, occupied⟩ := variableAt?_eq_some found
      simp only [valueOf, occupied, Option.map_some]

/-- A bare name is assigned to a variable of the class exactly if the body has nothing of the name. -/
theorem entity?_assignName_member {owner member : ScopeId} {frame : Frame} {name : String}
    (inside : state.tree.InBody owner frame.scope) (formed : state.tree.Formed)
    (dotless : '.' ∉ name.toList) (held : state.tree.entityBelow? name owner = some member)
    (var : (state.tree.variableAt? member).isSome = true) (evidence : Evidence) (range : Range) :
    (assignName state frame name evidence range).1.tree.entity? member =
      if state.tree.local? owner frame.scope name = none then
        (applyEvidence state.tree member evidence).1.entity? member
      else state.tree.entity? member := by
  have leads := inside.lookup_eq_member_iff formed dotless held
  rw [inside.lookup formed dotless, held, Option.some_or] at leads
  unfold assignName
  rw [inside.lookup formed dotless, held, Option.some_or]
  cases own : state.tree.local? owner frame.scope name with
  | none =>
    simp only [Option.none_or, var, if_true]
    rfl
  | some id =>
    have apart : member ≠ id := by
      rintro rfl
      rw [own] at leads
      cases leads.1 rfl
    simp only [Option.some_or, reduceCtorEq, if_false]
    split
    next => exact entity?_applyEvidence_other apart evidence
    next => rw [State.tree_warn]

/-- In the body of a class, a bare name is resolved by lexical scoping exactly if what the body has of it
is a variable, and the class has no such member where the body has nothing. Where the body has nothing, a
variable of the class is what the name is read from and assigned to, and otherwise it is neither. -/
theorem bare_name_lexical_iff (config : DiscoveryConfig) {program : Program} (plain : program.Plain)
    {state : State} (moment : Moment program config state) {bodies : ClassBodies}
    (listed : bodies ∈ (defined config program).classes) {tour : Tour}
    (made : tour ∈ toursOf config (defined config program).tree bodies) {scope : ScopeId}
    (within : tour.frame.scope ∈ state.tree.ancestors scope) {name : String}
    (dotless : '.' ∉ name.toList) :
    (state.tree.lookup name scope = state.tree.lexical? bodies.owner scope name ↔
      (∀ id, state.tree.local? bodies.owner scope name = some id →
        (state.tree.variableAt? id).isSome = true) ∧
      (state.tree.local? bodies.owner scope name = none → state.tree.entityBelow? name bodies.owner = none)) ∧
    ∀ member, state.tree.entityBelow? name bodies.owner = some member →
      (state.tree.variableAt? member).isSome = true →
      (config.builtinType? name = none → tour.frame.isAlias name = false →
        (classifyName config state.tree (tour.frame.within scope) name = .resolved member ↔
          state.tree.local? bodies.owner scope name = none)) ∧
      ∀ evidence range, (assignName state (tour.frame.within scope) name evidence range).1.tree.entity?
        member =
        if state.tree.local? bodies.owner scope name = none then
          (applyEvidence state.tree member evidence).1.entity? member
        else state.tree.entity? member := by
  obtain ⟨formed, inside⟩ := moment.inBody plain listed made within
  refine ⟨inside.lookup_eq_lexical?_iff formed dotless, fun member held var => ⟨fun builtin other => ?_, ?_⟩⟩
  · exact classifyName_eq_member_iff inside formed dotless held var builtin other
  · intro evidence range
    exact entity?_assignName_member inside formed dotless held var evidence range

/-- A function that reads a name under which its class has a value. -/
def memberRead : Program where
  body := [
    ⟨.assign [.name "Foo"] [.methodCall (.name "ISBaseObject") "derive" [.string "Foo"]], ⟨1, 0, 1, 32⟩⟩,
    ⟨.assign [.member (.name "Foo") "x"] [.number "1"], ⟨2, 0, 2, 9⟩⟩,
    ⟨.function (.ofMember "Foo" .dot "f") false ⟨[], false, [⟨.return_ [.name "x"], ⟨3, 17, 3, 25⟩⟩]⟩,
      ⟨3, 0, 3, 29⟩⟩]

/-- From the function the name leads to the value of the class, though lexical scoping has nothing for it. -/
theorem memberRead_not_lexical :
    let state := (Run.start memberRead .default).seed.sweep.1.state
    memberRead.Plain ∧ Moment memberRead .default state ∧
      (∃ bodies ∈ (defined .default memberRead).classes,
        ∃ tour ∈ toursOf .default (defined .default memberRead).tree bodies,
        bodies.owner = ⟨1⟩ ∧ tour.frame.scope = ⟨4⟩ ∧ tour.frame.scope ∈ state.tree.ancestors ⟨4⟩) ∧
      '.' ∉ "x".toList ∧ state.tree.lookup "x" ⟨4⟩ ≠ state.tree.lexical? ⟨1⟩ ⟨4⟩ "x" := by
  intro state
  have plain : memberRead.Plain := by decide
  have moment : Moment memberRead .default state := .of_reached (.swept .seeded) plain
  have owners : (defined .default memberRead).owners = [⟨1⟩] := by decide +kernel
  have scopes : (tours .default (defined .default memberRead)).map (fun tour => tour.frame.scope) =
    [⟨4⟩] := by decide +kernel
  obtain ⟨tour, toured, scope⟩ := List.mem_map.1 (scopes ▸ List.mem_singleton_self (⟨4⟩ : ScopeId))
  obtain ⟨bodies, listed, made⟩ := List.mem_flatMap.1 toured
  have owner : bodies.owner = ⟨1⟩ := List.mem_singleton.1 (owners ▸ List.mem_map_of_mem listed)
  have within : tour.frame.scope ∈ state.tree.ancestors ⟨4⟩ := by
    rw [scope]
    exact self_mem_ancestors _ _
  have dotless : '.' ∉ "x".toList := by decide
  have body : state.tree.local? ⟨1⟩ ⟨4⟩ "x" = none := by decide +kernel
  have member : state.tree.entityBelow? "x" ⟨1⟩ = some ⟨3⟩ := by decide +kernel
  refine ⟨plain, moment, ⟨bodies, listed, tour, made, owner, scope, within⟩, dotless, ?_⟩
  have resolved := (bare_name_lexical_iff .default plain moment listed made within dotless).1
  rw [owner] at resolved
  intro same
  rw [(resolved.1 same).2 body] at member
  cases member

/-- So the function returns the types of the value. -/
theorem member_read_as_variable :
    (discover memberRead .default).tree.lookup "x" ⟨4⟩ = some ⟨3⟩ ∧
      (discover memberRead .default).tree.parent? ⟨3⟩ = some ⟨1⟩ ∧
      (discover memberRead .default).tree.lexical? ⟨1⟩ ⟨4⟩ "x" = none ∧
      ((discover memberRead .default).tree.functionAt? ⟨4⟩).map Function.returns =
      some (.single .number) := by
  decide +kernel

end Discovery
end LuaClasses
