import LuaClasses.Proofs.BlockPaths
import LuaClasses.Proofs.ClassLosses
import LuaClasses.Proofs.FieldSweeps
import LuaClasses.Proofs.Lineage
import LuaClasses.Proofs.Moments
import Mathlib.Data.List.Nodup

/-! The blocks of all bodies. Each body of a class is walked in a scope of its own, unless something is
in the place of the constructor beside it. So no two blocks have the same path, whichever bodies they
stand in. -/

namespace LuaClasses
namespace ScopeTree

variable {tree : ScopeTree}

private theorem Formed.raw_of_child? (formed : tree.Formed) {parent id : ScopeId} {name : String}
    (hangs : tree.child? parent name = some id) :
    tree.raw id = DottedName.child (tree.raw parent) name :=
  raw_of_find? (formed.find?_child hangs)

/-- Two children of a scope have nothing in common below them. -/
theorem Formed.sibling_unique (formed : tree.Formed) (dotless : tree.Dotless)
    {parent first second : ScopeId} {path : String} (one : tree.parent? first = some parent)
    (two : tree.parent? second = some parent) (left : DottedName.Within (tree.raw first) path)
    (right : DottedName.Within (tree.raw second) path) : first = second := by
  obtain ⟨name, hangs⟩ := formed.child_of_parent? one
  obtain ⟨other, beside⟩ := formed.child_of_parent? two
  rw [formed.raw_of_child? hangs] at left
  rw [formed.raw_of_child? beside] at right
  obtain rfl := DottedName.Within.name_unique (dotless.child formed hangs)
    (dotless.child formed beside) left right
  exact Option.some.inj (hangs.symm.trans beside)

end ScopeTree

namespace Discovery
open ScopeTree DottedName

variable {config : DiscoveryConfig} {program : Program}

/-! ### The bodies that are walked -/

private theorem names_definition {ownerName member : String} {indexer : Indexer} {body : FunctionBody}
    (defined : program.definition? ownerName member = some (indexer, body)) :
    stmtsNames body.body ⊆ program.names := by
  obtain ⟨range, step⟩ := exists_step_of_lastDefinition? defined
  obtain ⟨params, vararg, stmts⟩ := body
  exact fun name within => names_memberSteps step (List.mem_cons_of_mem _ (List.mem_append_right _ within))

/-- The names under which the scopes of the bodies of a class hang below it. -/
def ClassBodies.memberNames (bodies : ClassBodies) : List String :=
  (bodies.constructor.map fun _ => "constructor").toList ++ bodies.functions.keys ++ bodies.methods.keys

/-- What a class defines under the name under which its constructor hangs is the constructor, if it has
one. -/
def KeepsConstructors (config : DiscoveryConfig) (program : Program) : Prop :=
  ∀ name, program.DeclaresClass config name → (program.definition? name config.constructorName).isSome =
    true →
    (program.definition? name "constructor").isSome = true → config.constructorName = "constructor"

section Tours

variable (plain : program.Plain) {bodies : ClassBodies} (listed : bodies ∈ (defined config program).classes)
include plain listed

/-- What a class is called is the name of a declaration of a class. -/
theorem declaresClass_of_classAt? {held : Class}
    (found : (defined config program).tree.classAt? bodies.owner = some held) :
    program.DeclaresClass config held.name := by
  obtain ⟨former, earlier, same⟩ := ((lineal_indexed config program).trans
    (lineal_defined config program)).classAt? found
  have owner : bodies.owner ∈ (declared config program).owners := by
    rw [← owners_indexed config plain, ← owners_defined config plain]
    exact List.mem_map_of_mem listed
  obtain ⟨name, declares, enlisted, _⟩ := registers_declared config plain _ owner
  obtain ⟨other, there, called, _⟩ := enlisted.held
  cases earlier.symm.trans there
  rw [← (Prod.mk.inj same).1, called]
  exact declares

/-- Only a class has a constructor. -/
theorem isClass_of_constructor {body : FunctionBody} (given : bodies.constructor = some body) :
    ∃ held, (defined config program).tree.classAt? bodies.owner = some held := by
  cases found : (defined config program).tree.classAt? bodies.owner with
  | some held => exact ⟨held, rfl⟩
  | none =>
    have entered := ((roster_defined config fun name member => (plain name member).1).entered
      bodies listed).constructor
    rw [given, stepsOf, found] at entered
    cases entered

/-- The tours through the bodies of a class enter the blocks that stand in these. -/
theorem kinds_toursOf :
    (toursOf config (defined config program).tree bodies).map
    (fun tour => (blocksOf tour.sites).map BlockPlace.kind) =
      bodies.all.map fun body => blockKinds body.body := by
  have each : ∀ frame body, (blocksOf (Tour.ofBody (defined config program).tree frame body).sites).map
    BlockPlace.kind =
      blockKinds body.body := fun frame body => kinds_sites body.body _ []
  rw [toursOf, ClassBodies.all, List.map_append, List.map_append, List.map_append, List.map_append]
  congr 1
  · congr 1
    · unfold constructorTour?
      cases given : bodies.constructor with
      | none => rfl
      | some body =>
        obtain ⟨held, found⟩ := isClass_of_constructor plain listed given
        rw [found]
        exact congrArg (fun kinds => [kinds]) (each _ body)
    · rw [functionTours, List.map_map, List.map_map]
      exact List.map_congr_left fun entry _ => each _ entry.2
  · rw [methodTours, List.map_map, List.map_map]
    exact List.map_congr_left fun entry _ => each _ entry.2

/-- Each tour begins in the scope that hangs below the class under the name of its body. -/
theorem scopes_toursOf :
    (toursOf config (defined config program).tree bodies).map (fun tour => some tour.frame.scope) =
      bodies.memberNames.map ((defined config program).tree.child? bodies.owner) := by
  have formed := (formed_defined config program).tree
  have housed := housed_defined config plain bodies listed
  rw [toursOf, ClassBodies.memberNames, List.map_append, List.map_append, List.map_append, List.map_append]
  congr 1
  · congr 1
    · unfold constructorTour?
      cases given : bodies.constructor with
      | none => rfl
      | some body =>
        obtain ⟨held, found⟩ := isClass_of_constructor plain listed given
        rw [found]
        exact congrArg (fun scope => [scope])
          (formed.child?_constructor (tidy_defined config plain).tree.dotless found).symm
    · rw [functionTours, OrderedMap.values, OrderedMap.keys, List.map_map, List.map_map, List.map_map]
      exact List.map_congr_left fun entry member => (housed entry (List.mem_append_left _ member)).symm
  · rw [methodTours, OrderedMap.values, OrderedMap.keys, List.map_map, List.map_map, List.map_map]
    exact List.map_congr_left fun entry member => (housed entry (List.mem_append_right _ member)).symm

private theorem nodup_memberNames (keeps : KeepsConstructors config program) : bodies.memberNames.Nodup := by
  have entered := (roster_defined config fun name member => (plain name member).1).entered bodies listed
  have definition : ∀ (indexer) {name}, name ∈ (bodies.listed indexer).keys → ∃ held body,
      (defined config program).tree.classAt? bodies.owner = some held ∧ name ≠ config.constructorName ∧
        program.definition? held.name name = some (indexer, body) := by
    intro indexer name member
    obtain ⟨⟨_, id, body⟩, inside, rfl⟩ := List.mem_map.1 member
    obtain ⟨held, found⟩ := entered.isClass indexer inside
    exact ⟨held, body, found, (entered.member_iff found indexer).1 ⟨id, inside⟩⟩
  -- What hangs under the name of the constructor is the constructor itself.
  have constructor : ∀ (indexer) {name}, name ∈ (bodies.constructor.map fun _ => "constructor").toList →
      name ∉ (bodies.listed indexer).keys := by
    intro indexer name first member
    obtain ⟨body, given, rfl⟩ := Option.map_eq_some_iff.1 (Option.mem_toList.1 first)
    obtain ⟨held, other, found, apart, known⟩ := definition indexer member
    obtain ⟨_, built⟩ := (entered.constructor_iff found).1 given
    exact apart (keeps held.name (declaresClass_of_classAt? plain listed found)
      (Option.isSome_of_eq_some built)
      (Option.isSome_of_eq_some known)).symm
  rw [ClassBodies.memberNames, List.append_assoc, List.nodup_append]
  refine ⟨?_, List.nodup_append.2 ⟨bodies.functions.distinct, bodies.methods.distinct, ?_⟩, ?_⟩
  · cases bodies.constructor with
    | none => exact List.nodup_nil
    | some body => exact List.nodup_singleton _
  · rintro name function _ method rfl
    obtain ⟨held, body, found, _, known⟩ := definition .dot function
    obtain ⟨_, _, again, _, other⟩ := definition .colon method
    cases found.symm.trans again
    cases known.symm.trans other
  · rintro name first _ member rfl
    rcases List.mem_append.1 member with function | method
    · exact constructor .dot first function
    · exact constructor .colon first method

end Tours

/-- The bodies that are walked use names of the program only. -/
theorem belong_tours (plain : program.Plain) {tour : Tour}
    (made : tour ∈ tours config (defined config program)) :
    ∃ path, ∀ site ∈ tour.sites, site.Belongs path program.names := by
  have dotless := fun name member => (plain name member).1
  obtain ⟨bodies, listed, own⟩ := List.mem_flatMap.1 made
  have entered := (roster_defined config dotless).entered bodies listed
  have body : ∀ {frame : Frame} {body : FunctionBody}, stmtsNames body.body ⊆ program.names →
      ∃ path, ∀ site ∈ (Tour.ofBody (defined config program).tree frame body).sites,
        site.Belongs path program.names :=
    fun within => ⟨_, fun site member => (sites_belong _ _ [] site member).mono within⟩
  rcases mem_toursOf.1 own with ⟨_, held, given, found, rfl⟩ | ⟨name, id, _, member,
    rfl⟩ | ⟨name, id, _, member, rfl⟩
  · obtain ⟨_, known⟩ := (entered.constructor_iff found).1 given
    exact body (names_definition known)
  · obtain ⟨held, found⟩ := entered.isClass .dot member
    exact body (names_definition ((entered.member_iff found .dot).1 ⟨id, member⟩).2)
  · obtain ⟨held, found⟩ := entered.isClass .colon member
    exact body (names_definition ((entered.member_iff found .colon).1 ⟨id, member⟩).2)

/-- No two bodies are walked in the same scope. -/
theorem nodup_scopes (plain : program.Plain) (keeps : KeepsConstructors config program) :
    ((tours config (defined config program)).map fun tour => tour.frame.scope).Nodup := by
  have formed := (formed_defined config program).tree
  have own : ∀ bodies ∈ (defined config program).classes,
      ((toursOf config (defined config program).tree bodies).map fun tour => tour.frame.scope).Nodup := by
    intro bodies listed
    refine List.Nodup.of_map some ?_
    rw [List.map_map]
    refine (scopes_toursOf plain listed).symm ▸ (nodup_memberNames plain listed keeps).map_on
      fun one first two _ same => ?_
    obtain ⟨tour, _, hangs⟩ := List.mem_map.1
      ((scopes_toursOf plain listed).symm ▸ List.mem_map_of_mem
        (f := (defined config program).tree.child? bodies.owner) first)
    exact (formed.child_unique hangs.symm (same.symm.trans hangs.symm)).2
  rw [tours, List.map_flatMap, List.nodup_flatMap]
  refine ⟨own, (List.pairwise_map.1 (roster_defined config fun name member =>
    (plain name member).1).distinct).imp_of_mem ?_⟩
  intro first second one two apart scope left right
  obtain ⟨tour, made, rfl⟩ := List.mem_map.1 left
  obtain ⟨other, again, same⟩ := List.mem_map.1 right
  have below := (tour_below_class config plain one made).1
  rw [← same, (tour_below_class config plain two again).1] at below
  exact apart (Option.some.inj below).symm

/-- No two blocks of the bodies that are walked have the same path. -/
theorem nodup_paths (plain : program.Plain) (keeps : KeepsConstructors config program) :
    (((tours config (defined config program)).flatMap fun tour => blocksOf tour.sites).map
      BlockPlace.path).Nodup := by
  have formed := (formed_defined config program).tree
  have dotless := (tidy_defined config plain).tree.dotless
  have within : ∀ tour ∈ tours config (defined config program), (blockPaths tour.sites).Nodup ∧
      ∀ path ∈ blockPaths tour.sites, Within ((defined config program).tree.raw tour.frame.scope) path := by
    intro tour made
    obtain ⟨stmts, _, same⟩ := (hosted_defined (fun name member => (plain name member).1) tour made).sites
    have nests := nests_sites stmts ((defined config program).tree.raw tour.frame.scope) []
    rw [same]
    refine ⟨nests.distinct, fun path member => ?_⟩
    obtain ⟨name, _, _, inside⟩ := nests.below path member
    exact (within_child _ name).trans inside
  rw [List.map_flatMap, List.nodup_flatMap]
  refine ⟨fun tour made => (within tour made).1,
    (List.pairwise_map.1 (nodup_scopes plain keeps)).imp_of_mem ?_⟩
  intro tour other one two apart path left right
  obtain ⟨bodies, listed, made⟩ := List.mem_flatMap.1 one
  obtain ⟨others, member, again⟩ := List.mem_flatMap.1 two
  obtain ⟨below, top⟩ := tour_below_class config plain listed made
  obtain ⟨beside, high⟩ := tour_below_class config plain member again
  have first := (within tour one).2 path left
  have second := (within other two).2 path right
  -- The path tells the class first and the body of the class then.
  have outward : ∀ {id owner}, (defined config program).tree.parent? id = some owner →
      Within ((defined config program).tree.raw id) path →
        Within ((defined config program).tree.raw owner) path := by
    intro id owner above inside
    obtain ⟨name, hangs⟩ := formed.child_of_parent? above
    rw [formed.raw_of_child? hangs] at inside
    exact (within_child _ name).trans inside
  have owner := formed.sibling_unique dotless top high (outward below first) (outward beside second)
  exact apart (formed.sibling_unique dotless below (owner ▸ beside) first second)

end Discovery
end LuaClasses
