import LuaClasses.Proofs.AlikeEntry
import LuaClasses.Proofs.AlikeSweeps
import LuaClasses.Proofs.ChartReports
import LuaClasses.Proofs.SoundStates

/-! Two discoveries that begin alike, make the same walks and come to rest. Where one program has lost no
definition but constructors that others replace, both walk the same bodies at the same paths. They end
with the same chart, and so with the same reports, unless a program has the name with which the paths of
scopes begin. -/

namespace LuaClasses
open DottedName ScopeTree

private theorem List.forall₂_of_map_eq {α β γ : Type} {f : α → γ} {g : β → γ} {relation : α → β → Prop}
    {one : List α} {two : List β} (same : one.map f = two.map g)
    (each : ∀ a ∈ one, ∀ b ∈ two, f a = g b → relation a b) : List.Forall₂ relation one two := by
  induction one generalizing two with
  | nil =>
    cases two with
    | nil => exact .nil
    | cons => cases same
  | cons a rest ih =>
    cases two with
    | nil => cases same
    | cons b more =>
      obtain ⟨head, tail⟩ := List.cons_eq_cons.1 same
      exact .cons (each a List.mem_cons_self b List.mem_cons_self head) (ih tail fun one left two right =>
        each one (List.mem_cons_of_mem _ left) two (List.mem_cons_of_mem _ right))

/-- The name that a constructor gives to the instance. -/
def Shape.selfAlias? : Shape → Option String
  | .constructor _ _ selfAlias => selfAlias
  | _ => none

private theorem Entity.selfAlias?_look (raw : ScopeId → String) (entity : Entity) :
    (entity.look raw).shape.selfAlias? = entity.asConstructor?.bind Constructor.selfAlias := by
  obtain ⟨_, kind⟩ := entity
  cases kind <;> rfl

theorem Alike.selfAliasAt? {top : String} {first second : ScopeTree} {one two : ScopeId}
    (alike : Alike (.same top) first second) (twins : Twins first second one two) :
    Discovery.selfAliasAt? first one = Discovery.selfAliasAt? second two := by
  have looks := alike.looks_at twins trivial
  rw [Discovery.selfAliasAt?, Discovery.selfAliasAt?, Option.bind_assoc, Option.bind_assoc]
  generalize first.entity? one = held, second.entity? two = like at looks ⊢
  cases held <;> cases like <;> cases looks
  case some.some entity counterpart close =>
    have shape := congrArg (fun look => look.shape.selfAlias?) (close.same.resolve_right id)
    rwa [entity.selfAlias?_look, counterpart.selfAlias?_look] at shape
  rfl

namespace Discovery

private theorem Tour.matches_ofBody {first second : ScopeTree} {one two : Frame}
    (scope : Twins first second one.scope two.scope)
    (returns : one.function.isSome = two.function.isSome) (selfAlias : one.selfAlias = two.selfAlias)
    (body : FunctionBody) :
    Tour.Matches first second (.ofBody first one body) (.ofBody second two body) :=
  ⟨scope, returns, selfAlias, by simp only [Tour.ofBody, scope.path]⟩

private theorem ClassBodies.parts_of_roll {one two : ClassBodies} (same : one.roll = two.roll) :
    one.owner = two.owner ∧
    one.functions.mapValues Prod.snd = two.functions.mapValues Prod.snd ∧
      one.methods.mapValues Prod.snd = two.methods.mapValues Prod.snd := by
  simpa only [ClassBodies.roll, Prod.mk.injEq] using same

section Tours

variable {gone : List Diagnostic} {config : DiscoveryConfig} {program other : Program} {last : ScopeId}
  {done all : ScopeId → List MemberStep}
  (abreast : Abreast gone config false last done all (defined config program) (defined config other))
include abreast

/-- Functions of the same class under the same name stand at the same path. -/
theorem Abreast.members_twins {one two : ClassBodies} (left : one ∈ (defined config program).classes)
    (right : two ∈ (defined config other).classes) (same : one.owner = two.owner) {name : String}
    {id like : ScopeId} {body counterpart : FunctionBody} (member : (name, id, body) ∈ one.members)
    (beside : (name, like, counterpart) ∈ two.members) :
    Twins (defined config program).tree (defined config other).tree id like := by
  have hangs := (abreast.left.roster.entered one left).housed _ member
  have below := (abreast.right.roster.entered two right).housed _ beside
  have there := abreast.left.roster.formed.tree.find?_child hangs
  have here := abreast.right.roster.formed.tree.find?_child below
  refine ⟨index_lt_of_find? there, index_lt_of_find? here, ?_⟩
  rw [raw_of_find? there, raw_of_find? here, abreast.paths one.owner (List.mem_map_of_mem left), same]

/-- The functions of a class are walked at the same paths. -/
theorem Abreast.matches_members {one two : ClassBodies} (left : one ∈ (defined config program).classes)
    (right : two ∈ (defined config other).classes) (same : one.owner = two.owner)
    {members others : OrderedMap (ScopeId × FunctionBody)} (inside : members.entries ⊆ one.members)
    (within : others.entries ⊆ two.members)
    (bodies : members.mapValues Prod.snd = others.mapValues Prod.snd) (frame : ScopeId → Frame)
    (scope : ∀ id, (frame id).scope = id) (returns : ∀ id, (frame id).function.isSome = true)
    (selfAlias : ∀ id other, (frame id).selfAlias = (frame other).selfAlias) :
    List.Forall₂ (Tour.Matches (defined config program).tree (defined config other).tree)
      (members.values.map fun entry => .ofBody (defined config program).tree (frame entry.1) entry.2)
      (others.values.map fun entry => .ofBody (defined config other).tree (frame entry.1) entry.2) := by
  rw [OrderedMap.values, OrderedMap.values, List.map_map, List.map_map, List.forall₂_map_left_iff,
    List.forall₂_map_right_iff]
  refine List.forall₂_of_map_eq (congrArg OrderedMap.entries bodies) ?_
  rintro ⟨name, id, body⟩ listed ⟨called, like, counterpart⟩ beside equal
  obtain ⟨rfl, rfl⟩ := Prod.mk.inj equal
  refine Tour.matches_ofBody ?_ ((returns id).trans (returns like).symm) (selfAlias id like) body
  rw [scope, scope]
  exact abreast.members_twins left right same (inside listed) (within beside)

private theorem Abreast.matches_methods {one two : ClassBodies}
    (left : one ∈ (defined config program).classes) (right : two ∈ (defined config other).classes)
    (same : one.roll = two.roll) :
    List.Forall₂ (Tour.Matches (defined config program).tree (defined config other).tree)
      (methodTours config (defined config program).tree one)
      (methodTours config (defined config other).tree two) := by
  obtain ⟨owner, _, methods⟩ := ClassBodies.parts_of_roll same
  exact abreast.matches_members left right owner (List.subset_append_right _ _)
    (List.subset_append_right _ _) methods
    (fun id => .ofMethod id config.instanceAlias) (fun _ => rfl) (fun _ => rfl) fun _ _ => rfl

private theorem Abreast.matches_functions {one two : ClassBodies}
    (left : one ∈ (defined config program).classes) (right : two ∈ (defined config other).classes)
    (same : one.roll = two.roll) :
    List.Forall₂ (Tour.Matches (defined config program).tree (defined config other).tree)
      (functionTours (defined config program).tree one)
      (functionTours (defined config other).tree two) := by
  obtain ⟨owner, functions, _⟩ := ClassBodies.parts_of_roll same
  exact abreast.matches_members left right owner (List.subset_append_left _ _)
    (List.subset_append_left _ _) functions
    Frame.ofFunction (fun _ => rfl) (fun _ => rfl) fun _ _ => rfl

section Constructors

variable {leaves : String → MemberStep → Prop} (dotless : ∀ name ∈ program.names, '.' ∉ name.toList)
  (plain : ∀ name ∈ other.names, '.' ∉ name.toList)
  (each : ∀ name, Thinned config (leaves name) false (program.memberSteps name) (other.memberSteps name))
  {one two : ClassBodies}
  (left : one ∈ (defined config program).classes) (right : two ∈ (defined config other).classes)
  (same : one.owner = two.owner)
include dotless plain each left right same

private theorem Abreast.same_constructor : one.constructor = two.constructor := by
  have names := abreast.names one.owner (List.mem_map_of_mem left)
  have steps : ∀ (program : Program) (tree : ScopeTree) (id : ScopeId),
      stepsOf program tree id = (((tree.classAt? id).map Class.name).map program.memberSteps).getD [] :=
        fun program tree id => by
    rw [stepsOf, Option.map_map]
    rfl
  rw [((roster_defined config dotless).entered one left).constructor,
    ((roster_defined config plain).entered two right).constructor,
    steps, steps, ← same, ← names]
  cases (defined config program).tree.classAt? one.owner with
  | none => rfl
  | some held => exact congrArg (Option.map Prod.snd) (each held.name).lastDefinition?_eq.1

private theorem Abreast.matches_constructor :
    List.Forall₂ (Tour.Matches (defined config program).tree (defined config other).tree)
      (constructorTour? (defined config program).tree one).toList
      (constructorTour? (defined config other).tree two).toList := by
  have names := abreast.names one.owner (List.mem_map_of_mem left)
  rw [constructorTour?, constructorTour?, abreast.same_constructor dotless plain each left right same]
  cases two.constructor with
  | none => exact .nil
  | some body =>
    cases found : (defined config program).tree.classAt? one.owner with
    | none =>
      rw [found, Option.map_none, eq_comm, Option.map_eq_none_iff, same] at names
      rw [names]
      exact .nil
    | some held =>
      rw [found, Option.map_some, eq_comm, Option.map_eq_some_iff] at names
      obtain ⟨like, reached, _⟩ := names
      have path : (defined config program).tree.raw held.constructor =
          (defined config other).tree.raw like.constructor := by
        rw [abreast.left.raw_constructor found, abreast.right.raw_constructor reached,
          abreast.paths one.owner (List.mem_map_of_mem left)]
      have twins : Twins (defined config program).tree (defined config other).tree
          held.constructor like.constructor :=
        ⟨abreast.sound.1.index_constructor found, abreast.sound.2.index_constructor reached, path⟩
      rw [← same, reached]
      have selfAlias := abreast.states.trees.selfAliasAt? twins
      let frame : Frame := .ofConstructor held.constructor
        (selfAliasAt? (defined config program).tree held.constructor)
      let counterpart : Frame := .ofConstructor like.constructor
        (selfAliasAt? (defined config other).tree like.constructor)
      have scopes : Twins (defined config program).tree (defined config other).tree frame.scope
        counterpart.scope := twins
      exact .cons (Tour.matches_ofBody scopes rfl selfAlias body) .nil

end Constructors

/-- What is walked for classes with the same bodies is the same if it is so for each of them. -/
theorem Abreast.matches_flatMap {made again : ClassBodies → List Tour}
    (each : ∀ one ∈ (defined config program).classes,
      ∀ two ∈ (defined config other).classes, one.roll = two.roll →
      List.Forall₂ (Tour.Matches (defined config program).tree (defined config other).tree)
        (made one) (again two)) :
    List.Forall₂ (Tour.Matches (defined config program).tree (defined config other).tree)
      ((defined config program).classes.flatMap made)
      ((defined config other).classes.flatMap again) :=
  List.rel_flatten (List.forall₂_map_left_iff.2
    (List.forall₂_map_right_iff.2 (List.forall₂_of_map_eq abreast.rolls each)))

/-- Both programs lead to the same walks at the same paths. -/
theorem Abreast.matches_tours {leaves : String → MemberStep → Prop}
    (dotless : ∀ name ∈ program.names, '.' ∉ name.toList)
    (plain : ∀ name ∈ other.names, '.' ∉ name.toList)
    (each : ∀ name, Thinned config (leaves name) false (program.memberSteps name) (other.memberSteps name))
    :
    List.Forall₂ (Tour.Matches (defined config program).tree (defined config other).tree)
      (tours config (defined config program))
      (tours config (defined config other)) := by
  refine abreast.matches_flatMap fun one left two right same => ?_
  exact List.rel_append (List.rel_append
    (abreast.matches_constructor dotless plain each left right (congrArg Prod.fst same))
    (abreast.matches_functions left right same)) (abreast.matches_methods left right same)

/-- The walks before the first sweep are the same, too. -/
theorem Abreast.matches_seeding :
    List.Forall₂ (Tour.Matches (defined config program).tree (defined config other).tree)
      ((defined config program).classes.flatMap (methodTours config (defined config program).tree))
      ((defined config other).classes.flatMap (methodTours config (defined config other).tree)) :=
  abreast.matches_flatMap fun _ left _ right same => abreast.matches_methods left right same

end Tours

end Discovery

/-! ### Discoveries that come to rest -/

/-- Trees that are the same come to be alike toward whatever they grow into. -/
theorem Alike.toward {top : String} {first second one two : ScopeTree}
    (alike : Alike (.same top) first second) (onward : first.Grows one) (further : second.Grows two)
    (left : one.Sound) (right : two.Sound) : Alike (.toward top one two) first second := by
  have bound : ∀ {tree last : ScopeTree}, tree.Sound → tree.Grows last → last.Sound → ∀ path look,
      tree.chart path = some look → ∀ type ∈ look.types, type ∈ last.typesAt path := by
    intro tree last sound grows ends path look shown type member
    obtain ⟨id, entity, found, held, rfl⟩ := chart_eq_some shown
    obtain ⟨later, reached, grown⟩ := grows.entity? held
    rw [← raw_of_find? found]
    exact (mem_typesAt grows ends (index_lt_of_find? found)).2 ⟨later, reached, grown.gathered type member⟩
  refine ⟨alike.left, alike.right, alike.top, fun path _ => ?_⟩
  have looks := alike.looks path trivial
  have ahead := bound alike.left onward left path
  have beside := bound alike.right further right path
  generalize first.chart path = look, second.chart path = like at looks ahead beside ⊢
  cases looks with
  | none => exact .none
  | some close =>
    obtain rfl := close.same.resolve_right id
    exact .some ⟨rfl, rfl, close.left, beside _ rfl, ahead _ rfl⟩

namespace Discovery

variable {gone : List Diagnostic} {config : DiscoveryConfig} {program other : Program}
  {leaves : String → MemberStep → Prop}

section Sides

variable (plain : program.Plain) (likewise : other.Plain) (spares : program.Spares config.globalScope)
  {last : ScopeId}
  {done all : ScopeId → List MemberStep}
  (abreast : Abreast gone config false last done all (defined config program) (defined config other))
  (each : ∀ name, Thinned config (leaves name) false (program.memberSteps name) (other.memberSteps name))
  {final : Nat}
  (left : (swept config program final).tree.AtRest) (right : (swept config other final).tree.AtRest)
include plain likewise spares abreast each left right

/-- Sweep after sweep both discoveries stay alike, up to one after which both are at rest. -/
theorem paired_swept {count : Nat} (within : count ≤ final) :
    Paired gone config program other (swept config program final).tree
    (swept config other final).tree (swept config program count) (swept config other count) := by
  induction count with
  | zero =>
    have begun : Paired gone config program other (swept config program final).tree
      (swept config other final).tree (defined config program)
        (defined config other) :=
      ⟨.entered, .entered, abreast.states.trees.toward (grows_defined_swept config program final).tree
        (grows_defined_swept config other final).tree left.sound right.sound, abreast.states.problems⟩
    have onward := grows_swept config program 0 final
    have further := grows_swept config other 0 final
    rw [Nat.zero_add] at onward further
    have first : swept config program 0 = _ := seeded_eq_runTours config program
    have second : swept config other 0 = _ := seeded_eq_runTours config other
    rw [first] at onward ⊢
    rw [second] at further ⊢
    exact begun.runTours plain likewise spares left right abreast.matches_seeding
      (seeding_subset config program) (seeding_subset config other)
      onward.tree further.tree
  | succ count ih =>
    obtain ⟨more, rfl⟩ := Nat.exists_eq_add_of_le within
    have onward := grows_swept config program (count + 1) more
    have further := grows_swept config other (count + 1) more
    rw [swept_succ] at onward further ⊢
    rw [swept_succ]
    exact (ih (Nat.le_of_succ_le within)).sweep plain likewise spares left right
      (abreast.matches_tours (fun name member => (plain name member).1)
        (fun name member => (likewise name member).1) each)
      onward.tree further.tree

end Sides

/-- Programs whose entry goes abreast have the same reports in the end, and the same problems but for
those that entry may lose. -/
theorem Abreast.discoveries {last : ScopeId} {done all : ScopeId → List MemberStep}
    (abreast : Abreast gone config false last done all (defined config program) (defined config other))
    (plain : program.Plain) (likewise : other.Plain) (spares : program.Spares config.globalScope)
    (each : ∀ name, Thinned config (leaves name) false (program.memberSteps name) (other.memberSteps name))
    (unlimited : ∀ problem ∈ (discover program config).diagnostics, problem.kind ≠ .sweepLimit)
    (boundless : ∀ problem ∈ (discover other config).diagnostics, problem.kind ≠ .sweepLimit) :
    (discover other config).reports = (discover program config).reports ∧
      Echoes gone (discover program config).diagnostics (discover other config).diagnostics := by
  obtain ⟨count, sweeps, ends⟩ := exists_rest plain abreast.sound.1 unlimited
  obtain ⟨number, total, rests⟩ := exists_rest likewise abreast.sound.2 boundless
  obtain ⟨left, whole⟩ := ends (max count number) (Nat.le_max_left _ _)
  obtain ⟨right, entire⟩ := rests (max count number) (Nat.le_max_right _ _)
  have paired := paired_swept plain likewise spares abreast each left right (Nat.le_refl _)
  have onward := grows_defined_swept config program (max count number)
  have further := grows_defined_swept config other (max count number)
  have listed : (swept config program (max count number)).owners = (defined config program).owners := by
    rw [State.owners, onward.classes]; rfl
  have entered : (swept config other (max count number)).owners = (defined config program).owners := by
    rw [State.owners, further.classes]
    exact abreast.owners.symm
  rw [whole, entire]
  refine ⟨?_, paired.alike.problems⟩
  show (swept config other _).owners.filterMap (ClassReport.ofScope? (swept config other _).tree) =
    (swept config program _).owners.filterMap (ClassReport.ofScope? (swept config program _).tree)
  rw [listed, entered]
  refine List.filterMap_congr fun id member => ?_
  have inside := abreast.left.inside member
  have within := abreast.right.inside (abreast.owners ▸ member)
  rw [ClassReport.ofScope?_chart left.sound (onward.tree.index_lt inside),
    ClassReport.ofScope?_chart right.sound (further.tree.index_lt within),
    paired.alike.trees.chart_eq, onward.tree.raw inside, further.tree.raw within, abreast.paths id member]

end Discovery

end LuaClasses

/-! ### Programs without the constructors that others replace -/

namespace LuaClasses
open Discovery

/-- The last constructor decides what is reported: without those before it a program has the same reports
and the same problems, but for problems of the definitions that are left out, and but for the one that
the first definition left would replace another. All of those are about definitions that stand twice or
lack a name for the instance. -/
theorem last_constructor_decides {config : DiscoveryConfig} {program : Program} {ownerName : String}
    (plain : program.Plain) (free : "constructor" ∉ program.names)
    (spares : program.Spares config.globalScope) (declares : program.DeclaresClass config ownerName)
    (unlimited : ∀ problem ∈ (discover program config).diagnostics, problem.kind ≠ .sweepLimit)
    (boundless : ∀ problem ∈ (discover (program.lastConstructorOnly config ownerName) config).diagnostics, problem.kind ≠ .sweepLimit)
    :
    (discover (program.lastConstructorOnly config ownerName) config).reports =
    (discover program config).reports ∧
      Echoes (replacedProblems config ownerName program) (discover program config).diagnostics
        (discover (program.lastConstructorOnly config ownerName) config).diagnostics ∧
      ∀ problem ∈ replacedProblems config ownerName program, problem.kind.ofDefinition = true := by
  have likewise : (program.lastConstructorOnly config ownerName).Plain := fun name member =>
    plain name (names_lastConstructorOnly config ownerName program member)
  have each : ∀ name, Thinned config (program.Replaces config ownerName name) false (program.memberSteps name)
      ((program.lastConstructorOnly config ownerName).memberSteps name) :=
    thinned_lastConstructorOnly program
  have caused : ∀ name step, program.Replaces config ownerName name step → step.problems name ⊆
      replacedProblems config ownerName program := by
    rintro name step ⟨rfl, replaced⟩ problem member
    exact List.mem_append_left _ (List.mem_flatMap.2 ⟨step, replaced, member⟩)
  have settled : ∀ name, (∃ step, program.Replaces config ownerName name step) →
      firstReplacement config name ((program.lastConstructorOnly config ownerName).memberSteps name) ⊆
        replacedProblems config ownerName program := by
    rintro name ⟨_, rfl, _⟩
    exact List.subset_append_right _ _
  have same := indexed_lastConstructorOnly (fun name member => (plain name member).1) declares
  obtain ⟨_, _, _, abreast⟩ := abreast_defined plain free spares each caused settled same
  obtain ⟨reports, problems⟩ := abreast.discoveries plain likewise spares each unlimited boundless
  exact ⟨reports, problems, fun _ => kind_replacedProblems⟩

def onLine (line : UInt32) (kind : StmtKind) : Stmt := ⟨kind, ⟨line, 0, line, 0⟩⟩

def assigning (line : UInt32) (target value : Expr) : Stmt := onLine line (.assign [target] [value])

/-- A class with two constructors, of which the first has a parameter and lacks a name for the instance. -/
def twiceMade : Program where
  body := [
    assigning 1 (.name "Foo") (.methodCall (.name "ISBaseObject") "derive" []),
    onLine 2 (.function (.ofMember "Foo" .dot "new") false
      ⟨["size"], false, [assigning 3 (.member (.name "o") "x") (.number "1")]⟩),
    onLine 5 (.function (.ofMember "Foo" .dot "new") false ⟨[], false,
      [assigning 6 (.member (.name "o") "y") (.string "s"), onLine 7 (.return_ [.name "o"])]⟩)]

theorem twiceMade_decided : twiceMade.Plain ∧ "constructor" ∉ twiceMade.names ∧ twiceMade.Spares "__G" ∧
    twiceMade.DeclaresClass .default "Foo" ∧
    (∀ problem ∈ (discover twiceMade .default).diagnostics, problem.kind ≠ .sweepLimit) ∧
    (∀ problem ∈ (discover (twiceMade.lastConstructorOnly .default "Foo") .default).diagnostics,
      problem.kind ≠ .sweepLimit) ∧
    (discover (twiceMade.lastConstructorOnly .default "Foo") .default).reports =
    (discover twiceMade .default).reports ∧
      Echoes (replacedProblems .default "Foo" twiceMade) (discover twiceMade .default).diagnostics
        (discover (twiceMade.lastConstructorOnly .default "Foo") .default).diagnostics ∧
      ∀ problem ∈ replacedProblems .default "Foo" twiceMade, problem.kind.ofDefinition = true := by
  have plain : twiceMade.Plain := by decide +kernel
  have free : "constructor" ∉ twiceMade.names := by decide +kernel
  have spares : twiceMade.Spares "__G" := by decide +kernel
  have declares : twiceMade.DeclaresClass .default "Foo" :=
    ⟨_, List.mem_cons_self, _, _, _, rfl, List.mem_cons_self, rfl⟩
  have unlimited : ∀ problem ∈ (discover twiceMade .default).diagnostics,
    problem.kind ≠ .sweepLimit := by decide +kernel
  have boundless : ∀ problem ∈ (discover (twiceMade.lastConstructorOnly .default "Foo") .default).diagnostics,
      problem.kind ≠ .sweepLimit := by decide +kernel
  exact ⟨plain, free, spares, declares, unlimited, boundless,
    last_constructor_decides plain free spares declares unlimited boundless⟩

/-- A class whose second constructor names the top level and reads a value that other scopes hide from it
one after the other. -/
def hiddenProgram : Program where
  body := [
    assigning 1 (.name "do_0") (.methodCall (.name "ISBaseObject") "derive" []),
    assigning 2 (.name "t") (.table []),
    assigning 3 (.member (.name "t") "x") (.number "5"),
    assigning 4 (.member (.name "do_0") "t") (.number "1"),
    assigning 5 (.member (.name "do_0") "v") (.call (.name "helper") []),
    onLine 6 (.function (.ofMember "do_0" .dot "helper") false
      ⟨[], false, [onLine 6 (.return_ [.string "s"])]⟩),
    onLine 7 (.function (.ofMember "do_0" .dot "new") false ⟨[], false,
      [assigning 7 (.member (.name "o") "x") .nil, onLine 7 (.return_ [.name "o"])]⟩),
    onLine 8 (.function (.ofMember "do_0" .dot "new") false ⟨[], false, [
      assigning 8 (.member (.name "o") "y") .nil,
      assigning 8 (.member (.name "o") "x") (.name "v"),
      assigning 8 (.member (.name "o") "y") (.member (.name "o") "x"),
      onLine 9 (.do_ [
        assigning 9 (.member (.name "o") "w") (.member (.member (.member (.name "__G") "do_0") "t") "x"),
        assigning 9 (.member (.name "o") "w") (.member (.name "t") "x"),
        assigning 9 (.member (.name "t") "x") (.number "1"),
        onLine 9 (.local_ ["t"] [.number "1"])]),
      assigning 10 (.member (.name "t") "x") (.member (.name "o") "y"),
      onLine 10 (.return_ [.name "o"])]⟩),
    onLine 11 (.function (.ofMember "do_0" .colon "__G") false ⟨[], false, [
      onLine 11 (.local_ ["t"] [.number "1"]),
      onLine 11 (.do_ [
        assigning 11 (.member (.name "t") "x") (.number "1"),
        onLine 11 (.local_ ["t"] [.number "1"])])]⟩)]

theorem first_constructor_shows : hiddenProgram.Plain ∧ "constructor" ∉ hiddenProgram.names ∧
    (∀ problem ∈ (discover hiddenProgram .default).diagnostics, problem.kind ≠ .sweepLimit) ∧
    (∀ problem ∈ (discover (hiddenProgram.lastConstructorOnly .default "do_0") .default).diagnostics,
      problem.kind ≠ .sweepLimit) ∧
    (discover (hiddenProgram.lastConstructorOnly .default "do_0") .default).reports ≠
    (discover hiddenProgram .default).reports := by
  decide +kernel

end LuaClasses
