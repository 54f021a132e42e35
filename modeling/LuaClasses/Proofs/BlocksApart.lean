import LuaClasses.Proofs.BlockScopes
import LuaClasses.Proofs.BlockTours
import LuaClasses.Proofs.FixedPoint
import LuaClasses.Proofs.Turns

/-! Blocks have scopes of their own. Each block of a body that is walked has one scope from the first
sweep on, no two blocks have the same, and nothing but the block stands there, as long as no name is
spelled like that of a block and no class has a second body in the place of its constructor. -/

namespace LuaClasses

/-- A name leads to a scope by its last segment. -/
theorem ScopeTree.exists_last_of_resolveRelative {tree : ScopeTree} {origin id : ScopeId} {name : String}
    (found : tree.resolveRelative origin name = some id) :
    ∃ parent, ∃ segment ∈ DottedName.segments name, tree.child? parent segment = some id := by
  rw [resolveRelative] at found
  cases split : DottedName.segments name using List.reverseRecOn with
  | nil => exact absurd split (DottedName.segments_ne_nil name)
  | append_singleton front last =>
    rw [split, List.foldlM_append] at found
    obtain ⟨parent, _, step⟩ := Option.bind_eq_some_iff.1 found
    rw [List.foldlM_cons] at step
    obtain ⟨child, hangs, same⟩ := Option.bind_eq_some_iff.1 step
    cases same
    exact ⟨parent, last, List.mem_append_right _ List.mem_cons_self, hangs⟩

namespace Discovery
open ScopeTree DottedName

variable {config : DiscoveryConfig} {program : Program}

/-! ### What stands on the scopes of blocks -/

section Walled

variable (plain : program.Plain) (free : ∀ name ∈ program.names, ¬NamesBlock name)
include plain free

private theorem unmarked_of_mem {name : String} (member : name ∈ program.names) : Unmarked name :=
  ⟨(plain name member).1, free name member⟩

private theorem offBlocks_defined {parent id : ScopeId} {name : String}
    (hangs : (defined config program).tree.child? parent name = some id) :
    OffBlocks (defined config program).tree id := by
  refine ⟨_, name, (formed_defined config program).tree.find?_child hangs, ?_⟩
  rcases names_defined config program hangs with member | rfl | rfl
  · exact unmarked_of_mem plain free member
  · exact ⟨by decide, fun block => absurd (underscore_of_namesBlock block) (by decide)⟩
  · exact ⟨by decide, fun block => absurd (underscore_of_namesBlock block) (by decide)⟩

private theorem walled_defined : Walled (defined config program).tree where
  held := by
    intro id kind entity at_ held
    obtain ⟨parent, name, hangs, _⟩ := (accounted_defined config plain).anchored.named
      (Option.isSome_of_eq_some held)
    exact absurd at_ ((offBlocks_defined plain free hangs).not_blockAt kind)
  stored := by
    intro id entity slot held member
    obtain ⟨spot, link⟩ := slot
    have lies := ((accounted_defined config plain).anchored.stored nofun held member).1
    cases spot with
    | below => exact offBlocks_defined plain free lies.choose_spec
    | field =>
      obtain ⟨name, fields, _, hangs⟩ := lies
      exact offBlocks_defined plain free hangs
    | top => exact offBlocks_defined plain free lies.choose_spec
  globals := by
    intro id member
    obtain ⟨name, hangs⟩ := ((accounted_defined config plain).anchored.globals id member).1
    exact offBlocks_defined plain free hangs

private theorem unmarked_tours {tour : Tour} (made : tour ∈ tours config (defined config program)) :
    ∀ site ∈ tour.sites, ∀ name ∈ site.action.names, Unmarked name := by
  obtain ⟨_, belong⟩ := belong_tours plain made
  exact fun site member name used => unmarked_of_mem plain free ((belong site member).names used)

/-- At every moment blocks stand on the scopes that are named like blocks, and nothing else does. -/
theorem Moment.walled {state : State} (moment : Moment program config state) : Walled state.tree := by
  induction moment with
  | entered => exact walled_defined plain free
  | @walked state tour site before made member ih =>
    exact (walls_site tour.frame config (unmarked_tours plain free made site member)).walled
      (before.swept plain).formed.tree ih
  | @propagated state owner before ih =>
    exact (walls_propagateInto owner).walled (before.swept plain).formed.tree ih
  | warned kind message range before ih => rw [State.tree_warn]; exact ih

end Walled

/-! ### Each block is entered -/

/-- Whether something stands on the scope of a block. -/
def Entered (tree : ScopeTree) (block : BlockPlace) : Prop :=
  ∃ id, tree.find? block.path = some id ∧ tree.hasEntity id = true

theorem Entered.grows {before after : ScopeTree} {block : BlockPlace} (entered : Entered before block)
    (grows : before.Grows after) :
    Entered after block := by
  obtain ⟨id, found, held⟩ := entered
  exact ⟨id, grows.find? found, grows.hasEntity held⟩

private theorem block?_eq_some {site : Site} {block : BlockPlace} (enters : site.block? = some block) :
    ∃ index, site.action = .block block.kind index ∧ block.path = DottedName.child site.scope
      (blockName block.kind index) := by
  obtain ⟨scope, action, range⟩ := site
  cases action with
  | block kind index => cases enters; exact ⟨index, rfl, rfl⟩
  | _ => cases enters

private theorem entered_enterBlock {tree : ScopeTree} {path : String} {parent : ScopeId}
    (found : tree.find? path = some parent) (kind : BlockKind) (index : Nat) :
    Entered (enterBlock tree parent kind index).1 ⟨DottedName.child path (blockName kind index), kind⟩ := by
  refine ⟨_, find?_enterBlock found kind index, ?_⟩
  have inside := index_internChild .block tree parent (blockName kind index)
  rw [enterBlock_eq]
  dsimp only
  split
  next held => exact held
  next => exact hasEntity_setEntity_self inside _

variable (config) in
private theorem entered_runSites {frame : Frame} {sites : List Site} {state : State}
    (stands : Stands config frame sites state) (formed : state.Formed) :
    ∀ block ∈ blocksOf sites, Entered (runSites config frame sites state).1.tree block := by
  induction stands with
  | nil => exact nofun
  | @cons site rest state scope found below others ih =>
    intro block member
    have last := (advances_site config frame state site formed).1
    obtain ⟨other, listed, enters⟩ := List.mem_filterMap.1 member
    rcases List.mem_cons.1 listed with rfl | later
    · obtain ⟨index, action, path⟩ := block?_eq_some enters
      have entered := entered_enterBlock found block.kind index
      have step : (other.run config frame state).1 = state.withTree
          (enterBlock state.tree scope block.kind index).1 := by
        simp only [Site.run, found, action]
        rfl
      rw [← path] at entered
      have here : Entered (other.run config frame state).1.tree block := by rw [step]; exact entered
      exact here.grows (advances_runSites config frame rest _ last).2.tree
    · exact ih last block (List.mem_filterMap.2 ⟨other, later, enters⟩)

section Sweeps

variable (plain : program.Plain) {state : State}
include plain

private theorem entered_runTours {made : List Tour}
    (within : made ⊆ tours config (defined config program)) (moment : Moment program config state) :
    ∀ block ∈ made.flatMap fun tour => blocksOf tour.sites,
      Entered (runTours config made state).1.tree block := by
  induction made generalizing state with
  | nil => exact nofun
  | cons tour rest ih =>
    intro block member
    obtain ⟨first, others⟩ := List.cons_subset.1 within
    have walked := moment.runTours (List.cons_subset.2 ⟨first, List.nil_subset _⟩)
    rw [List.flatMap_cons] at member
    rcases List.mem_append.1 member with here | later
    · have entered := entered_runSites config (moment.stands plain first)
        (moment.swept plain).formed block here
      exact entered.grows (advances_runTours config rest _ (walked.swept plain).formed).2.tree
    · exact ih others walked block later

/-- A sweep enters the blocks of all bodies. -/
theorem entered_sweep (moment : Moment program config state) :
    ∀ block ∈ (tours config (defined config program)).flatMap fun tour => blocksOf tour.sites,
      Entered (sweep config state).1.tree block := by
  intro block member
  obtain ⟨formed, _, grows⟩ := moment.swept plain
  have walked := entered_runTours plain (List.Subset.refl _) moment block member
  rw [sweep_eq config formed, tours_grows config (formed_defined config program) grows]
  exact walked.grows (advances_propagate _ ((moment.runTours (List.Subset.refl _)).swept plain).formed.tree).2

end Sweeps

/-! ### Scopes of their own -/

/-- Whether scopes are those of blocks, in their order: they are different, each carries a block of its
kind, no entity stores one, the indices of the top level list none, no name that is not spelled like that
of a block leads to one, and they share no local. -/
structure BlocksApart (tree : ScopeTree) (blocks : List BlockPlace) (ids : List ScopeId) : Prop where
  each : List.Forall₂ (fun block id => tree.find? block.path = some id ∧
    ∃ entity, tree.entity? id = some entity ∧ entity.blockKind? = some block.kind) blocks ids
  distinct : ids.Nodup
  stored : ∀ {id}, id ∈ ids → ∀ {holder entity spot}, tree.entity? holder = some entity →
    (spot, id) ∉ entity.kind.stored
  globals : ∀ {id}, id ∈ ids → id ∉ tree.globals.stored
  unnamed : ∀ {id}, id ∈ ids → ∀ {name origin}, (∀ segment ∈ segments name, ¬NamesBlock segment) →
    tree.lookup name origin ≠ some id
  locals : ∀ {first second}, first ∈ ids → second ∈ ids → ∀ {name other id},
    tree.child? first name = some id →
    tree.child? second other = some id → first = second

/-- Where blocks were entered in a tree, they keep their scopes in all that grows out of it. -/
theorem blocksApart_of_entered {first last : ScopeTree} (formed : last.Formed) (dotless : last.Dotless)
    (walled : Walled last) (grows : first.Grows last) (sites : List Site)
    (distinct : ((blocksOf sites).map BlockPlace.path).Nodup)
    (entered : ∀ block ∈ blocksOf sites, Entered first block) :
    BlocksApart last (blocksOf sites) ((blocksOf sites).map fun block =>
      (first.find? block.path).getD root) := by
  have found : ∀ block ∈ blocksOf sites, last.find? block.path = some ((first.find? block.path).getD root) ∧
      last.hasEntity ((first.find? block.path).getD root) = true := by
    intro block member
    obtain ⟨id, there, held⟩ := entered block member
    rw [there]
    exact ⟨grows.find? there, grows.hasEntity held⟩
  have at_ : ∀ block ∈ blocksOf sites, BlockAt last ((first.find? block.path).getD root) block.kind := by
    intro block member
    obtain ⟨site, _, enters⟩ := List.mem_filterMap.1 member
    obtain ⟨index, _, path⟩ := block?_eq_some enters
    exact ⟨site.scope, index, path ▸ (found block member).1⟩
  have apart : ∀ {id}, id ∈ (blocksOf sites).map (fun block => (first.find? block.path).getD root) →
      ¬OffBlocks last id := by
    intro id member off
    obtain ⟨block, listed, rfl⟩ := List.mem_map.1 member
    exact off.not_blockAt block.kind (at_ block listed)
  refine ⟨?_, ?_, fun member _ _ _ held inside => apart member (walled.stored held inside),
    fun member inside => apart member (walled.globals _ inside),
      fun {id} member {name origin} unmarked leads => ?_,
    fun _ _ => fun one two => (formed.child_unique one two).1⟩
  · rw [List.forall₂_map_right_iff, List.forall₂_same]
    intro block member
    obtain ⟨entity, held⟩ := Option.isSome_iff_exists.1 (found block member).2
    exact ⟨(found block member).1, entity, held, walled.held (at_ block member) held⟩
  · refine List.Nodup.of_map last.raw ?_
    have paths : ∀ block ∈ blocksOf sites, last.raw ((first.find? block.path).getD root) = block.path :=
      fun block member => raw_of_find? (found block member).1
    rw [List.map_map]
    exact (List.map_congr_left paths).symm ▸ distinct
  · obtain ⟨level, _, reached⟩ := List.exists_of_findSome?_eq_some leads
    obtain ⟨parent, segment, listed, hangs⟩ :=
      exists_last_of_resolveRelative (Option.filter_eq_some_iff.1 reached).1
    exact apart member ⟨_, segment, formed.find?_child hangs,
      dotless.child formed hangs, unmarked segment listed⟩

private theorem grows_sweepUntilIdle {left : Nat} (some : 1 ≤ left) (total : Nat) {state : State}
    (formed : state.Formed) :
    (sweep config state).1.Grows (sweepUntilIdle config left total state).1 := by
  obtain ⟨left, rfl⟩ := Nat.exists_eq_add_of_le' some
  rw [sweepUntilIdle]
  dsimp only
  split
  next => exact .refl _
  next => exact (advances_sweepUntilIdle left (total + 1) _ (advances_sweep config state formed).1).2

/-- Where no name is spelled like that of a block, and no class has a function or a method in the place
of its constructor beside that, each block of each body of a class has a scope of its own from the first
sweep on. -/
theorem blocks_apart {text : String} (config : DiscoveryConfig)
    (parsed : Program.ofText text = .ok program) (plainly : fieldsName ∉ program.names)
    (free : ∀ name ∈ program.names, ¬NamesBlock name) (keeps : KeepsConstructors config program) :
    let blocks := (tours config (defined config program)).flatMap fun tour => blocksOf tour.sites
    (∀ bodies ∈ (defined config program).classes,
      (toursOf config (defined config program).tree bodies).map
      (fun tour => (blocksOf tour.sites).map BlockPlace.kind) =
        bodies.all.map fun body => blockKinds body.body) ∧
      ∃ ids, (∀ count, BlocksApart ((Run.start program config).seed.sweepTimes (count + 1)).state.tree
        blocks ids) ∧
        (1 ≤ config.maxSweeps → BlocksApart (discover program config).tree blocks ids) := by
  intro blocks
  have plain := plain_ofText parsed plainly
  have whole : blocks = blocksOf ((tours config (defined config program)).flatMap Tour.sites) := by
    rw [blocksOf, List.filterMap_flatMap]
    rfl
  have begun : Run.Reached program config (Run.start program config).seed := .seeded
  have first := begun.sweep_eq.1
  have entered := entered_sweep plain (Moment.of_reached begun plain)
  have distinct := nodup_paths plain keeps
  rw [← first] at entered
  have later : ∀ {state}, Moment program config state →
    (Run.start program config).seed.sweep.1.state.tree.Grows state.tree →
      BlocksApart state.tree blocks (blocks.map fun block =>
        ((Run.start program config).seed.sweep.1.state.tree.find? block.path).getD root) := by
    intro state moment grows
    obtain ⟨formed, tidy, _⟩ := moment.tends plain (formed_defined config program) (tidy_defined config plain)
    have apart := blocksApart_of_entered formed.tree tidy.tree.dotless (moment.walled plain free) grows
      ((tours config (defined config program)).flatMap Tour.sites)
    rw [← whole] at apart
    exact apart distinct entered
  have ended : Moment program config (Run.start program config).seed.resolve.state :=
    .of_reached (.resolved begun) plain
  refine ⟨fun bodies listed => kinds_toursOf plain listed, _,
    fun count => later (.of_reached (begun.further _) plain) ?_,
    fun sweeps => later ended ?_⟩
  · induction count with
    | zero => exact .refl _
    | succ count ih =>
      have next := begun.further (count + 1)
      rw [Run.sweepTimes, next.sweep_eq.1]
      exact ih.trans (advances_sweep config _ next.formed).2.tree
  · rw [first]
    exact (grows_sweepUntilIdle sweeps 0 begun.formed).tree

/-- Nothing is in the place of a constructor where its name is not used. -/
theorem keepsConstructors_of_names (config : DiscoveryConfig) (unused : "constructor" ∉ program.names) :
    KeepsConstructors config program := by
  intro name _ _ written
  obtain ⟨⟨indexer, body⟩, known⟩ := Option.isSome_iff_exists.1 written
  obtain ⟨range, step⟩ := exists_step_of_lastDefinition? known
  exact absurd (names_memberSteps step List.mem_cons_self) unused

/-- Blocks in blocks and beside them, with locals of one name. -/
def nestedText : String :=
  "Foo = ISBaseObject:derive(\"Foo\")\nfunction Foo.f(a)\n  if a then\n    local x = 1\n  else\n    do local x = \"s\" end\n  end\n" ++
    "  do local x = a end\nend"

theorem nested_blocks_apart :
    ∃ program, Program.ofText nestedText = .ok program ∧ fieldsName ∉ program.names ∧
    (∀ name ∈ program.names, ¬NamesBlock name) ∧ KeepsConstructors .default program ∧
    let blocks := (tours .default (defined .default program)).flatMap fun tour => blocksOf tour.sites
    blocks = [⟨"__G.Foo.f.if_0", .if_⟩, ⟨"__G.Foo.f.if_0.clause_0", .ifClause⟩,
      ⟨"__G.Foo.f.if_0.clause_1", .ifClause⟩,
      ⟨"__G.Foo.f.if_0.clause_1.do_0", .do_⟩, ⟨"__G.Foo.f.do_0", .do_⟩] ∧
    ∃ ids, BlocksApart (discover program .default).tree blocks ids := by
  obtain ⟨program, parsed, plainly, unmarked, unused, blocks⟩ : ∃ program,
    Program.ofText nestedText = .ok program ∧
      fieldsName ∉ program.names ∧ (∀ name ∈ program.names, '_' ∉ name.toList) ∧
        "constructor" ∉ program.names ∧
      ((tours .default (defined .default program)).flatMap fun tour => blocksOf tour.sites) =
        [⟨"__G.Foo.f.if_0", .if_⟩, ⟨"__G.Foo.f.if_0.clause_0", .ifClause⟩,
          ⟨"__G.Foo.f.if_0.clause_1", .ifClause⟩,
          ⟨"__G.Foo.f.if_0.clause_1.do_0", .do_⟩, ⟨"__G.Foo.f.do_0", .do_⟩] :=
    Program.exists_ofText _ (by decide +kernel)
  have free : ∀ name ∈ program.names, ¬NamesBlock name := fun name member block =>
    unmarked name member (underscore_of_namesBlock block)
  have keeps := keepsConstructors_of_names .default unused
  obtain ⟨_, ids, _, apart⟩ := blocks_apart .default parsed plainly free keeps
  exact ⟨program, parsed, plainly, free, keeps, blocks, ids, apart (by decide)⟩

/-- A block beside a local that is named like it. -/
def namesakeText : String :=
  "Foo = ISBaseObject:derive(\"Foo\")\nfunction Foo.f()\n  local do_0 = \x7b\x7d\n  do_0.x = 1\n  do\n    local x = \"s\"\n" ++
    "    return x\n  end\nend"

/-- Then the scope of the block is the local, and the local of the block is a member of that, with the
types of both. -/
theorem block_on_namesake : ∃ program, Program.ofText namesakeText = .ok program ∧
    let blocks := (tours .default (defined .default program)).flatMap fun tour => blocksOf tour.sites
    let tree := (discover program .default).tree
    blocks = [⟨"__G.Foo.f.do_0", .do_⟩] ∧ tree.find? "__G.Foo.f.do_0" = some ⟨4⟩ ∧
    (tree.variableAt? ⟨4⟩).map Variable.name = some "do_0" ∧ tree.child? ⟨4⟩ "x" = some ⟨5⟩ ∧
    (tree.variableAt? ⟨5⟩).map Variable.types = some (.ofList [.number, .string]) ∧ ∀ ids,
    ¬BlocksApart tree blocks ids := by
  obtain ⟨program, parsed, blocks, found, held, hangs, types⟩ : ∃ program,
    Program.ofText namesakeText = .ok program ∧
      ((tours .default (defined .default program)).flatMap fun tour => blocksOf tour.sites) =
      [⟨"__G.Foo.f.do_0", .do_⟩] ∧
      (discover program .default).tree.find? "__G.Foo.f.do_0" = some ⟨4⟩ ∧
      ((discover program .default).tree.variableAt? ⟨4⟩).map Variable.name = some "do_0" ∧
      (discover program .default).tree.child? ⟨4⟩ "x" = some ⟨5⟩ ∧
      ((discover program .default).tree.variableAt? ⟨5⟩).map Variable.types =
      some (.ofList [.number, .string]) :=
    Program.exists_ofText _ (by decide +kernel)
  refine ⟨program, parsed, blocks, found, held, hangs, types, fun ids apart => ?_⟩
  have each := apart.each
  rw [blocks] at each
  obtain _ | ⟨⟨there, entity, occupied, block⟩, _⟩ := each
  cases found.symm.trans there
  obtain ⟨var, known, _⟩ := Option.map_eq_some_iff.1 held
  obtain ⟨references, isVariable⟩ := variableAt?_eq_some known
  cases occupied.symm.trans isVariable
  cases block

end Discovery
end LuaClasses
