import LuaClasses.Proofs.EntryPasses
import LuaClasses.Proofs.FieldsApart
import LuaClasses.Proofs.TopValues

/-! Paths as values of the variables of the top level. The top level is indexed once, so all that a
variable learns from a path that is given to it hangs on the reference that it takes in then. The
reference is kept until it leads somewhere, through all further statements, the members of classes and
the sweeps. So in the end the variable has the types of the variable at the path, unless the path could
also be that of a scope. -/

namespace LuaClasses

/-- The names to which statements of the top level give paths, with these. -/
def Program.aliases (program : Program) : List (String × String) :=
  (program.body.filterMap fun stmt => Discovery.bindings? stmt.kind).flatMap fun (targets, values) =>
    (targets.zip values).filterMap fun (target, value) => target.bind fun name =>
    value.dottedPath?.map fun path => (name, path)

theorem Program.mem_aliases {program : Program} {name path : String} :
    (name, path) ∈ program.aliases ↔ ∃ value, program.Gives name value ∧ value.dottedPath? = some path := by
  simp only [aliases, List.mem_flatMap, List.mem_filterMap, Option.bind_eq_some_iff,
    Option.map_eq_some_iff, Prod.exists, Gives]
  constructor
  · rintro ⟨targets, values, ⟨stmt, member, bound⟩, target, value, opposite, name, rfl, path, written, same⟩
    cases same
    exact ⟨value, ⟨stmt, member, targets, values, bound, opposite⟩, written⟩
  · rintro ⟨value, ⟨stmt, member, targets, values, bound, opposite⟩, written⟩
    exact ⟨targets, values, ⟨stmt, member, bound⟩, some name, value, opposite, name, rfl, path, written, rfl⟩

/-- Whether nothing takes the place of the constructor of a class: neither a function of the top level
that is named like the class, nor a function of the class that is named like the scope of the
constructor. -/
def Program.KeepsConstructor (program : Program) (config : DiscoveryConfig) (name : String) : Prop :=
  ¬program.DeclaresFunction name ∧ (program.DefinesFunction name "constructor" →
    config.constructorName = "constructor")

/-- What stands under a name is the same if its scope is spared, or was not there. -/
theorem ScopeTree.entity?_of_spares {before after : ScopeTree} (formed : before.Formed)
    (last : after.Formed) (links : before.Links after) {but id : ScopeId} {name : String}
    (spares : before.Spares after but) (hangs : after.child? root name = some id) (apart : id ≠ but)
    (stands : after.standing? name = before.standing? name) :
    after.entity? id = before.entity? id := by
  cases found : before.child? root name with
  | some other =>
    obtain rfl : other = id := Option.some.inj ((links found).symm.trans hangs)
    exact (spares (formed.parent?_of_child found) apart).2
  | none =>
    rw [standing?_of_hangs hangs, standing?, found] at stands
    rw [vacant_of_new_child formed last links found hangs, Option.map_eq_none_iff.1 stands]

namespace Discovery
open ScopeTree Relation

variable {config : DiscoveryConfig} {program : Program} {state before after : State} {name path : String}

/-! ### Steps of the index -/

private theorem keys_withGlobals {tree written : ScopeTree} {origins : ScopeId → Prop}
    (keys : Keys origins tree written) (globals : Globals) :
    Keys origins tree { written with globals } :=
  keys.trans (.of_references (fun _ => rfl) fun _ _ => rfl)

/-- A declaration of a function puts it in the place of what has its name. All else makes nothing else of
any reference. -/
theorem indexStep_cases (plain : program.Plain) (step : IndexStep config program before after)
    (formed : before.Formed) (tidy : before.Tidy) :
    (∃ name id, after.tree.child? root name = some id ∧ after.tree.Taken name ∧
      before.tree.Spares after.tree id ∧
      ∀ {other}, other ≠ name → after.tree.standing? other = before.tree.standing? other) ∨
    Keys (· = root) before.tree after.tree := by
  have keys : ∀ {written}, Writings (fun _ => True) (Evidence.WaitsFrom (· = root)) before.tree written →
      Keys (· = root) before.tree written := keys_writings fun _ => id
  have waits : ∀ value, (classifyValue config before.tree (.at_ root) value).WaitsFrom (· = root) :=
      fun value =>
    (told_classifyValue config (.at_ root) tidy.tree.shaped value).waits
  cases step with
  | @function name body range state named within free =>
    have params : ∀ param ∈ body.params, PlainName param := fun param member =>
      plain param (within (params_subset _ member))
    obtain ⟨id, kind, _, writes, _⟩ := writes_declareGlobalFunction formed tidy (plain _ named) params range
    obtain ⟨same, hangs, _, spares⟩ := spares_declareGlobalFunction formed tidy (plain _ named) params range
    obtain rfl : id = same := Option.some.inj (writes.hangs.symm.trans hangs)
    exact .inl ⟨name, id, hangs, ⟨_, writes.stands, nofun⟩, spares, writes.others⟩
  | table named free =>
    obtain ⟨written, globals, writes, same⟩ : ∃ written globals,
        Writings (fun _ => True) (Evidence.WaitsFrom (· = root)) before.tree written ∧ _ :=
          writings_declareGlobalTable trivial
    right
    rw [State.withTree, same]
    exact keys_withGlobals (keys writes) globals
  | value value range named free =>
    obtain ⟨written, globals, writes, same⟩ : ∃ written globals,
        Writings (fun _ => True) (Evidence.WaitsFrom (· = root)) before.tree written ∧ _ :=
      writings_declareGlobalValue (fun _ => trivial) config _ value range (waits value)
    right
    rw [State.withTree, same]
    exact keys_withGlobals (keys writes) globals
  | member value range owned named table =>
    exact .inr (keys (writings_assignMember (fun _ => trivial) (.at_ root) _ _ (waits value) range))

/-- While the top level is indexed, what a name stands for gives way to nothing but a function. -/
theorem taken_indexStep (plain : program.Plain) (step : IndexStep config program before after)
    (formed : before.Formed) (tidy : before.Tidy) (taken : before.tree.Taken name) :
    after.tree.Taken name := by
  have kept : ∀ {other : String} {id : ScopeId} {fallback : EntityKind},
      Writes before.tree after.tree other id ((before.tree.standing? other).getD fallback) →
        after.tree.Taken name := by
    intro other id fallback writes
    by_cases same : name = other
    · subst same
      obtain ⟨kind, stands, variable_⟩ := taken
      exact ⟨kind, by rw [writes.stands, stands, Option.getD_some], variable_⟩
    · exact taken_of_standing (writes.others same) taken
  cases step with
  | @function other body range state named within free =>
    have params : ∀ param ∈ body.params, PlainName param := fun param member =>
      plain param (within (params_subset _ member))
    obtain ⟨id, kind, _, writes, _⟩ := writes_declareGlobalFunction formed tidy (plain _ named) params range
    by_cases same : name = other
    · subst same
      exact ⟨_, writes.stands, nofun⟩
    · exact taken_of_standing (writes.others same) taken
  | table named free =>
    obtain ⟨id, writes, _⟩ := writes_declareGlobalTable formed.tree tidy.tree (plain _ named)
    exact kept writes
  | value value range named free =>
    obtain ⟨id, writes, _⟩ := writes_declareGlobalValue config formed.tree tidy.tree
      (plain _ named) value range
    exact kept writes
  | member value range owned named table =>
    refine taken_of_standing ?_ taken
    exact (standing?_assignMember formed.tree tidy.tree.dotless (plain _ owned)
      (plain _ named) table _ range name).1

/-! ### While the top level is indexed -/

/-- What holds while the top level is indexed. -/
structure TopIndexing (config : DiscoveryConfig) (program : Program) (state : State) : Prop where
  arises : Arises program config state
  tidy : state.Tidy
  tiered : Tiered config program state.tree
  classes : ∀ name, state.tree.classId? name ≠ none → state.tree.Taken name
  keyed : ∀ {name id}, state.tree.child? root name = some id → state.tree.Taken name ∨ state.tree.Keyed id

/-- Once the classes are declared, there is nothing else. -/
theorem topIndexing_declared (config : DiscoveryConfig) (plain : program.Plain) :
    TopIndexing config program (declared config program) := by
  have only := classesOnly_declared config plain
  have classes : ∀ name, (declared config program).tree.classId? name ≠ none →
      (declared config program).tree.Taken name := by
    intro name known
    obtain ⟨id, found⟩ := Option.ne_none_iff_exists'.1 known
    obtain ⟨_, _, held, stands⟩ := only.classes name id found
    exact ⟨_, stands, nofun⟩
  refine ⟨.of_steps .declared .initial (declared_steps config program), tidy_declared config plain,
    tiered_declared config plain,
    classes, fun {name id} hangs => ?_⟩
  by_cases known : (declared config program).tree.classId? name = none
  · have stands := only.vacant name known
    rw [standing?_of_hangs hangs] at stands
    exact .inr (Keyed.of_vacant (Option.map_eq_none_iff.1 stands))
  · exact .inl (classes name known)

theorem TopIndexing.step (indexing : TopIndexing config program before) (plain : program.Plain)
    (step : IndexStep config program before after) : TopIndexing config program after := by
  have formed := indexing.arises.formed
  have links := links_indexStep plain step formed indexing.tidy
  obtain ⟨last, keeps⟩ := revises_indexStep step formed
  have taken : ∀ {name}, before.tree.Taken name → after.tree.Taken name :=
    taken_indexStep plain step formed indexing.tidy
  refine ⟨indexing.arises.indexed step, tidy_indexStep plain step formed indexing.tidy,
    tiered_indexStep plain step formed indexing.tidy indexing.tiered, fun name known =>
      taken (indexing.classes name ?_),
    fun {name id} hangs => ?_⟩
  · rwa [← classId?_indexStep step formed name]
  · have former : before.tree.Taken name ∨ before.tree.Keyed id := by
      cases found : before.tree.child? root name with
      | some other => exact indexing.keyed (found.trans ((links found).symm.trans hangs))
      | none => exact .inr (Keyed.of_vacant (vacant_of_new_child formed.tree last.tree links found hangs))
    rcases former with held | keyed
    · exact .inl (taken held)
    · rcases indexStep_cases plain step formed indexing.tidy with ⟨made, function, there,
        held, spares, others⟩ | keys
      · by_cases same : name = made
        · exact .inl (same ▸ held)
        · have apart : id ≠ function := fun equal => same (last.tree.child_unique (equal ▸ hangs) there).2
          have kept := entity?_of_spares formed.tree last.tree links spares hangs apart (others same)
          exact .inr (keyed.of_entity? formed.tree keeps kept)
      · exact .inr (keyed.keys keys)

private theorem topIndexing_of_steps (plain : program.Plain)
    (steps : ReflTransGen (IndexStep config program) (declared config program) state) :
    TopIndexing config program state := by
  induction steps with
  | refl => exact topIndexing_declared config plain
  | tail _ step ih => exact ih.step plain step

section Reads

variable (plain : program.Plain) (named : path ≠ "") (away : ¬DottedName.Within config.globalScope path)
include plain named away

/-- A name that waits for a path goes on to wait for it. -/
theorem TopIndexing.reads_step (indexing : TopIndexing config program before)
    (step : IndexStep config program before after) (reads : before.tree.Reads name path) :
    after.tree.Reads name path := by
  have formed := indexing.arises.formed
  have links := links_indexStep plain step formed indexing.tidy
  obtain ⟨last, keeps⟩ := revises_indexStep step formed
  rcases reads with taken | taken | ⟨id, hangs, awaits⟩
  · exact .inl (taken_indexStep plain step formed indexing.tidy taken)
  · exact .inr (.inl (taken_indexStep plain step formed indexing.tidy taken))
  · rcases indexStep_cases plain step formed indexing.tidy with ⟨made, function,
      there, taken, spares, _⟩ | keys
    · by_cases same : id = function
      · obtain ⟨_, rfl⟩ := last.tree.child_unique (same ▸ links hangs) there
        exact .inl taken
      · have kept := (spares (formed.tree.parent?_of_child hangs) same).2
        exact .inr (.inr ⟨id, links hangs, awaits.of_entity? formed.tree keeps kept⟩)
    · have foreign := (indexing.arises.indexed step).foreign named away
      exact .inr (.inr ⟨id, links hangs, awaits.keys formed.tree keeps keys foreign named⟩)

variable (constructors : ∀ owner, program.DeclaresClass config owner →
  path ≠ DottedName.child owner "constructor")

omit plain named away in
include constructors in
/-- A path that leads to something other than a variable is a name of the top level. -/
theorem Tiered.taken {tree : ScopeTree} (tiered : Tiered config program tree) (formed : tree.Formed)
    {target : ScopeId} (leads : tree.lookup path root = some target)
    (other : tree.variableAt? target = none) : tree.Taken path := by
  obtain ⟨entity, held⟩ := Option.isSome_iff_exists.1 (hasEntity_of_lookup leads)
  have plain : entity.asVariable? = none := by rwa [variableAt?, held, Option.bind_some] at other
  have raw := raw_of_find? (formed.find?_of_lookup leads)
  rcases tiered held plain with ⟨name, hangs⟩ | ⟨name, owner, declared, hangs, below⟩
  · rw [raw_of_find? (formed.find?_child hangs)] at raw
    exact DottedName.child_cancel raw ▸ taken_of_held hangs held plain
  · rw [raw_of_find? (formed.find?_child below), raw_of_find? (formed.find?_child hangs),
      DottedName.child_child] at raw
    exact absurd (DottedName.child_cancel raw).symm (constructors name declared)

omit plain named away in
/-- Before a name takes in a value, its references are kept where they lead, unless it stands for
something else. -/
theorem TopIndexing.keyed_defineLocal (indexing : TopIndexing config program state)
    (plain : PlainName name) (range : Range) :
    state.tree.Taken name ∨ (defineLocal state.tree root name range).1.Keyed
      (defineLocal state.tree root name range).2.1 := by
  have formed := indexing.arises.formed.tree
  obtain ⟨last, grows⟩ := advances_defineLocal state.tree formed.root_lt name range formed
  have hangs := (writes_defineLocal formed indexing.tidy.tree plain range).hangs
  have keys : Keys (· = root) state.tree (defineLocal state.tree root name range).1 := by
    have writes : Writings (fun _ => True) (fun _ => False) state.tree
        (defineLocal state.tree root name range).1 :=
      writings_defineLocal (fun _ => trivial) root name range
    exact keys_writings nofun writes
  generalize defineLocal state.tree root name range = defined at last grows hangs keys ⊢
  have former : state.tree.Taken name ∨ state.tree.Keyed defined.2.1 := by
    cases found : state.tree.child? root name with
    | some other => exact indexing.keyed (found.trans ((grows.links found).symm.trans hangs))
    | none => exact .inr (Keyed.of_vacant (vacant_of_new_child formed last grows.links found hangs))
  exact former.imp_right fun keyed => keyed.keys keys

omit plain in
/-- A name that takes in a path as its value waits for what the path leads to. -/
theorem TopIndexing.awaits_value (indexing : TopIndexing config program state) (plain : PlainName name)
    {value : Expr} (uses : Uses config (.at_ root) value (.read path))
    (vars : ∀ target, state.tree.lookup path root = some target →
      (state.tree.variableAt? target).isSome = true)
    (range : Range) :
    state.tree.Taken name ∨ (declareGlobalValue config name (some value) range state.tree).Taken name ∨
      ∃ id, (declareGlobalValue config name (some value) range state.tree).child? root name = some id ∧
        (declareGlobalValue config name (some value) range state.tree).Awaits id path := by
  have formed := indexing.arises.formed.tree
  have refers := reference_of_uses formed uses vars
  rcases indexing.keyed_defineLocal plain range with held | keyed
  · exact .inl held
  · right
    obtain ⟨last, grows⟩ := advances_defineLocal state.tree formed.root_lt name range formed
    have wrote := writes_defineLocal formed indexing.tidy.tree plain range
    have raw : (defineLocal state.tree root name range).1.raw root = config.globalScope :=
      (grows.raw formed.root_lt).trans indexing.arises.raw_root
    unfold declareGlobalValue
    dsimp only
    generalize defineLocal state.tree root name range = defined at keyed last grows wrote raw ⊢
    generalize classifyValue config state.tree (.at_ root) (some value) = evidence at refers ⊢
    split
    next var =>
      obtain ⟨entity, held⟩ : ∃ entity, defined.1.entity? defined.2.1 = some entity := by
        obtain ⟨found, var⟩ := Option.isSome_iff_exists.1 var
        obtain ⟨_, present⟩ := variableAt?_eq_some var
        exact ⟨_, present⟩
      have waits : (applyEvidence defined.1 defined.2.1 evidence).1.Awaits defined.2.1 path := by
        refine awaits_applyEvidence last (last.foreign named (raw ▸ away)) named keyed
          held (refers.imp_right ?_)
        rintro ⟨target, found, same⟩
        refine ⟨target, ?_, same⟩
        rw [grows.raw formed.root_lt]
        exact grows.find? found
      have applied := (advances_applyEvidence defined.1 defined.2.1 evidence last).2
      exact .inr ⟨defined.2.1, applied.links wrote.hangs, waits⟩
    next other =>
      refine .inl ⟨_, wrote.stands, fun var same => other ((variableAt?_isSome_iff wrote.hangs).2 ⟨var, ?_⟩)⟩
      rw [wrote.stands, same]

include constructors

private theorem TopIndexing.reads_value (indexing : TopIndexing config program state) {value : Expr}
    (member : name ∈ program.names) (free : state.tree.classId? name = none)
    (uses : Uses config (.at_ root) value (.read path)) (range : Range) :
    (declareGlobalValue config name (some value) range state.tree).Reads name path := by
  have step : IndexStep config program state
      (state.withTree (declareGlobalValue config name (some value) range state.tree)) :=
    .value (some value) range member free
  have taken : ∀ other, state.tree.Taken other →
      (declareGlobalValue config name (some value) range state.tree).Taken other := by
    intro other held
    have kept := taken_indexStep plain step indexing.arises.formed indexing.tidy held
    exact kept
  by_cases vars : ∀ target, state.tree.lookup path root = some target →
    (state.tree.variableAt? target).isSome = true
  · rcases indexing.awaits_value named away (plain _ member) uses vars range with held | held | waits
    · exact .inl (taken name held)
    · exact .inl held
    · exact .inr (.inr waits)
  · simp only [not_forall, Bool.not_eq_true, Option.isSome_eq_false_iff, Option.isNone_iff_eq_none] at vars
    obtain ⟨target, found, other⟩ := vars
    exact .inr (.inl (taken path (indexing.tiered.taken constructors
      indexing.arises.formed.tree found other)))

/-- So it is whatever stands under the name already. -/
theorem TopIndexing.reads_given (indexing : TopIndexing config program state) {value : Expr}
    (member : name ∈ program.names) (written : value.dottedPath? = some path)
    (unknown : config.builtinType? path = none) (range : Range) :
    (declareGlobal config name (some value) range state).tree.Reads name path := by
  have uses := uses_of_dottedPath? written unknown
  have other : deriveBase? config value = none := by
    rcases unparen_of_dottedPath? written with ⟨_, same⟩ | ⟨_, _, same⟩ <;> rw [deriveBase?, same]
  by_cases known : state.tree.classId? name = none
  · have entered : declareGlobal config name (some value) range state =
        state.withTree (declareGlobalValue config name (some value) range state.tree) := by
      rcases unparen_of_dottedPath? written with ⟨_, same⟩ | ⟨_, _, same⟩ <;>
        simp [declareGlobal, other, known, same]
    rw [entered]
    exact indexing.reads_value plain named away constructors member known uses range
  · have skipped : declareGlobal config name (some value) range state = state := by
      simp [declareGlobal, Option.isSome_iff_ne_none, known]
    rw [skipped]
    exact .inl (indexing.classes name known)

/-- Once the top level is indexed, a name waits for every path that is given to it. -/
theorem reads_indexed {value : Expr} (given : program.Gives name value)
    (written : value.dottedPath? = some path) (unknown : config.builtinType? path = none) :
    (indexed config program).tree.Reads name path := by
  obtain ⟨member, within, range, before, reached, left⟩ := given_passes config program given
  have begun := (topIndexing_of_steps plain reached).reads_given plain named away constructors
    member written unknown range
  have entered := declareGlobal_steps config program range before member fun expr same =>
    Option.some.inj same ▸ within
  suffices ∀ {last}, ReflTransGen (IndexStep config program)
    (declareGlobal config name (some value) range before) last →
      TopIndexing config program last ∧ last.tree.Reads name path from (this left).2
  intro last steps
  induction steps with
  | refl => exact ⟨topIndexing_of_steps plain (reached.trans entered), begun⟩
  | tail _ step ih => exact ⟨ih.1.step plain step, ih.1.reads_step plain named away step ih.2⟩

/-! ### While the members are defined, and after -/

omit constructors in
private theorem reads_defineStep {owner : ScopeId} {ownerName : String}
    (step : DefineStep config program owner ownerName before after)
    (arises : Arises program config before) (tidy : before.Tidy) {held : Class}
    (found : before.tree.classAt? owner = some held) (reads : before.tree.Reads name path) :
    after.tree.Reads name path := by
  have formed := arises.formed
  obtain ⟨references, present⟩ := classAt?_eq_some found
  have inside := index_lt_of_entity? present
  have settles := settles_defineStep plain step formed tidy found
  have keeps := (revises_defineStep step inside formed).2
  have top := (tidy.tree.shaped found).top
  rcases reads with taken | taken | ⟨id, hangs, awaits⟩
  · exact .inl (taken.settles settles)
  · exact .inr (.inl (taken.settles settles))
  · by_cases same : id = owner
    · exact .inl ((taken_of_held (same ▸ hangs) present rfl).settles settles)
    · refine .inr (.inr ⟨id, settles.links hangs, ?_⟩)
      have above := formed.tree.parent?_of_child hangs
      have foreign := (arises.defined inside step).foreign named away
      cases step with
      | constructor range state within =>
        have spares := spares_defineConstructor formed tidy found top ownerName
          (fun name member => plain name (within member)) range
        exact awaits.of_entity? formed.tree keeps (spares above same).2
      | @function name indexer body range state member within written other =>
        have params : ∀ param ∈ body.params, PlainName param := fun param member =>
          plain param (within (params_subset body member))
        have spares := spares_defineFunction formed tidy top (plain _ member) indexer params range
        exact awaits.of_entity? formed.tree keeps (spares above same).2
      | @value entered value range state member =>
        have writes : Writings (fun _ => True) (fun _ => True) before.tree
            (defineValue config owner entered value range before.tree) :=
          writings_defineValue (fun _ => trivial) (fun _ => trivial) config owner entered value range
        have keys : Keys (fun _ => True) before.tree _ := keys_writings (fun _ _ _ _ _ => trivial) writes
        exact awaits.keys formed.tree keeps keys foreign named

omit constructors in
private theorem reads_defined (reads : (indexed config program).tree.Reads name path) :
    (defined config program).tree.Reads name path := by
  have formed := formed_indexed config program
  have kept := defineAll_keeps config plain (fun state => Arises program config state ∧
    state.tree.Reads name path)
    (fun step formed tidy found both => ?_) (indexed config program).owners formed (tidy_indexed config plain)
    ⟨.of_indexed config program, reads⟩
  · exact kept.2.2.2
  · obtain ⟨references, present⟩ := classAt?_eq_some found
    exact ⟨both.1.defined (index_lt_of_entity? present) step,
      reads_defineStep plain named away step both.1 tidy found both.2⟩

end Reads

/-! ### In the end -/

theorem Moment.outward (moment : Moment program config state) : state.tree.Outward := by
  induction moment with
  | entered => exact outward_defined config program
  | walked _ _ _ ih => exact ih.site config _ _
  | propagated owner _ ih => exact ih.propagateInto owner
  | warned kind message range _ ih => rw [State.tree_warn]; exact ih

/-- What a sweep leaves as it is has nothing on its way along its references. -/
theorem idle_of_rests (formed : state.Formed) (tidy : state.Tidy) (rests : sweep config state = (state, 0)) :
    (propagate state.tree).2 = 0 := by
  have idle := congrArg Prod.snd rests
  rw [sweep_eq config formed] at idle
  obtain ⟨walked, propagated⟩ := Nat.add_eq_zero_iff.1 idle
  have same := (rests_runTours config formed.tree tidy.tree (fair_tours config formed tidy) walked).tree
  rwa [same] at propagated

/-- In the end nothing is on its way to any entity. -/
theorem received_discover (plain : program.Plain)
    (unlimited : ∀ problem ∈ (discover program config).diagnostics, problem.kind ≠ .sweepLimit)
    {id : ScopeId} {entity : Entity} (held : (discover program config).tree.entity? id = some entity) :
    Received (discover program config).tree id entity := by
  have reached : Run.Reached program config (Run.start program config).seed.resolve := .resolved .seeded
  have moment := Moment.of_reached reached plain
  rcases Run.rests_sweepUntilIdle config config.maxSweeps 0 formed_seeded (tidy_seeded config plain) with
    ⟨problem, met, limit⟩ | rests
  · exact absurd limit (unlimited problem met)
  · exact received_of_idle moment.outward (idle_of_rests reached.formed (reached.tidy plain) rests) held

/-- A class that keeps its constructor is there in the end. -/
theorem enlisted_discover (plain : program.Plain) (declares : program.DeclaresClass config name)
    (keeps : program.KeepsConstructor config name) :
    ∃ id, (discover program config).tree.Enlisted name id := by
  obtain ⟨id, listed, hangs⟩ := owner_declared plain declares
  obtain ⟨called, _, enlisted, registered⟩ := registers_declared config plain id listed
  obtain ⟨_, rfl⟩ := (formed_declared config program).tree.child_unique hangs enlisted.hangs
  have indexed : (indexed config program).tree.Enlisted name id :=
    (indexSteps_keep plain (fun state => state.tree.Enlisted name id ∧ state.tree.classId? name = some id)
      (fun step formed tidy both => enlisted_indexStep plain keeps.1 step formed tidy both.1 both.2) .refl
      (indexed_steps config program) ⟨enlisted, registered⟩).1
  have defined : (defined config program).tree.Enlisted name id := by
    refine (defineAll_keeps config plain (fun state => state.tree.Enlisted name id)
      (fun {owner held before after} step formed tidy found enlisted => ?_) _ (formed_indexed config program)
      (tidy_indexed config plain) indexed).2.2
    refine enlisted_defineStep plain step formed tidy (Option.isSome_of_eq_some found) enlisted ?_
    rintro rfl
    obtain ⟨_, there, rfl, _⟩ := enlisted.held
    cases found.symm.trans there
    exact keeps.2
  have grows := (grows_discover config program).1
  exact ⟨id, defined.steady grows.links (grows.steady id)⟩

/-- The path of its constructor leads to no variable. -/
theorem variableAt?_constructor (plain : program.Plain) (declares : program.DeclaresClass config name)
    (keeps : program.KeepsConstructor config name) {target : ScopeId}
    (leads : (discover program config).tree.lookup (DottedName.child name "constructor") root = some target) :
    (discover program config).tree.variableAt? target = none := by
  have reached : Run.Reached program config (Run.start program config).seed.resolve := .resolved .seeded
  have formed : (discover program config).tree.Formed := reached.formed.tree
  have tidy : (discover program config).tree.Tidy := (reached.tidy plain).tree
  obtain ⟨id, enlisted⟩ := enlisted_discover plain declares keeps
  obtain ⟨owner, held, _, regular⟩ := enlisted.held
  have below := formed.find?_child (formed.child?_constructor tidy.dotless held)
  rw [raw_of_find? (formed.find?_child enlisted.hangs), DottedName.child_child] at below
  obtain rfl : target = owner.constructor := Option.some.inj ((formed.find?_of_lookup leads).symm.trans below)
  obtain ⟨constructor, known, _⟩ := ((tidy.shaped held).members regular).constructor
  obtain ⟨⟨references, kind⟩, present, isConstructor⟩ := Option.bind_eq_some_iff.1 known
  rw [variableAt?, present]
  cases kind <;> cases isConstructor
  rfl

/-- A variable of the top level ends with all types of the variables to which the paths lead that are
given to it, whatever else is given to it and in whatever order. -/
theorem alias_takes_types {text : String} (config : DiscoveryConfig)
    (parsed : Program.ofText text = .ok program)
    (free : fieldsName ∉ program.names)
    (unlimited : ∀ problem ∈ (discover program config).diagnostics, problem.kind ≠ .sweepLimit)
    (aliased : (name, path) ∈ program.aliases) (unknown : config.builtinType? path = none)
    (away : ¬DottedName.Within config.globalScope path)
    (keeps : ∀ owner, program.DeclaresClass config owner → path = DottedName.child owner "constructor" →
      program.KeepsConstructor config owner)
    {id target : ScopeId} {var held : Variable}
    (hangs : (discover program config).tree.child? root name = some id)
    (stands : (discover program config).tree.variableAt? id = some var)
    (leads : (discover program config).tree.lookup path root = some target)
    (there : (discover program config).tree.variableAt? target = some held) (apart : target ≠ id) :
    ∀ type ∈ held.types, type ∈ var.types := by
  obtain ⟨value, given, written⟩ := Program.mem_aliases.1 aliased
  have plain := plain_ofText parsed free
  have named : path ≠ "" := by
    obtain ⟨file, read, lowered⟩ := Program.exists_file parsed
    have proper := Source.File.proper_program (Source.File.statementsProper_ofText read) lowered
    have within := (given_passes config program given).2.1
    exact ne_empty_of_dottedPath? written fun name member => (proper.names name (within member)).1
  have constructors : ∀ owner, program.DeclaresClass config owner →
      path ≠ DottedName.child owner "constructor" := by
    rintro owner declares rfl
    rw [variableAt?_constructor plain declares (keeps owner declares rfl) leads] at there
    cases there
  have reads := reads_defined plain named away
    (reads_indexed plain named away constructors given written unknown)
  have settles := (grows_discover config program).1.settles
  have reached : Run.Reached program config (Run.start program config).seed.resolve := .resolved .seeded
  have formed : (discover program config).tree.Formed := reached.formed.tree
  rcases reads with taken | taken | ⟨other, top, awaits⟩
  · rw [(taken.settles settles).variableAt? hangs] at stands
    cases stands
  · obtain ⟨kind, standing, variable_⟩ := taken.settles settles
    obtain ⟨top, _, below, _⟩ := standing?_eq_some.1 standing
    obtain rfl : target = top := Option.some.inj
      ((formed.find?_of_lookup leads).symm.trans (formed.find?_child below))
    have none_ := Taken.variableAt? ⟨kind, standing, variable_⟩ below
    rw [none_] at there
    cases there
  · obtain rfl : other = id := Option.some.inj ((settles.links top).symm.trans hangs)
    obtain ⟨references, present⟩ := variableAt?_eq_some stands
    obtain ⟨others, source⟩ := variableAt?_eq_some there
    have waits : (discover program config).tree.Awaits other path :=
      (Moment.of_reached reached plain).awaits named away awaits
    have arrived := Awaits.arrived waits formed present
      (received_discover plain unlimited present) rfl leads apart
    rwa [referenceTypes_of_gathers source rfl] at arrived

/-- A name that is given a path before anything stands there, and other values around it. -/
def aliasText : String := "x = t.f\nlocal x, y = v, 1\nt = \x7b\x7d\nv = y\nt.f = \"s\"\nx = true"

theorem aliased_member : ∃ program, Program.ofText aliasText = .ok program ∧ fieldsName ∉ program.names ∧
    ("x", "t.f") ∈ program.aliases ∧ ¬DottedName.Within "__G" "t.f" ∧ ∃ var held,
      (discover program .default).tree.variableAt? ⟨1⟩ = some var ∧
      (discover program .default).tree.variableAt? ⟨5⟩ = some held ∧
      held.types = .single .string ∧ ∀ type ∈ held.types, type ∈ var.types := by
  obtain ⟨program, parsed, plainly, unlimited, aliased, hangs, stands, leads, types⟩ : ∃ program,
      Program.ofText aliasText = .ok program ∧ fieldsName ∉ program.names ∧
      (∀ problem ∈ (discover program .default).diagnostics, problem.kind ≠ .sweepLimit) ∧
      ("x", "t.f") ∈ program.aliases ∧
      (discover program .default).tree.child? root "x" = some ⟨1⟩ ∧
      ((discover program .default).tree.variableAt? ⟨1⟩).isSome = true ∧
      (discover program .default).tree.lookup "t.f" root = some ⟨5⟩ ∧
      ((discover program .default).tree.variableAt? ⟨5⟩).map Variable.types = some (.single .string) :=
    Program.exists_ofText _ (by decide +kernel)
  obtain ⟨var, stands⟩ := Option.isSome_iff_exists.1 stands
  obtain ⟨held, there, string⟩ := Option.map_eq_some_iff.1 types
  have away : ¬DottedName.Within "__G" "t.f" := by
    unfold DottedName.Within
    decide
  have keeps : ∀ owner, program.DeclaresClass .default owner → "t.f" = DottedName.child owner "constructor" →
      program.KeepsConstructor .default owner := by
    intro owner _ same
    have parts : "t.f" = DottedName.child "t" "f" := rfl
    exact absurd (DottedName.child_inj (by decide) (by decide) (parts.symm.trans same)).2 (by decide)
  exact ⟨program, parsed, plainly, aliased, away, var, held, stands, there, string,
    alias_takes_types .default parsed plainly unlimited aliased (by decide) away keeps hangs
      stands leads there (by decide)⟩

/-- A table that is named like the root, and the name of one of its members among the paths of the scopes. -/
def namesakeRootText : String := "v = 1\nx = v\nx = __G.v\n__G = \x7b\x7d\n__G.v = \"s\""

/-- The reference to a variable is kept under the path that is also the text of the other, which is
turned away for it. -/
theorem alias_turned_away :
    ∃ program, Program.ofText namesakeRootText = .ok program ∧ fieldsName ∉ program.names ∧
    (∀ problem ∈ (discover program .default).diagnostics, problem.kind ≠ .sweepLimit) ∧
    ("x", "__G.v") ∈ program.aliases ∧
    DiscoveryConfig.default.builtinType? "__G.v" = none ∧
    let tree := (discover program .default).tree
    tree.reference? ⟨2⟩ "__G.v" = some (.resolved ⟨1⟩) ∧ tree.child? root "x" = some ⟨2⟩ ∧
      tree.lookup "__G.v" root = some ⟨4⟩ ∧
    ∃ var held, tree.variableAt? ⟨2⟩ = some var ∧ tree.variableAt? ⟨4⟩ = some held ∧
      ¬∀ type ∈ held.types, type ∈ var.types := by
  obtain ⟨program, parsed, plainly, unlimited, aliased, kept, hangs, leads, number, string⟩ : ∃ program,
      Program.ofText namesakeRootText = .ok program ∧ fieldsName ∉ program.names ∧
      (∀ problem ∈ (discover program .default).diagnostics, problem.kind ≠ .sweepLimit) ∧
      ("x", "__G.v") ∈ program.aliases ∧
      (discover program .default).tree.reference? ⟨2⟩ "__G.v" = some (.resolved ⟨1⟩) ∧
      (discover program .default).tree.child? root "x" = some ⟨2⟩ ∧
      (discover program .default).tree.lookup "__G.v" root = some ⟨4⟩ ∧
      ((discover program .default).tree.variableAt? ⟨2⟩).map Variable.types = some (.single .number) ∧
      ((discover program .default).tree.variableAt? ⟨4⟩).map Variable.types = some (.single .string) :=
    Program.exists_ofText _ (by decide +kernel)
  obtain ⟨var, stands, number⟩ := Option.map_eq_some_iff.1 number
  obtain ⟨held, there, string⟩ := Option.map_eq_some_iff.1 string
  refine ⟨program, parsed, plainly, unlimited, aliased, by
    decide, kept, hangs, leads, var, held, stands, there, ?_⟩
  intro all
  rw [number, string] at all
  cases TypeSet.mem_single.1 (all .string (TypeSet.mem_single.2 rfl))

end Discovery
end LuaClasses
