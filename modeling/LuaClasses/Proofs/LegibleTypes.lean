import LuaClasses.Proofs.KnownTypes
import LuaClasses.Proofs.TopNames

/-! The types that a discovery finds, in dumps and in reports. A set of types is read back from a dump
unless a class in it is named by a word for a kind of value. The reports of discoveries give all sets
away if no class that is declared or configured is named like a kind or `any`, since names have no
bars. -/

namespace LuaClasses
open Discovery

/-- Whether a variable or a function has just these types when the discovery ends. -/
def Program.Finds (program : Program) (config : DiscoveryConfig) (set : TypeSet) : Prop :=
  ∃ id entity, (discover program config).tree.entity? id = some entity ∧ entity.gathered? = some set

private theorem Program.Finds.of_entity {program : Program} {config : DiscoveryConfig} {set : TypeSet}
    (id : ScopeId) (held : ((discover program config).tree.entity? id).bind Entity.gathered? = some set) :
    program.Finds config set := by
  obtain ⟨entity, found, gathers⟩ := Option.bind_eq_some_iff.1 held
  exact ⟨id, entity, found, gathers⟩

/-- Whether no class that is declared, or that the type of a configured path names, can be taken for
another type or for none. -/
structure Program.Legible (program : Program) (config : DiscoveryConfig) : Prop where
  declared : ∀ name ∈ program.classNames config, name ∉ LuaType.kinds.map LuaType.text ∧ name ≠ "any"
  configured : ∀ type ∈ config.builtins.values, type.Legible

instance (program : Program) (config : DiscoveryConfig) : Decidable (program.Legible config) :=
  decidable_of_iff ((∀ name ∈ program.classNames config,
    name ∉ LuaType.kinds.map LuaType.text ∧ name ≠ "any") ∧
      ∀ type ∈ config.builtins.values, type.Legible)
    ⟨fun parts => ⟨parts.1, parts.2⟩, fun legible => ⟨legible.declared, legible.configured⟩⟩

variable {text text' : String} {program program' : Program} {config : DiscoveryConfig} {set : TypeSet}

namespace Program.Finds

theorem known (found : program.Finds config set) : ∀ type ∈ set, type ∈ program.knownTypes config := by
  obtain ⟨id, entity, held, gathers⟩ := found
  have reached : Run.Reached program config (Run.start program config).seed.resolve := .resolved .seeded
  have known : (discover program config).tree.Known program config := .of_arises (.of_reached reached)
  intro type member
  refine (known held).types type ?_
  rw [Entity.gathered, gathers]
  exact member

/-- A class that is found is declared, or the type of a configured path names it. -/
theorem origin (found : program.Finds config set) {name : String} (member : .instanceOf name ∈ set) :
    name ∈ program.classNames config ∨ .instanceOf name ∈ config.builtins.values := by
  have listed := found.known _ member
  rw [Program.knownTypes, List.append_assoc, List.mem_append, List.mem_append] at listed
  rcases listed with kind | configured | declared
  · cases LuaType.mem_kinds.1 kind
  · exact .inr configured
  · obtain ⟨_, declared, same⟩ := List.mem_map.1 declared
    cases same
    exact .inl declared

theorem legible (found : program.Finds config set) (parsed : Program.ofText text = .ok program)
    (legible : program.Legible config) :
    set.Legible := by
  intro type member
  cases type with
  | instanceOf name =>
    rcases found.origin member with declared | configured
    · obtain ⟨kind, any⟩ := legible.declared name declared
      exact ⟨kind, any, program.classNames_unbarred parsed declared⟩
    · exact legible.configured _ configured
  | _ => exact trivial

end Program.Finds

/-- The types that a discovery finds are read back exactly if no class among them is named by a word.
What is shown of the types that two discoveries find, or of none, is the same only for the same types, if
no class is named like something else. -/
theorem Program.found_types_legible (parsed : Program.ofText text = .ok program)
    (parsed' : Program.ofText text' = .ok program') (config config' : DiscoveryConfig) :
    (∀ set, program.Finds config set →
      set.toJson = .strings set.texts ∧
      (TypeSet.ofTexts set.texts = set ↔ ∀ name, .instanceOf name ∈ set → name ∉ LuaType.words) ∧
      ∀ name, .instanceOf name ∈ set → name ∈ program.classNames config ∨
        .instanceOf name ∈ config.builtins.values) ∧
    (program.Legible config → program'.Legible config' →
      ∀ set set', set = .empty ∨ program.Finds config set → set' = .empty ∨ program'.Finds config' set' →
        (set.render = set'.render ↔ set = set')) := by
  refine ⟨fun set found => ⟨set.toJson_eq_strings, set.ofTexts_texts_iff, fun _ => found.origin⟩, ?_⟩
  intro legible legible' set set' found found'
  have none : TypeSet.empty.Legible := nofun
  have one : set.Legible := found.elim (fun bare => bare ▸ none) fun found => found.legible parsed legible
  have other : set'.Legible := found'.elim (fun bare => bare ▸ none) fun found =>
    found.legible parsed' legible'
  exact one.render_inj other

/-- A class of the given name, an instance of it in `x`, and what the configured function `mk` makes in
`y`. -/
def madeText (name : String) : String :=
  name ++ " = ISBaseObject:derive(\"" ++ name ++ "\")\nfunction " ++ name ++
    ".new() local o = \x7b\x7d return o end\nx = " ++ name ++
    ".new()\ny = mk()"

/-- The function `mk` makes what the text says. -/
def makingConfig (made : String) : DiscoveryConfig :=
  { DiscoveryConfig.default with builtins := .ofList [("mk", .ofText made)] }

theorem made_types_legible :
    ∃ program, Program.ofText (madeText "Foo") = .ok program ∧ program.Legible (makingConfig "number") ∧
    program.Finds (makingConfig "number") (.single (.instanceOf "Foo")) ∧
    TypeSet.ofTexts (TypeSet.single (.instanceOf "Foo")).texts = .single (.instanceOf "Foo") ∧
    (TypeSet.single (.instanceOf "Foo")).render ≠ TypeSet.empty.render := by
  obtain ⟨program, parsed, legible, made⟩ : ∃ program, Program.ofText (madeText "Foo") = .ok program ∧
      program.Legible (makingConfig "number") ∧
      ((discover program (makingConfig "number")).tree.entity? ⟨3⟩).bind Entity.gathered? =
      some (.single (.instanceOf "Foo")) :=
    Program.exists_ofText _ (by decide +kernel)
  have found : program.Finds (makingConfig "number") (.single (.instanceOf "Foo")) := .of_entity ⟨3⟩ made
  obtain ⟨back, shown⟩ := Program.found_types_legible parsed parsed
    (makingConfig "number") (makingConfig "number")
  refine ⟨program, parsed, legible, found, (back _ found).2.1.2 fun name member => ?_, fun same => ?_⟩
  · cases TypeSet.mem_single.1 member
    decide
  · exact TypeSet.single_ne_empty _ ((shown legible legible _ _ (.inr found) (.inl rfl)).1 same)

/-- A class that is named by a word is read back as the kind of value, and one that is named like a kind
is shown as the kind. -/
theorem class_taken_for_kind :
    (∃ program, Program.ofText (madeText "bool") = .ok program ∧
      program.Finds (makingConfig "bool") (.single (.instanceOf "bool")) ∧
      program.Finds (makingConfig "bool") (.single .boolean) ∧
      TypeSet.ofTexts (TypeSet.single (.instanceOf "bool")).texts = .single .boolean) ∧
    ∃ program, Program.ofText (madeText "number") = .ok program ∧
      program.Finds (makingConfig "number") (.single (.instanceOf "number")) ∧
      program.Finds (makingConfig "number") (.single .number) ∧
      (TypeSet.single (.instanceOf "number")).render = (TypeSet.single .number).render := by
  have finds (name : String) (type : LuaType)
      (tested : (Source.File.ofText? (madeText name)).any
      (fun file => file.program.toOption.any fun program =>
      decide (((discover program (makingConfig name)).tree.entity? ⟨3⟩).bind Entity.gathered? =
        some (.single (.instanceOf name)) ∧
        ((discover program (makingConfig name)).tree.entity? ⟨4⟩).bind Entity.gathered? =
        some (.single type))) = true) :
      ∃ program, Program.ofText (madeText name) = .ok program ∧
        program.Finds (makingConfig name) (.single (.instanceOf name)) ∧
          program.Finds (makingConfig name) (.single type) := by
    obtain ⟨program, parsed, one, other⟩ := Program.exists_ofText _ tested
    exact ⟨program, parsed, .of_entity ⟨3⟩ one, .of_entity ⟨4⟩ other⟩
  obtain ⟨first, parsed, made, told⟩ := finds "bool" .boolean (by decide +kernel)
  obtain ⟨second, parsed', made', told'⟩ := finds "number" .number (by decide +kernel)
  exact ⟨⟨first, parsed, made, told, by decide⟩, second, parsed', made', told', by decide⟩

end LuaClasses
