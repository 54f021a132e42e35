import LuaClasses.Proofs.Standing

/-! How the top level of a program gives meanings to names, and what the tree holds of them. A function
takes the place of what its name stood for; a table or a value does not, but a table is listed all the
same. -/

namespace LuaClasses

/-- A way in which the top level gives a meaning to a name. -/
inductive Naming where
  /-- `function name()` -/
  | declaration
  /-- A function that is assigned to the name. -/
  | function
  | table
  | value
  deriving DecidableEq

namespace Naming

def isFunction : Naming → Bool
  | .declaration => true
  | .function => true
  | .table => false
  | .value => false

/-- Whether an entity is what a naming makes of a name that stands for nothing else. -/
def Makes : Naming → EntityKind → Prop
  | .declaration, .function held => held.kind = .global
  | .function, .function held => held.kind = .global
  | .table, .table _ => True
  | .value, .variable _ => True
  | _, _ => False

theorem makes_cases {naming : Naming} {kind : EntityKind} (makes : naming.Makes kind) :
    (naming = .value ∧ ∃ var, kind = .variable var) ∨
      (naming.isFunction = true ∧ ∃ held, kind = .function held ∧ held.kind = .global) ∨
      naming = .table ∧ ∃ table, kind = .table table := by
  cases naming <;> cases kind <;> simp_all [Makes, isFunction]

def follow (latest : List Naming) (naming : Naming) : List Naming :=
  if naming.isFunction then [naming] else latest ++ [naming]

/-- The namings from the last function on, or all of them where there is no function. -/
def latest (namings : List Naming) : List Naming := namings.foldl follow []

theorem latest_append (namings : List Naming) (naming : Naming) :
    latest (namings ++ [naming]) = follow (latest namings) naming := by
  rw [latest, List.foldl_append]
  rfl

end Naming

namespace Discovery

/-- The meaning that a value gives to the name it is given to. A class declaration gives none here. -/
def namingOf? (config : DiscoveryConfig) (value : Option Expr) : Option Naming :=
  if (value.bind (deriveBase? config)).isSome then none
  else
    match value.map Expr.unparen with
    | some (.function _) => some .function
    | some (.table _) => some .table
    | _ => some .value

/-- The names that a statement of the top level gives meanings to. -/
def statementNamings (config : DiscoveryConfig) : StmtKind → List (String × Naming)
  | .function name _ _ => name.plain?.toList.map (·, .declaration)
  | .local_ names values =>
    (opposite names values).filterMap fun (name, value) => (namingOf? config value).map (name, ·)
  | .assign targets values =>
    (opposite targets values).filterMap fun (target, value) =>
      target.unparen.name?.bind fun name => (namingOf? config value).map (name, ·)
  | _ => []

/-- The meanings that are given to one name, in order. -/
def namingsOf (name : String) (namings : List (String × Naming)) : List Naming :=
  namings.filterMap fun (named, naming) => if named = name then some naming else none

end Discovery

/-- The names that the top level gives meanings to, in order. -/
def Program.namings (program : Program) (config : DiscoveryConfig) : List (String × Naming) :=
  program.body.flatMap fun stmt => Discovery.statementNamings config stmt.kind

/-- The namings of a name from its last function on. -/
def Program.latestNamings (program : Program) (config : DiscoveryConfig) (name : String) : List Naming :=
  Naming.latest (Discovery.namingsOf name (program.namings config))

namespace ScopeTree

/-- The scopes that the indices of values, functions and tables give for a name. -/
def listing (tree : ScopeTree) (name : String) : Option ScopeId × Option ScopeId × Option ScopeId :=
  (tree.globals.values.get? name, tree.globals.functions.get? name, tree.globals.tables.get? name)

end ScopeTree

namespace Discovery
open ScopeTree Relation

variable {config : DiscoveryConfig} {program : Program} {name : String}

theorem namingsOf_append (name : String) (first second : List (String × Naming)) :
    namingsOf name (first ++ second) = namingsOf name first ++ namingsOf name second :=
  List.filterMap_append

theorem namingsOf_single (name other : String) (naming : Naming) :
    namingsOf name [(other, naming)] = if other = name then [naming] else [] := by
  by_cases same : other = name <;> simp [namingsOf, same]

/-- A name is declared a function exactly if one of its namings is a declaration. -/
theorem declaration_mem_iff :
    .declaration ∈ namingsOf name (program.namings config) ↔ program.DeclaresFunction name := by
  have mem : .declaration ∈ namingsOf name (program.namings config) ↔
      (name, .declaration) ∈ program.namings config := by
    simp [namingsOf]
  have never : ∀ value, namingOf? config value ≠ some .declaration := by
    intro value
    unfold namingOf?
    split
    · nofun
    · split <;> nofun
  rw [mem, Program.namings, List.mem_flatMap]
  refine exists_congr fun stmt => and_congr_right fun _ => ?_
  cases kind : stmt.kind with
  | function written isLocal body => simp [statementNamings]
  | local_ names values => simp [statementNamings, never]
  | assign targets values =>
    suffices ∀ target value, (target, value) ∈ opposite targets values →
        (target.unparen.name?.bind fun name => (namingOf? config value).map (name, ·)) ≠
        some (name, .declaration) by
      simpa [statementNamings] using this
    intro target value _ given
    obtain ⟨bound, _, entry⟩ := Option.bind_eq_some_iff.1 given
    obtain ⟨naming, held, same⟩ := Option.map_eq_some_iff.1 entry
    cases same
    exact never value held
  | _ => simp [statementNamings]

/-! ### What the tree holds of a name -/

/-- What the tree holds of a name that is not a class, by its latest namings: the first of them made the
entity, and every table among them is listed. -/
def Filed (tree : ScopeTree) (name : String) : List Naming → Prop
  | [] => tree.standing? name = none ∧ tree.listing name = (none, none, none)
  | first :: rest =>
    ∃ id kind, tree.child? root name = some id ∧ tree.standing? name = some kind ∧ first.Makes kind ∧
      tree.listing name = (if first = .value then some id else none,
        if first.isFunction then some id else none,
        if .table ∈ first :: rest then some id else none)

/-- What the tree holds of a class: only a declaration of a function takes its place. -/
structure FiledClass (tree : ScopeTree) (name : String) (id : ScopeId) (namings : List Naming) : Prop where
  hangs : tree.child? root name = some id
  class_ : .declaration ∉ namings → ∃ held, tree.standing? name = some (.class_ held)
  listing : tree.listing name = (none, if .declaration ∈ namings then some id else none, none)

variable {before after : ScopeTree}

theorem Filed.carry {latest : List Naming} (filed : Filed before name latest)
    (links : before.Links after) (stands : after.standing? name = before.standing? name)
    (listed : after.listing name = before.listing name) :
    Filed after name latest := by
  cases latest with
  | nil => exact ⟨stands.trans filed.1, listed.trans filed.2⟩
  | cons first rest =>
    obtain ⟨id, kind, hangs, known, makes, entries⟩ := filed
    exact ⟨id, kind, links hangs, stands.trans known, makes, listed.trans entries⟩

theorem FiledClass.carry {id : ScopeId} {namings : List Naming} (filed : FiledClass before name id namings)
    (links : before.Links after) (stands : after.standing? name = before.standing? name)
    (listed : after.listing name = before.listing name) : FiledClass after name id namings :=
  ⟨links filed.hangs, fun free => by rw [stands]; exact filed.class_ free, listed.trans filed.listing⟩

/-- A table is listed beside what its name stands for. -/
theorem Filed.table {id : ScopeId} {table : Table} {latest : List Naming} (filed : Filed before name latest)
    (links : before.Links after)
    (written : Writes before after name id ((before.standing? name).getD (.table table)))
    (listed : after.listing name = ((before.listing name).1, (before.listing name).2.1, some id)) :
    Filed after name (Naming.follow latest .table) := by
  cases latest with
  | nil =>
    obtain ⟨vacant, unlisted⟩ := filed
    rw [unlisted] at listed
    refine ⟨id, .table table, written.hangs, ?_, trivial, by simpa [Naming.isFunction] using listed⟩
    rw [written.stands, vacant, Option.getD_none]
  | cons first rest =>
    obtain ⟨old, kind, hangs, known, makes, entries⟩ := filed
    obtain rfl : id = old := Option.some.inj (written.hangs.symm.trans (links hangs))
    have grown : Naming.follow (first :: rest) .table = first :: (rest ++ [.table]) := rfl
    rw [grown]
    refine ⟨id, kind, written.hangs, by rw [written.stands, known, Option.getD_some], makes, ?_⟩
    rw [listed, entries]
    simp

/-- A value is listed if its name stands for nothing else. -/
theorem Filed.value {id : ScopeId} {var : Variable} {latest : List Naming} (filed : Filed before name latest)
    (links : before.Links after)
    (written : Writes before after name id ((before.standing? name).getD (.variable var)))
    (listed : (∃ var, after.standing? name = some (.variable var)) →
      after.listing name = (some id, (before.listing name).2.1, (before.listing name).2.2))
    (unlisted : (¬∃ var, after.standing? name = some (.variable var)) →
      after.listing name = before.listing name) :
    Filed after name (Naming.follow latest .value) := by
  cases latest with
  | nil =>
    obtain ⟨vacant, nothing⟩ := filed
    have stands : after.standing? name = some (.variable var) := by
      rw [written.stands, vacant, Option.getD_none]
    refine ⟨id, .variable var, written.hangs, stands, trivial, ?_⟩
    rw [listed ⟨var, stands⟩, nothing]
    simp [Naming.isFunction]
  | cons first rest =>
    obtain ⟨old, kind, hangs, known, makes, entries⟩ := filed
    obtain rfl : id = old := Option.some.inj (written.hangs.symm.trans (links hangs))
    have stands : after.standing? name = some kind := by rw [written.stands, known, Option.getD_some]
    have grown : Naming.follow (first :: rest) .value = first :: (rest ++ [.value]) := rfl
    have tables : .table ∈ first :: (rest ++ [Naming.value]) ↔ .table ∈ first :: rest := by simp
    rw [grown]
    refine ⟨id, kind, written.hangs, stands, makes, ?_⟩
    simp only [tables]
    by_cases isValue : first = .value
    · subst isValue
      cases kind with
      | «variable» held => rw [listed ⟨held, stands⟩, entries, if_pos rfl]
      | _ => cases makes
    · rw [unlisted, entries]
      rintro ⟨held, same⟩
      cases stands.symm.trans same
      cases first with
      | value => exact isValue rfl
      | _ => cases makes

end Discovery
end LuaClasses
