import LuaClasses.Discovery.Evidence

/-! Types that flow along references. References that led nowhere are looked up again, and the
types of every target are added to the entity that refers to it. -/

namespace LuaClasses.Discovery

/-- The target of a reference held by `owner`: the one it has, or the one it now leads to. No
reference leads to its own holder. -/
def destination? (tree : ScopeTree) (owner : ScopeId) : Reference → Option ScopeId
  | .resolved target => some target
  | .unresolved target origin => (tree.lookup target origin).filter fun found => found ≠ owner

/-- The types that come in along the references of `owner`. -/
def incoming (tree : ScopeTree) (owner : ScopeId) (references : List Reference) : TypeSet :=
  references.foldl (fun types reference =>
    match destination? tree owner reference with
    | some target => types ∪ referenceTypes tree target
    | none => types) .empty

/-- A reference with the target it now leads to. -/
def settle (tree : ScopeTree) (owner : ScopeId) (reference : Reference) : Reference :=
  match destination? tree owner reference with
  | some target => .resolved target
  | none => reference

/-- The number of references that now lead to a target and did not before. -/
def settledCount (tree : ScopeTree) (owner : ScopeId) (references : List Reference) : Nat :=
  references.countP fun reference => !reference.isResolved && (destination? tree owner reference).isSome

/-- Settle the references of one entity and let it gather what comes in along them. -/
def propagateInto (tree : ScopeTree) (owner : ScopeId) : ScopeTree × Nat :=
  match tree.entity? owner with
  | none => (tree, 0)
  | some entity =>
    let references := entity.references.values
    let types := incoming tree owner references
    let settled := { entity with references := entity.references.mapValues (settle tree owner) }
    (tree.setEntity owner (settled.gather types), settledCount tree owner references + entity.newTypes types)

/-- The scopes whose entities hold references. -/
def referrers (tree : ScopeTree) : List ScopeId :=
  tree.occupied.filterMap fun (id, _, entity) => if entity.references.isEmpty then none else some id

/-- Propagate into every entity that holds references, one after the other. -/
def propagate (tree : ScopeTree) : ScopeTree × Nat :=
  (referrers tree).foldl (fun (tree, found) owner =>
    let (tree, more) := propagateInto tree owner
    (tree, found + more)) (tree, 0)

end LuaClasses.Discovery
