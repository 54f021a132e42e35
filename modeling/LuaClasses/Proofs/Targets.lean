import LuaClasses.Proofs.Horizon
import Mathlib.Data.List.Infix

/-! The names under which an expression may leave references, and the types that it may tell. Both follow
from the expression and the names of the classes, whatever the tree is. -/

namespace LuaClasses

/-- The names under which the result of a call of a path is looked up, whatever class the instance
belongs to. -/
def callTargets (config : DiscoveryConfig) (classes : List String) (path : String) : List String :=
  match DottedName.splitLast? path with
  | none => [path]
  | some (object, method) =>
    let method := if method = config.constructorName then "constructor" else method
    DottedName.child object method :: classes.map fun owner => DottedName.child owner method

/-- The names under which an expression may leave a reference that leads nowhere. -/
def Expr.targets (config : DiscoveryConfig) (classes : List String) : Expr → List String
  | .paren inner => inner.targets config classes
  | .name path => [path]
  | .member object key =>
    match object.dottedPath? with
    | some base =>
      DottedName.child base key ::
        classes.map fun owner => DottedName.child (DottedName.child owner ScopeTree.fieldsName) key
    | none => []
  | .call callee _ =>
    match callee.dottedPath? with
    | some path => callTargets config classes path
    | none => []
  | .methodCall object method _ =>
    match object.dottedPath? with
    | some base => callTargets config classes (DottedName.child base method)
    | none => []
  | .binary _ left right => left.targets config classes ++ right.targets config classes
  | _ => []

theorem UnaryOp.resultType_plain (op : UnaryOp) : op.resultType.isInstance = false := by
  cases op <;> rfl

private theorem BinaryOp.resultType?_plain {op : BinaryOp} {type : LuaType}
    (tells : op.resultType? = some type) :
    type.isInstance = false := by
  cases op <;> cases tells <;> rfl

theorem Expr.literalType?_plain {expr : Expr} {type : LuaType} (tells : expr.literalType? = some type) :
    type.isInstance = false := by
  unfold literalType? at tells
  split at tells <;> cases tells <;> rfl

namespace Discovery

private theorem callTarget?_mem {config : DiscoveryConfig} {tree : ScopeTree} {frame : Frame}
    {path target : String} {classes : List String}
    (named : ∀ {id owner}, tree.classAt? id = some owner → owner.name ∈ classes)
    (called : callTarget? config tree frame path = some target) :
    target ∈ callTargets config classes path := by
  unfold callTarget? at called
  unfold callTargets
  cases whole : DottedName.splitLast? path with
  | none =>
    rw [whole] at called
    cases called
    exact List.mem_singleton_self _
  | some parts =>
    rw [whole] at called
    dsimp only at called ⊢
    split at called
    next =>
      obtain ⟨owner, found, rfl⟩ := Option.map_eq_some_iff.1 called
      obtain ⟨id, _, held⟩ := Option.bind_eq_some_iff.1 found
      exact List.mem_cons_of_mem _ (List.mem_map_of_mem (named held))
    next => cases called; exact List.mem_cons_self

end Discovery

open Discovery
namespace Horizon

variable {horizon : Horizon} {config : DiscoveryConfig}

private theorem admits_none : horizon.Admits .none := ⟨nofun, nofun⟩

private theorem admits_ofType {type : LuaType} (within : type ∈ horizon.types) :
    horizon.Admits (.ofType type) := by
  refine ⟨fun other member => ?_, nofun⟩
  rw [List.mem_singleton.1 member]
  exact within

private theorem admits_resolved (target : ScopeId) : horizon.Admits (.resolved target) := ⟨nofun, nofun⟩

private theorem admits_unresolved {target : String} (within : target ∈ horizon.keys) (origin : ScopeId) :
    horizon.Admits (.unresolved target origin) := by
  refine ⟨nofun, fun other place same => ?_⟩
  cases same
  exact within

section Classify

variable {tree : ScopeTree} (holds : horizon.Holds tree) (closed : horizon.Closed config) (frame : Frame)

include closed

private theorem admits_valueOf (tree : ScopeTree) (id : ScopeId) : horizon.Admits (valueOf tree id) := by
  unfold valueOf
  split
  next => exact admits_resolved id
  next => exact admits_ofType (closed.plain _ rfl)
  next => exact admits_ofType (closed.plain _ rfl)
  next => exact admits_ofType (closed.plain _ rfl)
  next => exact admits_ofType (closed.plain _ rfl)
  next => exact admits_none
  next => exact admits_none

private theorem admits_classifyPath {path : String} (within : path ∈ horizon.keys) (tree : ScopeTree) :
    horizon.Admits (classifyPath tree frame path) := by
  unfold classifyPath
  split
  next id _ => exact admits_valueOf closed tree id
  next => exact admits_unresolved within frame.scope

private theorem admits_classifyName {name : String} (within : name ∈ horizon.keys) (tree : ScopeTree) :
    horizon.Admits (classifyName config tree frame name) := by
  unfold classifyName
  split
  next type known => exact admits_ofType (closed.builtin known)
  next =>
    split
    next =>
      split
      next owner _ => exact admits_resolved owner
      next => exact admits_none
    next => exact admits_classifyPath closed frame within tree

include holds

private theorem admits_classifyInstanceMember {name : String}
    (within : ∀ owner ∈ horizon.names, DottedName.child
      (DottedName.child owner ScopeTree.fieldsName) name ∈ horizon.keys)
    :
    horizon.Admits (classifyInstanceMember tree frame name) := by
  unfold classifyInstanceMember
  split
  next => exact admits_none
  next owner nearest =>
    obtain ⟨id, _, held⟩ := Option.bind_eq_some_iff.1 nearest
    split
    next field _ => exact admits_resolved field
    next =>
      split
      next => exact admits_ofType (closed.plain _ rfl)
      next => exact admits_unresolved (within _ (holds.className held)) frame.scope

private theorem admits_classifyMember {object : Expr} {name : String}
    (within : (Expr.member object name).targets config horizon.names ⊆ horizon.keys) :
    horizon.Admits (classifyMember config tree frame object name) := by
  unfold classifyMember
  unfold Expr.targets at within
  cases based : object.dottedPath? with
  | none => exact admits_none
  | some base =>
    rw [based] at within
    obtain ⟨path, fields⟩ := List.cons_subset.1 within
    dsimp only
    split
    next type known => exact admits_ofType (closed.builtin known)
    next =>
      split
      next receiver _ =>
        split
        next =>
          exact admits_classifyInstanceMember holds closed frame fun owner member =>
            fields (List.mem_map_of_mem member)
        next => exact admits_classifyPath closed frame path tree
      next => exact admits_classifyPath closed frame path tree

private theorem admits_classifyCall {path : String}
    (within : callTargets config horizon.names path ⊆ horizon.keys) :
    horizon.Admits (classifyCall config tree frame path) := by
  unfold classifyCall
  split
  next type known => exact admits_ofType (closed.builtin known)
  next =>
    split
    next => exact admits_none
    next target called =>
      split
      next =>
        exact admits_unresolved (within (callTarget?_mem
          (fun held => holds.className held) called)) frame.scope
      next id _ =>
        split
        next => exact admits_resolved id
        next =>
          split
          next type made => exact admits_ofType (holds.instanceOfConstructor? closed made)
          next => exact admits_none
        next => exact admits_none

/-- What an expression tells is within a horizon that has its targets. -/
theorem admits_classify {expr : Expr} (within : expr.targets config horizon.names ⊆ horizon.keys) :
    horizon.Admits (classify config tree frame expr) := by
  induction expr using Expr.targets.induct with
  | case1 inner ih => exact ih within
  | case2 name => exact admits_classifyName closed frame (within List.mem_cons_self) tree
  | case3 object name base based => exact admits_classifyMember holds closed frame within
  | case4 object name based => exact admits_classifyMember holds closed frame within
  | case5 callee args path called =>
    unfold Expr.targets at within
    unfold classify
    rw [called] at within ⊢
    exact admits_classifyCall holds closed frame within
  | case6 callee args called =>
    unfold classify
    rw [called]
    exact admits_none
  | case7 object method args base based =>
    unfold Expr.targets at within
    unfold classify
    rw [based] at within ⊢
    exact admits_classifyCall holds closed frame within
  | case8 object method args based =>
    unfold classify
    rw [based]
    exact admits_none
  | case9 op left right first second =>
    unfold Expr.targets at within
    obtain ⟨one, two⟩ := List.append_subset.1 within
    unfold classify
    split
    next type tells => exact admits_ofType (closed.plain _ (BinaryOp.resultType?_plain tells))
    next =>
      refine ⟨fun type member => ?_, fun _ _ leads => by cases leads⟩
      exact (TypeSet.mem_union.1 member).elim ((first one).types type) ((second two).types type)
  | case10 expr notParen notName notMember notCall notMethodCall notBinary =>
    cases expr with
    | paren inner => exact (notParen inner rfl).elim
    | name path => exact (notName path rfl).elim
    | member object key => exact (notMember object key rfl).elim
    | call callee args => exact (notCall callee args rfl).elim
    | methodCall object method args => exact (notMethodCall object method args rfl).elim
    | binary op left right => exact (notBinary op left right rfl).elim
    | unary op operand => exact admits_ofType (closed.plain _ op.resultType_plain)
    | _ =>
      unfold classify
      split
      next type tells => exact admits_ofType (closed.plain _ (Expr.literalType?_plain tells))
      next => exact admits_none

theorem admits_classifyValue {value : Option Expr}
    (within : ∀ expr ∈ value.toList, expr.targets config horizon.names ⊆ horizon.keys) :
    horizon.Admits (classifyValue config tree frame value) := by
  cases value with
  | none => exact admits_none
  | some expr => exact admits_classify holds closed frame (within expr (List.mem_singleton_self expr))

theorem admits_returnEvidence {values : List Expr}
    (within : ∀ expr ∈ values.head?.toList, expr.targets config horizon.names ⊆ horizon.keys) :
    horizon.Admits (returnEvidence config tree frame values) := by
  cases values with
  | nil => exact admits_ofType (closed.plain _ rfl)
  | cons first rest => exact admits_classify holds closed frame (within first (List.mem_singleton_self first))

end Classify

end Horizon
end LuaClasses
