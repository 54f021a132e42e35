/-! The types that are inferred for Lua values, and sets of them in a fixed order. Sets only
grow, and two sets with the same members are equal. -/

namespace LuaClasses

/-- A type supported by the text of a program. An instance belongs to a named class; every
other type is a kind of Lua value. `void` marks a function that returns nothing. -/
inductive LuaType where
  | nil
  | boolean
  | number
  | string
  | table
  | function
  | vararg
  | void
  | instanceOf (className : String)
  deriving DecidableEq, Repr, Inhabited

namespace LuaType

def text : LuaType → String
  | .nil => "nil"
  | .boolean => "boolean"
  | .number => "number"
  | .string => "string"
  | .table => "table"
  | .function => "function"
  | .vararg => "..."
  | .void => "void"
  | .instanceOf className => className

/-- Read a written type. A word that names no kind of Lua value names a class. -/
def ofText : String → LuaType
  | "nil" => .nil
  | "boolean" => .boolean
  | "bool" => .boolean
  | "number" => .number
  | "string" => .string
  | "table" => .table
  | "function" => .function
  | "..." => .vararg
  | "vararg" => .vararg
  | "void" => .void
  | other => .instanceOf other

def isInstance : LuaType → Bool
  | .instanceOf _ => true
  | _ => false

def rank : LuaType → Nat
  | .nil => 0
  | .boolean => 1
  | .number => 2
  | .string => 3
  | .table => 4
  | .function => 5
  | .vararg => 6
  | .void => 7
  | .instanceOf _ => 8

/-- The order of listing: the kinds of Lua value first, then instances by class name. -/
def compare : LuaType → LuaType → Ordering :=
  compareLex (compareOn rank) (compareOn text)

instance : Std.TransCmp compare :=
  inferInstanceAs (Std.TransCmp (compareLex (compareOn rank) (compareOn text)))

theorem eq_of_compare {first second : LuaType} (same : compare first second = .eq) :
    first = second := by
  simp only [compare, compareLex, compareOn, Ordering.then_eq_eq] at same
  have ranks := Std.LawfulEqCmp.eq_of_compare same.1
  have texts := Std.LawfulEqCmp.eq_of_compare same.2
  cases first <;> cases second <;> simp_all [rank, text]

end LuaType

/-- A set of types, listed in order without repetition. -/
structure TypeSet where
  types : List LuaType
  ordered : types.Pairwise fun first second => first.compare second = .lt

namespace TypeSet

def empty : TypeSet := ⟨[], .nil⟩

instance : EmptyCollection TypeSet := ⟨empty⟩

instance : Inhabited TypeSet := ⟨empty⟩

theorem eq_of_types {first second : TypeSet} (same : first.types = second.types) :
    first = second := by
  cases first; cases second; simp_all

instance : DecidableEq TypeSet := fun first second =>
  if same : first.types = second.types then .isTrue (eq_of_types same)
  else .isFalse fun equal => same (congrArg types equal)

def single (type : LuaType) : TypeSet := ⟨[type], List.pairwise_singleton _ _⟩

def contains (set : TypeSet) (type : LuaType) : Bool := set.types.contains type

instance : Membership LuaType TypeSet := ⟨fun set type => type ∈ set.types⟩

theorem mem_def {set : TypeSet} {type : LuaType} : type ∈ set ↔ type ∈ set.types := .rfl

theorem mem_single {type other : LuaType} : type ∈ single other ↔ type = other := List.mem_singleton

theorem single_inj {one two : LuaType} (same : single one = single two) : one = two := by
  have types := congrArg types same
  exact List.head_eq_of_cons_eq types

theorem single_ne_empty (type : LuaType) : single type ≠ empty := by
  intro same
  have types := congrArg types same
  cases types

def size (set : TypeSet) : Nat := set.types.length

def isEmpty (set : TypeSet) : Bool := set.types.isEmpty

/-- Put a type at its place in an ordered list, unless it is there already. -/
def place (type : LuaType) : List LuaType → List LuaType
  | [] => [type]
  | head :: rest =>
    match type.compare head with
    | .lt => type :: head :: rest
    | .eq => head :: rest
    | .gt => head :: place type rest

theorem mem_place {type other : LuaType} {types : List LuaType} :
    other ∈ place type types ↔ other = type ∨ other ∈ types := by
  induction types with
  | nil => simp [place]
  | cons head rest ih =>
    unfold place
    split
    · simp
    · next same => cases LuaType.eq_of_compare same; simp
    · simp only [List.mem_cons, ih]
      exact or_left_comm

private theorem ordered_place {type : LuaType} {types : List LuaType}
    (ordered : types.Pairwise fun first second => first.compare second = .lt) :
    (place type types).Pairwise fun first second => first.compare second = .lt := by
  induction types with
  | nil => simp [place]
  | cons head rest ih =>
    obtain ⟨first, after⟩ := List.pairwise_cons.1 ordered
    unfold place
    split
    · next before =>
      refine List.pairwise_cons.2 ⟨fun other member => ?_, ordered⟩
      rcases List.mem_cons.1 member with rfl | member
      · exact before
      · exact Std.TransCmp.lt_trans before (first other member)
    · exact ordered
    · next behind =>
      refine List.pairwise_cons.2 ⟨fun other member => ?_, ih after⟩
      rcases mem_place.1 member with rfl | member
      · exact Std.OrientedCmp.gt_iff_lt.1 behind
      · exact first other member

def insert (set : TypeSet) (type : LuaType) : TypeSet :=
  ⟨place type set.types, ordered_place set.ordered⟩

@[simp] theorem mem_insert {set : TypeSet} {type other : LuaType} :
    other ∈ set.insert type ↔ other = type ∨ other ∈ set := mem_place

def ofList (types : List LuaType) : TypeSet := types.foldl insert empty

/-- The types of either set. -/
def union (set other : TypeSet) : TypeSet := other.types.foldl insert set

instance : Union TypeSet := ⟨union⟩

theorem mem_foldl_insert {types : List LuaType} {set : TypeSet} {type : LuaType} :
    type ∈ types.foldl insert set ↔ type ∈ types ∨ type ∈ set := by
  induction types generalizing set with
  | nil => simp
  | cons head rest ih =>
    simp only [List.foldl_cons, ih, mem_insert, List.mem_cons]
    constructor
    · rintro (member | same | member) <;> simp [*]
    · rintro ((same | member) | member) <;> simp [*]

@[simp] theorem mem_union {set other : TypeSet} {type : LuaType} :
    type ∈ set ∪ other ↔ type ∈ set ∨ type ∈ other := by
  have := @mem_foldl_insert other.types set type
  exact this.trans or_comm

/-- How many types of `other` are missing from `set`. -/
def missing (set other : TypeSet) : Nat :=
  (other.types.filter fun type => !set.contains type).length

def isSuperset (set other : TypeSet) : Bool := other.types.all set.contains

/-- The set as a report shows it. Nothing known is shown as `any`. -/
def render (set : TypeSet) : String :=
  if set.isEmpty then "any" else String.intercalate " | " (set.types.map LuaType.text)

private theorem eq_of_same_members {first second : List LuaType}
    (firstOrdered : first.Pairwise fun a b => a.compare b = .lt)
    (secondOrdered : second.Pairwise fun a b => a.compare b = .lt)
    (same : ∀ type, type ∈ first ↔ type ∈ second) : first = second := by
  induction first generalizing second with
  | nil =>
    cases second with
    | nil => rfl
    | cons head rest => exact absurd ((same head).2 (by simp)) (by simp)
  | cons a as ih =>
    cases second with
    | nil => exact absurd ((same a).1 (by simp)) (by simp)
    | cons b bs =>
      obtain ⟨firstBefore, firstRest⟩ := List.pairwise_cons.1 firstOrdered
      obtain ⟨secondBefore, secondRest⟩ := List.pairwise_cons.1 secondOrdered
      have irrefl : ∀ type : LuaType, type.compare type ≠ .lt := fun type => by
        have self : type.compare type = .eq := Std.ReflCmp.compare_self
        rw [self]; decide
      have heads : a = b := by
        rcases List.mem_cons.1 ((same a).1 (by simp)) with equal | later
        · exact equal
        rcases List.mem_cons.1 ((same b).2 (by simp)) with equal | earlier
        · exact equal.symm
        exact absurd (Std.TransCmp.lt_trans (secondBefore a later) (firstBefore b earlier)) (irrefl b)
      cases heads
      rw [ih firstRest secondRest fun type => ?_]
      have whole := same type
      simp only [List.mem_cons] at whole
      constructor
      · intro member
        rcases whole.1 (.inr member) with rfl | found
        · exact absurd (firstBefore _ member) (irrefl _)
        · exact found
      · intro member
        rcases whole.2 (.inr member) with rfl | found
        · exact absurd (secondBefore _ member) (irrefl _)
        · exact found

/-- Sets with the same members are equal. -/
theorem ext {first second : TypeSet} (same : ∀ type, type ∈ first ↔ type ∈ second) :
    first = second :=
  eq_of_types (eq_of_same_members first.ordered second.ordered same)

end TypeSet
end LuaClasses
