import LuaClasses.OrderedMap

/-! Values of settings as a layer gives them, before anything is known of their meaning. -/

namespace LuaClasses.Settings

inductive Value where
  | boolean (value : Bool)
  | integer (value : Int)
  | text (value : String)
  | array (items : List Value)
  | table (entries : List (String × Value))
  /-- A value of another form. No setting takes one. -/
  | other
  deriving Inhabited

/-- Keys with their values, of which no key occurs twice. The entries of a table are a layer of
their own. -/
abbrev Layer := List (String × Value)

namespace Layer

/-- Give a key a value. A key that is present keeps its place. -/
def insert (layer : Layer) (key : String) (value : Value) : Layer :=
  match layer with
  | [] => [(key, value)]
  | (name, held) :: rest =>
    if name = key then (key, value) :: rest else (name, held) :: insert rest key value

end Layer

mutual
/-- Lay a value over another one. Tables are laid over each other key by key, and any other
value takes the place of what was there. -/
def Value.over : Value → Option Value → Value
  | .table entries, some (.table below) => .table (Layer.over entries below)
  | value, _ => value

def Layer.over : Layer → Layer → Layer
  | [], below => below
  | (key, value) :: rest, below =>
    Layer.over rest (Layer.insert below key (value.over (List.lookup key below)))
end

/-- The value of a key that lies below the tables of a path. -/
def Value.nested : List String → Value → Value
  | [], value => value
  | key :: path, value => .table [(key, Value.nested path value)]

namespace Value

def boolean? : Value → Option Bool
  | .boolean value => some value
  | _ => none

def text? : Value → Option String
  | .text value => some value
  | _ => none

def table? : Value → Option Layer
  | .table entries => some entries
  | _ => none

/-- The fields of a record. A table gives them by their names, and an array in the order of the
names; fields can be missing in both, and what an array has too many of does not count. -/
def record? (names : List String) : Value → Option Layer
  | .table entries => some entries
  | .array items => some (names.zip items)
  | _ => none

/-- A natural number of at most `bits` binary digits. -/
def natural? (bits : Nat) : Value → Option Nat
  | .integer (.ofNat value) => if value < Nat.pow 2 bits then some value else none
  | _ => none

end Value

namespace Layer

/-- Read the value of a key. A key that is missing has its default; one whose value has the
wrong form has none. -/
def read (layer : Layer) (key : String) (default : α) (form : Value → Option α) : Option α :=
  match List.lookup key layer with
  | none => some default
  | some value => form value

/-- Read a layer all of whose values have one form, in the order of the keys. -/
def readAll (layer : Layer) (form : Value → Option α) : Option (OrderedMap α) := do
  let entries ← layer.mapM fun (key, value) => (form value).map (key, ·)
  return (OrderedMap.ofList entries).sorted

end Layer
end LuaClasses.Settings
