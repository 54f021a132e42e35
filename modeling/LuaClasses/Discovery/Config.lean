import LuaClasses.OrderedMap
import LuaClasses.Types

/-! What discovery takes to be a class, and how long it may look for types. -/

namespace LuaClasses

structure DiscoveryConfig where
  /-- The name of the root scope, from which every path starts. -/
  globalScope : String
  /-- The class that counts as no superclass at all. -/
  rootClass : String
  /-- The method whose call on a base declares a class, as in `Foo = Base:derive("Foo")`. -/
  deriveMethod : String
  /-- The function of a class that makes its instances. -/
  constructorName : String
  /-- The name of the receiver in the bodies of methods. -/
  instanceAlias : String
  /-- Sweeps that run even if they find nothing. -/
  minSweeps : Nat
  /-- The bound on the number of sweeps. -/
  maxSweeps : Nat
  /-- Paths whose value, or the value that a call of them returns, has a known type. -/
  builtins : OrderedMap LuaType
  deriving DecidableEq

namespace DiscoveryConfig

def numericBuiltins : List String :=
  ["math.min", "math.max", "math.floor", "math.ceil", "math.abs", "math.sqrt", "math.fmod",
    "math.random", "math.tointeger", "math.pi", "math.huge", "tonumber"]

def stringBuiltins : List String :=
  ["tostring", "string.format", "string.sub", "string.upper", "string.lower", "string.rep",
    "table.concat"]

def defaultBuiltins : OrderedMap LuaType :=
  .ofList (numericBuiltins.map (·, .number) ++ stringBuiltins.map (·, .string))

def default : DiscoveryConfig where
  globalScope := "__G"
  rootClass := "ISBaseObject"
  deriveMethod := "derive"
  constructorName := "new"
  instanceAlias := "self"
  minSweeps := 2
  maxSweeps := 32
  builtins := defaultBuiltins

def builtinType? (config : DiscoveryConfig) (path : String) : Option LuaType := config.builtins.get? path

end DiscoveryConfig
end LuaClasses
