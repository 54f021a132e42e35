import LuaClasses.Discovery.Config
import LuaClasses.Settings.Value

/-! The settings of the program: their defaults, and how they are read from a layer. Keys that
no setting has are ignored. A value of the wrong form is refused and never converted. -/

namespace LuaClasses

structure LogSettings where
  /-- The level of every module that has none of its own. -/
  default : String
  /-- Levels by module. -/
  modules : OrderedMap String
  deriving DecidableEq

structure OutputSettings where
  /-- Whether JSON is indented. -/
  pretty : Bool
  /-- Whether reports contain the problems met. -/
  diagnostics : Bool
  deriving DecidableEq

structure Settings where
  version : UInt32
  discovery : DiscoveryConfig
  logging : LogSettings
  output : OutputSettings
  deriving DecidableEq

open Settings

namespace DiscoveryConfig

def toLayer (config : DiscoveryConfig) : Layer := [
  ("global_scope", .text config.globalScope),
  ("root_class", .text config.rootClass),
  ("derive_method", .text config.deriveMethod),
  ("constructor_name", .text config.constructorName),
  ("instance_alias", .text config.instanceAlias),
  ("min_sweeps", .integer config.minSweeps),
  ("max_sweeps", .integer config.maxSweeps),
  ("builtins", .table (config.builtins.entries.map fun (path, type) => (path, .text type.text)))]

def fieldNames : List String := default.toLayer.map Prod.fst

/-- Read a configuration, with the default for every field that is missing. A table of built-in
types stands in place of the whole default table. -/
def ofValue? (value : Value) : Option DiscoveryConfig := do
  let layer ← value.record? fieldNames
  let globalScope ← layer.read "global_scope" default.globalScope Value.text?
  let rootClass ← layer.read "root_class" default.rootClass Value.text?
  let deriveMethod ← layer.read "derive_method" default.deriveMethod Value.text?
  let constructorName ← layer.read "constructor_name" default.constructorName Value.text?
  let instanceAlias ← layer.read "instance_alias" default.instanceAlias Value.text?
  let minSweeps ← layer.read "min_sweeps" default.minSweeps (Value.natural? 64)
  let maxSweeps ← layer.read "max_sweeps" default.maxSweeps (Value.natural? 64)
  let builtins ← layer.read "builtins" default.builtins fun value =>
    value.table?.bind fun types => types.readAll fun type => type.text?.map LuaType.ofText
  return { globalScope, rootClass, deriveMethod, constructorName, instanceAlias, minSweeps, maxSweeps,
           builtins }

end DiscoveryConfig

namespace LogSettings

def standard : LogSettings := ⟨"warn", .empty⟩

def toLayer (logging : LogSettings) : Layer := [
  ("default", .text logging.default),
  ("modules", .table (logging.modules.entries.map fun (name, level) => (name, .text level)))]

def fieldNames : List String := standard.toLayer.map Prod.fst

def ofValue? (value : Value) : Option LogSettings := do
  let layer ← value.record? fieldNames
  let default ← layer.read "default" standard.default Value.text?
  let modules ← layer.read "modules" standard.modules fun value =>
    value.table?.bind fun levels => levels.readAll Value.text?
  return { default, modules }

/-- The directives of a log filter, with the modules in order. A module that is named without
its package belongs to this program. -/
def directives (logging : LogSettings) : String :=
  logging.modules.sorted.entries.foldl (fun written (name, level) =>
    let module := if name.contains "::" then name else "luascope::" ++ name
    written ++ "," ++ module ++ "=" ++ level) logging.default

end LogSettings

namespace OutputSettings

def standard : OutputSettings := ⟨true, true⟩

def toLayer (output : OutputSettings) : Layer := [
  ("pretty", .boolean output.pretty),
  ("diagnostics", .boolean output.diagnostics)]

def fieldNames : List String := standard.toLayer.map Prod.fst

def ofValue? (value : Value) : Option OutputSettings := do
  let layer ← value.record? fieldNames
  let pretty ← layer.read "pretty" standard.pretty Value.boolean?
  let diagnostics ← layer.read "diagnostics" standard.diagnostics Value.boolean?
  return { pretty, diagnostics }

end OutputSettings

namespace Settings

def default : Settings where
  version := 1
  discovery := .default
  logging := .standard
  output := .standard

def toLayer (settings : Settings) : Layer := [
  ("version", .integer settings.version.toNat),
  ("discovery", .table settings.discovery.toLayer),
  ("logging", .table settings.logging.toLayer),
  ("output", .table settings.output.toLayer)]

def ofLayer? (layer : Layer) : Option Settings := do
  let version ← layer.read "version" default.version fun value => (value.natural? 32).map UInt32.ofNat
  let discovery ← layer.read "discovery" default.discovery DiscoveryConfig.ofValue?
  let logging ← layer.read "logging" default.logging LogSettings.ofValue?
  let output ← layer.read "output" default.output OutputSettings.ofValue?
  return { version, discovery, logging, output }

/-- Lay layers over the default settings, each over the ones before it. -/
def ofLayers? (layers : List Layer) : Option Settings :=
  ofLayer? (layers.foldl (fun below layer => layer.over below) default.toLayer)

end Settings
end LuaClasses
