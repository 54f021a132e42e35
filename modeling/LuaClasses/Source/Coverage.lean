import LuaClasses.Discovery.Run
import LuaClasses.Source.Descent
import LuaClasses.Source.NodeKind

/-! How much of a source text becomes part of its program: the kinds of nodes that occur in it,
those among them that have no counterpart in a program, and the classes that were discovered. -/

namespace LuaClasses.Source

structure Coverage where
  /-- The kinds that occur, each once, in the order of their names. -/
  kinds : List NodeKind
  /-- The number of top-level statements of the program, or why there is none. -/
  lowering : Except ParseError Nat
  /-- The names of the classes in the order of declaration. -/
  classes : List String

namespace Coverage

/-- The kinds of a text outside the grammar are not known. -/
def ofText (text : String) (config : DiscoveryConfig) : Coverage :=
  let program := Program.ofText text
  { kinds := ((File.ofText? text).map File.kinds).getD []
    lowering := program.map fun program => program.body.length
    classes :=
      match program with
      | .ok program => (discover program config).reports.map ClassReport.name
      | .error _ => [] }

def covered (coverage : Coverage) : List NodeKind := coverage.kinds.filter NodeKind.isLowered

/-- The kinds that occur and have no counterpart in a program. -/
def gaps (coverage : Coverage) : List NodeKind := coverage.kinds.filter fun kind => !kind.isLowered

/-- The share of the kinds that are covered, in whole percent. -/
def percent (coverage : Coverage) : Nat :=
  if coverage.kinds.isEmpty then 100 else coverage.covered.length * 100 / coverage.kinds.length

def loweringText (coverage : Coverage) : String :=
  match coverage.lowering with
  | .ok count => s!"Top-level statements: {count}"
  | .error problem => "Lowering failed: " ++ problem.message

def classesText (coverage : Coverage) : String :=
  if coverage.classes.isEmpty then "none" else String.intercalate ", " coverage.classes

def row (kind : NodeKind) : String :=
  s!"| {kind.name} | {kind.grammarNumber} | " ++ (if kind.isLowered then "lowered" else "gap") ++ " |"

def gapLines (coverage : Coverage) : List String :=
  if coverage.gaps.isEmpty then ["All node kinds in this file are lowered."]
  else "## Gaps" :: "" :: coverage.gaps.map fun kind => s!"- `{kind.name}`: add lowering in parser.rs"

def lines (coverage : Coverage) (generated : String) : List String :=
  ["# Lua Adapter Coverage Report", "",
    "*Generated: " ++ generated ++ "*", "",
    "## Summary",
    s!"- Node kinds: {coverage.covered.length}/{coverage.kinds.length} lowered ({coverage.percent}%)",
    "- " ++ coverage.loweringText,
    "- Classes: " ++ coverage.classesText, "",
    "## Coverage Table", "",
    "| Node Type | ID | Status |",
    "|-----------|-----|--------|"] ++
    coverage.kinds.map row ++ "" :: coverage.gapLines

/-- The report in Markdown; `generated` says when it was made. -/
def report (coverage : Coverage) (generated : String) : String :=
  String.join ((coverage.lines generated).map fun line => line ++ "\n")

end Coverage
end LuaClasses.Source
