import LuaClasses.Json
import LuaClasses.Range

/-! Recoverable problems. Discovery never fails: what it cannot use becomes a diagnostic
that is part of the result. -/

namespace LuaClasses

inductive DiagnosticKind where
  /-- A statement does not have the expected shape and is skipped. -/
  | structuralMismatch
  /-- A class, field, function or method is declared again; the later one wins. -/
  | duplicateDefinition
  /-- A constructor has no trailing `return <identifier>`. -/
  | missingSelfAlias
  /-- The statement is of a form that discovery does not model. -/
  | unsupportedForm
  /-- The sweeps reached their bound before one of them found nothing. -/
  | sweepLimit
  deriving DecidableEq, Repr

namespace DiagnosticKind

def all : List DiagnosticKind :=
  [.structuralMismatch, .duplicateDefinition, .missingSelfAlias, .unsupportedForm, .sweepLimit]

/-- The word shown to a reader. -/
def label : DiagnosticKind → String
  | .structuralMismatch => "structural-mismatch"
  | .duplicateDefinition => "duplicate-definition"
  | .missingSelfAlias => "missing-self-alias"
  | .unsupportedForm => "unsupported-syntax"
  | .sweepLimit => "sweep-limit"

/-- The word written in data. -/
def tag : DiagnosticKind → String
  | .structuralMismatch => "structural_mismatch"
  | .duplicateDefinition => "duplicate_definition"
  | .missingSelfAlias => "missing_self_alias"
  | .unsupportedForm => "unsupported_syntax"
  | .sweepLimit => "sweep_limit"

end DiagnosticKind

structure Diagnostic where
  kind : DiagnosticKind
  message : String
  range : Option Range
  deriving DecidableEq, Repr

namespace Diagnostic

def text (diagnostic : Diagnostic) : String :=
  let shown := "[" ++ diagnostic.kind.label ++ "] " ++ diagnostic.message
  match diagnostic.range with
  | some range => shown ++ " at " ++ range.text
  | none => shown

end Diagnostic

def Range.toJson (range : Range) : Json := .object [
  ("start_line", .integer range.startLine.toNat),
  ("start_column", .integer range.startColumn.toNat),
  ("end_line", .integer range.endLine.toNat),
  ("end_column", .integer range.endColumn.toNat)]

/-- The range is left out where there is none. -/
def Diagnostic.toJson (diagnostic : Diagnostic) : Json := .object <|
  [("kind", .string diagnostic.kind.tag), ("message", .string diagnostic.message)] ++
    match diagnostic.range with
    | some range => [("range", range.toJson)]
    | none => []

end LuaClasses
