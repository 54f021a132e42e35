import LuaClasses.Character
import LuaClasses.CommandLine.FileReport
import LuaClasses.CommandLine.Invocation
import LuaClasses.CommandLine.Path
import LuaClasses.CommandLine.Run
import LuaClasses.CommandLine.Snapshot
import LuaClasses.Diagnostic
import LuaClasses.Discovery.Config
import LuaClasses.Discovery.Declaration
import LuaClasses.Discovery.Evidence
import LuaClasses.Discovery.Members
import LuaClasses.Discovery.Propagation
import LuaClasses.Discovery.Run
import LuaClasses.Discovery.State
import LuaClasses.Discovery.Sweep
import LuaClasses.Discovery.Walk
import LuaClasses.Json
import LuaClasses.Main
import LuaClasses.OrderedMap
import LuaClasses.Program.Basic
import LuaClasses.Program.Json
import LuaClasses.Program.Operator
import LuaClasses.Program.Returns
import LuaClasses.Proofs.Alike
import LuaClasses.Proofs.AlikeConstructors
import LuaClasses.Proofs.AlikeEnds
import LuaClasses.Proofs.AlikeEntry
import LuaClasses.Proofs.AlikeMembers
import LuaClasses.Proofs.AlikeSweeps
import LuaClasses.Proofs.AlikeTopLevel
import LuaClasses.Proofs.AlikeWalk
import LuaClasses.Proofs.Ancestry
import LuaClasses.Proofs.AnchorEntry
import LuaClasses.Proofs.AnchorWalk
import LuaClasses.Proofs.Anchors
import LuaClasses.Proofs.Arising
import LuaClasses.Proofs.Arrival
import LuaClasses.Proofs.Awaiting
import LuaClasses.Proofs.BlankClasses
import LuaClasses.Proofs.BlockPaths
import LuaClasses.Proofs.BlockScopes
import LuaClasses.Proofs.BlockTours
import LuaClasses.Proofs.BlocksApart
import LuaClasses.Proofs.ChartReads
import LuaClasses.Proofs.ChartReports
import LuaClasses.Proofs.Charts
import LuaClasses.Proofs.ClassLosses
import LuaClasses.Proofs.ClassRecognition
import LuaClasses.Proofs.ClassShape
import LuaClasses.Proofs.ClassWrites
import LuaClasses.Proofs.Clearing
import LuaClasses.Proofs.CommentCuts
import LuaClasses.Proofs.CommentNodes
import LuaClasses.Proofs.CommentPlaces
import LuaClasses.Proofs.Convergence
import LuaClasses.Proofs.CoverageAgreement
import LuaClasses.Proofs.Deferral
import LuaClasses.Proofs.DescentAgreement
import LuaClasses.Proofs.DescentLevels
import LuaClasses.Proofs.Enlistment
import LuaClasses.Proofs.EnteredMembers
import LuaClasses.Proofs.EntryFormed
import LuaClasses.Proofs.EntryPasses
import LuaClasses.Proofs.EntrySteps
import LuaClasses.Proofs.EntryWrites
import LuaClasses.Proofs.FieldSweeps
import LuaClasses.Proofs.FieldTypes
import LuaClasses.Proofs.FieldWalk
import LuaClasses.Proofs.FieldsApart
import LuaClasses.Proofs.FileLists
import LuaClasses.Proofs.FirstReport
import LuaClasses.Proofs.FixedPoint
import LuaClasses.Proofs.Flow
import LuaClasses.Proofs.Formed
import LuaClasses.Proofs.FunctionIntake
import LuaClasses.Proofs.Gist
import LuaClasses.Proofs.GistEntry
import LuaClasses.Proofs.GistWalk
import LuaClasses.Proofs.GlobalIndices
import LuaClasses.Proofs.Growth
import LuaClasses.Proofs.Horizon
import LuaClasses.Proofs.IdleWrites
import LuaClasses.Proofs.IndexConsistency
import LuaClasses.Proofs.Inflow
import LuaClasses.Proofs.InstanceFields
import LuaClasses.Proofs.Intake
import LuaClasses.Proofs.Interning
import LuaClasses.Proofs.KnownTypes
import LuaClasses.Proofs.LastConstructor
import LuaClasses.Proofs.LastDefinitions
import LuaClasses.Proofs.LatentConstructors
import LuaClasses.Proofs.Layout
import LuaClasses.Proofs.LayoutGrammar
import LuaClasses.Proofs.LayoutIrrelevance
import LuaClasses.Proofs.LayoutReading
import LuaClasses.Proofs.LegibleTypes
import LuaClasses.Proofs.LexicalScope
import LuaClasses.Proofs.Lineage
import LuaClasses.Proofs.ListAlignment
import LuaClasses.Proofs.LiveReferences
import LuaClasses.Proofs.Maps
import LuaClasses.Proofs.MemberEntry
import LuaClasses.Proofs.MemberForms
import LuaClasses.Proofs.MemberFunctions
import LuaClasses.Proofs.MemberSteps
import LuaClasses.Proofs.Moments
import LuaClasses.Proofs.Names
import LuaClasses.Proofs.Namings
import LuaClasses.Proofs.Nesting
import LuaClasses.Proofs.OutlineGrammar
import LuaClasses.Proofs.Outlines
import LuaClasses.Proofs.Outward
import LuaClasses.Proofs.Parentheses
import LuaClasses.Proofs.PathLookup
import LuaClasses.Proofs.PathParts
import LuaClasses.Proofs.PlainTree
import LuaClasses.Proofs.ProperGrammar
import LuaClasses.Proofs.ProperSource
import LuaClasses.Proofs.Reach
import LuaClasses.Proofs.Reachability
import LuaClasses.Proofs.Reached
import LuaClasses.Proofs.Readings
import LuaClasses.Proofs.ReferenceKeys
import LuaClasses.Proofs.ReturnAgreement
import LuaClasses.Proofs.ScopeNames
import LuaClasses.Proofs.ShapeAside
import LuaClasses.Proofs.ShapeDeclare
import LuaClasses.Proofs.ShapeEntry
import LuaClasses.Proofs.ShapeGrowth
import LuaClasses.Proofs.ShapeMembers
import LuaClasses.Proofs.ShapeReached
import LuaClasses.Proofs.ShapeSweep
import LuaClasses.Proofs.ShapeWalk
import LuaClasses.Proofs.SoundStates
import LuaClasses.Proofs.Sparing
import LuaClasses.Proofs.StageOrder
import LuaClasses.Proofs.Staging
import LuaClasses.Proofs.Standing
import LuaClasses.Proofs.StateGrowth
import LuaClasses.Proofs.StatementOrder
import LuaClasses.Proofs.Stripping
import LuaClasses.Proofs.Superclasses
import LuaClasses.Proofs.SweepGains
import LuaClasses.Proofs.SweepGrowth
import LuaClasses.Proofs.SweepTours
import LuaClasses.Proofs.SweepWarning
import LuaClasses.Proofs.Tally
import LuaClasses.Proofs.TargetNames
import LuaClasses.Proofs.Targets
import LuaClasses.Proofs.TextCuts
import LuaClasses.Proofs.TextOutcomes
import LuaClasses.Proofs.Thinning
import LuaClasses.Proofs.TokenCuts
import LuaClasses.Proofs.TopLevel
import LuaClasses.Proofs.TopNames
import LuaClasses.Proofs.TopReads
import LuaClasses.Proofs.TopValues
import LuaClasses.Proofs.TreeReads
import LuaClasses.Proofs.TreeWrites
import LuaClasses.Proofs.Turns
import LuaClasses.Proofs.TypeTexts
import LuaClasses.Proofs.Underlings
import LuaClasses.Proofs.Unplaced
import LuaClasses.Proofs.UnreadSyntax
import LuaClasses.Proofs.Unstopped
import LuaClasses.Proofs.WalkGrowth
import LuaClasses.Proofs.WalkSites
import LuaClasses.Proofs.WalkWrites
import LuaClasses.Proofs.WeavingNodes
import LuaClasses.Proofs.Weight
import LuaClasses.Range
import LuaClasses.Report
import LuaClasses.Scope.Arena
import LuaClasses.Scope.DottedName
import LuaClasses.Scope.Entity
import LuaClasses.Scope.Json
import LuaClasses.Scope.Tree
import LuaClasses.Settings.Basic
import LuaClasses.Settings.Environment
import LuaClasses.Settings.LetterCase
import LuaClasses.Settings.SmallLetter
import LuaClasses.Settings.Toml.Document
import LuaClasses.Settings.Toml.Printer
import LuaClasses.Settings.Toml.Time
import LuaClasses.Settings.Toml.Token
import LuaClasses.Settings.Value
import LuaClasses.Source.Coverage
import LuaClasses.Source.Cursor
import LuaClasses.Source.Descent
import LuaClasses.Source.Grammar
import LuaClasses.Source.Lowering
import LuaClasses.Source.NodeKind
import LuaClasses.Source.Spelling
import LuaClasses.Source.SyntaxNode
import LuaClasses.Source.Token
import LuaClasses.Source.Tree
import LuaClasses.Source.Weaving
import LuaClasses.Types
