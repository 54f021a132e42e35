import LuaClasses.Diagnostic
import LuaClasses.Discovery.Config
import LuaClasses.Program.Basic
import LuaClasses.Scope.Tree

/-! What discovery knows at one moment: the tree, the bodies that every sweep walks again, and
the problems met so far. -/

namespace LuaClasses.Discovery

/-- The bodies that belong to one class. -/
structure ClassBodies where
  owner : ScopeId
  constructor : Option FunctionBody
  functions : OrderedMap (ScopeId × FunctionBody)
  methods : OrderedMap (ScopeId × FunctionBody)

def ClassBodies.new (owner : ScopeId) : ClassBodies := ⟨owner, none, .empty, .empty⟩

structure State where
  tree : ScopeTree
  /-- In the order of declaration. -/
  classes : List ClassBodies
  diagnostics : List Diagnostic

namespace State

def initial (config : DiscoveryConfig) : State := ⟨.new config.globalScope, [], []⟩

def withTree (state : State) (tree : ScopeTree) : State := { state with tree }

/-- Record a problem, unless the same one is recorded already. -/
def warn (state : State) (kind : DiagnosticKind) (message : String) (range : Option Range) : State :=
  let diagnostic : Diagnostic := ⟨kind, message, range⟩
  if diagnostic ∈ state.diagnostics then state
  else { state with diagnostics := state.diagnostics ++ [diagnostic] }

def bodies? (state : State) (owner : ScopeId) : Option ClassBodies :=
  state.classes.find? fun bodies => bodies.owner = owner

def modifyBodies (state : State) (owner : ScopeId) (f : ClassBodies → ClassBodies) : State :=
  { state with classes := state.classes.map fun bodies => if bodies.owner = owner then f bodies else bodies }

/-- Begin the bodies of a class afresh. A class that is declared again keeps its place. -/
def resetBodies (state : State) (owner : ScopeId) : State :=
  match state.bodies? owner with
  | some _ => state.modifyBodies owner fun _ => .new owner
  | none => { state with classes := state.classes ++ [.new owner] }

end State
end LuaClasses.Discovery
