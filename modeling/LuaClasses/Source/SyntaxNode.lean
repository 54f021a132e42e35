import LuaClasses.Character
import LuaClasses.Source.NodeKind

/-! Lua source text as a tree of nodes, as a parser hands it over. A node has a kind, a place, and
either a text or children, some of which are known by the name of a field. All tokens of the text
are in the tree, and comments are nodes like any others, wherever they stand. -/

namespace LuaClasses.Source

/-- What a node is: a part of the grammar that has a name, or a word or sign that stands for
itself. -/
inductive SyntaxKind where
  | named (kind : NodeKind)
  | sign (text : String)
  deriving DecidableEq, Repr

def SyntaxKind.name : SyntaxKind → String
  | .named kind => kind.name
  | .sign text => text

/-- The names by which a node knows some of its children. -/
inductive FieldName where
  | arguments
  | body
  | clause
  | condition
  | consequence
  | content
  | end_
  | field
  | left
  | method
  | name
  | operand
  | parameters
  | right
  | start
  | step
  | table
  | value
  deriving DecidableEq, Repr

def FieldName.text : FieldName → String
  | .arguments => "arguments"
  | .body => "body"
  | .clause => "clause"
  | .condition => "condition"
  | .consequence => "consequence"
  | .content => "content"
  | .end_ => "end"
  | .field => "field"
  | .left => "left"
  | .method => "method"
  | .name => "name"
  | .operand => "operand"
  | .parameters => "parameters"
  | .right => "right"
  | .start => "start"
  | .step => "step"
  | .table => "table"
  | .value => "value"

/-- A run of blanks, or nothing. -/
structure Blanks where
  text : List Char
  all_blank : text.all isBlank = true
  deriving DecidableEq

namespace Blanks

def none : Blanks := ⟨[], rfl⟩

/-- The blanks at the start of a text. -/
def ofText (text : List Char) : Blanks := ⟨text.takeWhile isBlank, List.all_takeWhile⟩

end Blanks

mutual
inductive SyntaxNode where
  | leaf (kind : SyntaxKind) (span : Span) (text : String)
  | branch (kind : SyntaxKind) (span : Span) (children : List Edge)

/-- A child, with the blanks before it. -/
structure Edge where
  field : Option FieldName
  gap : Blanks
  node : SyntaxNode
end

mutual
def SyntaxNode.decideEq : (first second : SyntaxNode) → Decidable (first = second)
  | .leaf kind span text, .leaf kind' span' text' =>
    decidable_of_iff (kind = kind' ∧ span = span' ∧ text = text') (by rw [SyntaxNode.leaf.injEq])
  | .branch kind span children, .branch kind' span' children' =>
    have := decideEqEdges children children'
    decidable_of_iff (kind = kind' ∧ span = span' ∧ children = children')
      (by rw [SyntaxNode.branch.injEq])
  | .leaf _ _ _, .branch _ _ _ => isFalse nofun
  | .branch _ _ _, .leaf _ _ _ => isFalse nofun

def decideEqEdges : (first second : List Edge) → Decidable (first = second)
  | [], [] => isTrue rfl
  | ⟨key, gap, node⟩ :: rest, ⟨key', gap', node'⟩ :: rest' =>
    have := SyntaxNode.decideEq node node'
    have := decideEqEdges rest rest'
    decidable_of_iff ((key = key' ∧ gap = gap' ∧ node = node') ∧ rest = rest')
      (by rw [List.cons.injEq, Edge.mk.injEq])
  | [], _ :: _ => isFalse nofun
  | _ :: _, [] => isFalse nofun
end

instance : DecidableEq SyntaxNode := SyntaxNode.decideEq

namespace SyntaxNode

def kind : SyntaxNode → SyntaxKind
  | .leaf kind _ _ => kind
  | .branch kind _ _ => kind

def span : SyntaxNode → Span
  | .leaf _ span _ => span
  | .branch _ span _ => span

def children : SyntaxNode → List Edge
  | .leaf _ _ _ => []
  | .branch _ _ children => children

def isNamed (node : SyntaxNode) : Bool :=
  match node.kind with
  | .named _ => true
  | .sign _ => false

def isComment (node : SyntaxNode) : Bool := node.kind = .named .comment

/-- The children that are named in the grammar, without the comments. -/
def namedChildren (node : SyntaxNode) : List SyntaxNode :=
  (node.children.map Edge.node).filter fun child => child.isNamed && !child.isComment

/-- The first child under the name of a field. -/
def child? (node : SyntaxNode) (key : FieldName) : Option SyntaxNode :=
  (node.children.find? fun edge => edge.field = some key).map Edge.node

mutual
/-- The part of the source text that a node covers. -/
def chars : SyntaxNode → List Char
  | .leaf _ _ text => text.toList
  | .branch _ _ children => childrenChars children

/-- What some children cover. The blanks before the first of them are no part of it. -/
def childrenChars : List Edge → List Char
  | [] => []
  | ⟨_, _, node⟩ :: rest => node.chars ++ restChars rest

def restChars : List Edge → List Char
  | [] => []
  | ⟨_, gap, node⟩ :: rest => gap.text ++ node.chars ++ restChars rest
end

def text (node : SyntaxNode) : String := .ofList node.chars

@[simp] theorem text_leaf (kind : SyntaxKind) (span : Span) (text : String) :
    (leaf kind span text).text = text := String.ofList_toList

/-- Whether a node begins with an opening bracket, white space aside. -/
def opensWithBracket (node : SyntaxNode) : Bool :=
  (node.chars.dropWhile isWhiteSpace).head? = some '['

mutual
/-- The number of nodes in a tree. -/
def size : SyntaxNode → Nat
  | .leaf _ _ _ => 1
  | .branch _ _ children => childrenSize children + 1

def childrenSize : List Edge → Nat
  | [] => 0
  | ⟨_, _, node⟩ :: rest => node.size + childrenSize rest
end

/-- The number of nodes in some trees. -/
def sizes : List SyntaxNode → Nat
  | [] => 0
  | node :: rest => node.size + sizes rest

theorem size_pos (node : SyntaxNode) : 0 < node.size := by
  cases node <;> simp only [size] <;> omega

private theorem sizes_filter_map_le (keep : SyntaxNode → Bool) (edges : List Edge) :
    sizes ((edges.map Edge.node).filter keep) ≤ childrenSize edges := by
  induction edges with
  | nil => exact Nat.le_refl 0
  | cons edge rest ih =>
    obtain ⟨field, gap, node⟩ := edge
    rw [List.map_cons, childrenSize, List.filter_cons]
    split
    · rw [sizes]
      dsimp only
      omega
    · omega

private theorem size_le_of_mem {edge : Edge} {edges : List Edge} (member : edge ∈ edges) :
    edge.node.size ≤ childrenSize edges := by
  induction member with
  | head rest =>
    obtain ⟨field, gap, node⟩ := edge
    rw [childrenSize]
    dsimp only
    omega
  | tail other _ ih =>
    obtain ⟨field, gap, node⟩ := other
    rw [childrenSize]
    omega

/-- The children of a node are smaller than the node, also when they are taken together. -/
theorem sizes_namedChildren_lt (node : SyntaxNode) : sizes node.namedChildren < node.size := by
  cases node with
  | leaf kind span text => exact Nat.one_pos
  | branch kind span children => exact Nat.lt_succ_of_le (sizes_filter_map_le _ children)

theorem size_lt_of_child? {node child : SyntaxNode} {key : FieldName}
    (found : node.child? key = some child) : child.size < node.size := by
  obtain ⟨edge, listed, rfl⟩ := Option.map_eq_some_iff.1 found
  have member := List.mem_of_find?_eq_some listed
  cases node with
  | leaf kind span text => cases member
  | branch kind span children => exact Nat.lt_succ_of_le (size_le_of_mem member)

theorem sizes_filter_le (keep : SyntaxNode → Bool) (nodes : List SyntaxNode) :
    sizes (nodes.filter keep) ≤ sizes nodes := by
  induction nodes with
  | nil => exact Nat.le_refl 0
  | cons node rest ih =>
    rw [List.filter_cons]
    split <;> simp only [sizes] <;> omega

theorem size_lt_of_namedChildren {node child : SyntaxNode} {rest : List SyntaxNode}
    (found : node.namedChildren = child :: rest) : child.size < node.size := by
  have := node.sizes_namedChildren_lt
  rw [found, sizes] at this
  omega

/-- A node below another one. -/
abbrev Part (node : SyntaxNode) : Type := {part : SyntaxNode // part.size < node.size}

/-- The first child under the name of a field, as a part of the node. -/
def part? (node : SyntaxNode) (key : FieldName) : Option node.Part :=
  match found : node.child? key with
  | some child => some ⟨child, size_lt_of_child? found⟩
  | none => none

/-- The first of the named children, as a part of the node. -/
def first? (node : SyntaxNode) : Option node.Part :=
  match found : node.namedChildren with
  | child :: _ => some ⟨child, size_lt_of_namedChildren found⟩
  | [] => none

theorem part?_eq_some {node child : SyntaxNode} {key : FieldName}
    (found : node.child? key = some child) :
    node.part? key = some ⟨child, size_lt_of_child? found⟩ := by
  rw [part?]
  split
  next other same => simp only [← Option.some.inj (same.symm.trans found)]
  next missing => rw [missing] at found; cases found

theorem part?_eq_none {node : SyntaxNode} {key : FieldName} (missing : node.child? key = none) :
    node.part? key = none := by
  rw [part?]
  split
  next other found => rw [missing] at found; cases found
  next => rfl

theorem first?_eq_some {node child : SyntaxNode} {rest : List SyntaxNode}
    (found : node.namedChildren = child :: rest) :
    node.first? = some ⟨child, size_lt_of_namedChildren found⟩ := by
  rw [first?]
  split
  next other _ same => simp only [← (List.cons.inj (same.symm.trans found)).1]
  next missing => rw [missing] at found; cases found

theorem first?_eq_none {node : SyntaxNode} (missing : node.namedChildren = []) :
    node.first? = none := by
  rw [first?]
  split
  next other _ found => rw [missing] at found; cases found
  next => rfl

end SyntaxNode
end LuaClasses.Source
