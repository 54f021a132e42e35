import LuaClasses.Proofs.DescentAgreement
import LuaClasses.Proofs.Unplaced

/-! Comments and layout do not matter. Every part of the work on a tree passes over comments by
itself, and none looks at blanks or places, so a tree comes to the same as what is left of it when
comments, blanks and places are taken away, but for the ranges in what comes of it. Only where
comments stand among the tokens is taken from the grammar. -/

namespace LuaClasses
namespace Source
namespace SyntaxNode

/-! ### Trees without comments -/

mutual
/-- A tree without its comments, its blanks and its places. -/
def plain : SyntaxNode → SyntaxNode
  | .leaf kind _ text => .leaf kind Span.none text
  | .branch kind _ children => .branch kind Span.none (plainEdges children)

def plainEdges : List Edge → List Edge
  | [] => []
  | ⟨key, _, node⟩ :: rest =>
    if node.isComment then plainEdges rest else ⟨key, .none, node.plain⟩ :: plainEdges rest
end

def isLeaf : SyntaxNode → Bool
  | .leaf _ _ _ => true
  | .branch _ _ _ => false

/-- Whether a node of this kind is read by its text. -/
def isToken : SyntaxKind → Bool
  | .named .identifier | .named .number | .sign _ => true
  | .named _ => false

/-- Whether the child under the name of a field is read by its text, whatever its kind. -/
def readsText : SyntaxKind → Option FieldName → Bool
  | .named .dotIndexExpression, some .field => true
  | .named .methodIndexExpression, some .method => true
  | .named .forNumericClause, some .name => true
  | .named .string, some .content => true
  | _, _ => false

/-- Whether the key of a field comes first, in a bracket or before the sign `=`. -/
def beginsWithKey : List Edge → Bool
  | ⟨_, _, .leaf kind _ text⟩ :: rest =>
    kind ≠ .named .comment && (text = "[" || !text.toList.contains '[' && equalsNext rest)
  | _ => false

mutual
/-- Whether comments stand where the grammar lets them stand. They are under the names of no
fields. There are none in what is read by its text, nor before the key of a field of a table. -/
def isPlaced : SyntaxNode → Bool
  | .leaf _ _ _ => true
  | .branch kind _ children =>
    !isToken kind && edgesPlaced kind children &&
      (kind ≠ .named .field || !children.any (fun edge => edge.field = some .name) ||
        beginsWithKey children)

def edgesPlaced (parent : SyntaxKind) : List Edge → Bool
  | [] => true
  | ⟨key, _, node⟩ :: rest =>
    (!node.isComment || key.isNone) && (!readsText parent key || node.isLeaf) && node.isPlaced &&
      edgesPlaced parent rest
end

/-! ### What the work on a node finds -/

section

variable (node : SyntaxNode)

@[simp] theorem kind_plain : node.plain.kind = node.kind := by
  cases node <;> rfl

@[simp] theorem isNamed_plain : node.plain.isNamed = node.isNamed := by
  rw [isNamed, isNamed, kind_plain]

@[simp] theorem isComment_plain : node.plain.isComment = node.isComment := by
  rw [isComment, isComment, kind_plain]

/-- A choice among the children that leaves out comments and goes by what is kept of a node. -/
theorem filter_children_plain {keep : SyntaxNode → Bool}
    (same : ∀ node : SyntaxNode, keep node.plain = keep node)
    (drops : ∀ node : SyntaxNode, node.isComment = true → keep node = false) :
    (node.plain.children.map Edge.node).filter keep =
      ((node.children.map Edge.node).filter keep).map plain := by
  have chosen : (edges : List Edge) → ((plainEdges edges).map Edge.node).filter keep =
      ((edges.map Edge.node).filter keep).map plain := by
    intro edges
    induction edges with
    | nil => rfl
    | cons edge rest ih =>
      obtain ⟨key, gap, child⟩ := edge
      rw [plainEdges, List.map_cons, List.filter_cons]
      split
      next comment => rw [if_neg (by simp [drops child comment]), ih]
      next =>
        rw [List.map_cons, List.filter_cons, same, ih]
        split <;> rfl
  cases node with
  | leaf kind span text => rfl
  | branch kind span children => exact chosen children

@[simp] theorem namedChildren_plain : node.plain.namedChildren = node.namedChildren.map plain :=
  node.filter_children_plain (fun _ => by rw [isNamed_plain, isComment_plain])
    fun _ comment => by rw [comment, Bool.not_true, Bool.and_false]

private theorem any_children_plain (text : String) :
    (node.plain.children.any fun edge => edge.node.kind = .sign text) =
      node.children.any fun edge => edge.node.kind = .sign text := by
  have chosen (node : SyntaxNode) : (node.children.any fun edge => edge.node.kind = .sign text) =
      ((node.children.map Edge.node).filter fun node => node.kind = .sign text).any fun _ => true := by
    rw [List.any_filter, List.any_map]
    simp only [Bool.and_true, Function.comp_def]
  rw [chosen, chosen, filter_children_plain, List.any_map]
  · rfl
  · exact fun _ => by rw [kind_plain]
  · intro node comment
    rw [of_decide_eq_true comment]
    rfl

end

end SyntaxNode

/-- Whether a child and the comments in it can stand below a node of some kind. -/
structure Edge.Placed (parent : SyntaxKind) (edge : Edge) : Prop where
  unnamed : edge.node.isComment = true → edge.field = none
  token : SyntaxNode.readsText parent edge.field = true → edge.node.isLeaf = true
  node : edge.node.isPlaced = true

namespace SyntaxNode

theorem edgesPlaced_iff {parent : SyntaxKind} {edges : List Edge} :
    edgesPlaced parent edges = true ↔ ∀ edge ∈ edges, edge.Placed parent := by
  induction edges with
  | nil => exact iff_of_true rfl nofun
  | cons edge rest ih =>
    obtain ⟨key, gap, node⟩ := edge
    have placed : (Edge.mk key gap node).Placed parent ↔ (node.isComment = true → key = none) ∧
        (readsText parent key = true → node.isLeaf = true) ∧ node.isPlaced = true :=
      ⟨fun placed => ⟨placed.unnamed, placed.token, placed.node⟩, fun ⟨one, two, three⟩ => ⟨one, two, three⟩⟩
    rw [List.forall_mem_cons, ← ih, placed, edgesPlaced, Bool.and_eq_true, Bool.and_eq_true,
      Bool.and_eq_true, Bool.or_eq_true, Bool.or_eq_true, Bool.not_eq_true', Bool.not_eq_true',
      Option.isNone_iff_eq_none, ← Bool.not_eq_true, ← Bool.not_eq_true, ← imp_iff_not_or,
      ← imp_iff_not_or]
    simp only [and_assoc]

section

variable {node child : SyntaxNode} {key : FieldName}

theorem children_placed (placed : node.isPlaced = true) :
    ∀ edge ∈ node.children, edge.Placed node.kind := by
  cases node with
  | leaf kind span text => exact nofun
  | branch kind span children =>
    rw [isPlaced, Bool.and_eq_true, Bool.and_eq_true] at placed
    exact edgesPlaced_iff.1 placed.1.2

private theorem placed_of_namedChildren (placed : node.isPlaced = true)
    (member : child ∈ node.namedChildren) :
    child.isPlaced = true := by
  obtain ⟨edge, listed, rfl⟩ := List.mem_map.1 (List.mem_filter.1 member).1
  exact (children_placed placed edge listed).node

private theorem placed_of_child? (placed : node.isPlaced = true) (found : node.child? key = some child) :
    child.isPlaced = true := by
  obtain ⟨edge, listed, rfl⟩ := Option.map_eq_some_iff.1 found
  exact (children_placed placed edge (List.mem_of_find?_eq_some listed)).node

private theorem child?_plain (placed : node.isPlaced = true) (key : FieldName) :
    node.plain.child? key = (node.child? key).map plain := by
  have found : (edges : List Edge) → (∀ edge ∈ edges, edge.node.isComment = true → edge.field = none) →
      ((plainEdges edges).find? fun edge => edge.field = some key).map Edge.node =
        ((edges.find? fun edge => edge.field = some key).map Edge.node).map plain := by
    intro edges free
    induction edges with
    | nil => rfl
    | cons edge rest ih =>
      obtain ⟨unnamed, others⟩ := List.forall_mem_cons.1 free
      obtain ⟨name, gap, child⟩ := edge
      rw [plainEdges, List.find?_cons]
      split
      next comment =>
        obtain rfl : name = none := unnamed comment
        exact ih others
      next =>
        rw [List.find?_cons]
        dsimp only
        cases decide (name = some key) with
        | true => rfl
        | false => exact ih others
  cases node with
  | leaf kind span text => rfl
  | branch kind span children =>
    exact found children fun edge member => (children_placed placed edge member).unnamed

private theorem text_plain (leaf : node.isLeaf = true) : node.plain.text = node.text := by
  cases node with
  | leaf kind span text => rfl
  | branch kind span children => cases leaf

/-- What is read by its text because of its kind is one token. -/
theorem text_plain_of_isToken (placed : node.isPlaced = true) (token : isToken node.kind = true) :
    node.plain.text = node.text := by
  cases node with
  | leaf kind span text => rfl
  | branch kind span children =>
    change isToken kind = true at token
    rw [isPlaced, token] at placed
    cases placed

/-- What is read by its text because of its field is one token. -/
theorem text_plain_of_child? (placed : node.isPlaced = true) (found : node.child? key = some child)
    (reads : readsText node.kind (some key) = true) : child.plain.text = child.text := by
  obtain ⟨edge, listed, rfl⟩ := Option.map_eq_some_iff.1 found
  have named : edge.field = some key := by simpa using List.find?_some listed
  rw [← named] at reads
  exact text_plain ((children_placed placed edge (List.mem_of_find?_eq_some listed)).token reads)

private theorem equalsNext_plain : (edges : List Edge) → equalsNext edges = true →
    equalsNext (plainEdges edges) = true
  | ⟨key, gap, .leaf kind span text⟩ :: rest, next => by
    rw [equalsNext] at next
    rw [plainEdges]
    split at next
    next comment =>
      rw [if_pos (show (leaf kind span text).isComment = true from decide_eq_true comment)]
      exact equalsNext_plain rest (Bool.and_eq_true_iff.1 next).2
    next counts =>
      rw [if_neg (show ¬(leaf kind span text).isComment = true from
        fun comment => counts (of_decide_eq_true comment)), plain, equalsNext, if_neg counts]
      exact next

/-- No comment before the key makes a difference to whether a field begins with a bracket. -/
theorem opensWithBracket_plain (placed : node.isPlaced = true) (isField : node.kind = .named .field)
    (named : node.child? .name = some child) : node.plain.opensWithBracket = node.opensWithBracket := by
  cases node with
  | leaf kind span text => cases named
  | branch kind span children =>
    obtain rfl : kind = .named .field := isField
    obtain ⟨edge, listed, rfl⟩ := Option.map_eq_some_iff.1 named
    have isName : edge.field = some .name := by simpa using List.find?_some listed
    have isKey : (children.any fun edge => edge.field = some .name) = true :=
      List.any_eq_true.2 ⟨edge, List.mem_of_find?_eq_some listed, decide_eq_true isName⟩
    rw [isPlaced, Bool.and_eq_true, isKey] at placed
    have begins : beginsWithKey children = true := placed.2
    match children, begins with
    | ⟨key, gap, .leaf kind place text⟩ :: rest, begins =>
      obtain ⟨counts, spelled⟩ := Bool.and_eq_true_iff.1 begins
      have noComment : ¬(leaf kind place text).isComment = true :=
        fun comment => of_decide_eq_true counts (of_decide_eq_true comment)
      rw [plain, plainEdges, if_neg noComment, plain]
      rcases Bool.or_eq_true_iff.1 spelled with bracket | bare
      · obtain rfl := of_decide_eq_true bracket
        rw [opensWithBracket_sign, opensWithBracket_sign]
      · obtain ⟨free, next⟩ := Bool.and_eq_true_iff.1 bare
        have free : '[' ∉ text.toList := by simpa using free
        rw [opensWithBracket_key free next, opensWithBracket_key free (equalsNext_plain rest next)]

end

end SyntaxNode

namespace Descent

variable {α β γ : Type}

/-- Whether two pieces of work come to the same wherever they begin: errors up to their ranges, and
results up to what is left out of view. -/
def Alike (view : α → β) (first second : Descent α) : Prop :=
  ∀ level, Lowering.Corresponds (fun one two => view one = view two) (first.outcome level)
      (second.outcome level) ∧
    first.levelAfter level = second.levelAfter level

namespace Alike

variable {δ : Type} {view : α → β} {later : γ → δ}

theorem pure {first second : α} (same : view first = view second) :
    Alike view (pure first) (pure second) := fun _ => ⟨same, rfl⟩

theorem bind {first second : Descent α} {next next' : α → Descent γ}
    (one : Alike view first second)
    (two : ∀ value value', view value = view value' → Alike later (next value) (next' value')) :
    Alike later (first >>= next) (second >>= next') := by
  intro level
  have begun := one level
  simp only [outcome, levelAfter] at begun ⊢
  rw [run_bind, run_bind]
  generalize first.run.run level = left, second.run.run level = right at begun ⊢
  obtain ⟨_ | value, after⟩ := left <;> obtain ⟨_ | value', _⟩ := right
  case error.error => exact begun
  case ok.ok =>
    obtain ⟨same, rfl⟩ := begun
    exact two value value' same after
  all_goals exact begun.1.elim

theorem unsupported (node : SyntaxNode) :
    Alike view (unsupported node) (Descent.unsupported node.plain) := by
  intro level
  refine ⟨?_, rfl⟩
  change ParseError.unplaced _ = ParseError.unplaced _
  rw [SyntaxNode.kind_plain]
  rfl

theorem within {first second : SyntaxNode} {work work' : Descent α} (same : Alike view work work') :
    Alike view (within first work) (Descent.within second work') := by
  intro level
  simp only [outcome, levelAfter]
  rw [run_within, run_within]
  split
  · exact ⟨rfl, rfl⟩
  · exact ⟨(same _).1, congrArg (· - 1) (same _).2⟩

/-- A child that a node has to have is the same with and without comments. -/
theorem child {node : SyntaxNode} (placed : node.isPlaced = true) {key : FieldName}
    {next : node.Part → Descent γ} {next' : node.plain.Part → Descent γ}
    (two : ∀ found (smaller : found.size < node.size) smaller',
      node.child? key = some found → found.isPlaced = true →
        Alike later (next ⟨found, smaller⟩) (next' ⟨found.plain, smaller'⟩)) :
    Alike later (child node key >>= next) (Descent.child node.plain key >>= next') := by
  have same := SyntaxNode.child?_plain placed key
  cases found : node.child? key with
  | none =>
    rw [found] at same
    rw [Descent.child, Descent.child, SyntaxNode.part?_eq_none found, SyntaxNode.part?_eq_none same,
      SyntaxNode.kind_plain]
    exact fun level => ⟨rfl, rfl⟩
  | some part =>
    rw [found] at same
    rw [child_eq found, child_eq same, pure_bind, pure_bind]
    exact two part _ _ found (SyntaxNode.placed_of_child? placed found)

end Alike

/-! ### Names -/

section

variable {node : SyntaxNode} {nodes : List SyntaxNode}

private theorem identifiers_plain (placed : ∀ node ∈ nodes, node.isPlaced = true) :
    identifiers (nodes.map SyntaxNode.plain) = identifiers nodes := by
  rw [identifiers, List.filter_map, List.map_map, identifiers]
  simp only [Function.comp_def, SyntaxNode.kind_plain]
  refine List.map_congr_left fun node member => ?_
  obtain ⟨listed, isName⟩ := List.mem_filter.1 member
  exact SyntaxNode.text_plain_of_isToken (placed node listed)
    (by rw [of_decide_eq_true isName]; rfl)

private theorem identifierChild_alike (placed : node.isPlaced = true) :
    Alike id (identifierChild node) (identifierChild node.plain) := by
  rw [identifierChild, identifierChild, SyntaxNode.namedChildren_plain,
    identifiers_plain fun _ => SyntaxNode.placed_of_namedChildren placed]
  split
  · exact .pure rfl
  · exact .unsupported node

private theorem namePath_alike (node : SyntaxNode) (placed : node.isPlaced = true) :
    Alike id (namePath node) (namePath node.plain) := by
  rw [namePath, namePath, SyntaxNode.kind_plain]
  split
  next isName =>
    rw [SyntaxNode.text_plain_of_isToken placed (by rw [isName]; rfl)]
    exact .pure rfl
  next isPath =>
    refine .child placed fun table _ _ _ tablePlaced => ?_
    refine (namePath_alike table tablePlaced).bind fun path _ same => ?_
    obtain rfl : path = _ := same
    refine .child placed fun field _ _ found _ => ?_
    dsimp only
    rw [SyntaxNode.text_plain_of_child? placed found (by rw [isPath]; rfl)]
    exact .pure rfl
  next => exact .unsupported node
  termination_by node.size

private theorem functionName_alike (placed : node.isPlaced = true) :
    Alike id (functionName node) (functionName node.plain) := by
  rw [functionName, functionName, SyntaxNode.kind_plain]
  split
  next isName =>
    rw [SyntaxNode.text_plain_of_isToken placed (by rw [isName]; rfl)]
    exact .pure rfl
  next isPath =>
    refine .child placed fun table _ _ _ tablePlaced => ?_
    refine (namePath_alike table tablePlaced).bind fun path _ same => ?_
    obtain rfl : path = _ := same
    refine .child placed fun field _ _ found _ => ?_
    dsimp only
    rw [SyntaxNode.text_plain_of_child? placed found (by rw [isPath]; rfl)]
    exact .pure rfl
  next isPath =>
    refine .child placed fun table _ _ _ tablePlaced => ?_
    refine (namePath_alike table tablePlaced).bind fun path _ same => ?_
    obtain rfl : path = _ := same
    refine .child placed fun method _ _ found _ => ?_
    dsimp only
    rw [SyntaxNode.text_plain_of_child? placed found (by rw [isPath]; rfl)]
    exact .pure rfl
  next => exact .unsupported node

private theorem parameters_alike : (nodes : List SyntaxNode) → (∀ node ∈ nodes, node.isPlaced = true) →
    Alike id (parameters nodes) (parameters (nodes.map SyntaxNode.plain))
  | [], _ => .pure rfl
  | node :: rest, placed => by
    obtain ⟨first, others⟩ := List.forall_mem_cons.1 placed
    rw [List.map_cons, parameters, parameters, SyntaxNode.kind_plain]
    split
    next isName =>
      rw [SyntaxNode.text_plain_of_isToken first (by rw [isName]; rfl)]
      exact (parameters_alike rest others).bind fun _ _ same =>
        .pure (congrArg (fun params => (node.text :: params.1, params.2)) same)
    next =>
      exact (parameters_alike rest others).bind fun _ _ same =>
        .pure (congrArg (fun params => (params.1, true)) same)
    next => exact .unsupported node

private theorem parametersOf_alike (placed : node.isPlaced = true) :
    Alike id (parametersOf node) (parametersOf node.plain) := by
  rw [parametersOf, parametersOf, SyntaxNode.child?_plain placed]
  cases found : node.child? .parameters with
  | none => exact .pure rfl
  | some list =>
    dsimp only [Option.map_some]
    rw [SyntaxNode.namedChildren_plain]
    exact parameters_alike _ fun _ =>
      SyntaxNode.placed_of_namedChildren (SyntaxNode.placed_of_child? placed found)

private theorem operator_alike {parse : String → Option α} (placed : node.isPlaced = true) :
    Alike id (operator parse node) (operator parse node.plain) := by
  have signs (node : SyntaxNode) :
      ((node.children.filter fun edge => !edge.node.isNamed).findSome? fun edge =>
          parse edge.node.text) =
        ((((node.children.map Edge.node).filter fun node => !node.isNamed).map
          SyntaxNode.text).findSome? parse) := by
    rw [List.filter_map, List.findSome?_map, List.findSome?_map]
    rfl
  have same : ((node.plain.children.map Edge.node).filter fun node => !node.isNamed).map
        SyntaxNode.text =
      ((node.children.map Edge.node).filter fun node => !node.isNamed).map SyntaxNode.text := by
    rw [SyntaxNode.filter_children_plain, List.map_map]
    · refine List.map_congr_left fun sign chosen => ?_
      obtain ⟨listed, isSign⟩ := List.mem_filter.1 chosen
      obtain ⟨edge, member, rfl⟩ := List.mem_map.1 listed
      refine SyntaxNode.text_plain_of_isToken (SyntaxNode.children_placed placed edge member).node ?_
      rw [SyntaxNode.isNamed] at isSign
      split at isSign
      next => cases isSign
      next same => rw [same]; rfl
    · exact fun node => by rw [SyntaxNode.isNamed_plain]
    · intro node comment
      rw [SyntaxNode.isNamed, of_decide_eq_true comment]
      rfl
  rw [operator, operator, signs, signs, same]
  split
  · exact .pure rfl
  · exact .unsupported node

end

/-! ### Statements and expressions -/

private theorem exprsUnplaced_append : (first second : List Expr) →
    exprsUnplaced (first ++ second) = exprsUnplaced first ++ exprsUnplaced second
  | [], _ => rfl
  | head :: rest, second => congrArg (head.unplaced :: ·) (exprsUnplaced_append rest second)

/-- The names among some expressions are there without ranges too. -/
theorem filterMap_name?_unplaced : (exprs : List Expr) →
    (exprsUnplaced exprs).filterMap Expr.name? = exprs.filterMap Expr.name?
  | [] => rfl
  | head :: rest => by
    have same : head.unplaced.name? = head.name? := by
      cases head <;> rfl
    rw [exprsUnplaced, List.filterMap_cons, List.filterMap_cons, same, filterMap_name?_unplaced rest]

def listsUnplaced (lists : List Expr × List Expr) : List Expr × List Expr :=
  (exprsUnplaced lists.1, exprsUnplaced lists.2)

def rangeUnplaced (lists : List String × List Expr) : List String × List Expr :=
  (lists.1, exprsUnplaced lists.2)

private theorem filter_kind_plain (keep : SyntaxKind → Bool) (nodes : List SyntaxNode) :
    ((nodes.map SyntaxNode.plain).filter fun node => keep node.kind) =
      (nodes.filter fun node => keep node.kind).map SyntaxNode.plain := by
  rw [List.filter_map]
  simp only [Function.comp_def, SyntaxNode.kind_plain]

private theorem placed_of_filter {keep : SyntaxNode → Bool} {nodes : List SyntaxNode}
    (placed : ∀ node ∈ nodes, node.isPlaced = true) :
    ∀ node ∈ nodes.filter keep, node.isPlaced = true :=
  fun node member => placed node (List.mem_filter.1 member).1

mutual
theorem statements_alike (node : SyntaxNode) (placed : node.isPlaced = true) :
    Alike stmtsUnplaced (statements node) (statements node.plain) := by
  rw [statements, statements, SyntaxNode.namedChildren_plain]
  exact statementList_alike node.namedChildren fun _ => SyntaxNode.placed_of_namedChildren placed
  termination_by 8 * node.size
  decreasing_by
    have := node.sizes_namedChildren_lt
    omega

theorem statementList_alike (nodes : List SyntaxNode) (placed : ∀ node ∈ nodes, node.isPlaced = true) :
    Alike stmtsUnplaced (statementList nodes) (statementList (nodes.map SyntaxNode.plain)) := by
  match nodes, placed with
  | [], _ =>
    rw [List.map_nil, statementList]
    exact .pure rfl
  | node :: rest, placed =>
    obtain ⟨first, others⟩ := List.forall_mem_cons.1 placed
    rw [List.map_cons, statementList, statementList]
    refine (statement_alike node first).bind fun _ _ one => ?_
    refine (statementList_alike rest others).bind fun _ _ two => .pure ?_
    rw [stmtsUnplaced_append, stmtsUnplaced_append, one, two]
  termination_by 8 * SyntaxNode.sizes nodes + 7
  decreasing_by all_goals
    have := node.size_pos
    simp only [SyntaxNode.sizes]
    omega

theorem block_alike (node : SyntaxNode) (key : FieldName) (placed : node.isPlaced = true) :
    Alike stmtsUnplaced (block node key) (block node.plain key) := by
  have same := SyntaxNode.child?_plain placed key
  rw [block, block]
  match found : node.child? key with
  | none =>
    rw [found] at same
    rw [SyntaxNode.part?_eq_none found, SyntaxNode.part?_eq_none same]
    exact .pure rfl
  | some part =>
    rw [found] at same
    rw [SyntaxNode.part?_eq_some found, SyntaxNode.part?_eq_some same]
    have smaller := SyntaxNode.size_lt_of_child? found
    exact statements_alike part (SyntaxNode.placed_of_child? placed found)
  termination_by 8 * node.size

theorem statement_alike (node : SyntaxNode) (placed : node.isPlaced = true) :
    Alike (fun stmt => stmtsUnplaced stmt.toList) (statement node) (statement node.plain) := by
  rw [statement, statement]
  refine (statementKind_alike node placed).within.bind fun kind kind' same => .pure ?_
  match kind, kind', same with
  | none, none, _ => rfl
  | some _, some _, same =>
    simp only [Option.map_some, Option.toList_some, stmtsUnplaced, stmtUnplaced, Option.some.inj same]
  termination_by 8 * node.size + 6

theorem statementKind_alike (node : SyntaxNode) (placed : node.isPlaced = true) :
    Alike (Option.map kindUnplaced) (statementKind node) (statementKind node.plain) := by
  have children : ∀ child ∈ node.namedChildren, child.isPlaced = true :=
    fun _ => SyntaxNode.placed_of_namedChildren placed
  rw [statementKind, statementKind, SyntaxNode.kind_plain, SyntaxNode.namedChildren_plain]
  split
  · exact .pure rfl
  · exact .pure rfl
  · exact (localDeclaration_alike node node.namedChildren children).bind fun _ _ same =>
      .pure (congrArg some same)
  · refine (assignment_alike rfl rfl node.namedChildren children).bind fun _ _ same => .pure ?_
    obtain ⟨targets, values⟩ := Prod.mk.inj same
    rw [Option.map_some, Option.map_some, kindUnplaced, kindUnplaced, targets, values]
  · refine (expression_alike node placed).bind fun _ _ same => .pure ?_
    rw [Option.map_some, Option.map_some, kindUnplaced, kindUnplaced, same]
  · exact (functionDeclaration_alike node placed).bind fun _ _ same => .pure (congrArg some same)
  · match found : node.namedChildren with
    | [] =>
      have same : node.plain.namedChildren = [] := by rw [SyntaxNode.namedChildren_plain, found]; rfl
      rw [SyntaxNode.first?_eq_none found, SyntaxNode.first?_eq_none same]
      exact .pure rfl
    | list :: rest =>
      have same : node.plain.namedChildren = list.plain :: rest.map SyntaxNode.plain := by
        rw [SyntaxNode.namedChildren_plain, found]; rfl
      rw [SyntaxNode.first?_eq_some found, SyntaxNode.first?_eq_some same]
      have smaller := SyntaxNode.size_lt_of_namedChildren found
      refine (expressionList_alike list (children list (found ▸ List.mem_cons_self))).bind
        fun _ _ same => .pure ?_
      rw [Option.map_some, Option.map_some, kindUnplaced, kindUnplaced, same]
  · exact (ifStatement_alike node placed).bind fun _ _ same => .pure (congrArg some same)
  · refine .child placed fun condition _ _ _ guard => ?_
    refine (expression_alike condition guard).bind fun _ _ one => ?_
    refine (block_alike node .body placed).bind fun _ _ two => .pure ?_
    rw [Option.map_some, Option.map_some, kindUnplaced, kindUnplaced, one, two]
  · refine (block_alike node .body placed).bind fun _ _ one => ?_
    refine .child placed fun condition _ _ _ guard => ?_
    refine (expression_alike condition guard).bind fun _ _ two => .pure ?_
    rw [Option.map_some, Option.map_some, kindUnplaced, kindUnplaced, one, two]
  · refine (block_alike node .body placed).bind fun _ _ same => .pure ?_
    rw [Option.map_some, Option.map_some, kindUnplaced, kindUnplaced, same]
  · exact (forStatement_alike node placed).bind fun _ _ same => .pure (congrArg some same)
  · exact .pure rfl
  · refine (identifierChild_alike placed).bind fun name _ same => ?_
    obtain rfl : name = _ := same
    exact .pure rfl
  · refine (identifierChild_alike placed).bind fun name _ same => ?_
    obtain rfl : name = _ := same
    exact .pure rfl
  · exact .unsupported node
  termination_by 8 * node.size + 5
  decreasing_by all_goals
    have := node.sizes_namedChildren_lt
    omega

theorem localDeclaration_alike (node : SyntaxNode) (parts : List SyntaxNode)
    (placed : ∀ part ∈ parts, part.isPlaced = true) :
    Alike kindUnplaced (localDeclaration node parts)
      (localDeclaration node.plain (parts.map SyntaxNode.plain)) := by
  match parts, placed with
  | [], _ =>
    rw [List.map_nil, localDeclaration, localDeclaration]
    exact .unsupported node
  | part :: rest, placed =>
    obtain ⟨first, others⟩ := List.forall_mem_cons.1 placed
    have children : ∀ child ∈ part.namedChildren, child.isPlaced = true :=
      fun _ => SyntaxNode.placed_of_namedChildren first
    rw [List.map_cons, localDeclaration, localDeclaration, SyntaxNode.kind_plain,
      SyntaxNode.namedChildren_plain]
    split
    · refine (assignment_alike rfl rfl part.namedChildren children).bind fun _ _ same => .pure ?_
      obtain ⟨targets, values⟩ := Prod.mk.inj same
      rw [kindUnplaced, kindUnplaced, ← filterMap_name?_unplaced, targets, filterMap_name?_unplaced,
        values]
    · rw [identifiers_plain children]
      exact .pure rfl
    · exact localDeclaration_alike node rest others
  termination_by 8 * SyntaxNode.sizes parts + 7
  decreasing_by all_goals
    have := part.sizes_namedChildren_lt
    simp only [SyntaxNode.sizes]
    omega

theorem assignment_alike {targets targets' values values' : List Expr}
    (one : exprsUnplaced targets = exprsUnplaced targets')
    (two : exprsUnplaced values = exprsUnplaced values') (parts : List SyntaxNode)
    (placed : ∀ part ∈ parts, part.isPlaced = true) :
    Alike listsUnplaced (assignment targets values parts)
      (assignment targets' values' (parts.map SyntaxNode.plain)) := by
  match parts, placed with
  | [], _ =>
    rw [List.map_nil, assignment, assignment]
    exact .pure (by rw [listsUnplaced, listsUnplaced, one, two])
  | part :: rest, placed =>
    obtain ⟨first, others⟩ := List.forall_mem_cons.1 placed
    rw [List.map_cons, assignment, assignment, SyntaxNode.kind_plain, SyntaxNode.namedChildren_plain]
    split
    · rw [filter_kind_plain fun kind => kind ≠ .named .attribute]
      refine (expressions_alike _ (placed_of_filter fun _ =>
        SyntaxNode.placed_of_namedChildren first)).bind fun _ _ more => ?_
      exact assignment_alike (by rw [exprsUnplaced_append, exprsUnplaced_append, one, more]) two rest
        others
    · refine (expressionList_alike part first).bind fun _ _ two => ?_
      exact assignment_alike one two rest others
    · exact .unsupported part
  termination_by 8 * SyntaxNode.sizes parts + 7
  decreasing_by all_goals
    have := part.sizes_namedChildren_lt
    have := SyntaxNode.sizes_filter_le (fun node => node.kind ≠ .named .attribute) part.namedChildren
    simp only [SyntaxNode.sizes]
    omega

theorem expressionList_alike (node : SyntaxNode) (placed : node.isPlaced = true) :
    Alike exprsUnplaced (expressionList node) (expressionList node.plain) := by
  rw [expressionList, expressionList, SyntaxNode.kind_plain, SyntaxNode.namedChildren_plain]
  split
  · exact expressions_alike node.namedChildren fun _ => SyntaxNode.placed_of_namedChildren placed
  · exact (expression_alike node placed).bind fun _ _ same => .pure (congrArg ([·]) same)
  termination_by 8 * node.size + 5
  decreasing_by all_goals
    have := node.sizes_namedChildren_lt
    omega

theorem expressions_alike (nodes : List SyntaxNode) (placed : ∀ node ∈ nodes, node.isPlaced = true) :
    Alike exprsUnplaced (expressions nodes) (expressions (nodes.map SyntaxNode.plain)) := by
  match nodes, placed with
  | [], _ =>
    rw [List.map_nil, expressions]
    exact .pure rfl
  | node :: rest, placed =>
    obtain ⟨first, others⟩ := List.forall_mem_cons.1 placed
    rw [List.map_cons, expressions, expressions]
    refine (expression_alike node first).bind fun _ _ one => ?_
    refine (expressions_alike rest others).bind fun _ _ two => .pure ?_
    rw [exprsUnplaced, exprsUnplaced, one, two]
  termination_by 8 * SyntaxNode.sizes nodes + 7
  decreasing_by all_goals
    have := node.size_pos
    simp only [SyntaxNode.sizes]
    omega

theorem functionDeclaration_alike (node : SyntaxNode) (placed : node.isPlaced = true) :
    Alike kindUnplaced (functionDeclaration node) (functionDeclaration node.plain) := by
  rw [functionDeclaration, functionDeclaration, SyntaxNode.any_children_plain]
  refine .child placed fun name _ _ _ named => ?_
  refine (functionName_alike named).bind fun name _ same => ?_
  obtain rfl : name = _ := same
  refine (functionBody_alike node placed).bind fun _ _ same => .pure ?_
  rw [kindUnplaced, kindUnplaced, same]
  termination_by 8 * node.size + 2

theorem functionBody_alike (node : SyntaxNode) (placed : node.isPlaced = true) :
    Alike bodyUnplaced (functionBody node) (functionBody node.plain) := by
  rw [functionBody, functionBody]
  refine (parametersOf_alike placed).bind fun params _ same => ?_
  obtain rfl : params = _ := same
  refine (block_alike node .body placed).bind fun _ _ same => .pure ?_
  rw [bodyUnplaced, bodyUnplaced, same]
  termination_by 8 * node.size + 1

theorem ifStatement_alike (node : SyntaxNode) (placed : node.isPlaced = true) :
    Alike kindUnplaced (ifStatement node) (ifStatement node.plain) := by
  rw [ifStatement, ifStatement, SyntaxNode.namedChildren_plain]
  refine (arm_alike node placed).bind fun _ _ one => ?_
  refine (arms_alike node.namedChildren fun _ =>
    SyntaxNode.placed_of_namedChildren placed).bind fun _ _ two => .pure ?_
  rw [kindUnplaced, kindUnplaced, LuaClasses.clausesUnplaced, LuaClasses.clausesUnplaced, one, two]
  termination_by 8 * node.size + 2
  decreasing_by all_goals
    have := node.sizes_namedChildren_lt
    omega

theorem arm_alike (node : SyntaxNode) (placed : node.isPlaced = true) :
    Alike clauseUnplaced (arm node) (arm node.plain) := by
  rw [arm, arm]
  refine .child placed fun condition _ _ _ guard => ?_
  refine (expression_alike condition guard).bind fun _ _ one => ?_
  refine (block_alike node .consequence placed).bind fun _ _ two => .pure ?_
  rw [clauseUnplaced, clauseUnplaced, optionUnplaced, optionUnplaced, one, two]
  termination_by 8 * node.size + 1

theorem arms_alike (nodes : List SyntaxNode) (placed : ∀ node ∈ nodes, node.isPlaced = true) :
    Alike LuaClasses.clausesUnplaced (arms nodes) (arms (nodes.map SyntaxNode.plain)) := by
  match nodes, placed with
  | [], _ =>
    rw [List.map_nil, arms]
    exact .pure rfl
  | node :: rest, placed =>
    obtain ⟨first, others⟩ := List.forall_mem_cons.1 placed
    rw [List.map_cons, arms, arms, SyntaxNode.kind_plain]
    split
    · refine (arm_alike node first).bind fun _ _ one => ?_
      refine (arms_alike rest others).bind fun _ _ two => .pure ?_
      rw [LuaClasses.clausesUnplaced, LuaClasses.clausesUnplaced, one, two]
    · refine (block_alike node .body first).bind fun _ _ one => ?_
      refine (arms_alike rest others).bind fun _ _ two => .pure ?_
      rw [LuaClasses.clausesUnplaced, LuaClasses.clausesUnplaced, clauseUnplaced, clauseUnplaced, one, two]
    · exact arms_alike rest others
  termination_by 8 * SyntaxNode.sizes nodes + 7
  decreasing_by all_goals
    have := node.size_pos
    simp only [SyntaxNode.sizes]
    omega

theorem forStatement_alike (node : SyntaxNode) (placed : node.isPlaced = true) :
    Alike kindUnplaced (forStatement node) (forStatement node.plain) := by
  rw [forStatement, forStatement]
  refine .child placed fun clause _ _ _ clausePlaced => ?_
  refine (block_alike node .body placed).bind fun _ _ held => ?_
  dsimp only
  rw [SyntaxNode.kind_plain, SyntaxNode.namedChildren_plain]
  split
  next isNumeric =>
    refine .child clausePlaced fun var _ _ found _ => ?_
    refine .child clausePlaced fun start _ _ _ startPlaced => ?_
    refine (expression_alike start startPlaced).bind fun _ _ one => ?_
    refine .child clausePlaced fun limit _ _ _ limitPlaced => ?_
    refine (expression_alike limit limitPlaced).bind fun _ _ two => ?_
    refine (step_alike clause clausePlaced).bind fun _ _ three => .pure ?_
    rw [SyntaxNode.text_plain_of_child? clausePlaced found (by rw [isNumeric]; rfl), kindUnplaced,
      kindUnplaced, one, two, three, held]
  next =>
    refine (generic_alike rfl rfl clause.namedChildren fun _ =>
      SyntaxNode.placed_of_namedChildren clausePlaced).bind fun _ _ same => .pure ?_
    obtain ⟨names, exprs⟩ := Prod.mk.inj same
    rw [kindUnplaced, kindUnplaced, names, exprs, held]
  next => exact .unsupported clause
  termination_by 8 * node.size + 2
  decreasing_by all_goals
    have := clause.sizes_namedChildren_lt
    omega

theorem step_alike (clause : SyntaxNode) (placed : clause.isPlaced = true) :
    Alike optionUnplaced (step clause) (step clause.plain) := by
  have same := SyntaxNode.child?_plain placed .step
  rw [step, step]
  match found : clause.child? .step with
  | none =>
    rw [found] at same
    rw [SyntaxNode.part?_eq_none found, SyntaxNode.part?_eq_none same]
    exact .pure rfl
  | some part =>
    rw [found] at same
    rw [SyntaxNode.part?_eq_some found, SyntaxNode.part?_eq_some same]
    have smaller := SyntaxNode.size_lt_of_child? found
    exact (expression_alike part (SyntaxNode.placed_of_child? placed found)).bind fun _ _ same =>
      .pure (congrArg some same)
  termination_by 8 * clause.size

theorem generic_alike {names names' : List String} {exprs exprs' : List Expr} (one : names = names')
    (two : exprsUnplaced exprs = exprsUnplaced exprs') (parts : List SyntaxNode)
    (placed : ∀ part ∈ parts, part.isPlaced = true) :
    Alike rangeUnplaced (generic names exprs parts)
      (generic names' exprs' (parts.map SyntaxNode.plain)) := by
  match parts, placed with
  | [], _ =>
    rw [List.map_nil, generic, generic]
    exact .pure (by rw [rangeUnplaced, rangeUnplaced, one, two])
  | part :: rest, placed =>
    obtain ⟨first, others⟩ := List.forall_mem_cons.1 placed
    rw [List.map_cons, generic, generic, SyntaxNode.kind_plain, SyntaxNode.namedChildren_plain,
      identifiers_plain fun _ => SyntaxNode.placed_of_namedChildren first]
    split
    · exact generic_alike rfl two rest others
    · exact (expressionList_alike part first).bind fun _ _ same => generic_alike one same rest others
    · exact generic_alike one two rest others
  termination_by 8 * SyntaxNode.sizes parts + 7
  decreasing_by all_goals
    have := part.size_pos
    simp only [SyntaxNode.sizes]
    omega

theorem expression_alike (node : SyntaxNode) (placed : node.isPlaced = true) :
    Alike Expr.unplaced (expression node) (expression node.plain) := by
  rw [expression, expression]
  exact (expressionInner_alike node placed).within
  termination_by 8 * node.size + 4

theorem expressionInner_alike (node : SyntaxNode) (placed : node.isPlaced = true) :
    Alike Expr.unplaced (expressionInner node) (expressionInner node.plain) := by
  have children : ∀ child ∈ node.namedChildren, child.isPlaced = true :=
    fun _ => SyntaxNode.placed_of_namedChildren placed
  rw [expressionInner, expressionInner, SyntaxNode.kind_plain, SyntaxNode.namedChildren_plain]
  split
  next => exact .pure rfl
  next => exact .pure rfl
  next => exact .pure rfl
  next isNumber =>
    rw [SyntaxNode.text_plain_of_isToken placed (by rw [isNumber]; rfl)]
    exact .pure rfl
  next isString =>
    rw [SyntaxNode.child?_plain placed]
    match found : node.child? .content with
    | none => exact .pure rfl
    | some content =>
      refine .pure (congrArg Expr.string ?_)
      exact (SyntaxNode.text_plain_of_child? placed found (by rw [isString]; rfl)).symm
  next => exact .pure rfl
  next isName =>
    rw [SyntaxNode.text_plain_of_isToken placed (by rw [isName]; rfl)]
    exact .pure rfl
  next =>
    refine (functionBody_alike node placed).bind fun _ _ same => .pure ?_
    rw [Expr.unplaced, Expr.unplaced, same]
  next =>
    rw [filter_kind_plain fun kind => kind = .named .field]
    refine (tableFields_alike _ (placed_of_filter children) fun field member =>
      of_decide_eq_true (List.mem_filter.1 member).2).bind fun _ _ same => .pure ?_
    rw [Expr.unplaced, Expr.unplaced, same]
  next isPath =>
    refine .child placed fun object _ _ _ objectPlaced => ?_
    refine (expression_alike object objectPlaced).bind fun _ _ same => ?_
    refine .child placed fun name _ _ found _ => .pure ?_
    rw [SyntaxNode.text_plain_of_child? placed found (by rw [isPath]; rfl), Expr.unplaced,
      Expr.unplaced, same]
  next =>
    refine .child placed fun object _ _ _ objectPlaced => ?_
    refine (expression_alike object objectPlaced).bind fun _ _ one => ?_
    refine .child placed fun key _ _ _ keyPlaced => ?_
    refine (expression_alike key keyPlaced).bind fun _ _ two => .pure ?_
    rw [Expr.unplaced, Expr.unplaced, one, two]
  next =>
    match found : node.namedChildren with
    | [] =>
      have same : node.plain.namedChildren = [] := by rw [SyntaxNode.namedChildren_plain, found]; rfl
      rw [SyntaxNode.first?_eq_none found, SyntaxNode.first?_eq_none same]
      exact .unsupported node
    | inner :: rest =>
      have same : node.plain.namedChildren = inner.plain :: rest.map SyntaxNode.plain := by
        rw [SyntaxNode.namedChildren_plain, found]; rfl
      rw [SyntaxNode.first?_eq_some found, SyntaxNode.first?_eq_some same]
      have smaller := SyntaxNode.size_lt_of_namedChildren found
      refine (expression_alike inner (children inner (found ▸ List.mem_cons_self))).bind
        fun _ _ same => .pure ?_
      rw [Expr.unplaced, Expr.unplaced, same]
  next => exact call_alike node placed
  next =>
    refine (operator_alike placed).bind fun op _ same => ?_
    obtain rfl : op = _ := same
    refine .child placed fun operand _ _ _ operandPlaced => ?_
    refine (expression_alike operand operandPlaced).bind fun _ _ same => .pure ?_
    rw [Expr.unplaced, Expr.unplaced, same]
  next =>
    refine (operator_alike placed).bind fun op _ same => ?_
    obtain rfl : op = _ := same
    refine .child placed fun left _ _ _ leftPlaced => ?_
    refine (expression_alike left leftPlaced).bind fun _ _ one => ?_
    refine .child placed fun right _ _ _ rightPlaced => ?_
    refine (expression_alike right rightPlaced).bind fun _ _ two => .pure ?_
    rw [Expr.unplaced, Expr.unplaced, one, two]
  next => exact .unsupported node
  termination_by 8 * node.size + 3
  decreasing_by all_goals
    have := SyntaxNode.sizes_filter_le (fun child => child.kind = .named .field) node.namedChildren
    have := node.sizes_namedChildren_lt
    omega

theorem call_alike (node : SyntaxNode) (placed : node.isPlaced = true) :
    Alike Expr.unplaced (call node) (call node.plain) := by
  rw [call, call]
  refine .child placed fun callee _ _ _ calleePlaced => ?_
  refine (argumentsOf_alike node placed).bind fun _ _ args => ?_
  dsimp only
  rw [SyntaxNode.kind_plain]
  split
  next isPath =>
    refine .child calleePlaced fun object _ _ _ objectPlaced => ?_
    refine (expression_alike object objectPlaced).bind fun _ _ same => ?_
    refine .child calleePlaced fun method _ _ found _ => .pure ?_
    rw [SyntaxNode.text_plain_of_child? calleePlaced found (by rw [isPath]; rfl), Expr.unplaced,
      Expr.unplaced, same, args]
  next =>
    refine (expression_alike callee calleePlaced).bind fun _ _ same => .pure ?_
    rw [Expr.unplaced, Expr.unplaced, same, args]
  termination_by 8 * node.size + 1

theorem argumentsOf_alike (node : SyntaxNode) (placed : node.isPlaced = true) :
    Alike exprsUnplaced (argumentsOf node) (argumentsOf node.plain) := by
  have same := SyntaxNode.child?_plain placed .arguments
  rw [argumentsOf, argumentsOf]
  match found : node.child? .arguments with
  | none =>
    rw [found] at same
    rw [SyntaxNode.part?_eq_none found, SyntaxNode.part?_eq_none same]
    exact .pure rfl
  | some list =>
    rw [found] at same
    rw [SyntaxNode.part?_eq_some found, SyntaxNode.part?_eq_some same]
    have smaller := SyntaxNode.size_lt_of_child? found
    exact arguments_alike list (SyntaxNode.placed_of_child? placed found)
  termination_by 8 * node.size

theorem arguments_alike (node : SyntaxNode) (placed : node.isPlaced = true) :
    Alike exprsUnplaced (arguments node) (arguments node.plain) := by
  rw [arguments, arguments, SyntaxNode.kind_plain, SyntaxNode.namedChildren_plain]
  split
  · exact expressions_alike node.namedChildren fun _ => SyntaxNode.placed_of_namedChildren placed
  · exact (expression_alike node placed).bind fun _ _ same => .pure (congrArg ([·]) same)
  termination_by 8 * node.size + 5
  decreasing_by all_goals
    have := node.sizes_namedChildren_lt
    omega

theorem tableFields_alike (nodes : List SyntaxNode) (placed : ∀ node ∈ nodes, node.isPlaced = true)
    (areFields : ∀ node ∈ nodes, node.kind = .named .field) :
    Alike LuaClasses.fieldsUnplaced (tableFields nodes) (tableFields (nodes.map SyntaxNode.plain)) := by
  match nodes, placed, areFields with
  | [], _, _ =>
    rw [List.map_nil, tableFields]
    exact .pure rfl
  | node :: rest, placed, areFields =>
    obtain ⟨first, others⟩ := List.forall_mem_cons.1 placed
    obtain ⟨isField, otherFields⟩ := List.forall_mem_cons.1 areFields
    rw [List.map_cons, tableFields, tableFields]
    refine (tableField_alike node first isField).bind fun _ _ one => ?_
    refine (tableFields_alike rest others otherFields).bind fun _ _ two => .pure ?_
    rw [LuaClasses.fieldsUnplaced, LuaClasses.fieldsUnplaced, one, two]
  termination_by 8 * SyntaxNode.sizes nodes + 7
  decreasing_by all_goals
    have := node.size_pos
    simp only [SyntaxNode.sizes]
    omega

/-- That no comment comes before the key is what the look at the text of a field rests on. -/
theorem tableField_alike (node : SyntaxNode) (placed : node.isPlaced = true)
    (isField : node.kind = .named .field) :
    Alike fieldUnplaced (tableField node) (tableField node.plain) := by
  rw [tableField, tableField]
  refine .child placed fun value _ _ _ valuePlaced => ?_
  refine (expression_alike value valuePlaced).bind fun _ _ one => ?_
  have same := SyntaxNode.child?_plain placed .name
  match found : node.child? .name with
  | none =>
    rw [found] at same
    rw [SyntaxNode.part?_eq_none found, SyntaxNode.part?_eq_none same]
    exact .pure (by rw [fieldUnplaced, fieldUnplaced, one])
  | some name =>
    rw [found] at same
    rw [SyntaxNode.part?_eq_some found, SyntaxNode.part?_eq_some same]
    have smaller := SyntaxNode.size_lt_of_child? found
    have namePlaced := SyntaxNode.placed_of_child? placed found
    dsimp only
    rw [SyntaxNode.kind_plain, SyntaxNode.opensWithBracket_plain placed isField found]
    split
    next bare =>
      have isName := of_decide_eq_true (Bool.and_eq_true_iff.1 bare).1
      rw [SyntaxNode.text_plain_of_isToken namePlaced (by rw [isName]; rfl)]
      exact .pure (by rw [fieldUnplaced, fieldUnplaced, one])
    next =>
      refine (expression_alike name namePlaced).bind fun _ _ two => .pure ?_
      rw [fieldUnplaced, fieldUnplaced, one, two]
  termination_by 8 * node.size
end

end Descent
end Source

open Source

private theorem Program.unplacedOutcome_plain {tree : SyntaxNode} (placed : tree.isPlaced = true) :
    unplacedOutcome (ofTree tree) = unplacedOutcome (ofTree tree.plain) := by
  have alike := (Descent.statements_alike tree placed 0).1
  rw [ofTree, ofTree]
  generalize (Descent.statements tree).outcome 0 = left,
    (Descent.statements tree.plain).outcome 0 = right at alike ⊢
  cases left <;> cases right
  case ok.ok => exact congrArg (fun body => Except.ok (Program.mk body)) alike
  case error.error => exact congrArg Except.error alike
  all_goals exact alike.elim

/-- Two trees that differ in comments, blanks and places only come to the same, up to ranges. -/
theorem Program.unplacedOutcome_ofTree {first second : SyntaxNode} (one : first.isPlaced = true)
    (two : second.isPlaced = true) (same : first.plain = second.plain) :
    unplacedOutcome (ofTree first) = unplacedOutcome (ofTree second) := by
  rw [unplacedOutcome_plain one, unplacedOutcome_plain two, same]

end LuaClasses
