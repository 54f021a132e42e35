import LuaClasses.Source.Descent

/-! What the work on a node finds in a node that has been woven: the named children, the children
under the names of fields, and the words and signs are those that it was made of, and the comments
among them make no difference. -/

namespace LuaClasses.Source

/-! ### Children -/

/-- The children that are named in the grammar. -/
def kept (children : List Child) : List SyntaxNode :=
  (children.map Child.node).filter fun node => node.isNamed && !node.isComment

/-- The first child under the name of a field. -/
def childOf? (children : List Child) (key : FieldName) : Option SyntaxNode :=
  (children.find? fun child => child.field = some key).map Child.node

section

variable (strand : Strand) (rest first second : List Child) (key other : FieldName)

@[simp] theorem node_bare : strand.bare.node = strand.node := rfl

@[simp] theorem node_under : (strand.under key).node = strand.node := rfl

@[simp] theorem kept_nil : kept [] = [] := rfl

theorem kept_cons (child : Child) :
    kept (child :: rest) =
      if child.node.isNamed && !child.node.isComment then child.node :: kept rest else kept rest := by
  rw [kept, List.map_cons, List.filter_cons]
  rfl

@[simp] theorem kept_append : kept (first ++ second) = kept first ++ kept second := by
  rw [kept, List.map_append, List.filter_append]
  rfl

@[simp] theorem childOf?_nil : childOf? [] key = none := rfl

@[simp] theorem childOf?_bare : childOf? (strand.bare :: rest) key = childOf? rest key := rfl

theorem childOf?_under :
    childOf? (strand.under other :: rest) key =
      if other = key then some strand.node else childOf? rest key := by
  rw [childOf?, List.find?_cons]
  by_cases same : other = key <;> simp [Strand.under, same, childOf?, Child.node]

@[simp] theorem childOf?_under_self :
    childOf? (strand.under key :: rest) key = some strand.node := by
  rw [childOf?_under, if_pos rfl]

@[simp] theorem childOf?_append :
    childOf? (first ++ second) key = (childOf? first key).or (childOf? second key) := by
  rw [childOf?, List.find?_append, Option.map_or]
  rfl

end

/-! ### Nodes -/

theorem filter_edges {keep : Edge → Bool} (drops : ∀ remark : Remark, keep remark.edge = false)
    (children : List Child) :
    (children.flatMap Child.edges).filter keep = (children.map Child.edge).filter keep := by
  induction children with
  | nil => rfl
  | cons child rest ih =>
    have comments : (child.strand.remarks.map Remark.edge).filter keep = [] := by
      rw [List.filter_eq_nil_iff]
      intro edge member
      obtain ⟨remark, _, rfl⟩ := List.mem_map.1 member
      simp [drops remark]
    rw [List.flatMap_cons, List.filter_append, ih, Child.edges, List.filter_append, comments,
      List.nil_append, ← List.filter_append]
    rfl

section

variable (kind : NodeKind) (span : Span) (children : List Child)

/-- A choice of children that passes over comments finds what a node was made of. -/
theorem filter_children_join {keep : Edge → Bool}
    (drops : ∀ remark : Remark, keep remark.edge = false) :
    (join kind span children).node.children.filter keep = (children.map Child.edge).filter keep := by
  cases children with
  | nil => rfl
  | cons first rest =>
    change (first.edge :: rest.flatMap Child.edges).filter keep = _
    rw [List.filter_cons, filter_edges drops, List.map_cons, List.filter_cons]

@[simp] theorem kind_join : (join kind span children).node.kind = .named kind := by
  cases children <;> rfl

theorem isNamed_join : (join kind span children).node.isNamed = true := by
  rw [SyntaxNode.isNamed, kind_join]

@[simp] theorem span_join : (join kind span children).node.span = span := by
  cases children <;> rfl

@[simp] theorem namedChildren_join : (join kind span children).node.namedChildren = kept children := by
  rw [SyntaxNode.namedChildren, List.filter_map, filter_children_join, kept, List.filter_map,
    List.filter_map, List.map_map]
  · rfl
  · exact fun _ => rfl

@[simp] theorem child?_join (key : FieldName) :
    (join kind span children).node.child? key = childOf? children key := by
  rw [SyntaxNode.child?, childOf?, ← List.head?_filter, filter_children_join, List.head?_filter,
    List.find?_map, Option.map_map]
  · rfl
  · exact fun _ => rfl

theorem operator_join {α : Type} (parse : String → Option α) :
    Descent.operator parse (join kind span children).node =
      match (children.filter fun child => !child.node.isNamed).findSome? fun child =>
        parse child.node.text with
      | some op => pure op
      | none => Descent.unsupported (join kind span children).node := by
  rw [Descent.operator, filter_children_join, List.filter_map, List.findSome?_map]
  · rfl
  · exact fun _ => rfl

theorem any_children_join (text : String) :
    ((join kind span children).node.children.any fun edge => edge.node.kind = .sign text) =
      children.any fun child => child.node.kind = .sign text := by
  have chosen (edges : List Edge) (choice : Edge → Bool) :
      edges.any choice = (edges.filter choice).any fun _ => true := by simp [List.any_filter]
  rw [chosen, filter_children_join, ← chosen, List.any_map]
  · rfl
  · exact fun _ => rfl

end

/-! ### The text of a field -/

namespace SyntaxNode

/-- The first character of a text that is no white space. -/
def firstMark? (text : List Char) : Option Char := text.find? fun char => !isWhiteSpace char

/-- Whether the sign `=` comes next, after comments. -/
def equalsNext : List Edge → Bool
  | ⟨_, _, .leaf kind _ text⟩ :: rest =>
    if kind = .named .comment then text.toList.head? = some '-' && equalsNext rest
    else text.toList.head? = some '='
  | _ => false

private theorem opensWithBracket_eq (node : SyntaxNode) :
    node.opensWithBracket = decide (firstMark? node.chars = some '[') := by
  have same (text : List Char) : (text.dropWhile isWhiteSpace).head? = firstMark? text := by
    induction text with
    | nil => rfl
    | cons char rest ih =>
      rw [List.dropWhile_cons, firstMark?, List.find?_cons]
      cases isWhiteSpace char with
      | true => exact ih
      | false => rfl
  rw [opensWithBracket, same]

private theorem firstMark?_append (first second : List Char) :
    firstMark? (first ++ second) = (firstMark? first).or (firstMark? second) := List.find?_append

private theorem firstMark?_blanks (gap : Blanks) : firstMark? gap.text = none := by
  rw [firstMark?, List.find?_eq_none]
  intro char member
  simp [isWhiteSpace, List.all_eq_true.1 gap.all_blank char member]

private theorem firstMark?_of_head? {text : List Char} {char : Char} (first : text.head? = some char)
    (marks : isWhiteSpace char = false) (rest : List Char) : firstMark? (text ++ rest) = some char := by
  obtain ⟨_, rfl⟩ := List.head?_eq_some_iff.1 first
  rw [firstMark?, List.cons_append, List.find?_cons_of_pos (by rw [marks]; rfl)]

/-- Where the sign `=` comes next, no bracket does, nor where a comment stands before it. -/
theorem firstMark?_restChars {edges : List Edge} (next : equalsNext edges = true) :
    firstMark? (restChars edges) ≠ some '[' := by
  match edges, next with
  | ⟨key, gap, .leaf kind span text⟩ :: rest, next =>
    rw [restChars, List.append_assoc, firstMark?_append, firstMark?_blanks, Option.none_or, chars]
    rw [equalsNext] at next
    split at next
    · have dash := of_decide_eq_true (Bool.and_eq_true_iff.1 next).1
      rw [firstMark?_of_head? dash (by decide)]
      decide
    · rw [firstMark?_of_head? (of_decide_eq_true next) (by decide)]
      decide

section

variable {parent kind : SyntaxKind} {span place : Span} {key : Option FieldName} {gap : Blanks}
  {text : String} {rest : List Edge}

/-- A field whose key is not in brackets does not begin with one. -/
theorem opensWithBracket_key (free : '[' ∉ text.toList) (next : equalsNext rest = true) :
    (branch parent span (⟨key, gap, .leaf kind place text⟩ :: rest)).opensWithBracket = false := by
  rw [opensWithBracket_eq, decide_eq_false_iff_not, chars, childrenChars, chars, firstMark?_append]
  cases found : firstMark? text.toList with
  | none => exact firstMark?_restChars next
  | some char =>
    intro same
    obtain rfl : char = '[' := Option.some.inj same
    exact free (List.mem_of_find?_eq_some found)

theorem opensWithBracket_sign :
    (branch parent span (⟨key, gap, .leaf kind place "["⟩ :: rest)).opensWithBracket = true := by
  rw [opensWithBracket_eq, decide_eq_true_iff, chars, childrenChars, chars, firstMark?_append]
  rfl

end
end SyntaxNode
end LuaClasses.Source
