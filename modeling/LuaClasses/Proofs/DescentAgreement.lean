import LuaClasses.Proofs.DescentLevels
import LuaClasses.Proofs.ProperGrammar
import LuaClasses.Proofs.WeavingNodes

/-! The program of a text by its nodes is the program of what has been read of it. The work on a
node that has been woven comes to the same as the lowering of the form that it was woven from,
whatever tokens and comments were found on the way. -/

namespace LuaClasses
namespace Source

/-! ### Steps -/

namespace Descent

variable {α β : Type}

private theorem outcome_bind_eq {first : Descent α} {next : α → Descent β} {level : Nat}
    {one : Except ParseError α} {rest : α → Except ParseError β} (steady : Steady first)
    (same : first.outcome level = one) (others : ∀ value, (next value).outcome level = rest value) :
    (first >>= next).outcome level = one >>= rest := by
  rw [outcome_bind steady, same]
  exact bind_congr others

theorem child_eq {node found : SyntaxNode} {key : FieldName} (child? : node.child? key = some found) :
    child node key = pure ⟨found, SyntaxNode.size_lt_of_child? child?⟩ := by
  rw [child, SyntaxNode.part?_eq_some child?]

private theorem outcome_child_bind {node found : SyntaxNode} {key : FieldName} {level : Nat}
    (child? : node.child? key = some found) (next : node.Part → Descent β) :
    (child node key >>= next).outcome level =
      (next ⟨found, SyntaxNode.size_lt_of_child? child?⟩).outcome level := by
  rw [child_eq child?, pure_bind]

private theorem outcome_within_eq (node : SyntaxNode) (work : Descent α) (level : Nat) :
    (within node work).outcome level =
      Lowering.enter (level + 1) node.span >>= fun _ => work.outcome (level + 1) := by
  rw [outcome_within, Lowering.enter]
  split <;> rfl

end Descent

namespace Weave

variable {α β : Type}

/-- Whether what comes of weaving has a property wherever it begins. -/
def Gives (P : α → Prop) (weave : Weave α) : Prop := ∀ thread, P (weave.run thread).1

namespace Gives

variable {P : α → Prop} {Q : β → Prop}

theorem pure {value : α} (holds : P value) : (pure value : Weave α).Gives P := fun _ => holds

theorem bind {first : Weave α} {next : α → Weave β} (one : first.Gives P)
    (two : ∀ value, P value → (next value).Gives Q) : (first >>= next).Gives Q :=
  fun thread => two _ (one thread) _

theorem imp {P Q : α → Prop} {weave : Weave α} (gives : weave.Gives P)
    (implies : ∀ value, P value → Q value) : weave.Gives Q :=
  fun thread => implies _ (gives thread)

/-- What is given can be clear whatever the first of the steps gives. -/
theorem after {first : Weave α} {next : α → Weave β} (two : ∀ value, (next value).Gives Q) :
    (first >>= next).Gives Q :=
  fun _ => two _ _

end Gives

/-! ### Tokens -/

theorem leaf_gives (kind : SyntaxKind) (text : String) :
    (leaf kind text).Gives fun strand => ∃ span, strand.node = .leaf kind span text :=
  .after fun lexeme => .pure ⟨lexeme.span, rfl⟩

theorem leafAt_gives (kind : SyntaxKind) (span : Span) (text : String) :
    (leafAt kind span text).Gives fun strand => strand.node = .leaf kind span text :=
  .after fun _ => .pure rfl

/-- Whether a strand is a word or sign that stands for itself. -/
def IsSign (text : String) (strand : Strand) : Prop :=
  ∃ span, strand.node = .leaf (.sign text) span text

def IsIdentifier (name : String) (strand : Strand) : Prop :=
  ∃ span, strand.node = .leaf (.named .identifier) span name

theorem IsIdentifier.text {name : String} {strand : Strand} (isName : IsIdentifier name strand) :
    strand.node.text = name := by
  obtain ⟨span, same⟩ := isName
  rw [same, SyntaxNode.text_leaf]

theorem sign_gives (text : String) : (sign text).Gives (IsSign text) := leaf_gives _ _

theorem identifier_gives (name : String) : (identifier name).Gives (IsIdentifier name) :=
  leaf_gives _ _

theorem IsIdentifier.identifiers {name : String} {strand : Strand}
    (isName : IsIdentifier name strand) : Descent.identifiers [strand.node] = [name] := by
  obtain ⟨span, same⟩ := isName
  rw [same, Descent.identifiers, List.filter_cons_of_pos rfl, List.map_cons, SyntaxNode.text_leaf]
  rfl

private theorem IsSign.notLocal {text : String} {strand : Strand} (isSign : IsSign text strand)
    (other : text ≠ "local") : strand.node.kind ≠ .sign "local" := by
  obtain ⟨span, same⟩ := isSign
  rw [same]
  exact fun same => other (SyntaxKind.sign.inj same)

private theorem notLocal_of_isNamed {node : SyntaxNode} (isNamed : node.isNamed = true) :
    node.kind ≠ .sign "local" := by
  intro same
  rw [SyntaxNode.isNamed, same] at isNamed
  cases isNamed

private theorem kept_sign {text : String} {strand : Strand} (isSign : IsSign text strand)
    (rest : List Child) : kept (strand.bare :: rest) = kept rest := by
  obtain ⟨span, same⟩ := isSign
  rw [kept_cons, node_bare, same]
  rfl

private theorem kept_identifier {name : String} {strand : Strand} (isName : IsIdentifier name strand)
    (rest : List Child) : kept (strand.bare :: rest) = strand.node :: kept rest := by
  obtain ⟨span, same⟩ := isName
  rw [kept_cons, node_bare, same]
  rfl

private theorem kept_join {kind : NodeKind} (counts : kind ≠ .comment) (span : Span)
    (children rest : List Child) :
    kept ((join kind span children).bare :: rest) =
      (join kind span children).node :: kept rest := by
  rw [kept_cons, node_bare, SyntaxNode.isNamed, SyntaxNode.isComment, kind_join,
    decide_eq_false (fun same => counts (SyntaxKind.named.inj same))]
  rfl

/-- Whether no child is known by the name of a field. -/
def Fieldless (children : List Child) : Prop := ∀ child ∈ children, child.field = none

theorem Fieldless.childOf? {children : List Child} (fieldless : Fieldless children)
    (key : FieldName) : Source.childOf? children key = none := by
  rw [Source.childOf?, List.find?_eq_none.2, Option.map_none]
  intro child member
  simp [fieldless child member]

theorem Fieldless.append {first second : List Child} (one : Fieldless first)
    (two : Fieldless second) : Fieldless (first ++ second) :=
  List.forall_mem_append.2 ⟨one, two⟩

theorem Fieldless.bare {strand : Strand} {rest : List Child} (others : Fieldless rest) :
    Fieldless (strand.bare :: rest) :=
  List.forall_mem_cons.2 ⟨rfl, others⟩

/-- Whether all children are words and signs. -/
def AreSigns (children : List Child) : Prop :=
  Fieldless children ∧ kept children = []

private theorem sign?_gives (texts : List String) : (sign? texts).Gives AreSigns := by
  refine .after fun text => ?_
  split
  · exact (sign_gives text).bind fun _ isSign => .pure ⟨.bare nofun, kept_sign isSign []⟩
  · exact .pure ⟨nofun, rfl⟩

private theorem sign?_texts (texts : List String) : (sign? texts).Gives fun children =>
    ∀ child ∈ children, ∃ text ∈ texts, child.node.kind = .sign text := by
  refine .after fun text => ?_
  split
  next listed =>
    refine (sign_gives text).bind fun strand ⟨_, same⟩ => .pure ?_
    exact List.forall_mem_singleton.2 ⟨text, List.contains_iff_mem.1 listed, by rw [node_bare, same]; rfl⟩
  next => exact .pure nofun

private theorem closing?_gives (opening : List Child) (text : String) :
    (closing? opening text).Gives AreSigns := by
  rw [closing?]
  split
  · exact .pure ⟨nofun, rfl⟩
  · exact sign?_gives [text]

/-! ### Names -/

/-- Whether children are identifiers that spell some names, and signs between them. -/
structure Spells (names : List String) (children : List Child) : Prop where
  fieldless : Fieldless children
  identifiers : Descent.identifiers (kept children) = names
  parameters : Descent.parameters (kept children) = pure (names, false)

theorem names_gives : (list : List String) → (names list).Gives (Spells list)
  | [] => .pure ⟨nofun, rfl, rfl⟩
  | name :: rest => by
    refine (identifier_gives name).bind fun first isName => ?_
    refine (sign?_gives _).bind fun comma ⟨fieldless, signs⟩ => ?_
    refine (names_gives rest).bind fun others spells => ?_
    have nodes : kept (first.bare :: comma ++ others) = first.node :: kept others := by
      rw [kept_append, kept_identifier isName, signs]
      rfl
    obtain ⟨span, same⟩ := isName
    refine .pure ⟨(fieldless.bare).append spells.fieldless, ?_, ?_⟩
    · rw [nodes, same, Descent.identifiers, List.filter_cons_of_pos rfl, List.map_cons,
        SyntaxNode.text_leaf]
      exact congrArg (name :: ·) spells.identifiers
    · rw [nodes, same, Descent.parameters, spells.parameters, SyntaxNode.text_leaf]
      rfl

private theorem parameters_gives : (vararg : Bool) → (list : List String) → (parameters vararg list).Gives
    fun children => Descent.parameters (kept children) = pure (list, vararg)
  | false, [] => .pure rfl
  | true, [] => by
    refine (leaf_gives (.named .varargExpression) "...").bind ?_
    rintro dots ⟨span, same⟩
    refine .pure ?_
    rw [kept_cons, node_bare, same]
    rfl
  | vararg, name :: rest => by
    refine .after fun text => ?_
    split
    next early =>
      obtain rfl := (Bool.and_eq_true_iff.1 early).1
      refine (leaf_gives (.named .varargExpression) "...").bind ?_
      rintro dots ⟨span, same⟩
      refine (names_gives (name :: rest)).bind fun others spells => .pure ?_
      have nodes : kept (dots.bare :: others) = dots.node :: kept others := by
        rw [kept_cons, node_bare, same]
        rfl
      rw [nodes, same, Descent.parameters, spells.parameters]
      rfl
    next =>
      refine (identifier_gives name).bind fun first isName => ?_
      refine (sign?_gives _).bind ?_
      rintro comma ⟨_, signs⟩
      refine (parameters_gives vararg rest).bind fun others listed => .pure ?_
      rw [kept_append, kept_identifier isName, signs, List.singleton_append]
      obtain ⟨span, same⟩ := isName
      rw [same, Descent.parameters, listed, SyntaxNode.text_leaf]
      rfl

/-- Whether a strand is the list of some parameters. -/
structure Lists (vararg : Bool) (params : List String) (strand : Strand) : Prop where
  parameters : Descent.parameters strand.node.namedChildren = pure (params, vararg)
  isNamed : strand.node.isNamed = true

private theorem parameterList_gives (vararg : Bool) (params : List String) :
    (parameterList vararg params).Gives (Lists vararg params) := by
  refine (sign_gives "(").bind fun opening isOpening => ?_
  refine (parameters_gives vararg params).bind fun children listed => ?_
  refine (sign_gives ")").bind fun closing isClosing => .pure ⟨?_, isNamed_join _ _ _⟩
  rw [gather, namedChildren_join, kept_append, kept_sign isOpening, kept_sign isClosing,
    kept_nil, List.append_nil, listed]

/-- Whether all children are attributes. -/
def AreAttributes (children : List Child) : Prop :=
  Fieldless children ∧ ∀ node ∈ kept children, node.kind = .named .attribute

private theorem attribute?_gives : attribute?.Gives AreAttributes := by
  refine .after fun text => ?_
  split
  · refine .after fun opening => .after fun text => .after fun name => .after fun closing => .pure ?_
    refine ⟨.bare nofun, ?_⟩
    rw [gather, kept_join (by decide), kept_nil]
    exact List.forall_mem_singleton.2 (kind_join _ _ _)
  · exact .pure ⟨nofun, nofun⟩

theorem AreAttributes.identifiers {children : List Child} (attrs : AreAttributes children) :
    Descent.identifiers (kept children) = [] := by
  rw [Descent.identifiers, List.filter_eq_nil_iff.2, List.map_nil]
  intro node member
  simp [attrs.2 node member]

theorem AreAttributes.filter {children : List Child} (attrs : AreAttributes children) :
    ((kept children).filter fun node => node.kind ≠ .named .attribute) = [] := by
  rw [List.filter_eq_nil_iff]
  intro node member
  simp [attrs.2 node member]

private theorem identifiers_append (first second : List SyntaxNode) :
    Descent.identifiers (first ++ second) =
      Descent.identifiers first ++ Descent.identifiers second := by
  rw [Descent.identifiers, List.filter_append, List.map_append]
  rfl

/-- The targets that the names of a declaration are visited as. -/
theorem outcome_identifier (span : Span) (name : String) (level : Nat) :
    (Descent.expression (.leaf (.named .identifier) span name)).outcome level =
      Lowering.enter (level + 1) span >>= fun _ => .ok (.name name) := by
  rw [Descent.expression, Descent.outcome_within_eq, Descent.expressionInner]
  dsimp only [SyntaxNode.kind]
  rw [SyntaxNode.text_leaf]
  rfl

/-- Whether children are the names of a declaration, with their attributes. -/
structure Declares (declared : List (String × Span)) (children : List Child) : Prop where
  fieldless : Fieldless children
  identifiers : Descent.identifiers (kept children) = declared.map Prod.fst
  outcome : ∀ level,
    (Descent.expressions ((kept children).filter fun node => node.kind ≠ .named .attribute)).outcome
      level = Lowering.names (level + 1) declared >>= fun names => .ok (names.map .name)

private theorem declaredNames_gives : (declared : List (String × Span)) →
    (declaredNames declared).Gives (Declares declared)
  | [] => by
    refine .pure ⟨nofun, rfl, fun level => ?_⟩
    rw [kept_nil, List.filter_nil, Descent.expressions]
    rfl
  | (name, span) :: rest => by
    refine (leafAt_gives (.named .identifier) span name).bind fun first same => ?_
    refine attribute?_gives.bind fun attrs areAttributes => ?_
    refine (sign?_gives _).bind fun comma ⟨fieldless, signs⟩ => ?_
    refine (declaredNames_gives rest).bind fun others declares => ?_
    have nodes : kept (first.bare :: attrs ++ comma ++ others) =
        first.node :: (kept attrs ++ kept others) := by
      rw [kept_append, kept_append, kept_identifier ⟨span, same⟩, signs]
      simp
    refine .pure ⟨((areAttributes.1.bare).append fieldless).append declares.fieldless, ?_, ?_⟩
    · rw [nodes, same, Descent.identifiers, List.filter_cons_of_pos rfl, List.map_cons,
        ← Descent.identifiers, identifiers_append, areAttributes.identifiers, declares.identifiers,
        SyntaxNode.text_leaf]
      rfl
    · intro level
      rw [nodes, same, List.filter_cons_of_pos rfl, List.filter_append, areAttributes.filter,
        List.nil_append, Descent.expressions, Lowering.names, bind_assoc]
      rw [Descent.outcome_bind (Descent.expression_steady _), outcome_identifier, bind_assoc]
      refine bind_congr fun _ => ?_
      change (Descent.expressions _ >>= _).outcome level = _
      rw [Descent.outcome_bind (Descent.expressions_steady _), declares.outcome, bind_assoc,
        bind_assoc]
      rfl

private theorem introduction_gives : introduction.Gives fun (word, attrs) =>
    (∃ text strand, word = strand.bare ∧ IsSign text strand) ∧ AreAttributes attrs := by
  refine .after fun text => ?_
  refine (sign_gives _).bind fun word isWord => ?_
  refine attribute?_gives.bind fun attrs areAttributes => ?_
  have result : (pure (word.bare, attrs) : Weave (Child × List Child)).Gives fun (word, attrs) =>
      (∃ text strand, word = strand.bare ∧ IsSign text strand) ∧ AreAttributes attrs :=
    .pure ⟨⟨_, word, rfl, isWord⟩, areAttributes⟩
  dsimp only
  split
  · exact .after fun _ => result
  · exact result

/-- Whether a strand is a path of names joined by dots. -/
structure Joins (path : List String) (strand : Strand) : Prop where
  namePath : Descent.namePath strand.node = pure path
  functionName : Descent.functionName strand.node = pure ⟨path, none⟩
  isNamed : strand.node.isNamed = true

private theorem IsIdentifier.joins {name : String} {strand : Strand} (isName : IsIdentifier name strand) :
    Joins [name] strand := by
  obtain ⟨span, same⟩ := isName
  constructor
  · rw [same, Descent.namePath]
    dsimp only [SyntaxNode.kind]
    rw [SyntaxNode.text_leaf]
  · rw [same, Descent.functionName]
    dsimp only [SyntaxNode.kind]
    rw [SyntaxNode.text_leaf]
    rfl
  · rw [same]
    rfl

theorem Joins.dot {path : List String} {name : String} {base strand : Strand}
    {children : List Child} (span : Span) (joins : Joins path base)
    (isName : IsIdentifier name strand) (table : childOf? children .table = some base.node)
    (field : childOf? children .field = some strand.node) :
    Joins (path ++ [name]) (join .dotIndexExpression span children) := by
  have table := (child?_join .dotIndexExpression span children .table).trans table
  have field := (child?_join .dotIndexExpression span children .field).trans field
  constructor
  · rw [Descent.namePath, kind_join]
    dsimp only
    rw [Descent.child_eq table, Descent.child_eq field, pure_bind]
    dsimp only
    rw [joins.namePath, pure_bind, pure_bind]
    dsimp only
    rw [isName.text]
  · rw [Descent.functionName, kind_join]
    dsimp only
    rw [Descent.child_eq table, Descent.child_eq field, pure_bind]
    dsimp only
    rw [joins.namePath, pure_bind, pure_bind]
    dsimp only
    rw [isName.text]
  · exact isNamed_join _ _ _

private theorem segments_gives : (rest path : List String) → {base : Strand} → Joins path base →
    (segments base rest).Gives (Joins (path ++ rest))
  | [], path, _, joins => .pure (by rwa [List.append_nil])
  | name :: rest, path, base, joins => by
    refine (sign_gives ".").bind fun dot _ => ?_
    refine (identifier_gives name).bind fun strand isName => ?_
    rw [List.append_cons]
    exact segments_gives rest (path ++ [name]) (joins.dot _ isName rfl rfl)

/-- Whether a strand is the name of a function. -/
structure Names (name : FunctionName) (strand : Strand) : Prop where
  functionName : Descent.functionName strand.node = pure name
  isNamed : strand.node.isNamed = true

theorem Joins.colon {path : List String} {name : String} {base strand : Strand}
    {children : List Child} (span : Span) (joins : Joins path base)
    (isName : IsIdentifier name strand) (table : childOf? children .table = some base.node)
    (method : childOf? children .method = some strand.node) :
    Names ⟨path, some name⟩ (join .methodIndexExpression span children) := by
  have table := (child?_join .methodIndexExpression span children .table).trans table
  have method := (child?_join .methodIndexExpression span children .method).trans method
  refine ⟨?_, isNamed_join _ _ _⟩
  rw [Descent.functionName, kind_join]
  dsimp only
  rw [Descent.child_eq table, Descent.child_eq method, pure_bind]
  dsimp only
  rw [joins.namePath, pure_bind, pure_bind]
  dsimp only
  rw [isName.text]

private theorem functionName_gives {name : FunctionName} (filled : name.path ≠ []) :
    (functionName name).Gives (Names name) := by
  obtain ⟨_ | ⟨first, rest⟩, method⟩ := name
  · exact absurd rfl filled
  refine (identifier_gives first).bind fun strand isName => ?_
  refine (segments_gives rest [first] isName.joins).bind fun base joins => ?_
  cases method with
  | none => exact .pure ⟨joins.functionName, joins.isNamed⟩
  | some method =>
    refine (sign_gives ":").bind fun colon _ => ?_
    refine (identifier_gives method).bind fun strand isName => .pure ?_
    exact joins.colon _ isName rfl rfl

/-! ### Expressions -/

/-- The kinds of nodes that stand beside expressions and are told from them by their kind. -/
def besideKinds : List SyntaxKind :=
  [.named .attribute, .named .comment, .named .elseifStatement, .named .elseStatement,
    .named .methodIndexExpression, .sign "local"]

/-- Whether a node is that of an expression. -/
structure Depicts (written : Term) (node : SyntaxNode) : Prop where
  outcome : ∀ level, (Descent.expression node).outcome level = Lowering.term (level + 1) written
  span : node.span = written.span
  isNamed : node.isNamed = !written.isGlobal
  isCall : written.isCall = true → node.kind = .named .functionCall
  isExpression : node.kind ∉ besideKinds
  isWord : written.isGlobal = true → node.text = "global"

/-- A node is entered before its form is looked at. -/
theorem Depicts.of_inner (kind : SyntaxKind) {span : Span} {form : TermForm} {node : SyntaxNode}
    (place : node.span = span) (isKind : node.kind = kind) (isExpression : kind ∉ besideKinds)
    (isNamed : node.isNamed = !Term.isGlobal ⟨span, form⟩)
    (isCall : Term.isCall ⟨span, form⟩ = true → kind = .named .functionCall)
    (isWord : Term.isGlobal ⟨span, form⟩ = true → node.text = "global")
    (inner : ∀ level,
      (Descent.expressionInner node).outcome level = Lowering.termForm level span form) :
    Depicts ⟨span, form⟩ node := by
  subst isKind
  refine ⟨fun level => ?_, place, isNamed, isCall, isExpression, isWord⟩
  rw [Descent.expression, Descent.outcome_within_eq, place, Lowering.term]
  exact bind_congr fun _ => inner (level + 1)

/-- An expression of one token. -/
theorem leafAt_depicts {kind : NodeKind} {span : Span} {text : String} {form : TermForm}
    (isNamed : Term.isGlobal ⟨span, form⟩ = false) (isCall : Term.isCall ⟨span, form⟩ = false)
    (isExpression : .named kind ∉ besideKinds)
    (inner : ∀ level, (Descent.expressionInner (.leaf (.named kind) span text)).outcome level =
      Lowering.termForm level span form) :
    (leafAt (.named kind) span text).Gives fun strand => Depicts ⟨span, form⟩ strand.node := by
  refine (leafAt_gives _ _ _).imp fun strand same => ?_
  rw [same]
  refine .of_inner (.named kind) rfl rfl isExpression ?_ ?_ ?_ inner
  · rw [isNamed]
    rfl
  · simp [isCall]
  · simp [isNamed]

/-- Whether children are some expressions, with signs between them. -/
structure DepictsAll (written : List Term) (children : List Child) : Prop where
  outcome : ∀ level,
    (Descent.expressions (kept children)).outcome level = Lowering.terms (level + 1) written
  fieldless : Fieldless children
  areExpressions : ∀ node ∈ kept children, node.kind ∉ besideKinds

private theorem kept_expression {written : Term} {strand : Strand} (depicts : Depicts written strand.node)
    (child : Child) (same : child.node = strand.node) (rest : List Child) :
    kept (child :: rest) =
      if written.isGlobal then kept rest else strand.node :: kept rest := by
  have noComment : strand.node.isComment = false :=
    decide_eq_false fun comment => depicts.isExpression (comment ▸ by decide)
  rw [kept_cons, same, depicts.isNamed, noComment]
  cases written.isGlobal <;> rfl

/-- An expression of several parts. -/
theorem join_depicts {kind : NodeKind} {span : Span} {form : TermForm} {children : List Child}
    (isNamed : Term.isGlobal ⟨span, form⟩ = false)
    (isCall : Term.isCall ⟨span, form⟩ = true → kind = .functionCall)
    (isExpression : .named kind ∉ besideKinds)
    (inner : ∀ level, (Descent.expressionInner (join kind span children).node).outcome level =
      Lowering.termForm level span form) :
    Depicts ⟨span, form⟩ (join kind span children).node := by
  refine .of_inner (.named kind) (span_join _ _ _) (kind_join _ _ _) isExpression ?_ ?_ ?_ inner
  · rw [isNamed, SyntaxNode.isNamed, kind_join]
    rfl
  · exact fun called => congrArg _ (isCall called)
  · simp [isNamed]

private theorem arguments_gives {written : List Term} {weave : Weave (List Child)}
    (gives : weave.Gives (DepictsAll written)) :
    (arguments weave).Gives fun strand => ∀ level,
      (Descent.arguments strand.node).outcome level = Lowering.terms (level + 1) written := by
  refine (sign?_gives _).bind fun opening ⟨_, noOpening⟩ => ?_
  refine gives.bind fun args depicts => ?_
  refine (closing?_gives opening ")").bind fun closing ⟨_, noClosing⟩ => .pure fun level => ?_
  rw [gather, Descent.arguments, kind_join, if_pos rfl, namedChildren_join, kept_append,
    kept_append, noOpening, noClosing, List.nil_append, List.append_nil, depicts.outcome]

private theorem string_gives (span : Span) (literal : StringLiteral) :
    (string span literal).Gives fun strand => strand.node.kind = .named .string ∧
      strand.node.span = span ∧
        (strand.node.child? .content).elim "" SyntaxNode.text = literal.content := by
  refine .after fun lexeme => .pure ⟨rfl, rfl, ?_⟩
  by_cases empty : (literal.isQuoted && literal.content = "") = true
  · have blank : literal.content = "" := of_decide_eq_true (Bool.and_eq_true_iff.1 empty).2
    rw [if_pos empty, blank]
    rfl
  · rw [if_neg empty]
    exact SyntaxNode.text_leaf _ _ _

private theorem ofToken?_token_unary (op : UnaryOp) : UnaryOp.ofToken? op.token = some op := by
  cases op <;> decide

private theorem ofToken?_token_binary (op : BinaryOp) : BinaryOp.ofToken? op.token = some op := by
  cases op <;> decide

/-- The first sign in a node that is an operator is found after others that are none. -/
theorem operator_eq {α : Type} {parse : String → Option α} {kind : NodeKind} {span : Span}
    {before after : List Child} {token : String} {strand : Strand} {op : α}
    (isSign : IsSign token strand) (parses : parse token = some op)
    (others : ∀ child ∈ before, child.node.isNamed = false → parse child.node.text = none) :
    Descent.operator parse (join kind span (before ++ strand.bare :: after)).node = pure op := by
  obtain ⟨_, same⟩ := isSign
  have picked : (strand.bare :: after).filter (fun child => !child.node.isNamed) =
      strand.bare :: after.filter fun child => !child.node.isNamed := by
    apply List.filter_cons_of_pos
    rw [node_bare, same]
    rfl
  have skipped : ((before.filter fun child => !child.node.isNamed).findSome? fun child =>
      parse child.node.text) = none := by
    rw [List.findSome?_eq_none_iff]
    intro child member
    obtain ⟨listed, isSign⟩ := List.mem_filter.1 member
    exact others child listed (by simpa using isSign)
  rw [operator_join, List.filter_append, List.findSome?_append, skipped,
    picked, List.findSome?_cons, node_bare, same, SyntaxNode.text_leaf,
    parses]
  rfl

/-! ### Fields of tables -/

theorem equalsNext_edges {strand : Strand} (isSign : IsSign "=" strand) (rest : List Edge) :
    SyntaxNode.equalsNext (strand.bare.edges ++ rest) = true := by
  obtain ⟨_, same⟩ := isSign
  have own : SyntaxNode.equalsNext (strand.bare.edge :: rest) = true := by
    rw [Child.edge, node_bare, same]
    rfl
  rw [Child.edges, List.append_assoc]
  induction strand.bare.strand.remarks with
  | nil => exact own
  | cons remark remarks ih =>
    rw [List.map_cons, List.cons_append, Remark.edge, SyntaxNode.equalsNext, if_pos rfl, ih,
      String.toList_append]
    rfl

/-- A name that has a field comes before the sign `=`. -/
theorem opensWithBracket_named {name : String} {strand equals : Strand} {rest : List Child}
    {span : Span} (isName : IsIdentifier name strand) (isEquals : IsSign "=" equals)
    (free : '[' ∉ name.toList) :
    (join .field span (strand.under .name :: equals.bare :: rest)).node.opensWithBracket = false := by
  obtain ⟨place, same⟩ := isName
  change (SyntaxNode.branch _ _ (⟨_, _, strand.node⟩ :: (equals.bare.edges ++ _))).opensWithBracket = _
  rw [same]
  exact SyntaxNode.opensWithBracket_key free (equalsNext_edges isEquals _)

private theorem bracket_gives (optional : Bool) : (bracket optional).Gives fun opening =>
    Fieldless opening ∧ (optional = false → ∃ strand, opening = [strand.bare] ∧ IsSign "[" strand) := by
  cases optional with
  | true => exact (sign?_gives _).imp fun _ ⟨fieldless, _⟩ => ⟨fieldless, nofun⟩
  | false =>
    exact (sign_gives "[").bind fun strand isSign => .pure ⟨.bare nofun, fun _ => ⟨strand, rfl, isSign⟩⟩

private theorem opensWithBracket_bracket {strand : Strand} {rest : List Child} {span : Span}
    (isSign : IsSign "[" strand) :
    (join .field span (strand.bare :: rest)).node.opensWithBracket = true := by
  obtain ⟨place, same⟩ := isSign
  change (SyntaxNode.branch _ _ (⟨_, _, strand.node⟩ :: _)).opensWithBracket = _
  rw [same]
  exact SyntaxNode.opensWithBracket_sign

/-! ### Bodies -/

/-- Whether a node is that of a statement. -/
structure Records (written : Statement) (node : SyntaxNode) : Prop where
  outcome : ∀ level, (Descent.statement node).outcome level = Lowering.statement (level + 1) written
  isNamed : node.isNamed = true
  isComment : node.isComment = false

private theorem Records.of_kind {span : Span} {form : StatementForm} {node : SyntaxNode} {kind : NodeKind}
    (place : node.span = span) (isKind : node.kind = .named kind) (counts : kind ≠ .comment)
    (inner : ∀ level,
      (Descent.statementKind node).outcome level = Lowering.statementForm level span form) :
    Records ⟨span, form⟩ node := by
  refine ⟨fun level => ?_, ?_, ?_⟩
  · rw [Descent.statement, Lowering.statement,
      Descent.outcome_bind (Descent.statementKind_steady node).within, Descent.outcome_within_eq,
      bind_assoc, place]
    refine bind_congr fun _ => ?_
    rw [inner]
    rfl
  · rw [SyntaxNode.isNamed, isKind]
  · rw [SyntaxNode.isComment, isKind]
    exact decide_eq_false fun same => counts (SyntaxKind.named.inj same)

/-- Whether children are some statements. -/
structure RecordsAll (written : List Statement) (children : List Child) : Prop where
  outcome : ∀ level,
    (Descent.statementList (kept children)).outcome level = Lowering.statements (level + 1) written
  empty : children = [] → written = []

/-- Whether a part is the block of some statements, or none as there are no statements. -/
structure Holds (written : List Statement) (key : FieldName) (parts : List Child) : Prop where
  outcome : ∀ (node : SyntaxNode) level, node.child? key = childOf? parts key →
    (Descent.block node key).outcome level = Lowering.statements (level + 1) written
  other : ∀ {other}, other ≠ key → childOf? parts other = none
  notLocal : ∀ child ∈ parts, child.node.kind ≠ .sign "local"
  blocks : ∀ node ∈ kept parts, node.kind = .named .block

private theorem block_gives {written : List Statement} {weave : Weave (List Child)} (key : FieldName)
    (gives : weave.Gives (RecordsAll written)) : (block key weave).Gives (Holds written key) := by
  refine gives.bind fun parts records => .pure ?_
  cases parts with
  | nil =>
    obtain rfl := records.empty rfl
    refine ⟨fun node level child? => ?_, fun _ => rfl, nofun, nofun⟩
    rw [Descent.block, SyntaxNode.part?_eq_none child?]
    rfl
  | cons first rest =>
    refine ⟨fun node level child? => ?_, fun different => ?_, ?_, ?_⟩
    · have found : node.child? key = some (gather .block (first :: rest)).node :=
        child?.trans (childOf?_under_self _ _ _)
      rw [Descent.block, SyntaxNode.part?_eq_some found]
      dsimp only
      rw [Descent.statements, gather, namedChildren_join, records.outcome]
    · change childOf? [(gather .block (first :: rest)).under key] _ = _
      rw [childOf?_under, if_neg different.symm, childOf?_nil]
    · exact List.forall_mem_singleton.2 ((kind_join _ _ _).trans_ne nofun)
    · intro node member
      have listed : node ∈ [(gather .block (first :: rest)).node] := by
        simpa [kept] using (List.mem_filter.1 member).1
      obtain rfl := List.mem_singleton.1 listed
      exact kind_join _ _ _

private theorem enclosed_gives {written : List Statement} {weave : Weave (List Child)}
    (gives : weave.Gives (RecordsAll written)) : (enclosed weave).Gives (Holds written .body) := by
  refine (sign_gives "do").bind fun word isWord => ?_
  refine (block_gives .body gives).bind fun block holds => ?_
  refine (sign_gives "end").bind fun last isLast => .pure ?_
  have same (key : FieldName) : childOf? (word.bare :: block ++ [last.bare]) key = childOf? block key := by
    simp
  refine ⟨fun node level child? => holds.outcome node level (child?.trans (same _)),
    fun different => (same _).trans (holds.other different), ?_, ?_⟩
  · exact List.forall_mem_cons.2 ⟨isWord.notLocal (by decide),
      List.forall_mem_append.2 ⟨holds.notLocal, List.forall_mem_singleton.2 (isLast.notLocal (by decide))⟩⟩
  · rw [kept_append, kept_sign isWord, kept_sign isLast, kept_nil, List.append_nil]
    exact holds.blocks

/-- Whether children come after the name of a function, as its parameters and its body. -/
structure Bodies (written : Callable) (parts : List Child) : Prop where
  outcome : ∀ (node : SyntaxNode) level,
    node.child? .parameters = childOf? parts .parameters → node.child? .body = childOf? parts .body →
      (Descent.functionBody node).outcome level = Lowering.callable level written
  notLocal : ∀ child ∈ parts, child.node.kind ≠ .sign "local"

private theorem scope_gives (isLocal : Bool) : (scope isLocal).Gives fun children => Fieldless children ∧
    (children.any fun child => child.node.kind = .sign "local") = isLocal := by
  cases isLocal with
  | true =>
    refine (sign_gives "local").bind fun strand ⟨_, same⟩ => .pure ⟨.bare nofun, ?_⟩
    rw [List.any_cons, node_bare, same]
    rfl
  | false =>
    refine fun thread => ⟨(sign?_gives ["global"] thread).1, List.any_eq_false.2 ?_⟩
    intro child member
    obtain ⟨text, listed, same⟩ := sign?_texts ["global"] thread child member
    rw [same, List.mem_singleton.1 listed]
    decide

/-! ### Statements -/

/-- The targets and values of an assignment are lists below its node. -/
theorem outcome_assignment (targets values : List Child) (one two : Span) (level : Nat) :
    (Descent.assignment [] [] [(join .variableList one targets).node,
        (join .expressionList two values).node]).outcome level =
      (Descent.expressions ((kept targets).filter fun node => node.kind ≠ .named .attribute)).outcome
        level >>= fun targets => (Descent.expressions (kept values)).outcome level >>= fun values =>
          .ok (targets, values) := by
  rw [Descent.assignment, kind_join]
  dsimp only
  rw [namedChildren_join]
  refine Descent.outcome_bind_eq (Descent.expressions_steady _) rfl fun targets => ?_
  rw [Descent.assignment, kind_join]
  dsimp only
  rw [Descent.expressionList, kind_join, if_pos rfl, namedChildren_join]
  refine Descent.outcome_bind_eq (Descent.expressions_steady _) rfl fun values => ?_
  rw [Descent.assignment]
  rfl

/-- The body of a loop is found beside its clause. -/
theorem childOf?_clause (word clause : Strand) (parts : List Child) :
    childOf? (word.bare :: clause.under .clause :: parts) .body = childOf? parts .body := by
  simp [childOf?_under]

/-- The names and the expressions of a loop over values are lists below its clause. -/
theorem outcome_generic (names exprs : List Child) (one two : Span) (level : Nat) :
    (Descent.generic [] [] [(join .variableList one names).node,
        (join .expressionList two exprs).node]).outcome level =
      (Descent.expressions (kept exprs)).outcome level >>= fun exprs =>
        .ok (Descent.identifiers (kept names), exprs) := by
  rw [Descent.generic, kind_join]
  dsimp only
  rw [namedChildren_join, Descent.generic, kind_join]
  dsimp only
  rw [Descent.expressionList, kind_join, if_pos rfl, namedChildren_join]
  refine Descent.outcome_bind_eq (Descent.expressions_steady _) rfl fun exprs => ?_
  rw [Descent.generic]
  rfl

/-- Whether children are the condition of an arm and what is done if it holds. -/
structure Guards (written : Clause) (parts : List Child) : Prop where
  outcome : ∀ (node : SyntaxNode) level, node.child? .condition = childOf? parts .condition →
    node.child? .consequence = childOf? parts .consequence →
      (Descent.arm node).outcome level = Lowering.clause level written
  noArm : ∀ node ∈ kept parts,
    node.kind ≠ .named .elseifStatement ∧ node.kind ≠ .named .elseStatement

private theorem arms_skip {nodes : List SyntaxNode} (rest : List SyntaxNode)
    (noArm : ∀ node ∈ nodes, node.kind ≠ .named .elseifStatement ∧ node.kind ≠ .named .elseStatement) :
    Descent.arms (nodes ++ rest) = Descent.arms rest := by
  induction nodes with
  | nil => rfl
  | cons node nodes ih =>
    obtain ⟨⟨one, two⟩, others⟩ := List.forall_mem_cons.1 noArm
    rw [List.cons_append, Descent.arms]
    split
    next same => exact absurd same one
    next same => exact absurd same two
    next => exact ih others

private theorem outcome_arms_append (first second : List SyntaxNode) (level : Nat) :
    (Descent.arms (first ++ second)).outcome level =
      (Descent.arms first).outcome level >>= fun one => (Descent.arms second).outcome level >>= fun two =>
        .ok (one ++ two) := by
  induction first with
  | nil =>
    rw [List.nil_append, Descent.arms.eq_def []]
    cases (Descent.arms second).outcome level <;> rfl
  | cons node rest ih =>
    have step {α : Type} {work : Descent α} (make : α → IfClause) (steady : Descent.Steady work) :
        (work >>= fun value => Descent.arms (rest ++ second) >>= fun others =>
            pure (make value :: others)).outcome level =
          (work >>= fun value => Descent.arms rest >>= fun others =>
            pure (make value :: others)).outcome level >>= fun one =>
              (Descent.arms second).outcome level >>= fun two => .ok (one ++ two) := by
      rw [Descent.outcome_bind steady, Descent.outcome_bind steady, bind_assoc]
      refine bind_congr fun value => ?_
      rw [Descent.outcome_bind (Descent.arms_steady _), Descent.outcome_bind (Descent.arms_steady _), ih,
        bind_assoc, bind_assoc]
      refine bind_congr fun one => ?_
      cases (Descent.arms second).outcome level <;> rfl
    rw [List.cons_append, Descent.arms, Descent.arms]
    split
    · exact step id (Descent.arm_steady node)
    · exact step (IfClause.mk none) (Descent.block_steady node .body)
    · exact ih

/-- The last arm of an `if` statement, if it has no condition. -/
def otherwiseArms (level : Nat) : Option Block → Except ParseError (List IfClause)
  | none => .ok []
  | some ⟨body⟩ => return [⟨none, ← Lowering.statements (level + 1) body⟩]

def stepExpr (level : Nat) : Option Term → Except ParseError (Option Expr)
  | none => .ok none
  | some step => return some (← Lowering.term (level + 1) step)

mutual
theorem term_depicts : (written : Term) → written.Proper →
    (term written).Gives fun strand => Depicts written strand.node
  | ⟨span, form⟩, proper => termForm_depicts span form proper

theorem termForm_depicts (span : Span) : (form : TermForm) → form.Proper →
    (termForm span form).Gives fun strand => Depicts ⟨span, form⟩ strand.node
  | .nil, _ => leafAt_depicts rfl rfl (by decide) fun level => by
    rw [Descent.expressionInner]
    rfl
  | .boolean true, _ => leafAt_depicts rfl rfl (by decide) fun level => by
    rw [Descent.expressionInner]
    rfl
  | .boolean false, _ => leafAt_depicts rfl rfl (by decide) fun level => by
    rw [Descent.expressionInner]
    rfl
  | .number text, _ => leafAt_depicts rfl rfl (by decide) fun level => by
    rw [Descent.expressionInner]
    dsimp only [SyntaxNode.kind]
    rw [SyntaxNode.text_leaf]
    rfl
  | .string literal, _ => by
    refine (string_gives span literal).imp fun strand ⟨isKind, place, content⟩ => ?_
    have isNamed : strand.node.isNamed = true := by
      rw [SyntaxNode.isNamed, isKind]
    refine .of_inner (.named .string) place isKind (by decide) isNamed nofun nofun fun level => ?_
    rw [Descent.expressionInner, isKind]
    dsimp only
    rw [content]
    rfl
  | .vararg, _ => leafAt_depicts rfl rfl (by decide) fun level => by
    rw [Descent.expressionInner]
    rfl
  | .name name, _ => leafAt_depicts rfl rfl (by decide) fun level => by
    rw [Descent.expressionInner]
    dsimp only [SyntaxNode.kind]
    rw [SyntaxNode.text_leaf]
    rfl
  | .global, _ => by
    refine (leafAt_gives _ _ _).imp fun strand same => ?_
    rw [same]
    refine .of_inner (.sign "global") rfl rfl (by decide) rfl nofun ?_ fun level => ?_
    · exact fun _ => SyntaxNode.text_leaf _ _ _
    · rw [Descent.expressionInner]
      rfl
  | .function body, proper => by
    refine (sign_gives "function").bind fun word isWord => ?_
    refine (callable_gives body proper).bind fun parts bodies => .pure ?_
    refine join_depicts rfl nofun (by decide) fun level => ?_
    rw [Descent.expressionInner, kind_join, Lowering.termForm]
    refine Descent.outcome_bind_eq (Descent.functionBody_steady _) ?_ fun _ => rfl
    exact bodies.outcome _ level (child?_join _ _ _ _) (child?_join _ _ _ _)
  | .table entries, proper => by
    refine (sign_gives "\x7b").bind fun opening isOpening => ?_
    refine (fields_give entries proper).bind fun parts enters => ?_
    refine (sign_gives "\x7d").bind fun closing isClosing => .pure ?_
    refine join_depicts rfl nofun (by decide) fun level => ?_
    rw [Descent.expressionInner, kind_join, Lowering.termForm]
    refine Descent.outcome_bind_eq (Descent.tableFields_steady _) ?_ fun _ => rfl
    rw [namedChildren_join, kept_append, kept_sign isOpening, kept_sign isClosing, kept_nil,
      List.append_nil, enters]
  | .member object name, ⟨proper, _⟩ => by
    refine (term_depicts object proper).bind fun objectNode object => ?_
    refine (sign_gives ".").bind fun dot _ => ?_
    refine (identifier_gives name).bind fun strand isName => .pure ?_
    refine join_depicts rfl nofun (by decide) fun level => ?_
    rw [Descent.expressionInner, kind_join, Lowering.termForm]
    dsimp only
    rw [Descent.outcome_child_bind (child?_join _ _ _ _)]
    refine Descent.outcome_bind_eq (Descent.expression_steady _) (object.outcome level) fun value => ?_
    rw [Descent.outcome_child_bind (child?_join _ _ _ _)]
    exact congrArg (fun text => Except.ok (Expr.member value text)) isName.text
  | .index object key, ⟨first, second⟩ => by
    refine (term_depicts object first).bind fun objectNode object => ?_
    refine (sign_gives "[").bind fun opening _ => ?_
    refine (term_depicts key second).bind fun keyNode key => ?_
    refine (sign_gives "]").bind fun closing _ => .pure ?_
    refine join_depicts rfl nofun (by decide) fun level => ?_
    rw [Descent.expressionInner, kind_join, Lowering.termForm]
    dsimp only
    rw [Descent.outcome_child_bind (child?_join _ _ _ _)]
    refine Descent.outcome_bind_eq (Descent.expression_steady _) (object.outcome level) fun _ => ?_
    rw [Descent.outcome_child_bind (child?_join _ _ _ _)]
    exact Descent.outcome_bind_eq (Descent.expression_steady _) (key.outcome level) fun _ => rfl
  | .call callee args, ⟨first, second⟩ => by
    refine (term_depicts callee first).bind fun calleeNode callee => ?_
    refine (arguments_gives (terms_give args second)).bind fun list args => .pure ?_
    refine join_depicts rfl (fun _ => rfl) (by decide) fun level => ?_
    have plain : calleeNode.node.kind ≠ .named .methodIndexExpression :=
      fun same => callee.isExpression (same ▸ by decide)
    rw [Descent.expressionInner, kind_join, Lowering.termForm]
    dsimp only
    rw [Descent.call, Descent.outcome_child_bind (child?_join _ _ _ _)]
    refine Descent.outcome_bind_eq (Descent.argumentsOf_steady _) ?_ fun args => ?_
    · rw [Descent.argumentsOf, SyntaxNode.part?_eq_some (child?_join _ _ _ _)]
      exact args level
    · dsimp only
      rw [node_under, if_neg plain]
      exact Descent.outcome_bind_eq (Descent.expression_steady _) (callee.outcome level) fun _ => rfl
  | .methodCall object method args, ⟨first, _, second⟩ => by
    refine (term_depicts object first).bind fun objectNode object => ?_
    refine (sign_gives ":").bind fun colon _ => ?_
    refine (identifier_gives method).bind fun name isName => ?_
    refine (arguments_gives (terms_give args second)).bind fun list args => .pure ?_
    refine join_depicts rfl (fun _ => rfl) (by decide) fun level => ?_
    rw [Descent.expressionInner, kind_join, Lowering.termForm]
    dsimp only
    rw [Descent.call, Descent.outcome_child_bind (child?_join _ _ _ _)]
    refine Descent.outcome_bind_eq (Descent.argumentsOf_steady _) ?_ fun args => ?_
    · rw [Descent.argumentsOf, SyntaxNode.part?_eq_some (child?_join _ _ _ _)]
      exact args level
    · dsimp only
      rw [node_under, gather, if_pos (kind_join _ _ _), Descent.outcome_child_bind (child?_join _ _ _ _)]
      refine Descent.outcome_bind_eq (Descent.expression_steady _) (object.outcome level) fun object => ?_
      rw [Descent.outcome_child_bind (child?_join _ _ _ _)]
      exact congrArg (fun text => Except.ok (Expr.methodCall object text args)) isName.text
  | .paren inner, proper => by
    refine (sign_gives "(").bind fun opening isOpening => ?_
    refine (term_depicts inner proper).bind fun innerNode depicts => ?_
    refine (sign_gives ")").bind fun closing isClosing => .pure ?_
    refine join_depicts rfl nofun (by decide) fun level => ?_
    have nodes : (join .parenthesizedExpression span
        [opening.bare, innerNode.bare, closing.bare]).node.namedChildren =
          if inner.isGlobal then [] else [innerNode.node] := by
      rw [namedChildren_join, kept_sign isOpening, kept_expression depicts _ rfl, kept_sign isClosing,
        kept_nil]
    rw [Descent.expressionInner, kind_join, Lowering.termForm]
    dsimp only
    by_cases isGlobal : inner.isGlobal = true
    · rw [if_pos isGlobal] at nodes ⊢
      rw [SyntaxNode.first?_eq_none nodes, Descent.outcome_unsupported, kind_join, span_join]
      rfl
    · rw [if_neg isGlobal] at nodes ⊢
      rw [SyntaxNode.first?_eq_some nodes]
      exact Descent.outcome_bind_eq (Descent.expression_steady _) (depicts.outcome level) fun _ => rfl
  | .unary op operand, proper => by
    refine (sign_gives op.token).bind fun sign isSign => ?_
    refine (term_depicts operand proper).bind fun operandNode depicts => .pure ?_
    refine join_depicts rfl nofun (by decide) fun level => ?_
    have found : Descent.operator UnaryOp.ofToken? (join .unaryExpression span
        ([] ++ sign.bare :: [operandNode.under .operand])).node = pure op :=
      operator_eq isSign (ofToken?_token_unary op) nofun
    rw [List.nil_append] at found
    rw [Descent.expressionInner, kind_join, Lowering.termForm]
    dsimp only
    rw [found, pure_bind, Descent.outcome_child_bind (child?_join _ _ _ _)]
    exact Descent.outcome_bind_eq (Descent.expression_steady _) (depicts.outcome level) fun _ => rfl
  | .binary op left right, ⟨first, second⟩ => by
    refine (term_depicts left first).bind fun leftNode left => ?_
    refine (sign_gives op.token).bind fun sign isSign => ?_
    refine (term_depicts right second).bind fun rightNode right => .pure ?_
    refine join_depicts rfl nofun (by decide) fun level => ?_
    have found : Descent.operator BinaryOp.ofToken? (join .binaryExpression span
        ([leftNode.under .left] ++ sign.bare :: [rightNode.under .right])).node = pure op := by
      refine operator_eq isSign (ofToken?_token_binary op) (List.forall_mem_singleton.2 fun unnamed => ?_)
      rw [node_under] at unnamed ⊢
      rw [left.isNamed, Bool.not_eq_false'] at unnamed
      rw [left.isWord unnamed]
      decide
    rw [List.singleton_append] at found
    rw [Descent.expressionInner, kind_join, Lowering.termForm]
    dsimp only
    rw [found, pure_bind, Descent.outcome_child_bind (child?_join _ _ _ _)]
    refine Descent.outcome_bind_eq (Descent.expression_steady _) (left.outcome level) fun _ => ?_
    rw [Descent.outcome_child_bind (child?_join _ _ _ _)]
    exact Descent.outcome_bind_eq (Descent.expression_steady _) (right.outcome level) fun _ => rfl

theorem terms_give : (written : List Term) → termsProper written →
    (terms written).Gives (DepictsAll written)
  | [], _ => by
    refine .pure ⟨fun level => ?_, nofun, nofun⟩
    rw [kept_nil, Descent.expressions]
    rfl
  | head :: rest, ⟨first, others⟩ => by
    refine (term_depicts head first).bind fun strand depicts => ?_
    refine (sign?_gives _).bind fun comma ⟨fieldless, noComma⟩ => ?_
    refine (terms_give rest others).bind fun children all => .pure ?_
    have nodes : kept (strand.bare :: comma ++ children) =
        if head.isGlobal then kept children else strand.node :: kept children := by
      rw [kept_append, kept_expression depicts _ rfl, noComma]
      split <;> rfl
    refine ⟨fun level => ?_, (fieldless.bare).append all.fieldless, ?_⟩
    · rw [nodes, Lowering.terms]
      split
      · exact all.outcome level
      · rw [Descent.expressions]
        refine Descent.outcome_bind_eq (Descent.expression_steady _) (depicts.outcome level) fun _ => ?_
        exact Descent.outcome_bind_eq (Descent.expressions_steady _) (all.outcome level) fun _ => rfl
    · rw [nodes]
      split
      · exact all.areExpressions
      · exact List.forall_mem_cons.2 ⟨depicts.isExpression, all.areExpressions⟩

theorem fields_give : (written : List Field) → fieldsProper written →
    (fields written).Gives fun children => ∀ level,
      (Descent.tableFields ((kept children).filter fun node => node.kind = .named .field)).outcome
        level = Lowering.fields level written
  | [], _ => .pure fun level => by
    rw [kept_nil, List.filter_nil, Descent.tableFields]
    rfl
  | head :: rest, ⟨first, others⟩ => by
    refine (field_gives head first).bind fun strand ⟨isField, enters⟩ => ?_
    refine (sign?_gives _).bind fun mark ⟨_, noMark⟩ => ?_
    refine (fields_give rest others).bind fun children all => .pure fun level => ?_
    have nodes : kept (strand.bare :: mark ++ children) = strand.node :: kept children := by
      rw [kept_append, kept_cons, node_bare, SyntaxNode.isNamed, SyntaxNode.isComment, isField, noMark]
      rfl
    rw [nodes, List.filter_cons, if_pos (decide_eq_true isField), Descent.tableFields, Lowering.fields]
    refine Descent.outcome_bind_eq (Descent.tableField_steady _) (enters level) fun _ => ?_
    exact Descent.outcome_bind_eq (Descent.tableFields_steady _) (all level) fun _ => rfl

theorem field_gives : (written : Field) → written.Proper →
    (field written).Gives fun strand => strand.node.kind = .named .field ∧ ∀ level,
      (Descent.tableField strand.node).outcome level = Lowering.field level written
  | .named name value, ⟨⟨_, free⟩, proper⟩ => by
    refine (identifier_gives name).bind fun strand isName => ?_
    refine (sign_gives "=").bind fun equals isEquals => ?_
    refine (term_depicts value proper).bind fun valueNode value => .pure ⟨kind_join _ _ _, fun level => ?_⟩
    have opens : (gather .field
        [strand.under .name, equals.bare, valueNode.under .value]).node.opensWithBracket = false :=
      opensWithBracket_named isName isEquals free
    obtain ⟨_, same⟩ := id isName
    rw [gather] at opens ⊢
    rw [Descent.tableField, Lowering.field, Descent.outcome_child_bind (child?_join _ _ _ _)]
    refine Descent.outcome_bind_eq (Descent.expression_steady _) (value.outcome level) fun value => ?_
    rw [SyntaxNode.part?_eq_some (child?_join _ _ _ _)]
    dsimp only
    rw [opens, node_under, same]
    exact congrArg (fun text => Except.ok (TableField.named text value)) (SyntaxNode.text_leaf _ _ _)
  | .keyed key value, ⟨first, second⟩ => by
    refine (bracket_gives key.isGlobal).bind fun opening ⟨fieldless, bracketed⟩ => ?_
    refine (term_depicts key first).bind fun keyNode key' => ?_
    refine (closing?_gives opening "]").bind fun closing ⟨closingFieldless, _⟩ => ?_
    refine (sign_gives "=").bind fun equals isEquals => ?_
    refine (term_depicts value second).bind fun valueNode value => .pure ⟨kind_join _ _ _, fun level => ?_⟩
    rw [gather]
    generalize spanOf (opening ++ keyNode.under .name :: closing ++
      [equals.bare, valueNode.under .value]) = span
    have valued : childOf? (opening ++ keyNode.under .name :: closing ++
        [equals.bare, valueNode.under .value]) .value = some valueNode.node := by
      simp [fieldless.childOf?, closingFieldless.childOf?, childOf?_under]
    have named : childOf? (opening ++ keyNode.under .name :: closing ++
        [equals.bare, valueNode.under .value]) .name = some keyNode.node := by
      simp [fieldless.childOf?]
    have bracketed : (decide (keyNode.node.kind = .named .identifier) && !(join .field span
        (opening ++ keyNode.under .name :: closing ++
          [equals.bare, valueNode.under .value])).node.opensWithBracket) = false := by
      cases isGlobal : key.isGlobal with
      | true =>
        have isWord := key'.isNamed
        rw [isGlobal] at isWord
        have other : keyNode.node.kind ≠ .named .identifier := by
          intro same
          rw [SyntaxNode.isNamed, same] at isWord
          cases isWord
        rw [decide_eq_false other, Bool.false_and]
      | false =>
        obtain ⟨strand, rfl, isSign⟩ := bracketed isGlobal
        rw [List.append_assoc, List.singleton_append, opensWithBracket_bracket isSign, Bool.not_true,
          Bool.and_false]
    rw [Descent.tableField, Lowering.field,
      Descent.outcome_child_bind ((child?_join _ _ _ _).trans valued)]
    refine Descent.outcome_bind_eq (Descent.expression_steady _) (value.outcome level) fun value => ?_
    rw [SyntaxNode.part?_eq_some ((child?_join _ _ _ _).trans named)]
    dsimp only
    rw [bracketed]
    exact Descent.outcome_bind_eq (Descent.expression_steady _) (key'.outcome level) fun _ => rfl
  | .positional value, proper => by
    refine (term_depicts value proper).bind fun valueNode value => .pure ⟨kind_join _ _ _, fun level => ?_⟩
    rw [gather, Descent.tableField, Lowering.field, Descent.outcome_child_bind (child?_join _ _ _ _)]
    refine Descent.outcome_bind_eq (Descent.expression_steady _) (value.outcome level) fun value => ?_
    rw [SyntaxNode.part?_eq_none (child?_join _ _ _ _)]
    rfl

theorem callable_gives : (written : Callable) → written.Proper →
    (callable written).Gives (Bodies written)
  | ⟨params, vararg, body⟩, ⟨_, proper⟩ => by
    refine (parameterList_gives vararg params).bind fun list lists => ?_
    refine (block_gives .body (statements_give body proper)).bind fun block holds => ?_
    refine (sign_gives "end").bind fun last isLast => .pure ⟨fun node level listed bodied => ?_, ?_⟩
    · have listed : node.child? .parameters = some list.node := listed
      have bodied : node.child? .body = childOf? block .body := by
        simpa [childOf?_under] using bodied
      rw [Descent.functionBody, Descent.parametersOf, listed]
      dsimp only
      rw [lists.parameters, pure_bind]
      exact Descent.outcome_bind_eq (Descent.block_steady _ _) (holds.outcome node level bodied)
        fun _ => rfl
    · exact List.forall_mem_cons.2 ⟨notLocal_of_isNamed lists.isNamed,
        List.forall_mem_append.2 ⟨holds.notLocal, List.forall_mem_singleton.2 (isLast.notLocal (by decide))⟩⟩

theorem statements_give : (written : List Statement) → statementsProper written →
    (statements written).Gives (RecordsAll written)
  | [], _ => by
    refine .pure ⟨fun level => ?_, fun _ => rfl⟩
    rw [kept_nil, Descent.statementList]
    rfl
  | head :: rest, ⟨_, first, others⟩ => by
    refine (statement_gives head first).bind fun strand records => ?_
    refine (statements_give rest others).bind fun children all => .pure ⟨fun level => ?_, nofun⟩
    rw [kept_cons, node_bare, records.isNamed, records.isComment, Lowering.statements]
    change (Descent.statementList (strand.node :: kept children)).outcome level = _
    rw [Descent.statementList]
    refine Descent.outcome_bind_eq (Descent.statement_steady _) (records.outcome level) fun _ => ?_
    exact Descent.outcome_bind_eq (Descent.statementList_steady _) (all.outcome level) fun _ => rfl

theorem statement_gives : (written : Statement) → written.Proper →
    (statement written).Gives fun strand => Records written strand.node
  | ⟨span, form⟩, ⟨fits, proper⟩ => statementForm_gives span form fits proper

theorem statementForm_gives (span : Span) : (form : StatementForm) → form.Fits span → form.Proper →
    (statementForm span form).Gives fun strand => Records ⟨span, form⟩ strand.node
  | .empty, _, _ => by
    refine (leafAt_gives _ _ _).imp fun strand same => ?_
    rw [same]
    refine .of_kind rfl rfl (by decide) fun level => ?_
    rw [Descent.statementKind]
    rfl
  | .declare declared _, _, _ => by
    refine introduction_gives.bind fun (word, attrs) ⟨⟨_, strand, isWord, isSign⟩, areAttributes⟩ => ?_
    refine (declaredNames_gives declared).bind fun names declares => .pure ?_
    refine .of_kind (span_join _ _ _) (kind_join _ _ _) (by decide) fun level => ?_
    have list : Descent.identifiers (kept (attrs ++ names)) = declared.map Prod.fst := by
      rw [kept_append, identifiers_append, areAttributes.identifiers, declares.identifiers,
        List.nil_append]
    rw [isWord, gather, Descent.statementKind, kind_join, namedChildren_join, kept_sign isSign,
      kept_join (by decide), kept_nil, Lowering.statementForm]
    dsimp only
    rw [Descent.localDeclaration, kind_join]
    dsimp only
    rw [namedChildren_join, list]
    rfl
  | .define declared _ values, _, ⟨_, proper⟩ => by
    refine introduction_gives.bind fun (word, attrs) ⟨⟨_, strand, isWord, isSign⟩, areAttributes⟩ => ?_
    refine (declaredNames_gives declared).bind fun names declares => ?_
    refine (sign_gives "=").bind fun equals isEquals => ?_
    refine (terms_give values proper).bind fun children all => .pure ?_
    refine .of_kind (span_join _ _ _) (kind_join _ _ _) (by decide) fun level => ?_
    have targets : ((kept (attrs ++ names)).filter fun node => node.kind ≠ .named .attribute) =
        (kept names).filter fun node => node.kind ≠ .named .attribute := by
      rw [kept_append, List.filter_append, areAttributes.filter, List.nil_append]
    rw [isWord, gather, gather, gather, Descent.statementKind, kind_join, namedChildren_join,
      kept_sign isSign, kept_join (by decide), kept_nil, Lowering.statementForm]
    dsimp only
    rw [Descent.outcome_bind (Descent.localDeclaration_steady _ _), Descent.localDeclaration, kind_join]
    dsimp only
    rw [namedChildren_join, kept_join (by decide), kept_sign isEquals, kept_join (by decide), kept_nil,
      Descent.outcome_bind (Descent.assignment_steady _ _ _), outcome_assignment, targets,
      declares.outcome, all.outcome]
    cases Lowering.names (level + 1) declared with
    | error problem => rfl
    | ok names =>
      cases Lowering.terms (level + 1) values with
      | error problem => rfl
      | ok values =>
        have kept : (names.map Expr.name).filterMap Expr.name? = names := by
          rw [List.filterMap_map]
          exact List.filterMap_some
        exact congrArg (fun names => Except.ok (some (StmtKind.local_ names values))) kept
  | .declareAll _, _, _ => by
    refine .after fun word => .after fun attrs => .after fun star => .pure ?_
    refine .of_kind (span_join _ _ _) (kind_join _ _ _) (by decide) fun level => ?_
    rw [Descent.statementKind, kind_join]
    dsimp only
    rw [Descent.outcome_unsupported, kind_join, span_join]
    rfl
  | .assign targets values, _, ⟨_, first, second⟩ => by
    refine (terms_give targets first).bind fun targets all => ?_
    refine (sign_gives "=").bind fun equals isEquals => ?_
    refine (terms_give values second).bind fun values others => .pure ?_
    refine .of_kind (span_join _ _ _) (kind_join _ _ _) (by decide) fun level => ?_
    have unattributed : ((kept targets).filter fun node => node.kind ≠ .named .attribute) = kept targets := by
      rw [List.filter_eq_self]
      intro node member
      refine decide_eq_true fun same => all.areExpressions node member (same ▸ by decide)
    rw [gather, gather, Descent.statementKind, kind_join, namedChildren_join, kept_join (by decide),
      kept_sign isEquals, kept_join (by decide), kept_nil, Lowering.statementForm]
    dsimp only
    rw [Descent.outcome_bind (Descent.assignment_steady _ _ _), outcome_assignment, unattributed,
      all.outcome, others.outcome, bind_assoc]
    refine bind_congr fun targets => ?_
    rw [bind_assoc]
    rfl
  | .call value, ⟨called, place⟩, proper => by
    refine (term_depicts value proper).imp fun strand depicts => ?_
    refine .of_kind (depicts.span.trans place) (depicts.isCall called) (by decide) fun level => ?_
    rw [Descent.statementKind, depicts.isCall called]
    exact Descent.outcome_bind_eq (Descent.expression_steady _) (depicts.outcome level) fun _ => rfl
  | .function name isLocal body, _, ⟨named, _, proper⟩ => by
    refine (scope_gives isLocal).bind fun scope ⟨fieldless, localWord⟩ => ?_
    refine (sign_gives "function").bind fun word isWord => ?_
    refine (functionName_gives named.1).bind fun strand names => ?_
    refine (callable_gives body proper).bind fun parts bodies => .pure ?_
    refine .of_kind (span_join _ _ _) (kind_join _ _ _) (by decide) fun level => ?_
    have others : (parts.any fun child => child.node.kind = .sign "local") = false := by
      simpa using bodies.notLocal
    have isLocal_ : ((scope ++ word.bare :: strand.under .name :: parts).any fun child =>
        child.node.kind = .sign "local") = isLocal := by
      rw [List.any_append, localWord, List.any_cons, List.any_cons, others, node_bare, node_under,
        decide_eq_false (isWord.notLocal (by decide)),
        decide_eq_false (notLocal_of_isNamed names.isNamed)]
      simp
    have named : childOf? (scope ++ word.bare :: strand.under .name :: parts) .name = some strand.node := by
      simp [fieldless.childOf?]
    have further {key : FieldName} (other : .name ≠ key) :
        childOf? (scope ++ word.bare :: strand.under .name :: parts) key = childOf? parts key := by
      simp [fieldless.childOf?, childOf?_under, other]
    rw [Descent.statementKind, kind_join, Lowering.statementForm]
    dsimp only
    rw [Descent.outcome_bind (Descent.functionDeclaration_steady _), Descent.functionDeclaration,
      any_children_join, isLocal_, Descent.outcome_child_bind ((child?_join _ _ _ _).trans named)]
    dsimp only
    rw [names.functionName, pure_bind, Descent.outcome_bind (Descent.functionBody_steady _),
      bodies.outcome _ level ((child?_join _ _ _ _).trans (further (by decide)))
        ((child?_join _ _ _ _).trans (further (by decide))), bind_assoc]
    rfl
  | .return_ values, _, proper => by
    refine (sign_gives "return").bind fun word isWord => ?_
    refine (terms_give values proper).bind fun children all => ?_
    refine (sign?_gives [";"]).bind fun mark ⟨_, noMark⟩ => .pure ?_
    refine .of_kind (span_join _ _ _) (kind_join _ _ _) (by decide) fun level => ?_
    have outcome := all.outcome level
    rw [Descent.statementKind, kind_join, Lowering.statementForm, ← outcome]
    dsimp only
    cases children with
    | nil =>
      have nodes : (join .returnStatement span (word.bare :: [] ++ mark)).node.namedChildren = [] := by
        rw [namedChildren_join, kept_append, kept_sign isWord, kept_nil, noMark, List.nil_append]
      rw [List.isEmpty_nil, if_pos rfl, SyntaxNode.first?_eq_none nodes, kept_nil, Descent.expressions]
      rfl
    | cons first rest =>
      have nodes : (join .returnStatement span (word.bare ::
          [(gather .expressionList (first :: rest)).bare] ++ mark)).node.namedChildren =
            [(gather .expressionList (first :: rest)).node] := by
        rw [namedChildren_join, kept_append, kept_sign isWord, noMark, List.append_nil, gather,
          kept_join (by decide), kept_nil]
      rw [List.isEmpty_cons, if_neg Bool.false_ne_true, SyntaxNode.first?_eq_some nodes]
      dsimp only
      rw [Descent.expressionList, gather, kind_join, if_pos rfl, namedChildren_join]
      exact Descent.outcome_bind_eq (Descent.expressions_steady _) rfl fun _ => rfl
  | .if_ first others otherwise, _, ⟨one, two, three⟩ => by
    refine (sign_gives "if").bind fun word isWord => ?_
    refine (clause_gives first one).bind fun parts guards => ?_
    refine (clauses_give others two).bind fun middle ⟨fieldless, arms⟩ => ?_
    refine (otherwise_gives otherwise three).bind fun tail ⟨tailFieldless, last⟩ => ?_
    refine (sign_gives "end").bind fun closing isClosing => .pure ?_
    refine .of_kind (span_join _ _ _) (kind_join _ _ _) (by decide) fun level => ?_
    have own (key : FieldName) :
        childOf? (word.bare :: parts ++ middle ++ tail ++ [closing.bare]) key = childOf? parts key := by
      simp [fieldless.childOf?, tailFieldless.childOf?]
    have nodes : kept (word.bare :: parts ++ middle ++ tail ++ [closing.bare]) =
        kept parts ++ (kept middle ++ kept tail) := by
      rw [kept_append, kept_append, kept_append, kept_sign isWord, kept_sign isClosing, kept_nil,
        List.append_nil, List.append_assoc]
    rw [Descent.statementKind, kind_join, Lowering.statementForm]
    dsimp only
    rw [Descent.outcome_bind (Descent.ifStatement_steady _), Descent.ifStatement,
      Descent.outcome_bind (Descent.arm_steady _), bind_assoc,
      guards.outcome _ level ((child?_join _ _ _ _).trans (own _)) ((child?_join _ _ _ _).trans (own _))]
    refine bind_congr fun first => ?_
    rw [Descent.outcome_bind (Descent.arms_steady _), namedChildren_join, nodes,
      arms_skip _ guards.noArm, outcome_arms_append, arms, last, bind_assoc, bind_assoc]
    refine bind_congr fun others => ?_
    match otherwise with
    | none => exact congrArg (fun arms => Except.ok (some (StmtKind.if_ (first :: arms)))) others.append_nil
    | some ⟨body⟩ =>
      rw [bind_assoc, otherwiseArms, bind_assoc]
      rfl
  | .while_ condition body, _, ⟨first, second⟩ => by
    refine (sign_gives "while").bind fun word isWord => ?_
    refine (term_depicts condition first).bind fun strand depicts => ?_
    refine (enclosed_gives (statements_give body second)).bind fun parts holds => .pure ?_
    refine .of_kind (span_join _ _ _) (kind_join _ _ _) (by decide) fun level => ?_
    have own : childOf? (word.bare :: strand.under .condition :: parts) .body = childOf? parts .body := by
      simp [childOf?_under]
    rw [Descent.statementKind, kind_join, Lowering.statementForm]
    dsimp only
    rw [Descent.outcome_child_bind (child?_join _ _ _ _)]
    refine Descent.outcome_bind_eq (Descent.expression_steady _) (depicts.outcome level) fun _ => ?_
    exact Descent.outcome_bind_eq (Descent.block_steady _ _)
      (holds.outcome _ level ((child?_join _ _ _ _).trans own)) fun _ => rfl
  | .repeat_ body condition, _, ⟨first, second⟩ => by
    refine (sign_gives "repeat").bind fun word isWord => ?_
    refine (block_gives .body (statements_give body first)).bind fun parts holds => ?_
    refine (sign_gives "until").bind fun mark isMark => ?_
    refine (term_depicts condition second).bind fun strand depicts => .pure ?_
    refine .of_kind (span_join _ _ _) (kind_join _ _ _) (by decide) fun level => ?_
    have own : childOf? (word.bare :: parts ++ [mark.bare, strand.under .condition]) .body =
        childOf? parts .body := by
      simp [childOf?_under]
    have guard : childOf? (word.bare :: parts ++ [mark.bare, strand.under .condition]) .condition =
        some strand.node := by
      simp [holds.other]
    rw [Descent.statementKind, kind_join, Lowering.statementForm]
    dsimp only
    refine Descent.outcome_bind_eq (Descent.block_steady _ _)
      (holds.outcome _ level ((child?_join _ _ _ _).trans own)) fun _ => ?_
    rw [Descent.outcome_child_bind ((child?_join _ _ _ _).trans guard)]
    exact Descent.outcome_bind_eq (Descent.expression_steady _) (depicts.outcome level) fun _ => rfl
  | .do_ body, _, proper => by
    refine (enclosed_gives (statements_give body proper)).bind fun parts holds => .pure ?_
    refine .of_kind (span_join _ _ _) (kind_join _ _ _) (by decide) fun level => ?_
    rw [Descent.statementKind, kind_join, Lowering.statementForm]
    exact Descent.outcome_bind_eq (Descent.block_steady _ _)
      (holds.outcome _ level (child?_join _ _ _ _)) fun _ => rfl
  | .forNumeric var start limit step body, _, ⟨_, one, two, three, four⟩ => by
    refine (sign_gives "for").bind fun word isWord => ?_
    refine (identifier_gives var).bind fun name isName => ?_
    refine (sign_gives "=").bind fun equals isEquals => ?_
    refine (term_depicts start one).bind fun startNode start => ?_
    refine (sign_gives ",").bind fun comma isComma => ?_
    refine (term_depicts limit two).bind fun limitNode limit => ?_
    refine (stepOf_gives step three).bind fun stepParts ⟨others, steps⟩ => ?_
    refine (enclosed_gives (statements_give body four)).bind fun parts holds => .pure ?_
    refine .of_kind (span_join _ _ _) (kind_join _ _ _) (by decide) fun level => ?_
    have startFound : childOf? ([name.under .name, equals.bare, startNode.under .start, comma.bare,
        limitNode.under .end_] ++ stepParts) .start = some startNode.node := by
      simp [childOf?_under]
    have limitFound : childOf? ([name.under .name, equals.bare, startNode.under .start, comma.bare,
        limitNode.under .end_] ++ stepParts) .end_ = some limitNode.node := by
      simp [childOf?_under]
    have stepFound : childOf? ([name.under .name, equals.bare, startNode.under .start, comma.bare,
        limitNode.under .end_] ++ stepParts) .step = childOf? stepParts .step := by
      simp [childOf?_under]
    rw [gather, Descent.statementKind, kind_join, Lowering.statementForm]
    dsimp only
    rw [Descent.outcome_bind (Descent.forStatement_steady _), Descent.forStatement,
      Descent.outcome_child_bind (child?_join _ _ _ _),
      Descent.outcome_bind (Descent.block_steady _ _),
      holds.outcome _ level ((child?_join _ _ _ _).trans (childOf?_clause word _ _)), bind_assoc]
    refine bind_congr fun body => ?_
    dsimp only
    rw [node_under, kind_join]
    dsimp only
    rw [Descent.outcome_child_bind (child?_join _ _ _ _),
      Descent.outcome_child_bind ((child?_join _ _ _ _).trans startFound)]
    dsimp only
    rw [Descent.outcome_bind (Descent.expression_steady _), start.outcome, bind_assoc]
    refine bind_congr fun start => ?_
    rw [Descent.outcome_child_bind ((child?_join _ _ _ _).trans limitFound)]
    dsimp only
    rw [Descent.outcome_bind (Descent.expression_steady _), limit.outcome, bind_assoc]
    refine bind_congr fun limit => ?_
    rw [Descent.outcome_bind (Descent.step_steady _), steps _ level ((child?_join _ _ _ _).trans stepFound),
      node_under, isName.text]
    cases step with
    | none => rfl
    | some step =>
      rw [stepExpr, bind_assoc, bind_assoc]
      rfl
  | .forGeneric names exprs body, _, ⟨_, first, second⟩ => by
    refine (sign_gives "for").bind fun word isWord => ?_
    refine (names_gives names).bind fun nameNodes spells => ?_
    refine (sign_gives "in").bind fun mark isMark => ?_
    refine (terms_give exprs first).bind fun children all => ?_
    refine (enclosed_gives (statements_give body second)).bind fun parts holds => .pure ?_
    refine .of_kind (span_join _ _ _) (kind_join _ _ _) (by decide) fun level => ?_
    rw [gather, gather, gather, Descent.statementKind, kind_join, Lowering.statementForm]
    dsimp only
    rw [Descent.outcome_bind (Descent.forStatement_steady _), Descent.forStatement,
      Descent.outcome_child_bind (child?_join _ _ _ _),
      Descent.outcome_bind (Descent.block_steady _ _),
      holds.outcome _ level ((child?_join _ _ _ _).trans (childOf?_clause word _ _)), bind_assoc]
    refine bind_congr fun body => ?_
    dsimp only
    rw [node_under, kind_join]
    dsimp only
    rw [Descent.outcome_bind (Descent.generic_steady _ _ _), namedChildren_join, kept_join (by decide),
      kept_sign isMark, kept_join (by decide), kept_nil, outcome_generic, spells.identifiers, all.outcome,
      bind_assoc, bind_assoc]
    rfl
  | .break_, _, _ => by
    refine (leafAt_gives _ _ _).imp fun strand same => ?_
    rw [same]
    refine .of_kind rfl rfl (by decide) fun level => ?_
    rw [Descent.statementKind]
    rfl
  | .goto label, _, _ => by
    refine (sign_gives "goto").bind fun word isWord => ?_
    refine (identifier_gives label).bind fun name isName => .pure ?_
    refine .of_kind (span_join _ _ _) (kind_join _ _ _) (by decide) fun level => ?_
    rw [Descent.statementKind, kind_join]
    dsimp only
    rw [Descent.identifierChild, namedChildren_join, kept_sign isWord, kept_identifier isName, kept_nil,
      isName.identifiers]
    rfl
  | .label name, _, _ => by
    refine (sign_gives "::").bind fun opening isOpening => ?_
    refine (identifier_gives name).bind fun strand isName => ?_
    refine (sign_gives "::").bind fun closing isClosing => .pure ?_
    refine .of_kind (span_join _ _ _) (kind_join _ _ _) (by decide) fun level => ?_
    rw [Descent.statementKind, kind_join]
    dsimp only
    rw [Descent.identifierChild, namedChildren_join, kept_sign isOpening, kept_identifier isName,
      kept_sign isClosing, kept_nil, isName.identifiers]
    rfl

theorem clause_gives : (written : Clause) → written.Proper → (clause written).Gives (Guards written)
  | ⟨condition, body⟩, ⟨first, second⟩ => by
    refine (term_depicts condition first).bind fun strand depicts => ?_
    refine (sign_gives "then").bind fun mark isMark => ?_
    refine (block_gives .consequence (statements_give body second)).bind fun parts holds => .pure ?_
    refine ⟨fun node level guard done => ?_, ?_⟩
    · have done : node.child? .consequence = childOf? parts .consequence := by
        simpa [childOf?_under] using done
      rw [Descent.arm, Lowering.clause, Descent.outcome_child_bind guard]
      refine Descent.outcome_bind_eq (Descent.expression_steady _) (depicts.outcome level) fun _ => ?_
      exact Descent.outcome_bind_eq (Descent.block_steady _ _) (holds.outcome node level done) fun _ => rfl
    · have noArm {node : SyntaxNode} (other : node.kind ∉ besideKinds) :
          node.kind ≠ .named .elseifStatement ∧ node.kind ≠ .named .elseStatement :=
        ⟨fun same => other (same ▸ by decide), fun same => other (same ▸ by decide)⟩
      have blocks (node : SyntaxNode) (member : node ∈ kept parts) :
          node.kind ≠ .named .elseifStatement ∧ node.kind ≠ .named .elseStatement :=
        noArm (holds.blocks node member ▸ by decide)
      rw [kept_expression depicts _ rfl, kept_sign isMark]
      split
      · exact blocks
      · exact List.forall_mem_cons.2 ⟨noArm depicts.isExpression, blocks⟩

theorem clauses_give : (written : List Clause) → clausesProper written →
    (clauses written).Gives fun children => Fieldless children ∧ ∀ level,
      (Descent.arms (kept children)).outcome level = Lowering.clauses level written
  | [], _ => .pure ⟨nofun, fun level => by
      rw [kept_nil, Descent.arms]
      rfl⟩
  | head :: rest, ⟨first, others⟩ => by
    refine (sign_gives "elseif").bind fun word isWord => ?_
    refine (clause_gives head first).bind fun parts guards => ?_
    refine (clauses_give rest others).bind fun children ⟨fieldless, all⟩ => .pure ⟨fieldless.bare, ?_⟩
    intro level
    rw [gather, kept_join (by decide), Descent.arms, kind_join, Lowering.clauses]
    dsimp only
    refine Descent.outcome_bind_eq (Descent.arm_steady _) ?_ fun _ => ?_
    · exact guards.outcome _ level (child?_join _ _ _ _) (child?_join _ _ _ _)
    · exact Descent.outcome_bind_eq (Descent.arms_steady _) (all level) fun _ => rfl

theorem otherwise_gives : (written : Option Block) → otherwiseProper written →
    (otherwise_ written).Gives fun children => Fieldless children ∧ ∀ level,
      (Descent.arms (kept children)).outcome level = otherwiseArms level written
  | none, _ => .pure ⟨nofun, fun level => by
      rw [kept_nil, Descent.arms]
      rfl⟩
  | some ⟨body⟩, proper => by
    refine (sign_gives "else").bind fun word isWord => ?_
    refine (block_gives .body (statements_give body proper)).bind fun parts holds => .pure ⟨.bare nofun, ?_⟩
    intro level
    rw [gather, kept_join (by decide), kept_nil, Descent.arms, kind_join]
    dsimp only
    refine Descent.outcome_bind_eq (Descent.block_steady _ _)
      (holds.outcome _ level (child?_join _ _ _ _)) fun _ => ?_
    rw [Descent.arms]
    rfl

theorem stepOf_gives : (written : Option Term) → stepProper written →
    (stepOf written).Gives fun children => (∀ {key}, key ≠ .step → childOf? children key = none) ∧
      ∀ (clause : SyntaxNode) level, clause.child? .step = childOf? children .step →
        (Descent.step clause).outcome level = stepExpr level written
  | none, _ => .pure ⟨fun _ => rfl, fun clause level missing => by
      rw [Descent.step, SyntaxNode.part?_eq_none missing]
      rfl⟩
  | some step, proper => by
    refine (sign_gives ",").bind fun comma _ => ?_
    refine (term_depicts step proper).bind fun strand depicts => .pure ⟨fun other => ?_, ?_⟩
    · simp [childOf?_under, other.symm]
    · intro clause level found
      rw [Descent.step, SyntaxNode.part?_eq_some found]
      exact Descent.outcome_bind_eq (Descent.expression_steady _) (depicts.outcome level) fun _ => rfl
end

/-! ### The whole text -/

/-- Whether edges lead to comments, or to what comes before the statements and is left out. -/
def AreSilent (edges : List Edge) : Prop :=
  ∀ node ∈ edges.map Edge.node, node.isNamed = true → node.isComment = false →
    (Descent.statement node).outcome 0 = .ok none

theorem AreSilent.append {first second : List Edge} (one : AreSilent first)
    (two : AreSilent second) : AreSilent (first ++ second) := by
  rw [AreSilent, List.map_append, List.forall_mem_append]
  exact ⟨one, two⟩

private theorem remarks_silent (remarks : List Remark) : AreSilent (remarks.map Remark.edge) := by
  intro node member _ counts
  obtain ⟨edge, listed, rfl⟩ := List.mem_map.1 member
  obtain ⟨remark, _, rfl⟩ := List.mem_map.1 listed
  cases counts

theorem AreSilent.outcome {edges : List Edge} (silent : AreSilent edges) (rest : List SyntaxNode) :
    (Descent.statementList (((edges.map Edge.node).filter fun node =>
        node.isNamed && !node.isComment) ++ rest)).outcome 0 =
      (Descent.statementList rest).outcome 0 := by
  induction edges with
  | nil => rfl
  | cons edge edges ih =>
    obtain ⟨first, others⟩ := List.forall_mem_cons.1 silent
    rw [List.map_cons, List.filter_cons]
    split
    next kept =>
      obtain ⟨isNamed, counts⟩ := Bool.and_eq_true_iff.1 kept
      rw [List.cons_append, Descent.statementList, Descent.outcome_bind (Descent.statement_steady _),
        first isNamed (Bool.not_eq_eq_eq_not.1 counts)]
      change (Descent.statementList _ >>= _).outcome 0 = _
      rw [Descent.outcome_bind (Descent.statementList_steady _), ih others]
      cases (Descent.statementList rest).outcome 0 <;> rfl
    next => exact ih others

private theorem header_gives (hasInterpreterLine : Bool) :
    (header hasInterpreterLine).Gives AreSilent := by
  refine .after fun thread => ?_
  dsimp only
  split
  · refine .after fun _ => .pure ((remarks_silent _).append ?_)
    refine List.forall_mem_singleton.2 fun _ _ => ?_
    rw [Descent.statement, Descent.outcome_bind (Descent.statementKind_steady _).within,
      Descent.outcome_within_eq, Descent.statementKind]
    rfl
  · exact .after fun _ => .pure (remarks_silent _)

/-- The statements below the root of a tree are those of the text. -/
theorem file_gives {written : File} (proper : statementsProper written.body) :
    (file written).Gives fun root =>
      (Descent.statements root).outcome 0 = Lowering.statements 1 written.body := by
  refine .after fun thread => ?_
  refine (header_gives _).bind fun before silent => ?_
  refine (statements_give written.body proper).bind fun children records => ?_
  refine .after fun last => .pure ?_
  have own : ((children.flatMap Child.edges).map Edge.node).filter (fun node =>
      node.isNamed && !node.isComment) = kept children := by
    rw [List.filter_map, filter_edges, kept, List.filter_map, List.filter_map, List.map_map]
    · rfl
    · exact fun _ => rfl
  have after : ((last.remarks.map Remark.edge).map Edge.node).filter (fun node =>
      node.isNamed && !node.isComment) = [] := by
    simp [Remark.edge, SyntaxNode.isComment, SyntaxNode.kind]
  rw [Descent.statements, SyntaxNode.namedChildren, SyntaxNode.children, List.map_append,
    List.map_append, List.filter_append, List.filter_append, own, after, List.append_nil,
    silent.outcome, records.outcome]

end Weave
end Source

/-- The program of a text by its nodes is the program of what has been read of it. -/
theorem Program.ofText_eq (text : String) : Program.ofText text =
    match Source.File.ofText? text with
    | none => .error .malformed
    | some file => file.program := by
  rw [ofText, parseWith, Source.SyntaxNode.ofText?]
  cases read : Source.File.ofText? text with
  | none =>
    have result : (Source.File.reading text).result = none := read
    rw [result]
    rfl
  | some file =>
    have result : (Source.File.reading text).result = some file := read
    rw [result]
    dsimp only [Option.map]
    rw [ofTree, Source.Weave.file_gives (Source.File.statementsProper_ofText read)]
    rfl

/-- A program that comes from a source text is what the tree of the text is lowered to. -/
theorem Program.exists_file {text : String} {program : Program} (parsed : Program.ofText text = .ok program) :
    ∃ file, Source.File.ofText? text = some file ∧ file.program = .ok program := by
  rw [Program.ofText_eq] at parsed
  split at parsed
  next => cases parsed
  next file read => exact ⟨file, read, parsed⟩

/-- A program that comes from a source text has proper form at every depth. -/
theorem Program.proper_ofText {text : String} {program : Program}
    (parsed : Program.ofText text = .ok program) :
    program.Proper := by
  obtain ⟨file, read, lowered⟩ := Program.exists_file parsed
  exact Source.File.proper_program (Source.File.statementsProper_ofText read) lowered

/-- A text that is read, and whose program has a property that can be tested. -/
theorem Program.exists_ofText {text : String} (P : Program → Prop) [DecidablePred P]
    (tested : (Source.File.ofText? text).any (fun file =>
      file.program.toOption.any fun program => decide (P program)) = true) :
    ∃ program, Program.ofText text = .ok program ∧ P program := by
  rw [Option.any_eq_true] at tested
  obtain ⟨file, read, passes⟩ := tested
  rw [Program.ofText_eq, read]
  cases lowered : file.program with
  | error problem =>
    rw [lowered] at passes
    cases passes
  | ok program =>
    rw [lowered] at passes
    exact ⟨program, lowered, of_decide_eq_true passes⟩

def guardedText : String :=
  "local function f(a, ...x)\n  if a then return a.b else goto out end ::out::\nend\nt.x = f(1)"

/-- A text with a local function, an `if` statement and an assignment to a member is read. -/
theorem Program.proper_guardedText :
    ∃ program, Program.ofText guardedText = .ok program ∧ program.body.length = 2 ∧ program.Proper := by
  obtain ⟨program, parsed, statements⟩ : ∃ program, Program.ofText guardedText = .ok program ∧
      program.body.length = 2 :=
    Program.exists_ofText _ (by decide +kernel)
  exact ⟨program, parsed, statements, Program.proper_ofText parsed⟩

end LuaClasses
