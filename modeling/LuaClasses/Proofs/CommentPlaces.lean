import LuaClasses.Proofs.CommentNodes
import LuaClasses.Proofs.LayoutIrrelevance

/-! Where the comments of a source text stand. In the tree of any text they are where the grammar
lets them be, so that they make no difference to its program. -/

namespace LuaClasses
namespace Source
namespace Weave

/-! ### Nodes -/

/-- Whether a node is no comment, and the comments in it are where they can be. -/
def Stands (node : SyntaxNode) : Prop := node.isPlaced = true ∧ node.isComment = false

/-- The fields under which some kinds of nodes have what is read by its text. -/
def textKeys : List FieldName := [.content, .field, .method, .name]

/-- Whether a child can stand below a node of a kind. -/
def Fits (kind : NodeKind) (child : Child) : Prop :=
  Stands child.node ∧
    (SyntaxNode.readsText (.named kind) child.field = true → child.node.isLeaf = true)

/-- Whether a child can stand below nodes of all kinds. -/
def Free (child : Child) : Prop :=
  Stands child.node ∧ ∀ key, child.field = some key → key ∉ textKeys

def AllFree (children : List Child) : Prop := ∀ child ∈ children, Free child

section

variable {kind : NodeKind} {strand : Strand} {children : List Child} {key : FieldName} {text : String}

private theorem readsText_of_free {field : Option FieldName}
    (free : ∀ key, field = some key → key ∉ textKeys) :
    SyntaxNode.readsText (.named kind) field = false := by
  cases field with
  | none => cases kind <;> rfl
  | some key =>
    have other := free key rfl
    cases key <;> first | exact absurd (by decide) other | cases kind <;> rfl

theorem Free.fits {child : Child} (free : Free child) : Fits kind child := by
  refine ⟨free.1, fun reads => ?_⟩
  rw [readsText_of_free free.2] at reads
  cases reads

theorem Stands.bare (stands : Stands strand.node) : Free strand.bare := ⟨stands, nofun⟩

theorem Stands.under (stands : Stands strand.node) (other : key ∉ textKeys) :
    Free (strand.under key) :=
  ⟨stands, fun _ same => Option.some.inj same ▸ other⟩

theorem Stands.fits (stands : Stands strand.node)
    (other : SyntaxNode.readsText (.named kind) (some key) = false) : Fits kind (strand.under key) :=
  ⟨stands, fun reads => absurd (other.symm.trans reads) Bool.false_ne_true⟩

theorem AllFree.nil : AllFree [] := List.forall_mem_nil _

theorem AllFree.cons {child : Child} (first : Free child) (rest : AllFree children) :
    AllFree (child :: children) := List.forall_mem_cons.2 ⟨first, rest⟩

theorem AllFree.append {others : List Child} (one : AllFree children) (two : AllFree others) :
    AllFree (children ++ others) := List.forall_mem_append.2 ⟨one, two⟩

private theorem AllFree.fit (free : AllFree children) : ∀ child ∈ children, Fits kind child :=
  fun child member => (free child member).fits

private theorem stands_leaf {kind : SyntaxKind} (counts : kind ≠ .named .comment) (span : Span) :
    Stands (.leaf kind span text) := ⟨rfl, decide_eq_false counts⟩

theorem IsSign.stands (isSign : IsSign text strand) : Stands strand.node := by
  obtain ⟨span, same⟩ := isSign
  rw [same]
  refine stands_leaf ?_ span
  exact nofun

theorem IsIdentifier.stands (isName : IsIdentifier text strand) : Stands strand.node := by
  obtain ⟨span, same⟩ := isName
  rw [same]
  exact stands_leaf (by decide) span

theorem IsIdentifier.fits (isName : IsIdentifier text strand) : Fits kind (strand.under key) := by
  refine ⟨isName.stands, fun _ => ?_⟩
  obtain ⟨span, same⟩ := isName
  rw [node_under, same]
  rfl

theorem Fits.placed {child : Child} (fits : Fits kind child) : child.edge.Placed (.named kind) where
  unnamed comment := absurd (fits.1.2.symm.trans comment) Bool.false_ne_true
  token := fits.2
  node := fits.1.1

private theorem placed_leaf {parent kind : SyntaxKind} (span : Span) (gap : Blanks) :
    (Edge.mk none gap (.leaf kind span text)).Placed parent where
  unnamed _ := rfl
  token _ := rfl
  node := rfl

private theorem edges_placed (fits : ∀ child ∈ children, Fits kind child) :
    ∀ edge ∈ children.flatMap Child.edges, edge.Placed (.named kind) := by
  intro edge member
  obtain ⟨child, listed, member⟩ := List.mem_flatMap.1 member
  rcases List.mem_append.1 member with comment | same
  · obtain ⟨remark, _, rfl⟩ := List.mem_map.1 comment
    exact placed_leaf _ _
  · obtain rfl := List.mem_singleton.1 same
    exact (fits child listed).placed

/-- The children of a node are those that it was made of, and comments. -/
theorem children_placed (fits : ∀ child ∈ children, Fits kind child) (span : Span) :
    SyntaxNode.edgesPlaced (.named kind) (join kind span children).node.children = true := by
  rw [SyntaxNode.edgesPlaced_iff]
  match children, fits with
  | [], _ => exact nofun
  | first :: rest, fits =>
    obtain ⟨one, others⟩ := List.forall_mem_cons.1 fits
    exact List.forall_mem_cons.2 ⟨one.placed, edges_placed others⟩

private theorem isPlaced_join (kind : NodeKind) (span : Span) (children : List Child) :
    (join kind span children).node.isPlaced =
      (!SyntaxNode.isToken (.named kind) &&
        SyntaxNode.edgesPlaced (.named kind) (join kind span children).node.children &&
          (SyntaxKind.named kind ≠ .named .field ||
            !(join kind span children).node.children.any (fun edge => edge.field = some .name) ||
              SyntaxNode.beginsWithKey (join kind span children).node.children)) := by
  cases children <;> rfl

private theorem isComment_join (counts : kind ≠ .comment) (span : Span) :
    (join kind span children).node.isComment = false := by
  rw [SyntaxNode.isComment, kind_join]
  exact decide_eq_false fun same => counts (SyntaxKind.named.inj same)

theorem Stands.join (fits : ∀ child ∈ children, Fits kind child) (span : Span)
    (compound : SyntaxNode.isToken (.named kind) = false ∧ kind ≠ .comment ∧ kind ≠ .field) :
    Stands (join kind span children).node := by
  obtain ⟨noToken, counts, other⟩ := compound
  refine ⟨?_, isComment_join counts span⟩
  have other : SyntaxKind.named kind ≠ .named .field := fun same => other (SyntaxKind.named.inj same)
  rw [isPlaced_join, noToken, children_placed fits, decide_eq_true other]
  rfl

theorem AllFree.join (free : AllFree children) (span : Span)
    (compound : SyntaxNode.isToken (.named kind) = false ∧ kind ≠ .comment ∧ kind ≠ .field) :
    Stands (Source.join kind span children).node := Stands.join free.fit span compound

theorem AllFree.gather (free : AllFree children)
    (compound : SyntaxNode.isToken (.named kind) = false ∧ kind ≠ .comment ∧ kind ≠ .field) :
    Stands (Source.gather kind children).node := free.join _ compound

/-- A field begins with its key, if it has one. -/
theorem Stands.field (fits : ∀ child ∈ children, Fits .field child) (span : Span)
    (begins : SyntaxNode.beginsWithKey (Source.join .field span children).node.children = true) :
    Stands (Source.join .field span children).node := by
  refine ⟨?_, isComment_join (by decide) span⟩
  rw [isPlaced_join, children_placed fits, begins, Bool.or_true]
  rfl

end

/-! ### Tokens and names -/

private theorem leafAt_stands {kind : NodeKind} (counts : kind ≠ .comment) (span : Span) (text : String) :
    (leafAt (.named kind) span text).Gives fun strand => Stands strand.node := by
  refine (leafAt_gives _ _ _).imp fun strand same => ?_
  rw [same]
  exact stands_leaf (fun same => counts (SyntaxKind.named.inj same)) span

private theorem sign_stands (text : String) : (sign text).Gives fun strand => Stands strand.node :=
  (sign_gives text).imp fun _ isSign => isSign.stands

private theorem identifier_stands (name : String) :
    (identifier name).Gives fun strand => Stands strand.node :=
  (identifier_gives name).imp fun _ isName => isName.stands

private theorem sign?_free (texts : List String) : (sign? texts).Gives AllFree := by
  refine .after fun text => ?_
  split
  · exact (sign_stands text).bind fun _ stands => .pure (.cons stands.bare .nil)
  · exact .pure .nil

private theorem closing?_free (opening : List Child) (text : String) :
    (closing? opening text).Gives AllFree := by
  rw [closing?]
  split
  · exact .pure .nil
  · exact sign?_free [text]

private theorem string_stands (span : Span) (literal : StringLiteral) :
    (string span literal).Gives fun strand => Stands strand.node := by
  refine .after fun lexeme => .pure ⟨?_, rfl⟩
  cases literal.isQuoted && literal.content = "" <;> rfl

private theorem names_free : (list : List String) → (names list).Gives AllFree
  | [] => .pure .nil
  | name :: rest => by
    refine (identifier_stands name).bind fun first stands => ?_
    refine (sign?_free _).bind fun comma signs => ?_
    exact (names_free rest).bind fun others free => .pure (.append (.cons stands.bare signs) free)

private theorem attribute?_free : attribute?.Gives AllFree := by
  refine .after fun text => ?_
  split
  · refine (sign_stands "<").bind fun opening one => .after fun text => ?_
    refine (identifier_stands text).bind fun name two => ?_
    refine (sign_stands ">").bind fun closing three => .pure ?_
    have parts : AllFree [opening.bare, name.bare, closing.bare] :=
      .cons one.bare (.cons two.bare (.cons three.bare .nil))
    exact .cons (parts.gather (by decide)).bare .nil
  · exact .pure .nil

private theorem declaredNames_free : (declared : List (String × Span)) →
    (declaredNames declared).Gives AllFree
  | [] => .pure .nil
  | (name, span) :: rest => by
    refine (leafAt_stands (by decide) span name).bind fun first stands => ?_
    refine attribute?_free.bind fun attrs attributes => ?_
    refine (sign?_free _).bind fun comma signs => ?_
    exact (declaredNames_free rest).bind fun others free =>
      .pure (.append (.append (.cons stands.bare attributes) signs) free)

private theorem introduction_free : introduction.Gives fun (word, attrs) => Free word ∧ AllFree attrs := by
  refine .after fun text => ?_
  refine (sign_stands _).bind fun word stands => ?_
  refine attribute?_free.bind fun attrs attributes => ?_
  have result : (pure (word.bare, attrs) : Weave (Child × List Child)).Gives fun (word, attrs) =>
      Free word ∧ AllFree attrs := .pure ⟨stands.bare, attributes⟩
  dsimp only
  split
  · exact .after fun _ => result
  · exact result

private theorem segments_stand : (rest : List String) → {base : Strand} → Stands base.node →
    (segments base rest).Gives fun strand => Stands strand.node
  | [], _, stands => .pure stands
  | name :: rest, base, stands => by
    refine (sign_stands ".").bind fun dot one => ?_
    refine (identifier_gives name).bind fun strand isName => ?_
    refine segments_stand rest (Stands.join ?_ _ (by decide))
    exact List.forall_mem_cons.2 ⟨stands.fits rfl, List.forall_mem_cons.2
      ⟨one.bare.fits, List.forall_mem_singleton.2 isName.fits⟩⟩

private theorem functionName_stands (name : FunctionName) :
    (functionName name).Gives fun strand => Stands strand.node := by
  refine (identifier_stands _).bind fun first stands => ?_
  refine (segments_stand _ stands).bind fun base stands => ?_
  match name.method with
  | none => exact .pure stands
  | some method =>
    refine (sign_stands ":").bind fun colon one => ?_
    refine (identifier_gives method).bind fun strand isName => .pure (Stands.join ?_ _ (by decide))
    exact List.forall_mem_cons.2 ⟨stands.fits rfl, List.forall_mem_cons.2
      ⟨one.bare.fits, List.forall_mem_singleton.2 isName.fits⟩⟩

private theorem dots_stands : dots.Gives fun strand => Stands strand.node := by
  refine (leaf_gives _ _).imp fun strand ⟨span, same⟩ => ?_
  rw [same]
  exact stands_leaf (by decide) span

private theorem parameters_free (vararg : Bool) : (list : List String) →
    (parameters vararg list).Gives AllFree
  | [] => by
    rw [parameters]
    split
    · exact dots_stands.bind fun _ stands => .pure (.cons stands.bare .nil)
    · exact .pure .nil
  | name :: rest => by
    refine .after fun text => ?_
    split
    · refine dots_stands.bind fun _ stands => ?_
      exact (names_free _).bind fun _ free => .pure (.cons stands.bare free)
    · refine (identifier_stands name).bind fun first stands => ?_
      refine (sign?_free _).bind fun comma signs => ?_
      exact (parameters_free vararg rest).bind fun others free =>
        .pure (.append (.cons stands.bare signs) free)

private theorem parameterList_stands (vararg : Bool) (params : List String) :
    (parameterList vararg params).Gives fun strand => Stands strand.node := by
  refine (sign_stands "(").bind fun opening one => ?_
  refine (parameters_free vararg params).bind fun params free => ?_
  refine (sign_stands ")").bind fun closing two => .pure ?_
  have parts : AllFree (opening.bare :: params ++ [closing.bare]) :=
    .append (.cons one.bare free) (.cons two.bare .nil)
  exact parts.gather (by decide)

/-! ### Statements and expressions -/

private theorem arguments_stand {terms : Weave (List Child)} (free : terms.Gives AllFree) :
    (arguments terms).Gives fun strand => Stands strand.node := by
  refine (sign?_free _).bind fun opening one => ?_
  refine free.bind fun args two => ?_
  refine (closing?_free opening ")").bind fun closing three => .pure ?_
  have parts : AllFree (opening ++ args ++ closing) := .append (.append one two) three
  exact parts.gather (by decide)

private theorem scope_free (isLocal : Bool) : (scope isLocal).Gives AllFree := by
  cases isLocal with
  | true => exact (sign_stands "local").bind fun _ stands => .pure (.cons stands.bare .nil)
  | false => exact sign?_free _

private theorem block_free {key : FieldName} {statements : Weave (List Child)} (other : key ∉ textKeys)
    (free : statements.Gives AllFree) : (block key statements).Gives AllFree := by
  refine free.bind fun parts free => .pure ?_
  split
  · exact .nil
  · exact .cons ((free.gather (by decide)).under other) .nil

private theorem enclosed_free {statements : Weave (List Child)} (free : statements.Gives AllFree) :
    (enclosed statements).Gives AllFree := by
  refine (sign_stands "do").bind fun word one => ?_
  refine (block_free (by decide) free).bind fun body free => ?_
  exact (sign_stands "end").bind fun last two =>
    .pure (.append (.cons one.bare free) (.cons two.bare .nil))

/-- The bracket before a key is there, or else the key is the word `global`. -/
theorem bracket_free (optional : Bool) : (bracket optional).Gives fun opening =>
    (opening = [] ∧ optional = true) ∨ ∃ strand, opening = [strand.bare] ∧ IsSign "[" strand := by
  have bracketed : (sign "[").Gives fun strand => IsSign "[" strand := sign_gives "["
  cases optional with
  | true =>
    refine .after fun text => ?_
    split
    next listed =>
      obtain rfl : text = "[" := by simpa using listed
      exact bracketed.bind fun strand isSign => .pure (.inr ⟨strand, rfl, isSign⟩)
    next => exact .pure (.inl ⟨rfl, rfl⟩)
  | false => exact bracketed.bind fun strand isSign => .pure (.inr ⟨strand, rfl, isSign⟩)

private theorem beginsWithKey_bracket {strand : Strand} (isSign : IsSign "[" strand) (rest : List Child)
    (span : Span) :
    SyntaxNode.beginsWithKey (join .field span (strand.bare :: rest)).node.children = true := by
  obtain ⟨place, same⟩ := isSign
  change SyntaxNode.beginsWithKey (⟨_, _, strand.node⟩ :: _) = true
  rw [same]
  rfl

private theorem beginsWithKey_bare {strand equals : Strand} {kind : SyntaxKind} {place : Span}
    {text : String} (same : strand.node = .leaf kind place text) (counts : kind ≠ .named .comment)
    (free : '[' ∉ text.toList) (isEquals : IsSign "=" equals) (rest : List Child) (span : Span) :
    SyntaxNode.beginsWithKey
      (join .field span (strand.under .name :: equals.bare :: rest)).node.children = true := by
  change SyntaxNode.beginsWithKey (⟨_, _, strand.node⟩ :: (equals.bare.edges ++ _)) = true
  rw [same, SyntaxNode.beginsWithKey, equalsNext_edges isEquals, decide_eq_true counts]
  simp [free]

private theorem term_global {written : Term} (isGlobal : written.isGlobal = true) :
    (term written).Gives fun strand =>
      ∃ place, strand.node = .leaf (.sign "global") place "global" := by
  match written, isGlobal with
  | ⟨span, .global⟩, _ => exact (leafAt_gives _ _ _).imp fun _ same => ⟨span, same⟩

mutual
theorem term_stands : (written : Term) → written.Proper →
    (term written).Gives fun strand => Stands strand.node
  | ⟨span, form⟩, proper => termForm_stands span form proper

theorem termForm_stands (span : Span) : (form : TermForm) → form.Proper →
    (termForm span form).Gives fun strand => Stands strand.node
  | .nil, _ => leafAt_stands (by decide) span _
  | .boolean true, _ => leafAt_stands (by decide) span _
  | .boolean false, _ => leafAt_stands (by decide) span _
  | .number text, _ => leafAt_stands (by decide) span text
  | .string literal, _ => string_stands span literal
  | .vararg, _ => leafAt_stands (by decide) span _
  | .name name, _ => leafAt_stands (by decide) span name
  | .global, _ => by
    refine (leafAt_gives _ _ _).imp fun strand same => ?_
    rw [same]
    refine stands_leaf ?_ span
    exact nofun
  | .function body, proper => by
    refine (sign_stands "function").bind fun word one => ?_
    refine (callable_free body proper).bind fun parts free => .pure ?_
    exact AllFree.join (.cons one.bare free) span (by decide)
  | .table entries, proper => by
    refine (sign_stands "\x7b").bind fun opening one => ?_
    refine (fields_free entries proper).bind fun parts free => ?_
    refine (sign_stands "\x7d").bind fun closing two => .pure ?_
    have parts : AllFree (opening.bare :: parts ++ [closing.bare]) :=
      .append (.cons one.bare free) (.cons two.bare .nil)
    exact parts.join span (by decide)
  | .member object name, ⟨proper, _⟩ => by
    refine (term_stands object proper).bind fun object stands => ?_
    refine (sign_stands ".").bind fun dot one => ?_
    refine (identifier_gives name).bind fun strand isName => .pure (Stands.join ?_ span (by decide))
    exact List.forall_mem_cons.2 ⟨stands.fits rfl, List.forall_mem_cons.2
      ⟨one.bare.fits, List.forall_mem_singleton.2 isName.fits⟩⟩
  | .index object key, ⟨first, second⟩ => by
    refine (term_stands object first).bind fun object stands => ?_
    refine (sign_stands "[").bind fun opening one => ?_
    refine (term_stands key second).bind fun key keyStands => ?_
    refine (sign_stands "]").bind fun closing two => .pure (Stands.join ?_ span (by decide))
    exact List.forall_mem_cons.2 ⟨stands.fits rfl, List.forall_mem_cons.2 ⟨one.bare.fits,
      List.forall_mem_cons.2 ⟨keyStands.fits rfl, List.forall_mem_singleton.2 two.bare.fits⟩⟩⟩
  | .call callee args, ⟨first, second⟩ => by
    refine (term_stands callee first).bind fun callee stands => ?_
    refine (arguments_stand (terms_free args second)).bind fun args list => .pure ?_
    refine Stands.join (List.forall_mem_cons.2 ⟨stands.fits rfl, ?_⟩) span (by decide)
    exact List.forall_mem_singleton.2 (list.fits rfl)
  | .methodCall object method args, ⟨first, _, second⟩ => by
    refine (term_stands object first).bind fun object stands => ?_
    refine (sign_stands ":").bind fun colon one => ?_
    refine (identifier_gives method).bind fun strand isName => ?_
    refine (arguments_stand (terms_free args second)).bind fun args list => .pure ?_
    refine Stands.join (List.forall_mem_cons.2 ⟨Stands.fits (Stands.join ?_ _ (by decide)) rfl, ?_⟩)
      span (by decide)
    · exact List.forall_mem_cons.2 ⟨stands.fits rfl, List.forall_mem_cons.2
        ⟨one.bare.fits, List.forall_mem_singleton.2 isName.fits⟩⟩
    · exact List.forall_mem_singleton.2 (list.fits rfl)
  | .paren inner, proper => by
    refine (sign_stands "(").bind fun opening one => ?_
    refine (term_stands inner proper).bind fun inner stands => ?_
    refine (sign_stands ")").bind fun closing two => .pure ?_
    have parts : AllFree [opening.bare, inner.bare, closing.bare] :=
      .cons one.bare (.cons stands.bare (.cons two.bare .nil))
    exact parts.join span (by decide)
  | .unary op operand, proper => by
    refine (sign_stands op.token).bind fun sign one => ?_
    refine (term_stands operand proper).bind fun operand stands => .pure ?_
    have parts : AllFree [sign.bare, operand.under .operand] :=
      .cons one.bare (.cons (stands.under (by decide)) .nil)
    exact parts.join span (by decide)
  | .binary op left right, ⟨first, second⟩ => by
    refine (term_stands left first).bind fun left one => ?_
    refine (sign_stands op.token).bind fun sign two => ?_
    refine (term_stands right second).bind fun right three => .pure ?_
    have parts : AllFree [left.under .left, sign.bare, right.under .right] :=
      .cons (one.under (by decide)) (.cons two.bare (.cons (three.under (by decide)) .nil))
    exact parts.join span (by decide)

theorem terms_free : (written : List Term) → termsProper written → (terms written).Gives AllFree
  | [], _ => .pure .nil
  | head :: rest, ⟨first, others⟩ => by
    refine (term_stands head first).bind fun strand stands => ?_
    refine (sign?_free _).bind fun comma signs => ?_
    exact (terms_free rest others).bind fun children free =>
      .pure (.append (.cons stands.bare signs) free)

theorem fields_free : (written : List Field) → fieldsProper written →
    (fields written).Gives AllFree
  | [], _ => .pure .nil
  | head :: rest, ⟨first, others⟩ => by
    refine (field_stands head first).bind fun strand stands => ?_
    refine (sign?_free _).bind fun mark signs => ?_
    exact (fields_free rest others).bind fun children free =>
      .pure (.append (.cons stands.bare signs) free)

theorem field_stands : (written : Field) → written.Proper →
    (field written).Gives fun strand => Stands strand.node
  | .named name value, ⟨⟨_, free⟩, proper⟩ => by
    refine (identifier_gives name).bind fun strand isName => ?_
    refine (sign_gives "=").bind fun equals isEquals => ?_
    refine (term_stands value proper).bind fun value stands => .pure (Stands.field ?_ _ ?_)
    · exact List.forall_mem_cons.2 ⟨isName.fits, List.forall_mem_cons.2 ⟨isEquals.stands.bare.fits,
        List.forall_mem_singleton.2 (stands.fits rfl)⟩⟩
    · obtain ⟨place, same⟩ := isName
      exact beginsWithKey_bare same (by decide) free isEquals _ _
  | .keyed key value, ⟨first, second⟩ => by
    refine (bracket_free key.isGlobal).bind fun opening bracketed => ?_
    have keyNode : (term key).Gives fun strand => Stands strand.node ∧ (key.isGlobal = true →
        ∃ place, strand.node = .leaf (.sign "global") place "global") :=
      fun thread => ⟨term_stands key first thread, fun isGlobal => term_global isGlobal thread⟩
    refine keyNode.bind fun keyNode ⟨keyStands, isWord⟩ => ?_
    rcases bracketed with ⟨rfl, isGlobal⟩ | ⟨bracket, rfl, isBracket⟩
    · have noClosing : (closing? [] "]").Gives fun closing => closing = [] := .pure rfl
      refine noClosing.bind fun closing none => ?_
      refine (sign_gives "=").bind fun equals isEquals => ?_
      refine (term_stands value second).bind fun value stands => .pure ?_
      obtain rfl := none
      obtain ⟨place, same⟩ := isWord isGlobal
      refine Stands.field ?_ _ (beginsWithKey_bare same nofun (by decide) isEquals _ _)
      exact List.forall_mem_cons.2 ⟨keyStands.fits rfl, List.forall_mem_cons.2
        ⟨isEquals.stands.bare.fits, List.forall_mem_singleton.2 (stands.fits rfl)⟩⟩
    · refine (closing?_free _ _).bind fun closing signs => ?_
      refine (sign_stands "=").bind fun equals one => ?_
      refine (term_stands value second).bind fun value stands => .pure ?_
      refine Stands.field ?_ _ (beginsWithKey_bracket isBracket _ _)
      refine List.forall_mem_cons.2 ⟨isBracket.stands.bare.fits, ?_⟩
      refine List.forall_mem_cons.2 ⟨keyStands.fits rfl, List.forall_mem_append.2 ⟨signs.fit, ?_⟩⟩
      exact List.forall_mem_cons.2 ⟨one.bare.fits, List.forall_mem_singleton.2 (stands.fits rfl)⟩
  | .positional value, proper => by
    refine (term_stands value proper).bind fun value stands => .pure ?_
    have fits : ∀ child ∈ [value.under .value], Fits .field child :=
      List.forall_mem_singleton.2 (stands.fits rfl)
    refine ⟨?_, isComment_join (by decide) _⟩
    rw [gather, isPlaced_join, children_placed fits]
    rfl

theorem callable_free : (written : Callable) → written.Proper → (callable written).Gives AllFree
  | ⟨params, vararg, body⟩, ⟨_, proper⟩ => by
    refine (parameterList_stands vararg params).bind fun list one => ?_
    refine (block_free (by decide) (statements_free body proper)).bind fun block free => ?_
    exact (sign_stands "end").bind fun last two =>
      .pure (.append (.cons (one.under (by decide)) free) (.cons two.bare .nil))

theorem statements_free : (written : List Statement) → statementsProper written →
    (statements written).Gives AllFree
  | [], _ => .pure .nil
  | head :: rest, ⟨_, first, others⟩ => by
    refine (statement_stands head first).bind fun strand stands => ?_
    exact (statements_free rest others).bind fun children free => .pure (.cons stands.bare free)

theorem statement_stands : (written : Statement) → written.Proper →
    (statement written).Gives fun strand => Stands strand.node
  | ⟨span, form⟩, ⟨_, proper⟩ => statementForm_stands span form proper

theorem statementForm_stands (span : Span) : (form : StatementForm) → form.Proper →
    (statementForm span form).Gives fun strand => Stands strand.node
  | .empty, _ => leafAt_stands (by decide) span _
  | .declare declared _, _ => by
    refine introduction_free.bind fun (word, attrs) ⟨one, two⟩ => ?_
    refine (declaredNames_free declared).bind fun names free => .pure ?_
    have list : Stands (gather .variableList (attrs ++ names)).node :=
      (two.append free).gather (by decide)
    have parts : AllFree [word, (gather .variableList (attrs ++ names)).bare] :=
      .cons one (.cons list.bare .nil)
    exact parts.join span (by decide)
  | .define declared _ values, ⟨_, proper⟩ => by
    refine introduction_free.bind fun (word, attrs) ⟨one, two⟩ => ?_
    refine (declaredNames_free declared).bind fun names free => ?_
    refine (sign_stands "=").bind fun equals three => ?_
    refine (terms_free values proper).bind fun values four => .pure ?_
    have parts : AllFree [(gather .variableList (attrs ++ names)).bare, equals.bare,
        (gather .expressionList values).bare] :=
      .cons ((two.append free).gather (by decide)).bare
        (.cons three.bare (.cons (four.gather (by decide)).bare .nil))
    have both : AllFree [word, (gather .assignmentStatement [(gather .variableList
        (attrs ++ names)).bare, equals.bare, (gather .expressionList values).bare]).bare] :=
      .cons one (.cons (parts.gather (by decide)).bare .nil)
    exact both.join span (by decide)
  | .declareAll _, _ => by
    refine (sign_stands "global").bind fun word one => ?_
    refine attribute?_free.bind fun attrs two => ?_
    refine (sign_stands "*").bind fun star three => .pure ?_
    have parts : AllFree (word.bare :: attrs ++ [star.bare]) :=
      .append (.cons one.bare two) (.cons three.bare .nil)
    exact parts.join span (by decide)
  | .assign targets values, ⟨_, first, second⟩ => by
    refine (terms_free targets first).bind fun targets one => ?_
    refine (sign_stands "=").bind fun equals two => ?_
    refine (terms_free values second).bind fun values three => .pure ?_
    have parts : AllFree [(gather .variableList targets).bare, equals.bare,
        (gather .expressionList values).bare] :=
      .cons (one.gather (by decide)).bare (.cons two.bare (.cons (three.gather (by decide)).bare .nil))
    exact parts.join span (by decide)
  | .call call, proper => term_stands call proper
  | .function name isLocal body, ⟨_, _, proper⟩ => by
    refine (scope_free isLocal).bind fun scope one => ?_
    refine (sign_stands "function").bind fun word two => ?_
    refine (functionName_stands name).bind fun name named => ?_
    refine (callable_free body proper).bind fun parts three => .pure ?_
    refine Stands.join (List.forall_mem_append.2 ⟨one.fit, ?_⟩) span (by decide)
    exact List.forall_mem_cons.2 ⟨two.bare.fits, List.forall_mem_cons.2 ⟨named.fits rfl, three.fit⟩⟩
  | .return_ values, proper => by
    refine (sign_stands "return").bind fun word one => ?_
    refine (terms_free values proper).bind fun values two => ?_
    refine (sign?_free _).bind fun mark three => .pure ?_
    have list : AllFree (if values.isEmpty then [] else [(gather .expressionList values).bare]) := by
      split
      · exact .nil
      · exact .cons (two.gather (by decide)).bare .nil
    exact AllFree.join (.append (.cons one.bare list) three) span (by decide)
  | .if_ first others otherwise, ⟨one, two, three⟩ => by
    refine (sign_stands "if").bind fun word four => ?_
    refine (clause_free first one).bind fun first one => ?_
    refine (clauses_free others two).bind fun others two => ?_
    refine (otherwise_free otherwise three).bind fun otherwise three => ?_
    refine (sign_stands "end").bind fun last five => .pure ?_
    have parts : AllFree (word.bare :: first ++ others ++ otherwise ++ [last.bare]) :=
      .append (.append (.append (.cons four.bare one) two) three) (.cons five.bare .nil)
    exact parts.join span (by decide)
  | .while_ condition body, ⟨first, second⟩ => by
    refine (sign_stands "while").bind fun word one => ?_
    refine (term_stands condition first).bind fun strand two => ?_
    refine (enclosed_free (statements_free body second)).bind fun parts three => .pure ?_
    have parts : AllFree (word.bare :: strand.under .condition :: parts) :=
      .cons one.bare (.cons (two.under (by decide)) three)
    exact parts.join span (by decide)
  | .repeat_ body condition, ⟨first, second⟩ => by
    refine (sign_stands "repeat").bind fun word one => ?_
    refine (block_free (by decide) (statements_free body first)).bind fun body two => ?_
    refine (sign_stands "until").bind fun mark three => ?_
    refine (term_stands condition second).bind fun strand four => .pure ?_
    have parts : AllFree (word.bare :: body ++ [mark.bare, strand.under .condition]) :=
      .append (.cons one.bare two) (.cons three.bare (.cons (four.under (by decide)) .nil))
    exact parts.join span (by decide)
  | .do_ body, proper =>
    (enclosed_free (statements_free body proper)).bind fun _ free => .pure (free.join span (by decide))
  | .forNumeric var start limit step body, ⟨_, one, two, three, four⟩ => by
    refine (sign_stands "for").bind fun word first => ?_
    refine (identifier_gives var).bind fun name isName => ?_
    refine (sign_stands "=").bind fun equals second => ?_
    refine (term_stands start one).bind fun start one => ?_
    refine (sign_stands ",").bind fun comma third => ?_
    refine (term_stands limit two).bind fun limit two => ?_
    refine (stepOf_free step three).bind fun step three => ?_
    refine (enclosed_free (statements_free body four)).bind fun parts four => .pure ?_
    have clause : Stands (gather .forNumericClause ([name.under .name, equals.bare,
        start.under .start, comma.bare, limit.under .end_] ++ step)).node := by
      refine Stands.join (List.forall_mem_cons.2 ⟨isName.fits, ?_⟩) _ (by decide)
      have others : AllFree ([equals.bare, start.under .start, comma.bare, limit.under .end_] ++ step) :=
        .append (.cons second.bare (.cons (one.under (by decide)) (.cons third.bare
          (.cons (two.under (by decide)) .nil)))) three
      exact others.fit
    exact AllFree.join (.cons first.bare (.cons (clause.under (by decide)) four)) span (by decide)
  | .forGeneric names exprs body, ⟨_, first, second⟩ => by
    refine (sign_stands "for").bind fun word one => ?_
    refine (names_free names).bind fun names two => ?_
    refine (sign_stands "in").bind fun mark three => ?_
    refine (terms_free exprs first).bind fun exprs four => ?_
    refine (enclosed_free (statements_free body second)).bind fun parts five => .pure ?_
    have lists : AllFree [(gather .variableList names).bare, mark.bare,
        (gather .expressionList exprs).bare] :=
      .cons (two.gather (by decide)).bare (.cons three.bare (.cons (four.gather (by decide)).bare .nil))
    have clause : Stands (gather .forGenericClause [(gather .variableList names).bare, mark.bare,
        (gather .expressionList exprs).bare]).node := lists.gather (by decide)
    exact AllFree.join (.cons one.bare (.cons (clause.under (by decide)) five)) span (by decide)
  | .break_, _ => leafAt_stands (by decide) span _
  | .goto label, _ => by
    refine (sign_stands "goto").bind fun word one => ?_
    refine (identifier_stands label).bind fun name two => .pure ?_
    exact AllFree.join (.cons one.bare (.cons two.bare .nil)) span (by decide)
  | .label name, _ => by
    refine (sign_stands "::").bind fun opening one => ?_
    refine (identifier_stands name).bind fun strand two => ?_
    refine (sign_stands "::").bind fun closing three => .pure ?_
    have parts : AllFree [opening.bare, strand.bare, closing.bare] :=
      .cons one.bare (.cons two.bare (.cons three.bare .nil))
    exact parts.join span (by decide)

theorem clause_free : (written : Clause) → written.Proper → (clause written).Gives AllFree
  | ⟨condition, body⟩, ⟨first, second⟩ => by
    refine (term_stands condition first).bind fun strand one => ?_
    refine (sign_stands "then").bind fun mark two => ?_
    refine (block_free (by decide) (statements_free body second)).bind fun parts free => .pure ?_
    exact .cons (one.under (by decide)) (.cons two.bare free)

theorem clauses_free : (written : List Clause) → clausesProper written →
    (clauses written).Gives AllFree
  | [], _ => .pure .nil
  | head :: rest, ⟨first, others⟩ => by
    refine (sign_stands "elseif").bind fun word one => ?_
    refine (clause_free head first).bind fun parts two => ?_
    refine (clauses_free rest others).bind fun children free => .pure ?_
    exact .cons (AllFree.gather (.cons one.bare two) (by decide)).bare free

theorem otherwise_free : (written : Option Block) → otherwiseProper written →
    (otherwise_ written).Gives AllFree
  | none, _ => .pure .nil
  | some ⟨body⟩, proper => by
    refine (sign_stands "else").bind fun word one => ?_
    refine (block_free (by decide) (statements_free body proper)).bind fun parts two => .pure ?_
    exact .cons (AllFree.gather (.cons one.bare two) (by decide)).bare .nil

theorem stepOf_free : (written : Option Term) → stepProper written →
    (stepOf written).Gives AllFree
  | none, _ => .pure .nil
  | some step, proper => by
    refine (sign_stands ",").bind fun comma one => ?_
    refine (term_stands step proper).bind fun strand two => .pure ?_
    exact .cons one.bare (.cons (two.under (by decide)) .nil)
end

/-! ### The whole text -/

private theorem header_placed (hasInterpreterLine : Bool) : (header hasInterpreterLine).Gives fun edges =>
    ∀ edge ∈ edges, edge.Placed (.named .chunk) := by
  have comments (remarks : List Remark) :
      ∀ edge ∈ remarks.map Remark.edge, edge.Placed (.named .chunk) := by
    intro edge member
    obtain ⟨remark, _, rfl⟩ := List.mem_map.1 member
    exact placed_leaf _ _
  refine .after fun thread => ?_
  dsimp only
  split
  · exact .after fun _ => .pure (List.forall_mem_append.2
      ⟨comments _, List.forall_mem_singleton.2 (placed_leaf _ _)⟩)
  · exact .after fun _ => .pure (comments _)

private theorem file_placed {written : File} (proper : statementsProper written.body) :
    (file written).Gives fun root => root.isPlaced = true := by
  refine .after fun thread => ?_
  refine (header_placed _).bind fun before one => ?_
  refine (statements_free written.body proper).bind fun children free => ?_
  refine .after fun last => .pure ?_
  have placed : SyntaxNode.edgesPlaced (.named .chunk) (before ++ children.flatMap Child.edges ++
      last.remarks.map Remark.edge) = true := by
    rw [SyntaxNode.edgesPlaced_iff]
    refine List.forall_mem_append.2 ⟨List.forall_mem_append.2 ⟨one, edges_placed free.fit⟩, ?_⟩
    intro edge member
    obtain ⟨remark, _, rfl⟩ := List.mem_map.1 member
    exact placed_leaf _ _
  rw [SyntaxNode.isPlaced, placed]
  rfl

end Weave

private theorem SyntaxNode.isPlaced_ofText {text : String} {tree : SyntaxNode}
    (read : ofText? text = some tree) : tree.isPlaced = true := by
  obtain ⟨file, known, rfl⟩ := Option.map_eq_some_iff.1 read
  exact Weave.file_placed (File.statementsProper_ofText known) _

end Source

open Source

/-- Comments and layout do not matter. With any parser that leaves comments where the grammar lets
them be, a text comes to the same as one with comments and blanks put in, wherever among its tokens
they are, if they make no difference to its tree but for their own nodes and the places of the
others. The trees of the grammar are such trees. In them, that goes for white space and comments
between two tokens of a text that the grammar goes on to read as such. -/
theorem comments_and_layout_irrelevant :
    (∀ parse : String → Option SyntaxNode,
      (∀ text tree, parse text = some tree → tree.isPlaced = true) →
        ∀ text wider, (parse wider).map SyntaxNode.plain = (parse text).map SyntaxNode.plain →
          unplacedOutcome (Program.parseWith parse wider) =
            unplacedOutcome (Program.parseWith parse text)) ∧
      (∀ text tree, SyntaxNode.ofText? text = some tree → tree.isPlaced = true) ∧
        ∀ (put : Insertion) (before : List Char), put.Between before →
          unplacedOutcome (Program.ofText (.ofList (before ++ (put.filler ++ put.after)))) =
            unplacedOutcome (Program.ofText (.ofList (before ++ put.after))) := by
  refine ⟨?_, fun _ _ => SyntaxNode.isPlaced_ofText, fun _ _ => Insertion.unplacedOutcome_ofText⟩
  intro parse placed text wider same
  cases tree : parse text with
  | none =>
    rw [tree, Option.map_none, Option.map_eq_none_iff] at same
    rw [Program.parseWith, Program.parseWith, tree, same]
  | some narrow =>
    rw [tree, Option.map_some, Option.map_eq_some_iff] at same
    obtain ⟨wide, other, same⟩ := same
    rw [Program.parseWith, Program.parseWith, tree, other]
    exact Program.unplacedOutcome_ofTree (placed _ _ other) (placed _ _ tree) same

/-- A text with many constructs. -/
def bareText : String :=
  "if x then f(\x7b[1] = 2, y = g.h[3]\x7d) elseif z then return else local a, b = -c end"

/-- The same text with a comment in every one of them. -/
def commentedText : String :=
  "if --[[a]] x --b\nthen f(--[[c]] \x7b[ --d\n1] = 2, --[[e]] y --f\n= g --[[g]].h[--h\n3] --[[i]]\x7d) " ++
    "elseif z --j\nthen --k\nreturn --l\nelse --[[m]] local a, --[[n]] b --o\n= - --p\nc end --q"

theorem comments_irrelevant_throughout :
    (SyntaxNode.ofText? commentedText).map SyntaxNode.plain =
        (SyntaxNode.ofText? bareText).map SyntaxNode.plain ∧
      (SyntaxNode.ofText? bareText).isSome = true ∧
      unplacedOutcome (Program.ofText commentedText) = unplacedOutcome (Program.ofText bareText) ∧
      Insertion.beforeArgument.Between ('f' :: '(' :: Insertion.lineComment) ∧
      unplacedOutcome (Program.ofText (.ofList ('f' :: '(' :: Insertion.lineComment ++
          (Insertion.beforeArgument.filler ++ ['g', ')'])))) =
        unplacedOutcome (Program.ofText (.ofList ('f' :: '(' :: Insertion.lineComment ++ ['g', ')']))) := by
  obtain ⟨trees, placed, texts⟩ := comments_and_layout_irrelevant
  have same : (SyntaxNode.ofText? commentedText).map SyntaxNode.plain =
      (SyntaxNode.ofText? bareText).map SyntaxNode.plain := by decide +kernel
  exact ⟨same, by decide +kernel, trees SyntaxNode.ofText? placed _ _ same,
    Insertion.beforeArgument_between, texts _ _ Insertion.beforeArgument_between⟩

end LuaClasses
