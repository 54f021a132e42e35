import LuaClasses.Proofs.Outlines
import LuaClasses.Proofs.Readings
import LuaClasses.Proofs.TokenCuts

/-! What the grammar reads stands in the order of the text. No token begins before the one in front of it
has ended, and each reader goes on where the one before it has stopped. So what a reader gives lies
between the place where it begins and the one where it stops, if that holds of the readers that it calls.
By induction on the steps it holds of all of them. -/

namespace LuaClasses.Source

open Reading (Yields)

/-! ### Tokens -/

private theorem Cursor.le_skip (cursor : Cursor) (count : Nat) :
    cursor.position ≤ (cursor.skip count).position :=
  cursor.position.le_after _

namespace Input

variable {last : Position} {input rest : Input} {span : Span}

/-- Whether the token that has been read and what comes after it stand behind a place. -/
structure Follows (last : Position) (input : Input) : Prop where
  starts : last ≤ input.head.span.start
  wide : input.head.kind ≠ .endOfText → input.head.span.start < input.head.span.stop
  stops : input.rest.position = input.head.span.stop

theorem Follows.own (follows : input.Follows last) : input.Follows input.head.span.start :=
  ⟨le_refl _, follows.wide, follows.stops⟩

theorem Follows.earlier {first : Position} (follows : input.Follows last) (before : first ≤ last) :
    input.Follows first :=
  ⟨before.trans follows.starts, follows.wide, follows.stops⟩

private theorem read_follows (place : Place) (cursor : Cursor) :
    (read place cursor).Yields (Follows cursor.position) := by
  intro input read
  obtain ⟨⟨token, rest⟩, found, rfl⟩ := Option.map_eq_some_iff.1 read
  simp only [Cursor.token?, Option.bind_eq_bind, Option.bind_eq_some_iff] at found
  obtain ⟨gap, _, found⟩ := found
  have passed : cursor.position ≤ (cursor.pass gap).position := cursor.le_skip gap.length
  split at found
  next =>
    cases found
    exact ⟨passed, fun more => absurd rfl more, rfl⟩
  next char chars text =>
    obtain ⟨⟨kind, width⟩, token, same⟩ := Option.bind_eq_some_iff.1 found
    cases same
    obtain ⟨width, rfl⟩ := Nat.exists_eq_add_of_lt (pos_of_tokenKind? token)
    refine ⟨passed, fun _ => ?_, rfl⟩
    change _ < ((cursor.pass gap).position).after ((cursor.pass gap).text.take _)
    rw [text]
    exact Position.lt_after _ char _

/-- Whether a span of some width and what comes after it stand behind a place. -/
structure Passes (last : Position) (span : Span) (rest : Input) : Prop where
  starts : last ≤ span.start
  wide : span.start < span.stop
  follows : rest.Follows span.stop

theorem Passes.le (passes : Passes last span rest) : last ≤ span.stop := passes.starts.trans passes.wide.le

theorem Passes.after (passes : Passes last span rest) : rest.Follows last := passes.follows.earlier passes.le

private theorem Follows.next_passes (follows : input.Follows last) (more : input.head.kind ≠ .endOfText)
    (place : Place) :
    (input.next place).Yields fun rest => Passes last input.head.span rest := by
  refine (read_follows place input.rest).imp fun rest after => ?_
  rw [follows.stops] at after
  exact ⟨follows.starts, follows.wide more, after⟩

end Input

open Input (Passes)

/-! ### What readers give -/

/-- Whether some statements stand between two places, and the input goes on after the second one. -/
structure Reaches (first : Position) (outlines : List (Outline Span)) (stop : Position) (rest : Input) :
    Prop where
  spread : Spread first stop outlines
  follows : rest.Follows stop

/-- Whether some statements stand between the end of a token or a later place and another place, and the
input goes on there. -/
def Opens (input : Input) (outlines : List (Outline Span)) (stop : Position) (rest : Input) : Prop :=
  ∃ first, input.head.span.start < first ∧ Reaches first outlines stop rest

namespace Reaches

variable {first middle last : Position} {outlines others : List (Outline Span)}
  {input rest : Input} {span : Span}

theorem nothing (follows : input.Follows first) : Reaches first [] first input := ⟨le_refl first, follows⟩

theorem earlier (reaches : Reaches middle outlines last rest) (before : first ≤ middle) :
    Reaches first outlines last rest :=
  ⟨reaches.spread.earlier before, reaches.follows⟩

theorem append (one : Reaches first outlines middle input) (two : Reaches middle others last rest) :
    Reaches first (outlines ++ others) last rest :=
  ⟨one.spread.append two.spread, two.follows⟩

/-- The statements of a further token are none. -/
theorem pass (reaches : Reaches first outlines last input) (passes : Passes last span rest) :
    Reaches first outlines span.stop rest :=
  ⟨reaches.spread.later passes.le, passes.follows⟩

theorem le (reaches : Reaches first outlines last rest) : first ≤ last := Spread.le outlines reaches.spread

theorem after (reaches : Reaches first outlines last rest) : rest.Follows first :=
  reaches.follows.earlier reaches.le

end Reaches

section Opens

variable {last stop : Position} {outlines : List (Outline Span)} {input rest : Input} {span : Span}

theorem Input.Passes.opens (passes : Passes input.head.span.start span rest) {after : Input}
    (reaches : Reaches span.stop outlines stop after) : Opens input outlines stop after :=
  ⟨span.stop, passes.starts.trans_lt passes.wide, reaches⟩

theorem Opens.reaches (opens : Opens input outlines stop rest) (follows : input.Follows last) :
    Reaches last outlines stop rest := by
  obtain ⟨first, later, reaches⟩ := opens
  exact reaches.earlier (follows.starts.trans later.le)

/-- A statement from its first token on is in order, if what it holds is. -/
theorem Opens.statement {form : StatementForm} (opens : Opens input form.outlines stop rest)
    (follows : input.Follows last) :
    Reaches last (Statement.outlines ⟨⟨input.head.span.start, stop⟩, form⟩) stop rest := by
  obtain ⟨first, later, reaches⟩ := opens
  rw [Statement.outlines]
  split
  · exact ⟨follows.starts.trans (later.le.trans reaches.le), reaches.follows⟩
  · exact ⟨⟨follows.starts, ⟨first, later, reaches.spread⟩, le_refl stop⟩, reaches.follows⟩

end Opens

namespace Grammar

/-! ### Names -/

section Names

variable {last : Position} {input : Input}

private theorem expect_passes (follows : input.Follows last) {kind : TokenKind}
    (more : kind ≠ .endOfText) (place : Place) :
    (expect kind place input).Yields fun read => Passes last read.1 read.2 := by
  rw [expect]
  split
  next same => exact (follows.next_passes (same ▸ more) place).bind fun _ passes => .pure passes
  next => exact .fail

private theorem symbol_passes (follows : input.Follows last) (kind : Symbol) (place : Place) :
    (symbol kind place input).Yields fun read => Passes last read.1 read.2 := by
  have more : TokenKind.symbol kind ≠ .endOfText := nofun
  exact expect_passes follows more place

private theorem keyword_passes (follows : input.Follows last) (word : Keyword) (place : Place) :
    (keyword word place input).Yields fun read => Passes last read.1 read.2 := by
  have more : TokenKind.word word.text ≠ .endOfText := nofun
  exact expect_passes follows more place

private theorem name_passes (follows : input.Follows last) (place : Place) :
    (name place input).Yields fun read => Passes last read.2.1 read.2.2 := by
  rw [name]
  split
  next text word => exact (follows.next_passes (by rw [word]; nofun) place).bind fun _ passes => .pure passes
  next => exact .fail

private theorem attrib_reaches (follows : input.Follows last) :
    (attrib last input).Yields fun read => Reaches last [] read.2.1 read.2.2 := by
  rw [attrib]
  split
  · refine (symbol_passes follows _ _).bind fun (_, rest) passes => ?_
    refine (name_passes passes.after _).bind fun (_, _, rest) passes => ?_
    refine (symbol_passes passes.after _ _).bind fun (_, rest) passes => ?_
    exact .pure ((Reaches.nothing follows).pass passes)
  · exact .pure (.nothing follows)

private theorem declaredNames_reaches :
    (steps : Nat) → {input : Input} → {last : Position} → input.Follows last →
    (declaredNames steps input).Yields fun read => Reaches last [] read.2.1 read.2.2
  | 0, _, _, _ => .fail
  | steps + 1, _, _, follows => by
    rw [declaredNames]
    refine (name_passes follows _).bind fun (_, span, rest) passes => ?_
    refine (attrib_reaches passes.follows).bind fun (_, stop, rest) reaches => ?_
    have passed := reaches.earlier passes.le
    dsimp only
    split
    · refine (symbol_passes passed.after _ _).bind fun (_, rest) passes => ?_
      exact (declaredNames_reaches steps passes.after).bind fun ((_, _), _, _) others => .pure others
    · exact .pure passed

private theorem moreNames_follows : (steps : Nat) → {input : Input} → input.Follows last →
    (moreNames steps input).Yields fun read => read.2.Follows last
  | 0, _, _ => .fail
  | steps + 1, _, follows => by
    rw [moreNames]
    split
    · refine (symbol_passes follows _ _).bind fun (_, rest) passes => ?_
      refine (name_passes passes.after _).bind fun (_, _, rest) passes => ?_
      exact (moreNames_follows steps passes.after).bind fun (_, _) follows => .pure follows
    · exact .pure follows

private theorem nameSegments_follows : (steps : Nat) → {input : Input} → input.Follows last →
    (nameSegments steps input).Yields fun read => read.2.Follows last
  | 0, _, _ => .fail
  | steps + 1, _, follows => by
    rw [nameSegments]
    split
    · refine (symbol_passes follows _ _).bind fun (_, rest) passes => ?_
      refine (name_passes passes.after _).bind fun (_, _, rest) passes => ?_
      exact (nameSegments_follows steps passes.after).bind fun (_, _) follows => .pure follows
    · exact .pure follows

private theorem functionName_follows (steps : Nat) (follows : input.Follows last) :
    (functionName steps input).Yields fun read => read.2.Follows last := by
  rw [functionName]
  refine (name_passes follows _).bind fun (_, _, rest) passes => ?_
  refine (nameSegments_follows steps passes.after).bind fun (_, rest) follows => ?_
  dsimp only
  split
  · refine (symbol_passes follows _ _).bind fun (_, rest) passes => ?_
    exact (name_passes passes.after _).bind fun (_, _, _) passes => .pure passes.after
  · exact .pure follows

private theorem parameters_follows : (steps : Nat) → {input : Input} → input.Follows last →
    (parameters steps input).Yields fun read => read.2.Follows last
  | 0, _, _ => .fail
  | steps + 1, _, follows => by
    rw [parameters]
    split
    · refine (symbol_passes follows _ _).bind fun (_, rest) passes => ?_
      dsimp only
      split
      · exact (symbol_passes passes.after _ _).bind fun (_, _) passes => .pure passes.after
      · refine (name_passes passes.after _).bind fun (_, _, rest) passes => ?_
        exact (symbol_passes passes.after _ _).bind fun (_, _) passes => .pure passes.after
    · refine (name_passes follows _).bind fun (_, _, rest) passes => ?_
      dsimp only
      split
      · refine (symbol_passes passes.after _ _).bind fun (_, rest) passes => ?_
        exact (parameters_follows steps passes.after).bind fun ((_, _), _) follows => .pure follows
      · exact (symbol_passes passes.after _ _).bind fun (_, _) passes => .pure passes.after

private theorem parameterList_follows (steps : Nat) (follows : input.Follows last) :
    (parameterList steps input).Yields fun read => read.2.Follows last := by
  rw [parameterList]
  refine (symbol_passes follows _ _).bind fun (_, rest) passes => ?_
  dsimp only
  split
  · exact (symbol_passes passes.after _ _).bind fun (_, _) passes => .pure passes.after
  · exact parameters_follows steps passes.after

end Names

/-! ### Statements and expressions -/

/-- Whether what the readers of statements and expressions read within a number of steps stands in order
between the place where they begin and the one where they stop. -/
structure Orders (steps : Nat) : Prop where
  block {last : Position} {input : Input} (closers : Closers) (follows : input.Follows last) :
    (block steps closers input).Yields fun read => ∃ stop,
    Reaches last (statementsOutlines read.1) stop read.2
  returnStatement {last : Position} {input : Input} (closers : List Keyword) (follows : input.Follows last) :
    (returnStatement steps closers input).Yields fun read =>
    Reaches last read.1.outlines read.1.span.stop read.2
  statement {last : Position} {input : Input} (follows : input.Follows last) :
    (statement steps input).Yields fun read => Opens input read.1.outlines read.2.1 read.2.2
  globalStatement {span : Span} {input : Input} (follows : input.Follows span.stop) :
    (globalStatement steps span input).Yields fun read => Reaches span.stop read.1.outlines read.2.1 read.2.2
  expressionStatement {start : Position} {first : Term} {input : Input}
    (reaches : Reaches start first.outlines first.span.stop input) :
    (expressionStatement steps first input).Yields fun read => Reaches start read.1.outlines read.2.1 read.2.2
  namedFunction {last : Position} {input : Input} (isLocal : Bool) (follows : input.Follows last) :
    (namedFunction steps isLocal input).Yields fun read => Reaches last read.1.outlines read.2.1 read.2.2
  declarationStatement {last : Position} {input : Input} (follows : input.Follows last) :
    (declarationStatement steps last input).Yields fun read => Reaches last read.1.outlines read.2.1 read.2.2
  assignment {start : Position} {first : Term} {input : Input}
    (reaches : Reaches start first.outlines first.span.stop input) :
    (assignment steps first input).Yields fun read => Reaches start read.1.outlines read.2.1 read.2.2
  targets {last : Position} {input : Input} (follows : input.Follows last) :
    (targets steps input).Yields fun read => ∃ stop, Reaches last (termsOutlines read.1) stop read.2
  blockTo {last : Position} {input : Input} (word : Keyword) (place : Place) (follows : input.Follows last) :
    (blockTo steps word place input).Yields fun read =>
    Reaches last (statementsOutlines read.1) read.2.1 read.2.2
  clause {last : Position} {input : Input} (word : Keyword) (follows : input.Follows last) :
    (clause steps word input).Yields fun read => ∃ stop, Opens input read.1.outlines stop read.2
  clauses {last : Position} {input : Input} (follows : input.Follows last) :
    (clauses steps input).Yields fun read =>
      Reaches last (clausesOutlines read.1.1 ++ otherwiseOutlines read.1.2) read.2.1 read.2.2
  forStatement {last : Position} {input : Input} (follows : input.Follows last) :
    (forStatement steps input).Yields fun read => Reaches last read.1.outlines read.2.1 read.2.2
  forStep {last : Position} {input : Input} (follows : input.Follows last) :
    (forStep steps input).Yields fun read => ∃ stop, Reaches last (stepOutlines read.1) stop read.2
  callable {last : Position} {input : Input} (follows : input.Follows last) :
    (callable steps input).Yields fun read => Reaches last read.1.outlines read.2.1 read.2.2
  expressions {last : Position} {input : Input} (follows : input.Follows last) :
    (expressions steps input).Yields fun read => Reaches last (termsOutlines read.1) read.2.1 read.2.2
  expression {last : Position} {input : Input} (limit : Nat) (follows : input.Follows last) :
    (expression steps limit input).Yields fun read => Reaches last read.1.outlines read.1.span.stop read.2
  operators {start : Position} {left : Term} {input : Input} (limit : Nat)
    (reaches : Reaches start left.outlines left.span.stop input) :
    (operators steps limit left input).Yields fun read =>
    Reaches start read.1.outlines read.1.span.stop read.2
  operand {last : Position} {input : Input} (follows : input.Follows last) :
    (operand steps input).Yields fun read => Reaches last read.1.outlines read.1.span.stop read.2
  suffixed {last : Position} {input : Input} (follows : input.Follows last) :
    (suffixed steps input).Yields fun read => Opens input read.1.outlines read.1.span.stop read.2
  suffixes {start : Position} {base : Term} {input : Input}
    (reaches : Reaches start base.outlines base.span.stop input) :
    (suffixes steps base input).Yields fun read => Reaches start read.1.outlines read.1.span.stop read.2
  arguments {last : Position} {input : Input} (follows : input.Follows last) :
    (arguments steps input).Yields fun read => Reaches last (termsOutlines read.1) read.2.1 read.2.2
  fields {last : Position} {input : Input} (place : Place) (follows : input.Follows last) :
    (fields steps place input).Yields fun read => Reaches last (fieldsOutlines read.1) read.2.1 read.2.2
  field {last : Position} {input : Input} (follows : input.Follows last) :
    (field steps input).Yields fun read => ∃ stop, Reaches last read.1.outlines stop read.2

private theorem orders_zero : Orders 0 where
  block _ _ := .fail
  returnStatement _ _ := .fail
  statement _ := .fail
  globalStatement _ := .fail
  expressionStatement _ := .fail
  namedFunction _ _ := .fail
  declarationStatement _ := .fail
  assignment _ := .fail
  targets _ := .fail
  blockTo _ _ _ := .fail
  clause _ _ := .fail
  clauses _ := .fail
  forStatement _ := .fail
  forStep _ := .fail
  callable _ := .fail
  expressions _ := .fail
  expression _ _ := .fail
  operators _ _ := .fail
  operand _ := .fail
  suffixed _ := .fail
  suffixes _ := .fail
  arguments _ := .fail
  fields _ _ := .fail
  field _ := .fail

namespace Orders

variable {steps : Nat} {last start : Position} {input : Input}

theorem block_succ (orders : Orders steps) (closers : Closers) (follows : input.Follows last) :
    (Grammar.block (steps + 1) closers input).Yields fun read => ∃ stop,
    Reaches last (statementsOutlines read.1) stop read.2 := by
  rw [Grammar.block]
  split
  · exact .pure ⟨last, .nothing follows⟩
  split
  · refine (orders.returnStatement _ follows).bind fun (statement, rest) reaches => ?_
    exact .pure ⟨_, reaches.append (.nothing reaches.follows)⟩
  · refine (orders.statement follows).bind fun (form, stop, rest) opens => ?_
    have first := opens.statement follows
    refine (orders.block _ first.follows).bind fun (_, rest) ⟨stop, others⟩ => ?_
    exact .pure ⟨stop, first.append others⟩

theorem returnStatement_succ (orders : Orders steps) (closers : List Keyword) (follows : input.Follows last) :
    (Grammar.returnStatement (steps + 1) closers input).Yields fun read =>
    Reaches last read.1.outlines read.1.span.stop read.2 := by
  rw [Grammar.returnStatement]
  refine (keyword_passes follows _ _).bind fun (span, rest) passes => ?_
  refine Yields.bind (P := fun read => Reaches span.stop (termsOutlines read.1) read.2.1 read.2.2) ?_
    fun (values, stop, rest) reaches => ?_
  · split
    · exact .pure (.nothing passes.follows)
    · exact orders.expressions passes.follows
  -- Whatever ends the statement, it is in order from the word on.
  have whole : ∀ {stop rest}, Reaches span.stop (termsOutlines values) stop rest →
      Reaches last (Statement.outlines ⟨⟨span.start, stop⟩, .return_ values⟩) stop rest := by
    intro stop rest reaches
    exact ⟨⟨passes.starts, ⟨span.stop, passes.wide, reaches.spread⟩, le_refl stop⟩, reaches.follows⟩
  dsimp only
  split
  · exact (symbol_passes reaches.follows _ _).bind fun (_, _) mark => .pure (whole (reaches.pass mark))
  · exact .pure (whole reaches)

theorem statement_succ (orders : Orders steps) (follows : input.Follows last) :
    (Grammar.statement (steps + 1) input).Yields fun read =>
    Opens input read.1.outlines read.2.1 read.2.2 := by
  have begins := follows.own
  rw [Grammar.statement]
  split
  · exact (keyword_passes begins _ _).bind fun (_, _) passes => .pure (passes.opens (.nothing passes.follows))
  · refine (keyword_passes begins _ _).bind fun (_, rest) passes => ?_
    refine (name_passes passes.follows _).bind fun (_, _, rest) named => ?_
    exact .pure (passes.opens ((Reaches.nothing passes.follows).pass named))
  · refine (keyword_passes begins _ _).bind fun (_, rest) passes => ?_
    exact (orders.blockTo _ _ passes.follows).bind fun (_, _, _) body => .pure (passes.opens body)
  · refine (keyword_passes begins _ _).bind fun (_, rest) passes => ?_
    refine (orders.expression _ passes.follows).bind fun (_, rest) condition => ?_
    refine (keyword_passes condition.follows _ _).bind fun (_, rest) word => ?_
    refine (orders.blockTo _ _ word.follows).bind fun (_, _, _) body => ?_
    exact .pure (passes.opens ((condition.pass word).append body))
  · refine (keyword_passes begins _ _).bind fun (_, rest) passes => ?_
    refine (orders.blockTo _ _ passes.follows).bind fun (_, _, rest) body => ?_
    refine (orders.expression _ body.follows).bind fun (_, _) condition => ?_
    exact .pure (passes.opens (body.append condition))
  · refine (orders.clause _ begins).bind fun (_, rest) ⟨_, first, later, reaches⟩ => ?_
    refine (orders.clauses reaches.follows).bind fun ((_, _), _, _) others => ?_
    exact .pure ⟨first, later, reaches.append others⟩
  · refine (keyword_passes begins _ _).bind fun (_, rest) passes => ?_
    exact (orders.forStatement passes.follows).imp fun _ loop => passes.opens loop
  · refine (keyword_passes begins _ _).bind fun (_, rest) passes => ?_
    refine (functionName_follows _ passes.follows).bind fun (_, rest) named => ?_
    exact (orders.callable named).bind fun (_, _, _) body => .pure (passes.opens body)
  · refine (keyword_passes begins _ _).bind fun (_, rest) passes => ?_
    dsimp only
    split
    · exact (orders.namedFunction _ passes.follows).imp fun _ reaches => passes.opens reaches
    · exact (orders.declarationStatement passes.follows).imp fun _ reaches => passes.opens reaches
  · refine (keyword_passes begins _ _).bind fun (_, rest) passes => ?_
    exact (orders.globalStatement passes.follows).imp fun _ reaches => passes.opens reaches
  · split
    · exact (symbol_passes begins _ _).bind fun (_, _) passes =>
        .pure (passes.opens (.nothing passes.follows))
    split
    · refine (symbol_passes begins _ _).bind fun (_, rest) passes => ?_
      refine (name_passes passes.follows _).bind fun (_, _, rest) named => ?_
      refine (symbol_passes named.follows _ _).bind fun (_, rest) colons => ?_
      exact .pure (passes.opens (((Reaches.nothing passes.follows).pass named).pass colons))
    · refine (orders.suffixed begins).bind fun (_, _) ⟨first, later, reaches⟩ => ?_
      exact (orders.expressionStatement reaches).imp fun _ whole => ⟨first, later, whole⟩

theorem globalStatement_succ (orders : Orders steps) {span : Span} (follows : input.Follows span.stop) :
    (Grammar.globalStatement (steps + 1) span input).Yields fun read =>
      Reaches span.stop read.1.outlines read.2.1 read.2.2 := by
  have starless : Reaches span.stop [] span.stop input := .nothing follows
  rw [Grammar.globalStatement]
  split
  · split
    · exact orders.namedFunction _ follows
    · exact orders.declarationStatement follows
  · exact (symbol_passes follows _ _).bind fun (_, _) star => .pure (starless.pass star)
  · refine (attrib_reaches follows).bind fun (_, _, rest) marked => ?_
    dsimp only
    split
    · exact (symbol_passes marked.follows _ _).bind fun (_, _) star => .pure (marked.pass star)
    · exact orders.declarationStatement follows
  · have base : Reaches span.stop (Term.outlines ⟨span, .global⟩) span.stop input := starless
    exact (orders.suffixes base).bind fun (_, _) reaches => orders.expressionStatement reaches

theorem expressionStatement_succ (orders : Orders steps) {first : Term}
    (reaches : Reaches start first.outlines first.span.stop input) :
    (Grammar.expressionStatement (steps + 1) first input).Yields fun read =>
      Reaches start read.1.outlines read.2.1 read.2.2 := by
  rw [Grammar.expressionStatement]
  split
  · exact orders.assignment reaches
  split
  · exact .pure reaches
  · exact .fail

theorem namedFunction_succ (orders : Orders steps) (isLocal : Bool) (follows : input.Follows last) :
    (Grammar.namedFunction (steps + 1) isLocal input).Yields fun read =>
    Reaches last read.1.outlines read.2.1 read.2.2 := by
  rw [Grammar.namedFunction]
  refine (keyword_passes follows _ _).bind fun (_, rest) passes => ?_
  refine (name_passes passes.after _).bind fun (_, _, rest) named => ?_
  exact (orders.callable named.after).bind fun (_, _, _) body => .pure body

theorem declarationStatement_succ (orders : Orders steps) (follows : input.Follows last) :
    (Grammar.declarationStatement (steps + 1) last input).Yields fun read =>
    Reaches last read.1.outlines read.2.1 read.2.2 := by
  rw [Grammar.declarationStatement]
  refine (attrib_reaches follows).bind fun (_, _, rest) marked => ?_
  refine (declaredNames_reaches _ marked.after).bind fun ((_, _), _, rest) names => ?_
  dsimp only
  split
  · refine (symbol_passes names.follows _ _).bind fun (_, rest) sign => ?_
    exact (orders.expressions sign.follows).bind fun (_, _, _) values =>
      .pure ((names.pass sign).append values)
  · exact .pure names

theorem assignment_succ (orders : Orders steps) {first : Term}
    (reaches : Reaches start first.outlines first.span.stop input) :
    (Grammar.assignment (steps + 1) first input).Yields fun read =>
    Reaches start read.1.outlines read.2.1 read.2.2 := by
  rw [Grammar.assignment]
  split
  · refine (orders.targets reaches.follows).bind fun (_, rest) ⟨_, others⟩ => ?_
    refine (symbol_passes others.follows _ _).bind fun (_, rest) sign => ?_
    refine (orders.expressions sign.follows).bind fun (_, _, _) values => ?_
    exact .pure (((reaches.append others).pass sign).append values)
  · exact .fail

theorem targets_succ (orders : Orders steps) (follows : input.Follows last) :
    (Grammar.targets (steps + 1) input).Yields fun read => ∃ stop,
    Reaches last (termsOutlines read.1) stop read.2 := by
  rw [Grammar.targets]
  split
  · refine (symbol_passes follows _ _).bind fun (_, rest) comma => ?_
    refine (orders.suffixed comma.after).bind fun (target, rest) opens => ?_
    have first := opens.reaches comma.after
    dsimp only
    split
    · exact (orders.targets first.follows).bind fun (_, _) ⟨stop, others⟩ => .pure ⟨stop, first.append others⟩
    · exact .fail
  · exact .pure ⟨last, .nothing follows⟩

theorem blockTo_succ (orders : Orders steps) (word : Keyword) (place : Place) (follows : input.Follows last) :
    (Grammar.blockTo (steps + 1) word place input).Yields fun read =>
      Reaches last (statementsOutlines read.1) read.2.1 read.2.2 := by
  rw [Grammar.blockTo]
  refine (orders.block _ follows).bind fun (_, rest) ⟨_, body⟩ => ?_
  exact (keyword_passes body.follows _ _).bind fun (_, _) passes => .pure (body.pass passes)

theorem clause_succ (orders : Orders steps) (word : Keyword) (follows : input.Follows last) :
    (Grammar.clause (steps + 1) word input).Yields fun read => ∃ stop,
    Opens input read.1.outlines stop read.2 := by
  rw [Grammar.clause]
  refine (keyword_passes follows.own _ _).bind fun (_, rest) passes => ?_
  refine (orders.expression _ passes.follows).bind fun (_, rest) condition => ?_
  refine (keyword_passes condition.follows _ _).bind fun (_, rest) word => ?_
  refine (orders.block _ word.follows).bind fun (_, _) ⟨stop, body⟩ => ?_
  exact .pure ⟨stop, passes.opens ((condition.pass word).append body)⟩

theorem clauses_succ (orders : Orders steps) (follows : input.Follows last) :
    (Grammar.clauses (steps + 1) input).Yields fun read =>
      Reaches last (clausesOutlines read.1.1 ++ otherwiseOutlines read.1.2) read.2.1 read.2.2 := by
  rw [Grammar.clauses]
  split
  · refine (orders.clause _ follows).bind fun (_, rest) ⟨_, opens⟩ => ?_
    have first := opens.reaches follows
    refine (orders.clauses first.follows).bind fun ((_, _), _, _) others => ?_
    have all := first.append others
    rw [← List.append_assoc] at all
    exact .pure all
  · refine (keyword_passes follows _ _).bind fun (_, rest) passes => ?_
    exact (orders.blockTo _ _ passes.after).bind fun (_, _, _) body => .pure body
  · exact (keyword_passes follows _ _).bind fun (_, _) passes => .pure ((Reaches.nothing follows).pass passes)

theorem forStatement_succ (orders : Orders steps) (follows : input.Follows last) :
    (Grammar.forStatement (steps + 1) input).Yields fun read =>
    Reaches last read.1.outlines read.2.1 read.2.2 := by
  rw [Grammar.forStatement]
  refine (name_passes follows _).bind fun (_, _, rest) named => ?_
  dsimp only
  split
  · refine (symbol_passes named.after _ _).bind fun (_, rest) sign => ?_
    refine (orders.expression _ sign.after).bind fun (_, rest) start => ?_
    refine (symbol_passes start.follows _ _).bind fun (_, rest) comma => ?_
    refine (orders.expression _ comma.follows).bind fun (_, rest) limit => ?_
    refine (orders.forStep limit.follows).bind fun (_, rest) ⟨_, step⟩ => ?_
    refine (keyword_passes step.follows _ _).bind fun (_, rest) word => ?_
    refine (orders.blockTo _ _ word.follows).bind fun (_, _, _) body => ?_
    exact .pure ((start.pass comma).append (limit.append ((step.pass word).append body)))
  · refine (moreNames_follows _ named.after).bind fun (_, rest) others => ?_
    refine (keyword_passes others _ _).bind fun (_, rest) word => ?_
    refine (orders.expressions word.after).bind fun (_, _, rest) exprs => ?_
    refine (keyword_passes exprs.follows _ _).bind fun (_, rest) word => ?_
    refine (orders.blockTo _ _ word.follows).bind fun (_, _, _) body => ?_
    exact .pure ((exprs.pass word).append body)

theorem forStep_succ (orders : Orders steps) (follows : input.Follows last) :
    (Grammar.forStep (steps + 1) input).Yields fun read => ∃ stop,
    Reaches last (stepOutlines read.1) stop read.2 := by
  rw [Grammar.forStep]
  split
  · refine (symbol_passes follows _ _).bind fun (_, rest) comma => ?_
    exact (orders.expression _ comma.after).bind fun (_, _) step => .pure ⟨_, step⟩
  · exact .pure ⟨last, .nothing follows⟩

theorem callable_succ (orders : Orders steps) (follows : input.Follows last) :
    (Grammar.callable (steps + 1) input).Yields fun read =>
    Reaches last read.1.outlines read.2.1 read.2.2 := by
  rw [Grammar.callable]
  refine (parameterList_follows _ follows).bind fun ((_, _), rest) params => ?_
  exact (orders.blockTo _ _ params).bind fun (_, _, _) body => .pure body

theorem expressions_succ (orders : Orders steps) (follows : input.Follows last) :
    (Grammar.expressions (steps + 1) input).Yields fun read =>
    Reaches last (termsOutlines read.1) read.2.1 read.2.2 := by
  rw [Grammar.expressions]
  refine (orders.expression _ follows).bind fun (_, rest) first => ?_
  dsimp only
  split
  · refine (symbol_passes first.follows _ _).bind fun (_, rest) comma => ?_
    exact (orders.expressions comma.follows).bind fun (_, _, _) others =>
      .pure ((first.pass comma).append others)
  · exact .pure (first.append (.nothing first.follows))

theorem expression_succ (orders : Orders steps) (limit : Nat) (follows : input.Follows last) :
    (Grammar.expression (steps + 1) limit input).Yields fun read =>
    Reaches last read.1.outlines read.1.span.stop read.2 := by
  rw [Grammar.expression]
  exact (orders.operand follows).bind fun (_, _) left => orders.operators _ left

/-- A token that makes up an expression holds no statements. -/
theorem outlines_literal {token : Token} {form : TermForm} (read : literal? token = some form) :
    form.outlines = [] := by
  rw [literal?] at read
  split at read
  · cases read; rfl
  · cases read; rfl
  · cases read; rfl
  · split at read <;> cases read <;> rfl

theorem operators_succ (orders : Orders steps) {left : Term} (limit : Nat)
    (reaches : Reaches start left.outlines left.span.stop input) :
    (Grammar.operators (steps + 1) limit left input).Yields fun read =>
      Reaches start read.1.outlines read.1.span.stop read.2 := by
  rw [Grammar.operators]
  split
  · exact .pure reaches
  next op known =>
  split
  · refine (reaches.follows.next_passes (more_of_binaryOp? known) _).bind fun rest sign => ?_
    refine (orders.expression _ sign.follows).bind fun (right, rest) second => ?_
    have joined : Reaches start (Term.outlines ⟨⟨left.span.start, right.span.stop⟩,
        .binary op left right⟩) right.span.stop rest :=
      (reaches.pass sign).append second
    exact orders.operators _ joined
  · exact .pure reaches

theorem operand_succ (orders : Orders steps) (follows : input.Follows last) :
    (Grammar.operand (steps + 1) input).Yields fun read =>
    Reaches last read.1.outlines read.1.span.stop read.2 := by
  rw [Grammar.operand]
  split
  next op known =>
    refine (follows.next_passes (more_of_unaryOp? known) _).bind fun rest sign => ?_
    exact (orders.expression _ sign.after).bind fun (_, _) operand => .pure operand
  split
  next form known =>
    refine (follows.next_passes (more_of_literal? known) _).bind fun _ passes => .pure ?_
    rw [Term.outlines, outlines_literal known]
    exact (Reaches.nothing follows).pass passes
  split
  · refine (keyword_passes follows _ _).bind fun (_, rest) word => ?_
    exact (orders.callable word.after).bind fun (_, _, _) body => .pure body
  split
  · refine (symbol_passes follows _ _).bind fun (_, rest) brace => ?_
    exact (orders.fields _ brace.after).bind fun (_, _, _) entries => .pure entries
  · exact (orders.suffixed follows).imp fun _ opens => opens.reaches follows

/-- A name holds no statements. -/
theorem outlines_ofName (name : String) : (TermForm.ofName name).outlines = [] := by
  rw [TermForm.ofName]
  split <;> rfl

theorem suffixed_succ (orders : Orders steps) (follows : input.Follows last) :
    (Grammar.suffixed (steps + 1) input).Yields fun read =>
    Opens input read.1.outlines read.1.span.stop read.2 := by
  rw [Grammar.suffixed]
  split
  · refine (symbol_passes follows.own _ _).bind fun (span, rest) open_ => ?_
    refine (orders.expression _ open_.follows).bind fun (inner, rest) reaches => ?_
    refine (symbol_passes reaches.follows _ _).bind fun (close, rest) passes => ?_
    have wrapped : Reaches span.stop (Term.outlines ⟨⟨span.start, close.stop⟩, .paren inner⟩) close.stop
      rest := reaches.pass passes
    exact (orders.suffixes wrapped).imp fun _ whole => open_.opens whole
  · refine (name_passes follows.own _).bind fun (text, span, rest) named => ?_
    have base : Reaches span.stop (Term.outlines ⟨span, .ofName text⟩) span.stop rest := by
      rw [Term.outlines, outlines_ofName]
      exact .nothing named.follows
    exact (orders.suffixes base).imp fun _ whole => named.opens whole

theorem calls (orders : Orders steps) {base : Term}
    (reaches : Reaches start base.outlines base.span.stop input) :
    (Grammar.arguments steps input >>= fun (args, stop, rest) =>
      Grammar.suffixes steps ⟨⟨base.span.start, stop⟩, .call base args⟩ rest).Yields
      fun read => Reaches start read.1.outlines read.1.span.stop read.2 := by
  refine (orders.arguments reaches.follows).bind fun (args, stop, rest) values => ?_
  have called : Reaches start (Term.outlines ⟨⟨base.span.start, stop⟩, .call base args⟩) stop rest :=
    reaches.append values
  exact orders.suffixes called

theorem suffixes_succ (orders : Orders steps) {base : Term}
    (reaches : Reaches start base.outlines base.span.stop input) :
    (Grammar.suffixes (steps + 1) base input).Yields fun read =>
    Reaches start read.1.outlines read.1.span.stop read.2 := by
  rw [Grammar.suffixes]
  split
  · refine (symbol_passes reaches.follows _ _).bind fun (_, rest) dot => ?_
    refine (name_passes dot.follows _).bind fun (text, span, rest) named => ?_
    have taken : Reaches start (Term.outlines ⟨⟨base.span.start, span.stop⟩, .member base text⟩)
        span.stop rest :=
      (reaches.pass dot).pass named
    exact orders.suffixes taken
  · refine (symbol_passes reaches.follows _ _).bind fun (_, rest) open_ => ?_
    refine (orders.expression _ open_.follows).bind fun (key, rest) second => ?_
    refine (symbol_passes second.follows _ _).bind fun (close, rest) passes => ?_
    have taken : Reaches start (Term.outlines ⟨⟨base.span.start, close.stop⟩, .index base key⟩)
        close.stop rest :=
      ((reaches.pass open_).append second).pass passes
    exact orders.suffixes taken
  · refine (symbol_passes reaches.follows _ _).bind fun (_, rest) colon => ?_
    refine (name_passes colon.follows _).bind fun (method, _, rest) named => ?_
    refine (orders.arguments named.follows).bind fun (args, stop, rest) values => ?_
    have called : Reaches start (Term.outlines ⟨⟨base.span.start, stop⟩, .methodCall base method args⟩)
        stop rest :=
      ((reaches.pass colon).pass named).append values
    exact orders.suffixes called
  · exact orders.calls reaches
  · exact orders.calls reaches
  · exact orders.calls reaches
  · exact .pure reaches

theorem arguments_succ (orders : Orders steps) (follows : input.Follows last) :
    (Grammar.arguments (steps + 1) input).Yields fun read =>
    Reaches last (termsOutlines read.1) read.2.1 read.2.2 := by
  rw [Grammar.arguments]
  split
  · refine (symbol_passes follows _ _).bind fun (_, rest) open_ => ?_
    dsimp only
    split
    · exact (symbol_passes open_.after _ _).bind fun (_, _) close =>
        .pure ((Reaches.nothing open_.after).pass close)
    · refine (orders.expressions open_.after).bind fun (_, _, rest) values => ?_
      exact (symbol_passes values.follows _ _).bind fun (_, _) close => .pure (values.pass close)
  · refine (symbol_passes follows _ _).bind fun (_, rest) brace => ?_
    refine (orders.fields _ brace.after).bind fun (_, _, _) entries => ?_
    exact .pure (entries.append (.nothing entries.follows))
  next literal kind =>
    refine (follows.next_passes (by rw [kind]; nofun) _).bind fun _ passes => ?_
    exact .pure ((Reaches.nothing follows).pass passes)
  · exact .fail

theorem fields_succ (orders : Orders steps) (place : Place) (follows : input.Follows last) :
    (Grammar.fields (steps + 1) place input).Yields fun read =>
    Reaches last (fieldsOutlines read.1) read.2.1 read.2.2 := by
  rw [Grammar.fields]
  split
  · exact (symbol_passes follows _ _).bind fun (_, _) close => .pure ((Reaches.nothing follows).pass close)
  · refine (orders.field follows).bind fun (_, rest) ⟨_, first⟩ => ?_
    dsimp only
    split
    · refine (symbol_passes first.follows _ _).bind fun (_, _) close => ?_
      exact .pure ((first.append (.nothing first.follows)).pass close)
    split
    next mark =>
      have more : rest.head.kind ≠ .endOfText := by
        rcases Bool.or_eq_true_iff.1 mark with comma | semicolon
        · exact more_of_isAt comma
        · exact more_of_isAt semicolon
      refine (first.follows.next_passes more _).bind fun rest mark => ?_
      exact (orders.fields _ mark.follows).bind fun (_, _, _) others =>
        .pure ((first.pass mark).append others)
    next => exact .fail

theorem field_succ (orders : Orders steps) (follows : input.Follows last) :
    (Grammar.field (steps + 1) input).Yields fun read => ∃ stop,
    Reaches last read.1.outlines stop read.2 := by
  rw [Grammar.field]
  split
  · refine (symbol_passes follows _ _).bind fun (_, rest) open_ => ?_
    refine (orders.expression _ open_.after).bind fun (_, rest) key => ?_
    refine (symbol_passes key.follows _ _).bind fun (_, rest) close => ?_
    refine (symbol_passes close.follows _ _).bind fun (_, rest) sign => ?_
    exact (orders.expression _ sign.follows).bind fun (_, _) value =>
      .pure ⟨_, ((key.pass close).pass sign).append value⟩
  split
  next text word _ =>
    refine (follows.next_passes (by rw [word]; nofun) _).bind fun rest passes => ?_
    dsimp only
    split
    · refine (symbol_passes passes.after _ _).bind fun (_, rest) sign => ?_
      refine (orders.expression _ sign.after).bind fun (_, _) value => ?_
      dsimp only
      split
      · exact .pure ⟨_, value⟩
      · exact .pure ⟨_, value⟩
    · have base : Reaches last (Term.outlines ⟨input.head.span, .ofName text⟩) input.head.span.stop rest := by
        rw [Term.outlines, outlines_ofName]
        exact (Reaches.nothing follows).pass passes
      refine (orders.suffixes base).bind fun (_, rest) left => ?_
      exact (orders.operators _ left).bind fun (_, _) value => .pure ⟨_, value⟩
  next => exact (orders.expression _ follows).bind fun (_, _) value => .pure ⟨_, value⟩

theorem succ (orders : Orders steps) : Orders (steps + 1) where
  block := orders.block_succ
  returnStatement := orders.returnStatement_succ
  statement := orders.statement_succ
  globalStatement := orders.globalStatement_succ
  expressionStatement := orders.expressionStatement_succ
  namedFunction := orders.namedFunction_succ
  declarationStatement := orders.declarationStatement_succ
  assignment := orders.assignment_succ
  targets := orders.targets_succ
  blockTo := orders.blockTo_succ
  clause := orders.clause_succ
  clauses := orders.clauses_succ
  forStatement := orders.forStatement_succ
  forStep := orders.forStep_succ
  callable := orders.callable_succ
  expressions := orders.expressions_succ
  expression := orders.expression_succ
  operators := orders.operators_succ
  operand := orders.operand_succ
  suffixed := orders.suffixed_succ
  suffixes := orders.suffixes_succ
  arguments := orders.arguments_succ
  fields := orders.fields_succ
  field := orders.field_succ

end Orders

theorem orders : (steps : Nat) → Orders steps
  | 0 => orders_zero
  | steps + 1 => (orders steps).succ

end Grammar

private theorem Cursor.le_passHeader? (cursor : Cursor) :
    (Reading.ofOption cursor.passHeader?).Yields fun read => cursor.position ≤ read.2.position := by
  intro (hasInterpreterLine, after) found
  simp only [Reading.ofOption, passHeader?, Option.bind_eq_bind, Option.bind_eq_some_iff] at found
  obtain ⟨gap, _, found⟩ := found
  have marked : cursor.position ≤
      (if cursor.text.head? = some '\ufeff' then cursor.skip 1 else cursor).position := by
    split
    · exact cursor.le_skip 1
    · exact le_refl _
  generalize (if cursor.text.head? = some '\ufeff' then cursor.skip 1 else cursor) = first at found marked
  have passed : cursor.position ≤ (first.pass gap).position := marked.trans (first.le_skip gap.length)
  split at found
  · cases found
    exact passed.trans (le_skip _ _)
  · cases found
    exact passed

/-- The statements of a text stand in its order. -/
theorem File.spread_outlines {text : String} {file : File} (read : File.ofText? text = some file) :
    ∃ last, Spread .start last file.outlines := by
  have ordered : (File.reading text).Yields fun file => ∃ last, Spread .start last file.outlines := by
    rw [File.reading]
    split
    · exact .fail
    · refine (Cursor.ofText text).le_passHeader?.bind fun header begins => ?_
      obtain ⟨_, cursor⟩ := header
      refine (Input.read_follows _ _).bind fun input follows => ?_
      refine ((Grammar.orders _).block _ (follows.earlier begins)).bind fun parsed placed => ?_
      obtain ⟨_, rest⟩ := parsed
      obtain ⟨last, body⟩ := placed
      dsimp only
      split
      · exact .pure ⟨last, body.spread⟩
      · exact .fail
  exact ordered file read

end LuaClasses.Source
