import Mathlib.Data.List.TakeWhile
import LuaClasses.Proofs.ProperSource
import LuaClasses.Proofs.Readings

/-! What the grammar reads has proper form. Every word that stands in a text can be a name, and
each reader keeps to the form if the readers that it calls do. So by induction on the steps all
of them do. -/

namespace LuaClasses.Source

/-! ### Words -/

/-- A word has a character, and each is one that a word can have. -/
theorem word_chars {char : Char} (rest : List Char) (start : isWordStart char = true) :
    textOf (char :: rest) ((rest.takeWhile isWordPart).length + 1) ≠ "" ∧
      ∀ part ∈ (textOf (char :: rest) ((rest.takeWhile isWordPart).length + 1)).toList,
        isWordPart part = true := by
  have first : isWordPart char = true := by
    rw [isWordStart, Bool.and_eq_true] at start
    exact start.1
  have prefix_ : (char :: rest).take ((rest.takeWhile isWordPart).length + 1) =
      char :: rest.takeWhile isWordPart := by
    rw [List.take_succ_cons, ← List.prefix_iff_eq_take.1 (List.takeWhile_prefix isWordPart)]
  rw [textOf, prefix_]
  refine ⟨by simp, fun part member => ?_⟩
  rw [String.toList_ofList] at member
  rcases List.mem_cons.1 member with rfl | member
  · exact first
  · exact List.mem_takeWhile_imp member

private theorem chars_tokenKind {place : Place} {char : Char} {rest : List Char} {text : String} {width : Nat}
    (read : tokenKind? place char rest = some (.word text, width)) :
    text ≠ "" ∧ ∀ part ∈ text.toList, isWordPart part = true := by
  rw [tokenKind?] at read
  split at read
  next start =>
    cases read
    exact word_chars rest start
  next =>
    split at read
    next =>
      obtain ⟨_, _, same⟩ := Option.map_eq_some_iff.1 read
      cases same
    next =>
      split at read
      next =>
        obtain ⟨_, _, same⟩ := Option.map_eq_some_iff.1 read
        cases same
      next =>
        rw [numberOrSymbol?] at read
        split at read
        · cases read
        · obtain ⟨_, _, same⟩ := Option.map_eq_some_iff.1 read
          cases same

/-- Whether the token that has been read can be a name if it is a word. A name has no point, and no
bar or bracket either. -/
def Input.Sound (input : Input) : Prop :=
  ∀ text, input.head.kind = .word text →
    Identifier text ∧ '|' ∉ text.toList ∧ '[' ∉ text.toList

theorem Input.read_sound (place : Place) (cursor : Cursor) :
    (Input.read place cursor).Yields Input.Sound := by
  intro input read text word
  obtain ⟨⟨token, rest⟩, found, rfl⟩ := Option.map_eq_some_iff.1 read
  simp only [Cursor.token?, Option.bind_eq_bind, Option.bind_eq_some_iff] at found
  obtain ⟨gap, _, found⟩ := found
  split at found
  next =>
    cases found
    cases word
  next char chars _ =>
    obtain ⟨⟨kind, width⟩, token, same⟩ := Option.bind_eq_some_iff.1 found
    cases same
    cases word
    obtain ⟨filled, parts⟩ := chars_tokenKind token
    have free {char : Char} (other : isWordPart char = false) : char ∉ text.toList :=
      fun member => Bool.false_ne_true (other.symm.trans (parts char member))
    exact ⟨⟨filled, free (by decide)⟩, free (by decide), free (by decide)⟩

theorem Input.next_sound (input : Input) (place : Place) : (input.next place).Yields Input.Sound :=
  read_sound place input.rest

namespace Grammar

open Reading (Yields)

/-! ### Names -/

private theorem expect_sound (kind : TokenKind) (place : Place) (input : Input) :
    (expect kind place input).Yields fun read => read.2.Sound := by
  rw [expect]
  split
  · exact (input.next_sound place).bind fun _ sound => .pure sound
  · exact .fail

theorem symbol_sound (kind : Symbol) (place : Place) (input : Input) :
    (symbol kind place input).Yields fun read => read.2.Sound :=
  expect_sound (.symbol kind) place input

theorem keyword_sound (word : Keyword) (place : Place) (input : Input) :
    (keyword word place input).Yields fun read => read.2.Sound :=
  expect_sound (.word word.text) place input

private theorem expect_span (kind : TokenKind) (place : Place) (input : Input) :
    (expect kind place input).Yields fun read => read.1 = input.head.span := by
  rw [expect]
  split
  · exact .after fun _ => .pure rfl
  · exact .fail

private theorem name_span (place : Place) (input : Input) :
    (name place input).Yields fun read => read.2.1 = input.head.span := by
  rw [name]
  split
  · exact .after fun _ => .pure rfl
  · exact .fail

private theorem name_proper {input : Input} (place : Place) (sound : input.Sound) :
    (name place input).Yields fun read => Identifier read.1 ∧ read.2.2.Sound := by
  rw [name]
  split
  next text word => exact (input.next_sound place).bind fun _ rest => .pure ⟨(sound text word).1, rest⟩
  next => exact .fail

theorem attrib_sound {input : Input} (stop : Position) (sound : input.Sound) :
    (attrib stop input).Yields fun read => read.2.2.Sound := by
  rw [attrib]
  split
  · refine (symbol_sound _ _ _).bind fun (_, rest) sound => ?_
    refine (name_proper _ sound).bind fun (_, _, rest) _ => ?_
    refine (symbol_sound _ _ _).bind fun (_, rest) sound => ?_
    exact .pure sound
  · exact .pure sound

private theorem declaredNames_proper : (steps : Nat) → {input : Input} → input.Sound →
    (declaredNames steps input).Yields fun read => (∀ name ∈ read.1.1, Identifier name.1) ∧ read.2.2.Sound
  | 0, _, _ => .fail
  | steps + 1, _, sound => by
    rw [declaredNames]
    refine (name_proper _ sound).bind fun (text, span, rest) ⟨named, sound⟩ => ?_
    refine (attrib_sound _ sound).bind fun (_, _, rest) sound => ?_
    dsimp only
    split
    · refine (symbol_sound _ _ _).bind fun (_, rest) sound => ?_
      refine (declaredNames_proper steps sound).bind fun ((_, _), _, rest) ⟨others, sound⟩ => ?_
      exact .pure ⟨List.forall_mem_cons.2 ⟨named, others⟩, sound⟩
    · exact .pure ⟨List.forall_mem_singleton.2 named, sound⟩

private theorem moreNames_proper : (steps : Nat) → {input : Input} → input.Sound →
    (moreNames steps input).Yields fun read => (∀ name ∈ read.1, Identifier name) ∧ read.2.Sound
  | 0, _, _ => .fail
  | steps + 1, _, sound => by
    rw [moreNames]
    split
    · refine (symbol_sound _ _ _).bind fun (_, rest) sound => ?_
      refine (name_proper _ sound).bind fun (_, _, rest) ⟨named, sound⟩ => ?_
      refine (moreNames_proper steps sound).bind fun (_, rest) ⟨others, sound⟩ => ?_
      exact .pure ⟨List.forall_mem_cons.2 ⟨named, others⟩, sound⟩
    · exact .pure ⟨nofun, sound⟩

private theorem nameSegments_proper : (steps : Nat) → {input : Input} → input.Sound →
    (nameSegments steps input).Yields fun read => (∀ name ∈ read.1, Identifier name) ∧ read.2.Sound
  | 0, _, _ => .fail
  | steps + 1, _, sound => by
    rw [nameSegments]
    split
    · refine (symbol_sound _ _ _).bind fun (_, rest) sound => ?_
      refine (name_proper _ sound).bind fun (_, _, rest) ⟨named, sound⟩ => ?_
      refine (nameSegments_proper steps sound).bind fun (_, rest) ⟨others, sound⟩ => ?_
      exact .pure ⟨List.forall_mem_cons.2 ⟨named, others⟩, sound⟩
    · exact .pure ⟨nofun, sound⟩

private theorem functionName_proper (steps : Nat) {input : Input} (sound : input.Sound) :
    (functionName steps input).Yields fun read => read.1.Proper ∧ read.2.Sound := by
  rw [functionName]
  refine (name_proper _ sound).bind fun (first, _, rest) ⟨named, sound⟩ => ?_
  refine (nameSegments_proper steps sound).bind fun (path, rest) ⟨others, sound⟩ => ?_
  have segments : ∀ segment ∈ first :: path, Identifier segment := List.forall_mem_cons.2 ⟨named, others⟩
  dsimp only
  split
  · refine (symbol_sound _ _ _).bind fun (_, rest) sound => ?_
    refine (name_proper _ sound).bind fun (method, _, rest) ⟨named, sound⟩ => ?_
    exact .pure ⟨⟨nofun, List.forall_mem_append.2 ⟨segments, List.forall_mem_singleton.2 named⟩⟩, sound⟩
  · exact .pure ⟨⟨nofun, List.forall_mem_append.2 ⟨segments, nofun⟩⟩, sound⟩

private theorem parameters_proper : (steps : Nat) → {input : Input} → input.Sound →
    (parameters steps input).Yields fun read => (∀ name ∈ read.1.1, Identifier name) ∧ read.2.Sound
  | 0, _, _ => .fail
  | steps + 1, _, sound => by
    rw [parameters]
    split
    · refine (symbol_sound _ _ _).bind fun (_, rest) sound => ?_
      dsimp only
      split
      · exact (symbol_sound _ _ _).bind fun (_, _) sound => .pure ⟨nofun, sound⟩
      · refine (name_proper _ sound).bind fun (_, _, rest) ⟨named, sound⟩ => ?_
        refine (symbol_sound _ _ _).bind fun (_, rest) sound => ?_
        exact .pure ⟨List.forall_mem_singleton.2 named, sound⟩
    · refine (name_proper _ sound).bind fun (_, _, rest) ⟨named, sound⟩ => ?_
      dsimp only
      split
      · refine (symbol_sound _ _ _).bind fun (_, rest) sound => ?_
        refine (parameters_proper steps sound).bind fun ((_, _), rest) ⟨others, sound⟩ => ?_
        exact .pure ⟨List.forall_mem_cons.2 ⟨named, others⟩, sound⟩
      · refine (symbol_sound _ _ _).bind fun (_, rest) sound => ?_
        exact .pure ⟨List.forall_mem_singleton.2 named, sound⟩

private theorem parameterList_proper (steps : Nat) (input : Input) :
    (parameterList steps input).Yields fun read => (∀ name ∈ read.1.1, Identifier name) ∧ read.2.Sound := by
  rw [parameterList]
  refine (symbol_sound _ _ _).bind fun (_, rest) sound => ?_
  dsimp only
  split
  · exact (symbol_sound _ _ _).bind fun (_, _) sound => .pure ⟨nofun, sound⟩
  · exact parameters_proper steps sound

/-! ### Statements and expressions -/

/-- Whether a statement at a place has proper form and others can come after it. -/
def Continues (span : Span) (form : StatementForm) : Prop :=
  (form.Fits span ∧ form.Proper) ∧ form.isReturn = false

/-- Whether what the readers of statements and expressions read within a number of steps has
proper form. -/
structure Keeps (steps : Nat) : Prop where
  block {input : Input} (closers : Closers) (sound : input.Sound) :
    (block steps closers input).Yields fun read => statementsProper read.1 ∧ read.2.Sound
  returnStatement (closers : List Keyword) (input : Input) :
    (returnStatement steps closers input).Yields fun read => read.1.Proper ∧ read.2.Sound
  statement {input : Input} (sound : input.Sound) :
    (statement steps input).Yields fun read =>
      Continues ⟨input.head.span.start, read.2.1⟩ read.1 ∧ read.2.2.Sound
  globalStatement {input : Input} (span : Span) (sound : input.Sound) :
    (globalStatement steps span input).Yields fun read =>
      Continues ⟨span.start, read.2.1⟩ read.1 ∧ read.2.2.Sound
  expressionStatement {first : Term} {input : Input} (proper : first.Proper) (sound : input.Sound) :
    (expressionStatement steps first input).Yields fun read =>
      Continues ⟨first.span.start, read.2.1⟩ read.1 ∧ read.2.2.Sound
  namedFunction (isLocal : Bool) (input : Input) :
    (namedFunction steps isLocal input).Yields fun read =>
      (∀ span, Continues span read.1) ∧ read.2.2.Sound
  declarationStatement {input : Input} (stop : Position) (sound : input.Sound) :
    (declarationStatement steps stop input).Yields fun read =>
      (∀ span, Continues span read.1) ∧ read.2.2.Sound
  assignment {first : Term} {input : Input} (proper : first.Proper) (sound : input.Sound) :
    (assignment steps first input).Yields fun read =>
      (∀ span, Continues span read.1) ∧ read.2.2.Sound
  targets {input : Input} (sound : input.Sound) :
    (targets steps input).Yields fun read =>
      ((∀ target ∈ read.1, target.isTarget = true) ∧ termsProper read.1) ∧ read.2.Sound
  blockTo {input : Input} (last : Keyword) (place : Place) (sound : input.Sound) :
    (blockTo steps last place input).Yields fun read => statementsProper read.1 ∧ read.2.2.Sound
  clause (word : Keyword) (input : Input) :
    (clause steps word input).Yields fun read => read.1.Proper ∧ read.2.Sound
  clauses (input : Input) :
    (clauses steps input).Yields fun read =>
      (clausesProper read.1.1 ∧ otherwiseProper read.1.2) ∧ read.2.2.Sound
  forStatement {input : Input} (sound : input.Sound) :
    (forStatement steps input).Yields fun read =>
      (∀ span, Continues span read.1) ∧ read.2.2.Sound
  forStep {input : Input} (sound : input.Sound) :
    (forStep steps input).Yields fun read => stepProper read.1 ∧ read.2.Sound
  callable (input : Input) :
    (callable steps input).Yields fun read => read.1.Proper ∧ read.2.2.Sound
  expressions {input : Input} (sound : input.Sound) :
    (expressions steps input).Yields fun read => termsProper read.1 ∧ read.2.2.Sound
  expression {input : Input} (limit : Nat) (sound : input.Sound) :
    (expression steps limit input).Yields fun read => read.1.Proper ∧ read.2.Sound
  operators {left : Term} {input : Input} (limit : Nat) (proper : left.Proper) (sound : input.Sound) :
    (operators steps limit left input).Yields fun read => read.1.Proper ∧ read.2.Sound
  operand {input : Input} (sound : input.Sound) :
    (operand steps input).Yields fun read => read.1.Proper ∧ read.2.Sound
  suffixed {input : Input} (sound : input.Sound) :
    (suffixed steps input).Yields fun read =>
      read.1.span.start = input.head.span.start ∧ read.1.Proper ∧ read.2.Sound
  suffixes {base : Term} {input : Input} (proper : base.Proper) (sound : input.Sound) :
    (suffixes steps base input).Yields fun read =>
      read.1.span.start = base.span.start ∧ read.1.Proper ∧ read.2.Sound
  arguments (input : Input) :
    (arguments steps input).Yields fun read => termsProper read.1 ∧ read.2.2.Sound
  fields {input : Input} (place : Place) (sound : input.Sound) :
    (fields steps place input).Yields fun read => fieldsProper read.1 ∧ read.2.2.Sound
  field {input : Input} (sound : input.Sound) :
    (field steps input).Yields fun read => read.1.Proper ∧ read.2.Sound

private theorem keeps_zero : Keeps 0 where
  block _ _ := .fail
  returnStatement _ _ := .fail
  statement _ := .fail
  globalStatement _ _ := .fail
  expressionStatement _ _ := .fail
  namedFunction _ _ := .fail
  declarationStatement _ _ := .fail
  assignment _ _ := .fail
  targets _ := .fail
  blockTo _ _ _ := .fail
  clause _ _ := .fail
  clauses _ := .fail
  forStatement _ := .fail
  forStep _ := .fail
  callable _ := .fail
  expressions _ := .fail
  expression _ _ := .fail
  operators _ _ _ := .fail
  operand _ := .fail
  suffixed _ := .fail
  suffixes _ _ := .fail
  arguments _ := .fail
  fields _ _ := .fail
  field _ := .fail

namespace Keeps

variable {steps : Nat} {input : Input}

theorem block_succ (keeps : Keeps steps) (closers : Closers) (sound : input.Sound) :
    (Grammar.block (steps + 1) closers input).Yields fun read => statementsProper read.1 ∧ read.2.Sound := by
  rw [Grammar.block]
  split
  · exact .pure ⟨trivial, sound⟩
  split
  · refine (keeps.returnStatement _ _).bind fun (_, rest) ⟨proper, sound⟩ => ?_
    exact .pure ⟨⟨fun _ => rfl, proper, trivial⟩, sound⟩
  · refine (keeps.statement sound).bind fun (form, stop, rest) ⟨⟨proper, continues⟩, sound⟩ => ?_
    refine (keeps.block _ sound).bind fun (_, rest) ⟨others, sound⟩ => ?_
    exact .pure ⟨⟨fun return_ => (Bool.false_ne_true (continues.symm.trans return_)).elim, proper,
      others⟩, sound⟩

theorem returnStatement_succ (keeps : Keeps steps) (closers : List Keyword) (input : Input) :
    (Grammar.returnStatement (steps + 1) closers input).Yields fun read => read.1.Proper ∧ read.2.Sound := by
  rw [Grammar.returnStatement]
  refine (keyword_sound _ _ _).bind fun (span, rest) sound => ?_
  refine Yields.bind (P := fun read => termsProper read.1 ∧ read.2.2.Sound) ?_
    fun (_, _, rest) ⟨proper, sound⟩ => ?_
  · split
    · exact .pure ⟨trivial, sound⟩
    · exact keeps.expressions sound
  · dsimp only
    split
    · exact (symbol_sound _ _ _).bind fun (_, _) sound => .pure ⟨⟨trivial, proper⟩, sound⟩
    · exact .pure ⟨⟨trivial, proper⟩, sound⟩

theorem statement_succ (keeps : Keeps steps) (sound : input.Sound) :
    (Grammar.statement (steps + 1) input).Yields fun read =>
      Continues ⟨input.head.span.start, read.2.1⟩ read.1 ∧ read.2.2.Sound := by
  have anywhere (read : StatementForm × Position × Input)
      (given : (∀ span, Continues span read.1) ∧ read.2.2.Sound) :
      Continues ⟨input.head.span.start, read.2.1⟩ read.1 ∧ read.2.2.Sound := ⟨given.1 _, given.2⟩
  rw [Grammar.statement]
  split
  · exact (keyword_sound _ _ _).bind fun (_, _) sound => .pure ⟨⟨⟨trivial, trivial⟩, rfl⟩, sound⟩
  · refine (keyword_sound _ _ _).bind fun (_, rest) sound => ?_
    exact (name_proper _ sound).bind fun (_, _, _) ⟨named, sound⟩ => .pure ⟨⟨⟨trivial, named⟩, rfl⟩, sound⟩
  · refine (keyword_sound _ _ _).bind fun (_, rest) sound => ?_
    exact (keeps.blockTo _ _ sound).bind fun (_, _, _) ⟨proper, sound⟩ =>
      .pure ⟨⟨⟨trivial, proper⟩, rfl⟩, sound⟩
  · refine (keyword_sound _ _ _).bind fun (_, rest) sound => ?_
    refine (keeps.expression _ sound).bind fun (_, rest) ⟨first, sound⟩ => ?_
    refine (keyword_sound _ _ _).bind fun (_, rest) sound => ?_
    exact (keeps.blockTo _ _ sound).bind fun (_, _, _) ⟨second, sound⟩ =>
      .pure ⟨⟨⟨trivial, first, second⟩, rfl⟩, sound⟩
  · refine (keyword_sound _ _ _).bind fun (_, rest) sound => ?_
    refine (keeps.blockTo _ _ sound).bind fun (_, _, rest) ⟨first, sound⟩ => ?_
    exact (keeps.expression _ sound).bind fun (_, _) ⟨second, sound⟩ =>
      .pure ⟨⟨⟨trivial, first, second⟩, rfl⟩, sound⟩
  · refine (keeps.clause _ _).bind fun (_, rest) ⟨first, sound⟩ => ?_
    refine (keeps.clauses _).bind fun ((_, _), _, _) ⟨⟨others, otherwise⟩, sound⟩ => ?_
    exact .pure ⟨⟨⟨trivial, first, others, otherwise⟩, rfl⟩, sound⟩
  · exact (keyword_sound _ _ _).bind fun (_, _) sound => (keeps.forStatement sound).imp anywhere
  · refine (keyword_sound _ _ _).bind fun (_, rest) sound => ?_
    refine (functionName_proper _ sound).bind fun (_, rest) ⟨named, sound⟩ => ?_
    refine (keeps.callable _).bind fun (_, _, _) ⟨proper, sound⟩ => ?_
    exact .pure ⟨⟨⟨trivial, named, nofun, proper⟩, rfl⟩, sound⟩
  · refine (keyword_sound _ _ _).bind fun (_, rest) sound => ?_
    dsimp only
    split
    · exact (keeps.namedFunction _ _).imp anywhere
    · exact (keeps.declarationStatement _ sound).imp anywhere
  · refine ((keyword_sound _ _ _).and (expect_span _ _ _)).bind fun (span, _) ⟨sound, same⟩ => ?_
    exact same ▸ keeps.globalStatement span sound
  · split
    · exact (symbol_sound _ _ _).bind fun (_, _) sound => .pure ⟨⟨⟨trivial, trivial⟩, rfl⟩, sound⟩
    split
    · refine (symbol_sound _ _ _).bind fun (_, rest) sound => ?_
      refine (name_proper _ sound).bind fun (_, _, rest) ⟨named, _⟩ => ?_
      exact (symbol_sound _ _ _).bind fun (_, _) sound => .pure ⟨⟨⟨trivial, named⟩, rfl⟩, sound⟩
    · refine (keeps.suffixed sound).bind fun (first, _) ⟨start, proper, sound⟩ => ?_
      exact start ▸ keeps.expressionStatement proper sound

theorem globalStatement_succ (keeps : Keeps steps) (span : Span) (sound : input.Sound) :
    (Grammar.globalStatement (steps + 1) span input).Yields fun read =>
      Continues ⟨span.start, read.2.1⟩ read.1 ∧ read.2.2.Sound := by
  have anywhere (read : StatementForm × Position × Input)
      (given : (∀ span, Continues span read.1) ∧ read.2.2.Sound) :
      Continues ⟨span.start, read.2.1⟩ read.1 ∧ read.2.2.Sound := ⟨given.1 _, given.2⟩
  rw [Grammar.globalStatement]
  split
  · split
    · exact (keeps.namedFunction _ _).imp anywhere
    · exact (keeps.declarationStatement _ sound).imp anywhere
  · exact (symbol_sound _ _ _).bind fun (_, _) sound => .pure ⟨⟨⟨trivial, trivial⟩, rfl⟩, sound⟩
  · refine (attrib_sound _ sound).bind fun (_, _, rest) _ => ?_
    dsimp only
    split
    · exact (symbol_sound _ _ _).bind fun (_, _) sound => .pure ⟨⟨⟨trivial, trivial⟩, rfl⟩, sound⟩
    · exact (keeps.declarationStatement _ sound).imp anywhere
  · have proper : Term.Proper ⟨span, .global⟩ := trivial
    refine (keeps.suffixes proper sound).bind fun (first, _) ⟨start, proper, sound⟩ => ?_
    exact start ▸ keeps.expressionStatement proper sound

theorem expressionStatement_succ (keeps : Keeps steps) {first : Term} (proper : first.Proper)
    (sound : input.Sound) :
    (Grammar.expressionStatement (steps + 1) first input).Yields fun read =>
      Continues ⟨first.span.start, read.2.1⟩ read.1 ∧ read.2.2.Sound := by
  rw [Grammar.expressionStatement]
  split
  · exact (keeps.assignment proper sound).imp fun _ ⟨anywhere, sound⟩ => ⟨anywhere _, sound⟩
  split
  next called => exact .pure ⟨⟨⟨⟨called, rfl⟩, proper⟩, rfl⟩, sound⟩
  next => exact .fail

/-- The name after the word is a plain one. -/
theorem namedFunction_succ (keeps : Keeps steps) (isLocal : Bool) (input : Input) :
    (Grammar.namedFunction (steps + 1) isLocal input).Yields fun read =>
      (∀ span, Continues span read.1) ∧ read.2.2.Sound := by
  rw [Grammar.namedFunction]
  refine (keyword_sound _ _ _).bind fun (_, rest) sound => ?_
  refine (name_proper _ sound).bind fun (text, _, rest) ⟨named, _⟩ => ?_
  refine (keeps.callable _).bind fun (_, _, _) ⟨proper, sound⟩ => ?_
  have plain : (FunctionName.plain text).Proper := ⟨nofun, List.forall_mem_singleton.2 named⟩
  exact .pure ⟨fun _ => ⟨⟨trivial, plain, fun _ => rfl, proper⟩, rfl⟩, sound⟩

theorem declarationStatement_succ (keeps : Keeps steps) (stop : Position) (sound : input.Sound) :
    (Grammar.declarationStatement (steps + 1) stop input).Yields fun read =>
      (∀ span, Continues span read.1) ∧ read.2.2.Sound := by
  rw [Grammar.declarationStatement]
  refine (attrib_sound _ sound).bind fun (_, _, rest) sound => ?_
  refine (declaredNames_proper _ sound).bind fun ((_, _), _, rest) ⟨named, sound⟩ => ?_
  dsimp only
  split
  · refine (symbol_sound _ _ _).bind fun (_, rest) sound => ?_
    exact (keeps.expressions sound).bind fun (_, _, _) ⟨proper, sound⟩ =>
      .pure ⟨fun _ => ⟨⟨trivial, named, proper⟩, rfl⟩, sound⟩
  · exact .pure ⟨fun _ => ⟨⟨trivial, named⟩, rfl⟩, sound⟩

theorem assignment_succ (keeps : Keeps steps) {first : Term} (proper : first.Proper) (sound : input.Sound) :
    (Grammar.assignment (steps + 1) first input).Yields fun read =>
      (∀ span, Continues span read.1) ∧ read.2.2.Sound := by
  rw [Grammar.assignment]
  split
  next assignable =>
    refine (keeps.targets sound).bind fun (_, rest) ⟨⟨others, targets⟩, _⟩ => ?_
    refine (symbol_sound _ _ _).bind fun (_, rest) sound => ?_
    refine (keeps.expressions sound).bind fun (_, _, _) ⟨values, sound⟩ => ?_
    have form : StatementForm.Proper (.assign _ _) :=
      ⟨List.forall_mem_cons.2 ⟨assignable, others⟩, ⟨proper, targets⟩, values⟩
    exact .pure ⟨fun _ => ⟨⟨trivial, form⟩, rfl⟩, sound⟩
  next => exact .fail

theorem targets_succ (keeps : Keeps steps) (sound : input.Sound) :
    (Grammar.targets (steps + 1) input).Yields fun read =>
      ((∀ target ∈ read.1, target.isTarget = true) ∧ termsProper read.1) ∧ read.2.Sound := by
  rw [Grammar.targets]
  split
  · refine (symbol_sound _ _ _).bind fun (_, rest) sound => ?_
    refine (keeps.suffixed sound).bind fun (target, rest) ⟨_, proper, sound⟩ => ?_
    dsimp only
    split
    next assignable =>
      refine (keeps.targets sound).bind fun (_, _) ⟨⟨others, targets⟩, sound⟩ => ?_
      exact .pure ⟨⟨List.forall_mem_cons.2 ⟨assignable, others⟩, proper, targets⟩, sound⟩
    next => exact .fail
  · exact .pure ⟨⟨nofun, trivial⟩, sound⟩

theorem blockTo_succ (keeps : Keeps steps) (last : Keyword) (place : Place) (sound : input.Sound) :
    (Grammar.blockTo (steps + 1) last place input).Yields fun read =>
    statementsProper read.1 ∧ read.2.2.Sound := by
  rw [Grammar.blockTo]
  refine (keeps.block _ sound).bind fun (_, rest) ⟨proper, _⟩ => ?_
  exact (keyword_sound _ _ _).bind fun (_, _) sound => .pure ⟨proper, sound⟩

theorem clause_succ (keeps : Keeps steps) (word : Keyword) (input : Input) :
    (Grammar.clause (steps + 1) word input).Yields fun read => read.1.Proper ∧ read.2.Sound := by
  rw [Grammar.clause]
  refine (keyword_sound _ _ _).bind fun (_, rest) sound => ?_
  refine (keeps.expression _ sound).bind fun (_, rest) ⟨first, _⟩ => ?_
  refine (keyword_sound _ _ _).bind fun (_, rest) sound => ?_
  exact (keeps.block _ sound).bind fun (_, _) ⟨second, sound⟩ => .pure ⟨⟨first, second⟩, sound⟩

theorem clauses_succ (keeps : Keeps steps) (input : Input) :
    (Grammar.clauses (steps + 1) input).Yields fun read =>
      (clausesProper read.1.1 ∧ otherwiseProper read.1.2) ∧ read.2.2.Sound := by
  rw [Grammar.clauses]
  split
  · refine (keeps.clause _ _).bind fun (_, rest) ⟨first, _⟩ => ?_
    refine (keeps.clauses _).bind fun ((_, _), _, _) ⟨⟨others, otherwise⟩, sound⟩ => ?_
    exact .pure ⟨⟨⟨first, others⟩, otherwise⟩, sound⟩
  · refine (keyword_sound _ _ _).bind fun (_, rest) sound => ?_
    exact (keeps.blockTo _ _ sound).bind fun (_, _, _) ⟨proper, sound⟩ => .pure ⟨⟨trivial, proper⟩, sound⟩
  · exact (keyword_sound _ _ _).bind fun (_, _) sound => .pure ⟨⟨trivial, trivial⟩, sound⟩

theorem forStatement_succ (keeps : Keeps steps) (sound : input.Sound) :
    (Grammar.forStatement (steps + 1) input).Yields fun read =>
      (∀ span, Continues span read.1) ∧ read.2.2.Sound := by
  rw [Grammar.forStatement]
  refine (name_proper _ sound).bind fun (_, _, rest) ⟨named, sound⟩ => ?_
  dsimp only
  split
  · refine (symbol_sound _ _ _).bind fun (_, rest) sound => ?_
    refine (keeps.expression _ sound).bind fun (_, rest) ⟨start, _⟩ => ?_
    refine (symbol_sound _ _ _).bind fun (_, rest) sound => ?_
    refine (keeps.expression _ sound).bind fun (_, rest) ⟨limit, sound⟩ => ?_
    refine (keeps.forStep sound).bind fun (_, rest) ⟨step, _⟩ => ?_
    refine (keyword_sound _ _ _).bind fun (_, rest) sound => ?_
    refine (keeps.blockTo _ _ sound).bind fun (_, _, _) ⟨body, sound⟩ => ?_
    exact .pure ⟨fun _ => ⟨⟨trivial, named, start, limit, step, body⟩, rfl⟩, sound⟩
  · refine (moreNames_proper _ sound).bind fun (_, rest) ⟨others, _⟩ => ?_
    refine (keyword_sound _ _ _).bind fun (_, rest) sound => ?_
    refine (keeps.expressions sound).bind fun (_, _, rest) ⟨exprs, _⟩ => ?_
    refine (keyword_sound _ _ _).bind fun (_, rest) sound => ?_
    refine (keeps.blockTo _ _ sound).bind fun (_, _, _) ⟨body, sound⟩ => ?_
    have form : StatementForm.Proper (.forGeneric _ _ _) :=
      ⟨List.forall_mem_cons.2 ⟨named, others⟩, exprs, body⟩
    exact .pure ⟨fun _ => ⟨⟨trivial, form⟩, rfl⟩, sound⟩

theorem forStep_succ (keeps : Keeps steps) (sound : input.Sound) :
    (Grammar.forStep (steps + 1) input).Yields fun read => stepProper read.1 ∧ read.2.Sound := by
  rw [Grammar.forStep]
  split
  · refine (symbol_sound _ _ _).bind fun (_, rest) sound => ?_
    exact (keeps.expression _ sound).bind fun (_, _) ⟨proper, sound⟩ => .pure ⟨proper, sound⟩
  · exact .pure ⟨trivial, sound⟩

theorem callable_succ (keeps : Keeps steps) (input : Input) :
    (Grammar.callable (steps + 1) input).Yields fun read => read.1.Proper ∧ read.2.2.Sound := by
  rw [Grammar.callable]
  refine (parameterList_proper _ _).bind fun ((_, _), rest) ⟨params, sound⟩ => ?_
  exact (keeps.blockTo _ _ sound).bind fun (_, _, _) ⟨body, sound⟩ => .pure ⟨⟨params, body⟩, sound⟩

theorem expressions_succ (keeps : Keeps steps) (sound : input.Sound) :
    (Grammar.expressions (steps + 1) input).Yields fun read => termsProper read.1 ∧ read.2.2.Sound := by
  rw [Grammar.expressions]
  refine (keeps.expression _ sound).bind fun (_, rest) ⟨first, sound⟩ => ?_
  dsimp only
  split
  · refine (symbol_sound _ _ _).bind fun (_, rest) sound => ?_
    exact (keeps.expressions sound).bind fun (_, _, _) ⟨others, sound⟩ => .pure ⟨⟨first, others⟩, sound⟩
  · exact .pure ⟨⟨first, trivial⟩, sound⟩

theorem expression_succ (keeps : Keeps steps) (limit : Nat) (sound : input.Sound) :
    (Grammar.expression (steps + 1) limit input).Yields fun read => read.1.Proper ∧ read.2.Sound := by
  rw [Grammar.expression]
  exact (keeps.operand sound).bind fun (_, _) ⟨left, sound⟩ => keeps.operators _ left sound

theorem operators_succ (keeps : Keeps steps) {left : Term} (limit : Nat) (proper : left.Proper)
    (sound : input.Sound) :
    (Grammar.operators (steps + 1) limit left input).Yields fun read => read.1.Proper ∧ read.2.Sound := by
  rw [Grammar.operators]
  split
  · exact .pure ⟨proper, sound⟩
  split
  next op _ _ =>
    refine (input.next_sound _).bind fun rest sound => ?_
    refine (keeps.expression _ sound).bind fun (right, _) ⟨second, sound⟩ => ?_
    have joined : Term.Proper ⟨⟨left.span.start, right.span.stop⟩, .binary op left right⟩ := ⟨proper, second⟩
    exact keeps.operators _ joined sound
  next => exact .pure ⟨proper, sound⟩

/-- A token that makes up an expression holds no name. -/
theorem literal_proper {token : Token} {form : TermForm} (literal : literal? token = some form) :
    form.Proper := by
  rw [literal?] at literal
  split at literal
  · cases literal; exact trivial
  · cases literal; exact trivial
  · cases literal; exact trivial
  · split at literal
    · cases literal; exact trivial
    · cases literal; exact trivial
    · cases literal; exact trivial
    · cases literal

theorem operand_succ (keeps : Keeps steps) (sound : input.Sound) :
    (Grammar.operand (steps + 1) input).Yields fun read => read.1.Proper ∧ read.2.Sound := by
  rw [Grammar.operand]
  split
  · refine (input.next_sound _).bind fun rest sound => ?_
    exact (keeps.expression _ sound).bind fun (_, _) ⟨proper, sound⟩ => .pure ⟨proper, sound⟩
  split
  next literal => exact (input.next_sound _).bind fun _ sound => .pure ⟨literal_proper literal, sound⟩
  next =>
  split
  · refine (keyword_sound _ _ _).bind fun (_, rest) _ => ?_
    exact (keeps.callable _).bind fun (_, _, _) ⟨proper, sound⟩ => .pure ⟨proper, sound⟩
  split
  · refine (symbol_sound _ _ _).bind fun (_, rest) sound => ?_
    exact (keeps.fields _ sound).bind fun (_, _, _) ⟨proper, sound⟩ => .pure ⟨proper, sound⟩
  · exact (keeps.suffixed sound).imp fun _ => And.right

/-- A word is a name, or the word `global` in the place of one. -/
theorem ofName_proper {name : String} (span : Span) (named : Identifier name) :
    Term.Proper ⟨span, .ofName name⟩ := by
  rw [Term.Proper, TermForm.ofName]
  split
  · exact trivial
  · exact named

theorem suffixed_succ (keeps : Keeps steps) (sound : input.Sound) :
    (Grammar.suffixed (steps + 1) input).Yields fun read =>
      read.1.span.start = input.head.span.start ∧ read.1.Proper ∧ read.2.Sound := by
  rw [Grammar.suffixed]
  split
  · refine ((symbol_sound _ _ _).and (expect_span _ _ _)).bind fun (span, rest) ⟨sound, same⟩ => ?_
    obtain rfl : span = input.head.span := same
    refine (keeps.expression _ sound).bind fun (inner, rest) ⟨proper, _⟩ => ?_
    refine (symbol_sound _ _ _).bind fun (close, rest) sound => ?_
    have wrapped : Term.Proper ⟨⟨input.head.span.start, close.stop⟩, .paren inner⟩ := proper
    exact keeps.suffixes wrapped sound
  · refine ((name_proper _ sound).and (name_span _ _)).bind fun (_, span, _) ⟨⟨named, sound⟩, same⟩ => ?_
    obtain rfl : span = input.head.span := same
    exact keeps.suffixes (ofName_proper _ named) sound

theorem calls (keeps : Keeps steps) {base : Term} (proper : base.Proper) (input : Input) :
    (Grammar.arguments steps input >>= fun (args, stop, rest) =>
      Grammar.suffixes steps ⟨⟨base.span.start, stop⟩, .call base args⟩ rest).Yields
      fun read => read.1.span.start = base.span.start ∧ read.1.Proper ∧ read.2.Sound := by
  refine (keeps.arguments _).bind fun (args, stop, rest) ⟨values, sound⟩ => ?_
  have called : Term.Proper ⟨⟨base.span.start, stop⟩, .call base args⟩ := ⟨proper, values⟩
  exact keeps.suffixes called sound

theorem suffixes_succ (keeps : Keeps steps) {base : Term} (proper : base.Proper) (sound : input.Sound) :
    (Grammar.suffixes (steps + 1) base input).Yields fun read =>
      read.1.span.start = base.span.start ∧ read.1.Proper ∧ read.2.Sound := by
  rw [Grammar.suffixes]
  split
  · refine (symbol_sound _ _ _).bind fun (_, rest) sound => ?_
    refine (name_proper _ sound).bind fun (text, span, rest) ⟨named, sound⟩ => ?_
    have taken : Term.Proper ⟨⟨base.span.start, span.stop⟩, .member base text⟩ := ⟨proper, named⟩
    exact keeps.suffixes taken sound
  · refine (symbol_sound _ _ _).bind fun (_, rest) sound => ?_
    refine (keeps.expression _ sound).bind fun (key, rest) ⟨second, _⟩ => ?_
    refine (symbol_sound _ _ _).bind fun (close, rest) sound => ?_
    have taken : Term.Proper ⟨⟨base.span.start, close.stop⟩, .index base key⟩ := ⟨proper, second⟩
    exact keeps.suffixes taken sound
  · refine (symbol_sound _ _ _).bind fun (_, rest) sound => ?_
    refine (name_proper _ sound).bind fun (method, _, rest) ⟨named, _⟩ => ?_
    refine (keeps.arguments _).bind fun (args, stop, rest) ⟨values, sound⟩ => ?_
    have called : Term.Proper ⟨⟨base.span.start, stop⟩, .methodCall base method args⟩ :=
      ⟨proper, named, values⟩
    exact keeps.suffixes called sound
  · exact keeps.calls proper input
  · exact keeps.calls proper input
  · exact keeps.calls proper input
  · exact .pure ⟨rfl, proper, sound⟩

theorem arguments_succ (keeps : Keeps steps) (input : Input) :
    (Grammar.arguments (steps + 1) input).Yields fun read => termsProper read.1 ∧ read.2.2.Sound := by
  rw [Grammar.arguments]
  split
  · refine (symbol_sound _ _ _).bind fun (_, rest) sound => ?_
    dsimp only
    split
    · exact (symbol_sound _ _ _).bind fun (_, _) sound => .pure ⟨trivial, sound⟩
    · refine (keeps.expressions sound).bind fun (_, _, rest) ⟨proper, _⟩ => ?_
      exact (symbol_sound _ _ _).bind fun (_, _) sound => .pure ⟨proper, sound⟩
  · refine (symbol_sound _ _ _).bind fun (_, rest) sound => ?_
    exact (keeps.fields _ sound).bind fun (_, _, _) ⟨proper, sound⟩ => .pure ⟨⟨proper, trivial⟩, sound⟩
  · exact (input.next_sound _).bind fun _ sound => .pure ⟨⟨trivial, trivial⟩, sound⟩
  · exact .fail

theorem fields_succ (keeps : Keeps steps) (place : Place) (sound : input.Sound) :
    (Grammar.fields (steps + 1) place input).Yields fun read => fieldsProper read.1 ∧ read.2.2.Sound := by
  rw [Grammar.fields]
  split
  · exact (symbol_sound _ _ _).bind fun (_, _) sound => .pure ⟨trivial, sound⟩
  · refine (keeps.field sound).bind fun (_, rest) ⟨first, _⟩ => ?_
    dsimp only
    split
    · exact (symbol_sound _ _ _).bind fun (_, _) sound => .pure ⟨⟨first, trivial⟩, sound⟩
    split
    · refine (rest.next_sound _).bind fun rest sound => ?_
      exact (keeps.fields _ sound).bind fun (_, _, _) ⟨others, sound⟩ => .pure ⟨⟨first, others⟩, sound⟩
    · exact .fail

theorem field_succ (keeps : Keeps steps) (sound : input.Sound) :
    (Grammar.field (steps + 1) input).Yields fun read => read.1.Proper ∧ read.2.Sound := by
  rw [Grammar.field]
  split
  · refine (symbol_sound _ _ _).bind fun (_, rest) sound => ?_
    refine (keeps.expression _ sound).bind fun (_, rest) ⟨key, _⟩ => ?_
    refine (symbol_sound _ _ _).bind fun (_, rest) _ => ?_
    refine (symbol_sound _ _ _).bind fun (_, rest) sound => ?_
    exact (keeps.expression _ sound).bind fun (_, _) ⟨value, sound⟩ => .pure ⟨⟨key, value⟩, sound⟩
  split
  next text word _ =>
    obtain ⟨named, _, bare⟩ := sound text word
    refine (input.next_sound _).bind fun rest sound => ?_
    dsimp only
    split
    · refine (symbol_sound _ _ _).bind fun (_, rest) sound => ?_
      refine (keeps.expression _ sound).bind fun (_, _) ⟨value, sound⟩ => ?_
      dsimp only
      split
      · exact .pure ⟨⟨trivial, value⟩, sound⟩
      · exact .pure ⟨⟨⟨named, bare⟩, value⟩, sound⟩
    · refine (keeps.suffixes (ofName_proper _ named) sound).bind fun (_, rest) ⟨_, left, sound⟩ => ?_
      exact (keeps.operators _ left sound).bind fun (_, _) ⟨value, sound⟩ => .pure ⟨value, sound⟩
  next => exact (keeps.expression _ sound).bind fun (_, _) ⟨value, sound⟩ => .pure ⟨value, sound⟩

theorem succ (keeps : Keeps steps) : Keeps (steps + 1) where
  block := keeps.block_succ
  returnStatement := keeps.returnStatement_succ
  statement := keeps.statement_succ
  globalStatement := keeps.globalStatement_succ
  expressionStatement := keeps.expressionStatement_succ
  namedFunction := keeps.namedFunction_succ
  declarationStatement := keeps.declarationStatement_succ
  assignment := keeps.assignment_succ
  targets := keeps.targets_succ
  blockTo := keeps.blockTo_succ
  clause := keeps.clause_succ
  clauses := keeps.clauses_succ
  forStatement := keeps.forStatement_succ
  forStep := keeps.forStep_succ
  callable := keeps.callable_succ
  expressions := keeps.expressions_succ
  expression := keeps.expression_succ
  operators := keeps.operators_succ
  operand := keeps.operand_succ
  suffixed := keeps.suffixed_succ
  suffixes := keeps.suffixes_succ
  arguments := keeps.arguments_succ
  fields := keeps.fields_succ
  field := keeps.field_succ

end Keeps

theorem keeps : (steps : Nat) → Keeps steps
  | 0 => keeps_zero
  | steps + 1 => (keeps steps).succ

end Grammar

/-- The tree of a source text has proper form. -/
theorem File.statementsProper_ofText {text : String} {file : File} (read : File.ofText? text = some file) :
    statementsProper file.body := by
  have proper : (File.reading text).Yields fun file => statementsProper file.body := by
    rw [File.reading]
    split
    · exact .fail
    · refine Reading.Yields.bind (P := fun _ => True) (fun _ _ => trivial) fun (_, cursor) _ => ?_
      refine (Input.read_sound _ _).bind fun input sound => ?_
      refine ((Grammar.keeps _).block _ sound).bind fun (_, rest) ⟨proper, _⟩ => ?_
      dsimp only
      split
      · exact .pure proper
      · exact .fail
  exact proper file read

end LuaClasses.Source
