import LuaClasses.Proofs.FirstReport
import LuaClasses.Proofs.ListAlignment
import LuaClasses.Proofs.DescentAgreement

/-! The names at the top level of a source text. A name that is declared there, or assigned to, is a word
of the text. So no class that a text declares has a bar in its name. -/

namespace LuaClasses.Source

/-- Whether an expression is no name with a bar. -/
def Term.Unbarred : Term → Prop
  | ⟨_, .name name⟩ => '|' ∉ name.toList
  | _ => True

/-- Whether no name that a statement declares or assigns to has a bar. -/
def StatementForm.Unbarred : StatementForm → Prop
  | .declare names _ | .define names _ _ => ∀ name ∈ names, '|' ∉ name.1.toList
  | .assign targets _ => ∀ target ∈ targets, target.Unbarred
  | _ => True

namespace Grammar

open Reading (Yields)

private theorem name_unbarred {input : Input} (place : Place) (sound : input.Sound) :
    (name place input).Yields fun read => '|' ∉ read.1.toList ∧ read.2.2.Sound := by
  rw [name]
  split
  next text word => exact (input.next_sound place).bind fun _ rest => .pure ⟨(sound text word).2.1, rest⟩
  next => exact .fail

private theorem declaredNames_unbarred (steps : Nat) {input : Input} (sound : input.Sound) :
    (declaredNames steps input).Yields fun read => ∀ name ∈ read.1.1, '|' ∉ name.1.toList := by
  induction steps generalizing input with
  | zero => exact .fail
  | succ steps ih =>
    rw [declaredNames]
    refine (name_unbarred _ sound).bind fun read given => ?_
    obtain ⟨text, span, rest⟩ := read
    obtain ⟨free, sound⟩ := given
    refine .after fun read => ?_
    obtain ⟨_, _, rest⟩ := read
    dsimp only
    split
    next =>
      refine (symbol_sound _ _ _).bind fun read sound => ?_
      obtain ⟨_, rest⟩ := read
      refine (ih sound).bind fun read others => ?_
      obtain ⟨⟨_, _⟩, _, _⟩ := read
      exact .pure (List.forall_mem_cons.2 ⟨free, others⟩)
    next => exact .pure (List.forall_mem_singleton.2 free)

private theorem ofName_unbarred {name : String} (span : Span) (free : '|' ∉ name.toList) :
    Term.Unbarred ⟨span, .ofName name⟩ := by
  rw [TermForm.ofName]
  split
  next => exact trivial
  next => exact free

/-- What is taken from an expression, or called, is no name. -/
theorem suffixes_unbarred (steps : Nat) {base : Term} (free : base.Unbarred) (input : Input) :
    (suffixes steps base input).Yields fun read => read.1.Unbarred := by
  induction steps generalizing base input with
  | zero => exact .fail
  | succ steps ih =>
    rw [suffixes]
    split
    next => exact .after fun _ => .after fun _ => ih (show Term.Unbarred ⟨_, .member _ _⟩ from trivial) _
    next =>
      exact .after fun _ => .after fun _ => .after fun _ => ih (show Term.Unbarred
        ⟨_, .index _ _⟩ from trivial) _
    next =>
      exact .after fun _ => .after fun _ => .after fun _ => ih (show Term.Unbarred
        ⟨_, .methodCall _ _ _⟩ from trivial) _
    iterate 3 next => exact .after fun _ => ih (show Term.Unbarred ⟨_, .call _ _⟩ from trivial) _
    next => exact .pure free

private theorem suffixed_unbarred (steps : Nat) {input : Input} (sound : input.Sound) :
    (suffixed steps input).Yields fun read => read.1.Unbarred := by
  cases steps with
  | zero => exact .fail
  | succ steps =>
    rw [suffixed]
    split
    next =>
      exact .after fun _ => .after fun _ => .after fun _ =>
        suffixes_unbarred steps (show Term.Unbarred ⟨_, .paren _⟩ from trivial) _
    next =>
      exact (name_unbarred _ sound).bind fun _ named => suffixes_unbarred steps (ofName_unbarred _
        named.1) _

private theorem targets_unbarred (steps : Nat) (input : Input) :
    (targets steps input).Yields fun read => ∀ target ∈ read.1, target.Unbarred := by
  induction steps generalizing input with
  | zero => exact .fail
  | succ steps ih =>
    rw [targets]
    split
    next =>
      refine (symbol_sound _ _ _).bind fun read sound => ?_
      obtain ⟨_, rest⟩ := read
      refine (suffixed_unbarred steps sound).bind fun read free => ?_
      obtain ⟨target, rest⟩ := read
      dsimp only
      split
      next => exact (ih rest).bind fun _ others => .pure (List.forall_mem_cons.2 ⟨free, others⟩)
      next => exact .fail
    next => exact .pure (List.forall_mem_nil _)

private theorem assignment_unbarred (steps : Nat) {first : Term} (free : first.Unbarred) (input : Input) :
    (assignment steps first input).Yields fun read => read.1.Unbarred := by
  cases steps with
  | zero => exact .fail
  | succ steps =>
    rw [assignment]
    split
    next =>
      exact (targets_unbarred steps input).bind fun _ others =>
        .after fun _ => .after fun _ => .pure (List.forall_mem_cons.2 ⟨free, others⟩)
    next => exact .fail

private theorem expressionStatement_unbarred (steps : Nat) {first : Term} (free : first.Unbarred)
    (input : Input) :
    (expressionStatement steps first input).Yields fun read => read.1.Unbarred := by
  cases steps with
  | zero => exact .fail
  | succ steps =>
    rw [expressionStatement]
    split
    next => exact assignment_unbarred steps free input
    next =>
      split
      next => exact .pure trivial
      next => exact .fail

private theorem declarationStatement_unbarred (steps : Nat) (stop : Position) {input : Input}
    (sound : input.Sound) :
    (declarationStatement steps stop input).Yields fun read => read.1.Unbarred := by
  cases steps with
  | zero => exact .fail
  | succ steps =>
    rw [declarationStatement]
    refine (attrib_sound _ sound).bind fun read sound => ?_
    obtain ⟨_, _, rest⟩ := read
    refine (declaredNames_unbarred steps sound).bind fun read free => ?_
    obtain ⟨⟨_, _⟩, _, rest⟩ := read
    dsimp only
    split
    next => exact .after fun _ => .after fun _ => .pure free
    next => exact .pure free

private theorem namedFunction_unbarred (steps : Nat) (isLocal : Bool) (input : Input) :
    (namedFunction steps isLocal input).Yields fun read => read.1.Unbarred := by
  cases steps with
  | zero => exact .fail
  | succ steps =>
    rw [namedFunction]
    exact .after fun _ => .after fun _ => .after fun _ => .pure trivial

private theorem globalStatement_unbarred (steps : Nat) (span : Span) {input : Input} (sound : input.Sound) :
    (globalStatement steps span input).Yields fun read => read.1.Unbarred := by
  cases steps with
  | zero => exact .fail
  | succ steps =>
    rw [globalStatement]
    split
    next =>
      split
      next => exact namedFunction_unbarred steps _ _
      next => exact declarationStatement_unbarred steps _ sound
    next => exact .after fun _ => .pure trivial
    next =>
      refine .after fun read => ?_
      obtain ⟨_, _, rest⟩ := read
      dsimp only
      split
      next => exact .after fun _ => .pure trivial
      next => exact declarationStatement_unbarred steps _ sound
    next =>
      have free : Term.Unbarred ⟨span, .global⟩ := trivial
      exact (suffixes_unbarred steps free input).bind fun _ free => expressionStatement_unbarred steps free _

private theorem forStatement_unbarred (steps : Nat) (input : Input) :
    (forStatement steps input).Yields fun read => read.1.Unbarred := by
  cases steps with
  | zero => exact .fail
  | succ steps =>
    rw [forStatement]
    refine .after fun read => ?_
    obtain ⟨_, _, rest⟩ := read
    dsimp only
    split
    next =>
      exact .after fun _ => .after fun _ => .after fun _ => .after fun _ => .after fun _ =>
        .after fun _ => .after fun _ =>
        .pure trivial
    next =>
      exact .after fun _ => .after fun _ => .after fun _ => .after fun _ => .after fun _ => .pure trivial

private theorem statement_unbarred (steps : Nat) {input : Input} (sound : input.Sound) :
    (statement steps input).Yields fun read => read.1.Unbarred := by
  cases steps with
  | zero => exact .fail
  | succ steps =>
    rw [statement]
    split
    next => exact .after fun _ => .pure trivial
    next => exact .after fun _ => .after fun _ => .pure trivial
    next => exact .after fun _ => .after fun _ => .pure trivial
    next => exact .after fun _ => .after fun _ => .after fun _ => .after fun _ => .pure trivial
    next => exact .after fun _ => .after fun _ => .after fun _ => .pure trivial
    next => exact .after fun _ => .after fun _ => .pure trivial
    next => exact .after fun _ => forStatement_unbarred steps _
    next => exact .after fun _ => .after fun _ => .after fun _ => .pure trivial
    next =>
      refine (keyword_sound _ _ _).bind fun read sound => ?_
      obtain ⟨_, rest⟩ := read
      dsimp only
      split
      next => exact namedFunction_unbarred steps _ _
      next => exact declarationStatement_unbarred steps _ sound
    next => exact (keyword_sound _ _ _).bind fun _ sound => globalStatement_unbarred steps _ sound
    next =>
      split
      next => exact .after fun _ => .pure trivial
      next =>
        split
        next => exact .after fun _ => .after fun _ => .after fun _ => .pure trivial
        next =>
          exact (suffixed_unbarred steps sound).bind fun _ free => expressionStatement_unbarred steps free _

private theorem returnStatement_unbarred (steps : Nat) (closers : List Keyword) (input : Input) :
    (returnStatement steps closers input).Yields fun read => read.1.form.Unbarred := by
  cases steps with
  | zero => exact .fail
  | succ steps =>
    rw [returnStatement]
    refine .after fun read => ?_
    obtain ⟨_, rest⟩ := read
    refine .after fun read => ?_
    obtain ⟨_, _, rest⟩ := read
    dsimp only
    split
    next => exact .after fun _ => .pure trivial
    next => exact .pure trivial

private theorem block_unbarred (steps : Nat) (closers : Closers) {input : Input} (sound : input.Sound) :
    (block steps closers input).Yields fun read => ∀ statement ∈ read.1, statement.form.Unbarred := by
  induction steps generalizing closers input with
  | zero => exact .fail
  | succ steps ih =>
    rw [block]
    split
    next => exact .pure (List.forall_mem_nil _)
    next =>
      split
      next =>
        exact (returnStatement_unbarred steps _ _).bind fun _ free => .pure (List.forall_mem_singleton.2 free)
      next =>
        refine ((statement_unbarred steps sound).and ((keeps steps).statement sound)).bind
          fun read given => ?_
        obtain ⟨form, _, rest⟩ := read
        obtain ⟨free, _, sound⟩ := given
        refine (ih _ sound).bind fun read others => ?_
        obtain ⟨statements, _⟩ := read
        exact .pure (List.forall_mem_cons.2 ⟨free, others⟩)

end Grammar

private theorem File.unbarred_ofText {text : String} {file : File} (read : File.ofText? text = some file) :
    ∀ statement ∈ file.body, statement.form.Unbarred := by
  have free : (File.reading text).Yields fun file => ∀ statement ∈ file.body, statement.form.Unbarred := by
    rw [File.reading]
    split
    next => exact .fail
    next =>
      refine .after fun read => ?_
      obtain ⟨_, cursor⟩ := read
      refine (Input.read_sound _ _).bind fun input sound => ?_
      refine (Grammar.block_unbarred _ _ sound).bind fun read free => ?_
      obtain ⟨_, _⟩ := read
      dsimp only
      split
      next => exact .pure free
      next => exact .fail
  exact free file read

/-! ### The names of a program -/

private theorem Term.Unbarred.name_expr {target : Term} (free : target.Unbarred) {keep : Bool} {name : String}
    (named : (target.expr keep).name? = some name) : '|' ∉ name.toList := by
  obtain ⟨span, form⟩ := target
  cases form with
  | name word =>
    cases named
    exact free
  | global =>
    cases named
    decide
  | _ => cases named

theorem mem_exprsOf {keep : Bool} {written : List Term} {expr : Expr} (member : expr ∈ exprsOf keep written) :
    ∃ term ∈ written, term.expr keep = expr := by
  cases keep with
  | true => exact List.mem_map.1 (exprsOf_true written ▸ member)
  | false =>
    obtain ⟨term, kept, same⟩ := List.mem_map.1 (exprsOf_false written ▸ member)
    exact ⟨term, List.mem_of_mem_filter kept, same⟩

private theorem StatementForm.Unbarred.bindings {form : StatementForm} (free : form.Unbarred)
    {keep : Bool} {kind : StmtKind} (meant : form.kind? keep = some kind)
    {targets : List (Option String)} {values : List Expr}
    (bound : Discovery.bindings? kind = some (targets, values)) {name : String}
    (target : some name ∈ targets) :
    '|' ∉ name.toList := by
  cases form with
  | declare names attributed | define names attributed given =>
    cases meant
    cases bound
    obtain ⟨declared, listed, same⟩ := List.mem_map.1 target
    cases same
    obtain ⟨written, member, rfl⟩ := List.mem_map.1 listed
    exact free written member
  | assign written given =>
    cases meant
    cases bound
    obtain ⟨expr, listed, named⟩ := List.mem_map.1 target
    obtain ⟨term, member, rfl⟩ := mem_exprsOf listed
    exact (free term member).name_expr named
  | empty | declareAll attributed => cases meant
  | _ =>
    cases meant
    cases bound

theorem mem_stmtsOf {keep : Bool} {stmt : Stmt} : {written : List Statement} → stmt ∈ stmtsOf keep written →
    ∃ statement ∈ written, statement.form.kind? keep = some stmt.kind
  | [], member => nomatch member
  | ⟨span, form⟩ :: rest, member => by
    rw [stmtsOf, List.mem_append] at member
    rcases member with first | later
    · rw [Option.mem_toList, Statement.stmt?, Option.map_eq_some_iff] at first
      obtain ⟨kind, meant, rfl⟩ := first
      exact ⟨_, List.mem_cons_self, meant⟩
    · obtain ⟨statement, listed, meant⟩ := mem_stmtsOf later
      exact ⟨statement, List.mem_cons_of_mem _ listed, meant⟩

end LuaClasses.Source

namespace LuaClasses

/-- No class that a text declares has a bar in its name. -/
theorem Program.classNames_unbarred {text : String} {program : Program}
    (parsed : Program.ofText text = .ok program) {config : DiscoveryConfig} {name : String}
    (declared : name ∈ program.classNames config) : '|' ∉ name.toList := by
  obtain ⟨file, read, lowered⟩ := Program.exists_file parsed
  obtain rfl := file.program_gives program lowered
  obtain ⟨stmt, member, targets, values, value, bound, opposite, _⟩ := Program.mem_classNames.1 declared
  obtain ⟨statement, listed, meant⟩ := Source.mem_stmtsOf member
  have free := Source.File.unbarred_ofText read statement listed
  exact free.bindings meant bound (List.of_mem_zip opposite).1

end LuaClasses
