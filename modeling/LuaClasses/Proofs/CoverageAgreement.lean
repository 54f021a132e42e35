import Mathlib.Control.Monad.Basic
import LuaClasses.Proofs.DescentAgreement
import LuaClasses.Source.Coverage

/-! How far a coverage report agrees with the reading of the program. The report lists the kinds that
occur in a tree and are not lowered, and the lowering stops at the first node that it cannot lower. Of
the nodes that stop it only a declaration of all names is of a kind that the report lists, and of the
kinds that the report lists the text of a comment does not stop it. -/

namespace LuaClasses.Source

/-- Whether a declaration of all names is among the kinds of a tree. -/
def DeclaresAll (kinds : List NodeKind) : Prop := NodeKind.implicitVariableDeclaration ∈ kinds

namespace DeclaresAll

variable {kind : NodeKind} {kinds others : List NodeKind}

@[simp] theorem nil_iff : DeclaresAll [] ↔ False := List.mem_nil_iff _

@[simp] theorem cons_iff :
    DeclaresAll (kind :: kinds) ↔ .implicitVariableDeclaration = kind ∨ DeclaresAll kinds :=
  List.mem_cons

@[simp] theorem append_iff : DeclaresAll (kinds ++ others) ↔ DeclaresAll kinds ∨ DeclaresAll others :=
  List.mem_append

@[simp] theorem string_iff {literal : StringLiteral} : DeclaresAll literal.kinds ↔ False := by
  rw [StringLiteral.kinds]
  split <;> split <;> split <;> simp [commentKinds]

@[simp] theorem parameters_iff {params : List String} {vararg : Bool} :
    DeclaresAll (parameterKinds params vararg) ↔ False := by
  rw [parameterKinds]
  split <;> split <;> simp

@[simp] theorem attribute_iff {attributed : Bool} : DeclaresAll (attributeKinds attributed) ↔ False := by
  rw [attributeKinds]
  split <;> simp

@[simp] theorem functionName_iff {name : FunctionName} : DeclaresAll (functionNameKinds name) ↔ False := by
  rw [functionNameKinds]
  split <;> split <;> simp

end DeclaresAll

namespace Lowering

/-- What an outcome of lowering says of the tree: there is a program only if no declaration of all
names was met, and what stops the lowering is a name `global`, one in parentheses, or such a
declaration. -/
def Accounts {α : Type} (declares : Prop) : Except ParseError α → Prop
  | .ok _ => ¬declares
  | .error .malformed => False
  | .error (.unsupported kind _) =>
    kind = "global" ∨ kind = NodeKind.parenthesizedExpression.name ∨
      kind = NodeKind.implicitVariableDeclaration.name ∧ declares
  | .error (.tooDeep _) => True

namespace Accounts

variable {α β : Type} {first second : Prop}

theorem pure {value : α} : Accounts False (pure value) := not_false

theorem congr {outcome : Except ParseError α} (accounts : Accounts first outcome) (same : first ↔ second) :
    Accounts second outcome :=
  propext same ▸ accounts

theorem bind {outcome : Except ParseError α} {next : α → Except ParseError β} (one : Accounts first outcome)
    (two : ∀ value, Accounts second (next value)) : Accounts (first ∨ second) (outcome >>= next) := by
  match outcome, one with
  | .error (.unsupported kind range), one =>
    exact one.imp_right fun below => below.imp_right fun ⟨same, declares⟩ => ⟨same, .inl declares⟩
  | .error (.tooDeep _), _ => exact trivial
  | .ok value, one =>
    show Accounts (first ∨ second) (next value)
    exact (two value).congr (or_iff_right one).symm

/-- The last step of a lowering gives a part of the tree, and nothing more stops it. -/
theorem map {outcome : Except ParseError α} {next : α → β} (one : Accounts first outcome) :
    Accounts first (outcome >>= fun value => Pure.pure (next value)) :=
  (one.bind fun _ => pure).congr (or_iff_left not_false)

/-- Where the lowering enters a node, only the depth can stop it. -/
theorem enter (level : Nat) (span : Span) {next : Unit → Except ParseError β}
    (two : Accounts second (next ())) :
    Accounts second (Lowering.enter level span >>= next) := by
  rw [Lowering.enter]
  split
  · exact trivial
  · exact two

end Accounts

private theorem names_accounts (level : Nat) :
    (declared : List (String × Span)) → Accounts False (names level declared)
  | [] => .pure
  | (_, span) :: rest => by
    rw [names]
    exact .enter level span (names_accounts level rest).map

mutual
theorem term_accounts (level : Nat) :
    (written : Term) → Accounts (DeclaresAll written.kinds) (term level written)
  | ⟨span, form⟩ => by
    rw [term, Term.kinds]
    exact .enter level span (termForm_accounts level span form)

theorem termForm_accounts (level : Nat) (span : Span) :
    (form : TermForm) → Accounts (DeclaresAll form.kinds) (termForm level span form)
  | .nil | .number _ | .string _ | .vararg | .name _ => by
    rw [termForm]
    exact Accounts.pure.congr (by simp [TermForm.kinds])
  | .boolean value => by
    rw [termForm]
    cases value <;> exact Accounts.pure.congr (by simp [TermForm.kinds])
  | .global => by
    rw [termForm]
    exact .inl rfl
  | .function body => by
    rw [termForm]
    exact (callable_accounts level body).map.congr (by simp [TermForm.kinds])
  | .table entries => by
    rw [termForm]
    exact (fields_accounts level entries).map.congr (by simp [TermForm.kinds])
  | .member object _ => by
    rw [termForm]
    exact (term_accounts (level + 1) object).map.congr (by simp [TermForm.kinds])
  | .index object key => by
    rw [termForm]
    refine ((term_accounts (level + 1) object).bind fun _ => (term_accounts (level + 1) key).map).congr ?_
    simp [TermForm.kinds]
  | .call callee args => by
    rw [termForm]
    refine ((terms_accounts (level + 1) args).bind fun _ => (term_accounts (level + 1) callee).map).congr ?_
    simp [TermForm.kinds, or_comm]
  | .methodCall object _ args => by
    rw [termForm]
    refine ((terms_accounts (level + 1) args).bind fun _ => (term_accounts (level + 1) object).map).congr ?_
    simp [TermForm.kinds, or_comm]
  | .paren inner => by
    rw [termForm]
    split
    · exact .inr (.inl rfl)
    · exact (term_accounts (level + 1) inner).map.congr (by simp [TermForm.kinds])
  | .unary _ operand => by
    rw [termForm]
    exact (term_accounts (level + 1) operand).map.congr (by simp [TermForm.kinds])
  | .binary _ left right => by
    rw [termForm]
    refine ((term_accounts (level + 1) left).bind fun _ => (term_accounts (level + 1) right).map).congr ?_
    simp [TermForm.kinds]

/-- A name `global` that is left out has no kind. -/
theorem terms_accounts (level : Nat) :
    (written : List Term) → Accounts (DeclaresAll (termsKinds written)) (terms level written)
  | [] => Accounts.pure.congr (by simp [termsKinds])
  | head :: rest => by
    rw [terms]
    split
    next skipped =>
      refine (terms_accounts level rest).congr ?_
      obtain ⟨_, form⟩ := head
      cases form <;> cases skipped
      simp [termsKinds, Term.kinds, TermForm.kinds]
    next =>
      refine ((term_accounts level head).bind fun _ => (terms_accounts level rest).map).congr ?_
      simp [termsKinds]

theorem fields_accounts (level : Nat) :
    (written : List Field) → Accounts (DeclaresAll (fieldsKinds written)) (fields level written)
  | [] => Accounts.pure.congr (by simp [fieldsKinds])
  | head :: rest => by
    rw [fields]
    refine ((field_accounts level head).bind fun _ => (fields_accounts level rest).map).congr ?_
    simp [fieldsKinds]

theorem field_accounts (level : Nat) :
    (written : Field) → Accounts (DeclaresAll written.kinds) (field level written)
  | .named _ value => by
    rw [field]
    exact (term_accounts (level + 1) value).map.congr (by simp [Field.kinds])
  | .keyed key value => by
    rw [field]
    refine ((term_accounts (level + 1) value).bind fun _ => (term_accounts (level + 1) key).map).congr ?_
    simp [Field.kinds, or_comm]
  | .positional value => by
    rw [field]
    exact (term_accounts (level + 1) value).map.congr (by simp [Field.kinds])

theorem callable_accounts (level : Nat) :
    (written : Callable) → Accounts (DeclaresAll written.kinds) (callable level written)
  | ⟨params, vararg, body⟩ => by
    rw [callable]
    exact (statements_accounts (level + 1) body).map.congr (by simp [Callable.kinds])

theorem statements_accounts (level : Nat) :
    (written : List Statement) → Accounts (DeclaresAll (blockKinds written)) (statements level written)
  | [] => Accounts.pure.congr (by simp [blockKinds])
  | head :: rest => by
    rw [statements]
    refine ((statement_accounts level head).bind fun _ => (statements_accounts level rest).map).congr ?_
    simp [blockKinds]

theorem statement_accounts (level : Nat) :
    (written : Statement) → Accounts (DeclaresAll written.kinds) (statement level written)
  | ⟨span, form⟩ => by
    rw [statement, Statement.kinds]
    exact .enter level span (statementForm_accounts level span form).map

theorem statementForm_accounts (level : Nat) (span : Span) :
    (form : StatementForm) → Accounts (DeclaresAll form.kinds) (statementForm level span form)
  | .empty | .declare _ _ | .break_ | .goto _ | .label _ => by
    rw [statementForm]
    exact Accounts.pure.congr (by simp [StatementForm.kinds])
  | .define declared _ values => by
    rw [statementForm]
    refine ((names_accounts (level + 1) declared).bind
      fun _ => (terms_accounts (level + 1) values).map).congr ?_
    simp [StatementForm.kinds]
  | .declareAll _ => by
    rw [statementForm]
    exact .inr (.inr ⟨rfl, .head _⟩)
  | .assign targets values => by
    rw [statementForm]
    refine ((terms_accounts (level + 1) targets).bind
      fun _ => (terms_accounts (level + 1) values).map).congr ?_
    simp [StatementForm.kinds]
  | .call call => by
    rw [statementForm]
    exact (term_accounts (level + 1) call).map.congr (by simp [StatementForm.kinds])
  | .function _ _ body => by
    rw [statementForm]
    exact (callable_accounts level body).map.congr (by simp [StatementForm.kinds])
  | .return_ values => by
    rw [statementForm]
    refine (terms_accounts (level + 1) values).map.congr ?_
    cases values <;> simp [StatementForm.kinds]
  | .if_ first others otherwise => by
    rw [statementForm]
    have arms : DeclaresAll (if others.isEmpty then [] else [.elseifStatement]) ↔ False := by split <;> simp
    match otherwise with
    | none =>
      refine ((clause_accounts level first).bind fun _ => (clauses_accounts level others).map).congr ?_
      simp [StatementForm.kinds, -List.isEmpty_iff, arms]
    | some ⟨body⟩ =>
      refine ((clause_accounts level first).bind fun _ =>
        (clauses_accounts level others).bind fun _ => (statements_accounts (level + 1) body).map).congr ?_
      simp [StatementForm.kinds, -List.isEmpty_iff, arms]
  | .while_ condition body => by
    rw [statementForm]
    refine ((term_accounts (level + 1) condition).bind
      fun _ => (statements_accounts (level + 1) body).map).congr ?_
    simp [StatementForm.kinds]
  | .repeat_ body condition => by
    rw [statementForm]
    refine ((statements_accounts (level + 1) body).bind
      fun _ => (term_accounts (level + 1) condition).map).congr ?_
    simp [StatementForm.kinds]
  | .do_ body => by
    rw [statementForm]
    exact (statements_accounts (level + 1) body).map.congr (by simp [StatementForm.kinds])
  | .forNumeric _ start limit step body => by
    rw [statementForm]
    match step with
    | none =>
      refine ((statements_accounts (level + 1) body).bind fun _ =>
        (term_accounts (level + 1) start).bind fun _ => (term_accounts (level + 1) limit).map).congr ?_
      simp [StatementForm.kinds, or_comm, or_left_comm]
    | some step =>
      refine ((statements_accounts (level + 1) body).bind fun _ => (term_accounts (level + 1) start).bind
        fun _ =>
        (term_accounts (level + 1) limit).bind fun _ => (term_accounts (level + 1) step).map).congr ?_
      simp [StatementForm.kinds, or_comm, or_left_comm]
  | .forGeneric _ exprs body => by
    rw [statementForm]
    refine ((statements_accounts (level + 1) body).bind
      fun _ => (terms_accounts (level + 1) exprs).map).congr ?_
    simp [StatementForm.kinds, or_comm]

theorem clause_accounts (level : Nat) :
    (written : Clause) → Accounts (DeclaresAll written.kinds) (clause level written)
  | ⟨condition, body⟩ => by
    rw [clause]
    refine ((term_accounts (level + 1) condition).bind
      fun _ => (statements_accounts (level + 1) body).map).congr ?_
    simp [Clause.kinds]

theorem clauses_accounts (level : Nat) :
    (written : List Clause) → Accounts (DeclaresAll (clausesKinds written)) (clauses level written)
  | [] => Accounts.pure.congr (by simp [clausesKinds])
  | head :: rest => by
    rw [clauses]
    refine ((clause_accounts level head).bind fun _ => (clauses_accounts level rest).map).congr ?_
    simp [clausesKinds]
end

end Lowering

/-! ### Gaps -/

namespace NodeKind

theorem mem_all (kind : NodeKind) : kind ∈ all := by cases kind <;> decide

/-- Two kinds are not lowered. -/
theorem isLowered_eq_false_iff {kind : NodeKind} :
    kind.isLowered = false ↔ kind = .commentContent ∨ kind = .implicitVariableDeclaration := by
  cases kind <;> simp [isLowered]

end NodeKind

private theorem declaresAll_blockKinds : (body : List Statement) →
    (DeclaresAll (blockKinds body) ↔ DeclaresAll (body.flatMap Statement.kinds))
  | [] => by simp [blockKinds]
  | head :: rest => by simp [blockKinds, declaresAll_blockKinds rest]

/-- What the lowering of a source text says of its kinds. -/
theorem File.accounts (file : File) : Lowering.Accounts (DeclaresAll file.kinds) file.program := by
  refine (Lowering.statements_accounts 1 file.body).map.congr ?_
  rw [declaresAll_blockKinds, DeclaresAll, DeclaresAll, File.kinds, List.mem_filter,
    and_iff_right (NodeKind.mem_all _),
    List.contains_iff_mem]
  show DeclaresAll _ ↔ DeclaresAll (_ :: _ ++ _ ++ _)
  split <;> split <;> simp [commentKinds]

namespace Coverage

def allLowered : String := "All node kinds in this file are lowered."

theorem mem_gaps {coverage : Coverage} {kind : NodeKind} :
    kind ∈ coverage.gaps ↔ kind ∈ coverage.kinds ∧
      (kind = .commentContent ∨ kind = .implicitVariableDeclaration) := by
  rw [gaps, List.mem_filter, Bool.not_eq_true', NodeKind.isLowered_eq_false_iff]

theorem gaps_eq_nil_iff {coverage : Coverage} :
    coverage.gaps = [] ↔ .commentContent ∉ coverage.kinds ∧
      .implicitVariableDeclaration ∉ coverage.kinds := by
  rw [List.eq_nil_iff_forall_not_mem]
  simp only [mem_gaps]
  constructor
  · exact fun none => ⟨fun found => none _ ⟨found, .inl rfl⟩, fun found => none _ ⟨found, .inr rfl⟩⟩
  · rintro ⟨one, two⟩ _ ⟨found, rfl | rfl⟩
    · exact one found
    · exact two found

private theorem ne_of_head_ne {left right : String} (differ : left.toList.head? ≠ right.toList.head?) :
    left ≠ right :=
  fun same => differ (same ▸ rfl)

/-- No other line of a report is the line that says that all is lowered: none begins like it. -/
theorem allLowered_mem_lines {coverage : Coverage} {generated : String} :
    allLowered ∈ coverage.lines generated ↔ coverage.gaps = [] := by
  have closing : allLowered ∈ coverage.gapLines ↔ coverage.gaps = [] := by
    rw [gapLines]
    split
    next none => exact iff_of_true (.head _) (List.isEmpty_iff.1 none)
    next some =>
      refine iff_of_false (fun found => ?_) fun none => some (List.isEmpty_iff.2 none)
      simp only [List.mem_cons, List.mem_map] at found
      obtain same | same | ⟨kind, _, same⟩ := found
      · exact absurd same (by decide)
      · exact absurd same (by decide)
      · exact ne_of_head_ne (by simp [allLowered, toString]) same
  rw [lines, List.mem_append, List.mem_cons, closing]
  refine (or_iff_right fun found => ?_).trans (or_iff_right (by decide))
  rcases List.mem_append.1 found with found | found
  · simp only [List.mem_cons, List.not_mem_nil, or_false] at found
    rcases found with same | same | same | same | same | same | same | same | same | same | same | same | same
    all_goals exact ne_of_head_ne (by simp [allLowered, toString]) same
  · obtain ⟨kind, _, same⟩ := List.mem_map.1 found
    exact ne_of_head_ne (by simp [row, allLowered, toString]) same

/-- Whether the lowering stops at a node that has no counterpart in a program. -/
def Stops (coverage : Coverage) (kind : String) : Prop :=
  ∃ range, coverage.lowering = .error (.unsupported kind range)

/-- Whether a report agrees with the lowering: the gaps are none exactly where no node stops the
lowering, the kind of a node that stops it is a gap, and what the report says of a file is so. -/
structure Agrees (coverage : Coverage) : Prop where
  gaps_iff : coverage.gaps = [] ↔ ∀ kind, ¬coverage.Stops kind
  listed : ∀ kind, coverage.Stops kind → kind ∈ coverage.gaps.map NodeKind.name
  said : ∀ generated, allLowered ∈ coverage.lines generated → ∀ kind, ¬coverage.Stops kind
  shown : coverage.lowering.isOk = true → coverage.gaps = []

private theorem Agrees.ofSilent {coverage : Coverage} (none : coverage.gaps = [])
    (silent : ∀ kind, ¬coverage.Stops kind) :
    coverage.Agrees :=
  ⟨iff_of_true none silent, fun kind stops => absurd stops (silent kind), fun _ _ => silent, fun _ => none⟩

/-- What the lowering of a text in the grammar says of the kinds in the report. -/
theorem accounts_ofText {text : String} {config : DiscoveryConfig}
    (grammatical : (ofText text config).lowering ≠ .error .malformed) :
    Lowering.Accounts (DeclaresAll (ofText text config).kinds) (ofText text config).lowering := by
  rw [ofText, Program.ofText_eq] at grammatical ⊢
  match read : File.ofText? text with
  | none =>
    rw [read] at grammatical
    exact absurd rfl grammatical
  | some file => exact file.accounts.map

/-- The report on a text in the grammar agrees with the lowering exactly where three things hold. A
text that is lowered has no comment. What stops the lowering is a declaration of all names, and no
name `global`. And a text that is too deep has neither a comment nor such a declaration. -/
theorem agrees_iff {text : String} {config : DiscoveryConfig}
    (grammatical : (ofText text config).lowering ≠ .error .malformed) :
    (ofText text config).Agrees ↔
      ((ofText text config).lowering.isOk = true → .commentContent ∉ (ofText text config).kinds) ∧
      (∀ kind, (ofText text config).Stops kind → kind = NodeKind.implicitVariableDeclaration.name) ∧
      (∀ range, (ofText text config).lowering = .error (.tooDeep range) →
        .commentContent ∉ (ofText text config).kinds ∧
          .implicitVariableDeclaration ∉ (ofText text config).kinds) := by
  have accounts := accounts_ofText grammatical
  generalize ofText text config = coverage at accounts ⊢
  constructor
  · intro agrees
    refine ⟨fun lowered => (gaps_eq_nil_iff.1 (agrees.shown lowered)).1,
      fun kind stops => ?_, fun range deep => ?_⟩
    · obtain ⟨gap, found, rfl⟩ := List.mem_map.1 (agrees.listed kind stops)
      obtain ⟨range, stops⟩ := stops
      rw [stops] at accounts
      rcases (mem_gaps.1 found).2 with rfl | rfl
      · rcases accounts with same | same | ⟨same, _⟩ <;> exact absurd same (by decide)
      · rfl
    · refine gaps_eq_nil_iff.1 (agrees.gaps_iff.2 fun kind ⟨_, stops⟩ => ?_)
      rw [deep] at stops
      cases stops
  · rintro ⟨lowered, stopped, tooDeep⟩
    match outcome : coverage.lowering with
    | .ok count =>
      rw [outcome] at accounts lowered
      have none : coverage.gaps = [] := gaps_eq_nil_iff.2 ⟨lowered rfl, accounts⟩
      exact .ofSilent none fun kind ⟨_, stops⟩ => by rw [outcome] at stops; cases stops
    | .error .malformed =>
      rw [outcome] at accounts
      exact accounts.elim
    | .error (.tooDeep range) =>
      have none : coverage.gaps = [] := gaps_eq_nil_iff.2 (tooDeep range outcome)
      exact .ofSilent none fun kind ⟨_, stops⟩ => by rw [outcome] at stops; cases stops
    | .error (.unsupported kind range) =>
      have stops : coverage.Stops kind := ⟨range, outcome⟩
      obtain rfl := stopped kind stops
      rw [outcome] at accounts
      have declared : NodeKind.implicitVariableDeclaration ∈ coverage.gaps := by
        rcases accounts with same | same | ⟨_, declares⟩
        · exact absurd same (by decide)
        · exact absurd same (by decide)
        · exact mem_gaps.2 ⟨declares, .inr rfl⟩
      have some : coverage.gaps ≠ [] := List.ne_nil_of_mem declared
      refine ⟨iff_of_false some fun none => none _ stops, ?_, fun generated said => ?_, ?_⟩
      · rintro other ⟨_, same⟩
        rw [outcome] at same
        cases same
        exact List.mem_map_of_mem declared
      · exact absurd (allLowered_mem_lines.1 said) some
      · rw [outcome]
        nofun

/-- A declaration of all names stops the lowering, and the report lists it. -/
theorem agrees_declaredAll :
    (ofText "global *" .default).lowering ≠ .error .malformed ∧ (ofText "global *" .default).Agrees := by
  have stopped : (ofText "global *" .default).lowering =
      .error (.unsupported "implicit_variable_declaration" ⟨1, 0, 1, 8⟩) := by
    decide +kernel
  have grammatical : (ofText "global *" .default).lowering ≠ .error .malformed := by
    rw [stopped]
    nofun
  refine ⟨grammatical, (agrees_iff grammatical).2 ⟨?_, ?_, ?_⟩⟩
  · rw [stopped]
    nofun
  · rintro kind ⟨range, same⟩
    rw [stopped] at same
    cases same
    rfl
  · rw [stopped]
    nofun

/-- A text with nothing but a comment is lowered, and yet its report lists a gap. -/
theorem comment_listed :
    (ofText "-- x" .default).lowering = .ok 0 ∧ (ofText "-- x" .default).gaps = [.commentContent] ∧
    ¬(ofText "-- x" .default).Agrees := by
  have lowered : (ofText "-- x" .default).lowering = .ok 0 := by decide +kernel
  have listed : (ofText "-- x" .default).gaps = [.commentContent] := by decide +kernel
  refine ⟨lowered, listed, fun agrees => ?_⟩
  have none := agrees.shown (by rw [lowered]; rfl)
  rw [listed] at none
  cases none

example : (ofText "x = global.y" .default).lowering = .error (.unsupported "global" ⟨1, 4, 1, 10⟩) ∧
    (ofText "x = global.y" .default).gaps = [] := by decide +kernel

end Coverage
end LuaClasses.Source
