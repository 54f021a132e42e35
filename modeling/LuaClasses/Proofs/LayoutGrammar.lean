import LuaClasses.Proofs.LayoutReading

/-! The grammar reads a text with layout put in as it reads the text without. The readers of statements and
expressions go on side by side if those that they call do, so by induction on the steps all of them do. -/

namespace LuaClasses.Source
namespace Grammar

/-- A statement that begins with no word of the grammar. -/
def plainStatement (steps : Nat) (input : Input) : Reading (StatementForm × Position × Input) :=
  if isAt .semicolon input then do
    let (span, rest) ← symbol .semicolon .other input
    return (.empty, span.stop, rest)
  else if isAt .doubleColon input then do
    let (_, rest) ← symbol .doubleColon .other input
    let (label, _, rest) ← name .other rest
    let (span, rest) ← symbol .doubleColon .other rest
    return (.label label, span.stop, rest)
  else do
    let (first, rest) ← suffixed steps input
    expressionStatement steps first rest

end Grammar

namespace Insertion
namespace Alike

variable {put : Insertion} {spare steps steps' : Nat} {one two : Input}

theorem unaryOp? (alike : put.Alike spare steps steps' one two) :
    Grammar.unaryOp? two.head = Grammar.unaryOp? one.head := by
  rw [Grammar.unaryOp?, Grammar.unaryOp?, alike.kind, alike.keyword?]

theorem binaryOp? (alike : put.Alike spare steps steps' one two) :
    Grammar.binaryOp? two.head = Grammar.binaryOp? one.head := by
  rw [Grammar.binaryOp?, Grammar.binaryOp?, alike.kind, alike.keyword?]

theorem literal? (alike : put.Alike spare steps steps' one two) :
    Grammar.literal? two.head = Grammar.literal? one.head := by
  rw [Grammar.literal?, Grammar.literal?, alike.kind, alike.keyword?]

private theorem not_zero (alike : put.Alike (spare + 1) steps steps' one two) :
    ¬ (steps = 0 ∨ steps' = 0) := by
  obtain ⟨_, _, rfl, rfl⟩ := alike.exists_steps
  omega

end Alike

/-- Whether the readers of statements and expressions read the same in both texts, up to places, within a
number of steps each. -/
structure Lockstep (put : Insertion) (steps steps' : Nat) : Prop where
  block {spare : Nat} {one two : Input} (closers : Grammar.Closers)
    (alike : put.Alike (spare + 3) steps steps' one two) :
    put.Agrees (fun first second => statementsUnplaced first.1 = statementsUnplaced second.1 ∧
        put.Alike (spare + 3) steps steps' first.2 second.2)
      (Grammar.block steps closers one) (Grammar.block steps' closers two)
  returnStatement {spare : Nat} {one two : Input} (closers : List Keyword)
      (alike : put.Alike (spare + 1) steps steps' one two) :
    put.Agrees (fun first second => first.1.unplaced = second.1.unplaced ∧
        put.Alike (spare + 9) steps steps' first.2 second.2)
      (Grammar.returnStatement steps closers one) (Grammar.returnStatement steps' closers two)
  statement {spare : Nat} {one two : Input} (alike : put.Alike (spare + 2) steps steps' one two) :
    put.Agrees (fun first second => first.1.unplaced = second.1.unplaced ∧
        put.Alike (spare + 10) steps steps' first.2.2 second.2.2)
      (Grammar.statement steps one) (Grammar.statement steps' two)
  globalStatement {spare : Nat} {one two : Input} (span span' : Span)
      (alike : put.Alike (spare + 4) steps steps' one two) :
    put.Agrees (fun first second => first.1.unplaced = second.1.unplaced ∧
        put.Alike (spare + 4) steps steps' first.2.2 second.2.2)
      (Grammar.globalStatement steps span one) (Grammar.globalStatement steps' span' two)
  expressionStatement {spare : Nat} {one two : Input} {first first' : Term}
    (same : first.unplaced = first'.unplaced)
      (alike : put.Alike (spare + 3) steps steps' one two) :
    put.Agrees (fun first second => first.1.unplaced = second.1.unplaced ∧
        put.Alike (spare + 3) steps steps' first.2.2 second.2.2)
      (Grammar.expressionStatement steps first one) (Grammar.expressionStatement steps' first' two)
  namedFunction {spare : Nat} {one two : Input} (isLocal : Bool)
    (alike : put.Alike (spare + 1) steps steps' one two) :
    put.Agrees (fun first second => first.1.unplaced = second.1.unplaced ∧
        put.Alike (spare + 9) steps steps' first.2.2 second.2.2)
      (Grammar.namedFunction steps isLocal one) (Grammar.namedFunction steps' isLocal two)
  declarationStatement {spare : Nat} {one two : Input} (stop stop' : Position)
      (alike : put.Alike (spare + 2) steps steps' one two) :
    put.Agrees (fun first second => first.1.unplaced = second.1.unplaced ∧
        put.Alike (spare + 10) steps steps' first.2.2 second.2.2)
      (Grammar.declarationStatement steps stop one) (Grammar.declarationStatement steps' stop' two)
  assignment {spare : Nat} {one two : Input} {first first' : Term} (same : first.unplaced = first'.unplaced)
      (alike : put.Alike (spare + 2) steps steps' one two) :
    put.Agrees (fun first second => first.1.unplaced = second.1.unplaced ∧
        put.Alike (spare + 10) steps steps' first.2.2 second.2.2)
      (Grammar.assignment steps first one) (Grammar.assignment steps' first' two)
  targets {spare : Nat} {one two : Input} (alike : put.Alike (spare + 1) steps steps' one two) :
    put.Agrees (fun first second => termsUnplaced first.1 = termsUnplaced second.1 ∧
        put.Alike (spare + 1) steps steps' first.2 second.2)
      (Grammar.targets steps one) (Grammar.targets steps' two)
  blockTo {spare : Nat} {one two : Input} (last : Keyword) (place : Place)
      (alike : put.Alike (spare + 4) steps steps' one two) :
    put.Agrees (fun first second => statementsUnplaced first.1 = statementsUnplaced second.1 ∧
        put.Alike (spare + 12) steps steps' first.2.2 second.2.2)
      (Grammar.blockTo steps last place one) (Grammar.blockTo steps' last place two)
  clause {spare : Nat} {one two : Input} (word : Keyword)
    (alike : put.Alike (spare + 1) steps steps' one two) :
    put.Agrees (fun first second => first.1.unplaced = second.1.unplaced ∧
        put.Alike (spare + 9) steps steps' first.2 second.2)
      (Grammar.clause steps word one) (Grammar.clause steps' word two)
  clauses {spare : Nat} {one two : Input} (alike : put.Alike (spare + 2) steps steps' one two) :
    put.Agrees (fun first second =>
        (clausesUnplaced first.1.1 = clausesUnplaced second.1.1 ∧
          otherwiseUnplaced first.1.2 = otherwiseUnplaced second.1.2) ∧
        put.Alike (spare + 10) steps steps' first.2.2 second.2.2)
      (Grammar.clauses steps one) (Grammar.clauses steps' two)
  forStatement {spare : Nat} {one two : Input} (alike : put.Alike (spare + 1) steps steps' one two) :
    put.Agrees (fun first second => first.1.unplaced = second.1.unplaced ∧
        put.Alike (spare + 9) steps steps' first.2.2 second.2.2)
      (Grammar.forStatement steps one) (Grammar.forStatement steps' two)
  forStep {spare : Nat} {one two : Input} (alike : put.Alike (spare + 1) steps steps' one two) :
    put.Agrees (fun first second => stepUnplaced first.1 = stepUnplaced second.1 ∧
        put.Alike (spare + 1) steps steps' first.2 second.2)
      (Grammar.forStep steps one) (Grammar.forStep steps' two)
  callable {spare : Nat} {one two : Input} (alike : put.Alike (spare + 1) steps steps' one two) :
    put.Agrees (fun first second => first.1.unplaced = second.1.unplaced ∧
        put.Alike (spare + 9) steps steps' first.2.2 second.2.2)
      (Grammar.callable steps one) (Grammar.callable steps' two)
  expressions {spare : Nat} {one two : Input} (alike : put.Alike (spare + 4) steps steps' one two) :
    put.Agrees (fun first second => termsUnplaced first.1 = termsUnplaced second.1 ∧
        put.Alike (spare + 12) steps steps' first.2.2 second.2.2)
      (Grammar.expressions steps one) (Grammar.expressions steps' two)
  expression {spare : Nat} {one two : Input} (limit : Nat)
    (alike : put.Alike (spare + 3) steps steps' one two) :
    put.Agrees (fun first second => first.1.unplaced = second.1.unplaced ∧
        put.Alike (spare + 11) steps steps' first.2 second.2)
      (Grammar.expression steps limit one) (Grammar.expression steps' limit two)
  operators {spare : Nat} {one two : Input} {left left' : Term} (limit : Nat)
    (same : left.unplaced = left'.unplaced)
      (alike : put.Alike (spare + 1) steps steps' one two) :
    put.Agrees (fun first second => first.1.unplaced = second.1.unplaced ∧
        put.Alike (spare + 1) steps steps' first.2 second.2)
      (Grammar.operators steps limit left one) (Grammar.operators steps' limit left' two)
  operand {spare : Nat} {one two : Input} (alike : put.Alike (spare + 2) steps steps' one two) :
    put.Agrees (fun first second => first.1.unplaced = second.1.unplaced ∧
        put.Alike (spare + 10) steps steps' first.2 second.2)
      (Grammar.operand steps one) (Grammar.operand steps' two)
  suffixed {spare : Nat} {one two : Input} (alike : put.Alike (spare + 1) steps steps' one two) :
    put.Agrees (fun first second => first.1.unplaced = second.1.unplaced ∧
        put.Alike (spare + 9) steps steps' first.2 second.2)
      (Grammar.suffixed steps one) (Grammar.suffixed steps' two)
  suffixes {spare : Nat} {one two : Input} {base base' : Term} (same : base.unplaced = base'.unplaced)
      (alike : put.Alike (spare + 2) steps steps' one two) :
    put.Agrees (fun first second => first.1.unplaced = second.1.unplaced ∧
        put.Alike (spare + 2) steps steps' first.2 second.2)
      (Grammar.suffixes steps base one) (Grammar.suffixes steps' base' two)
  arguments {spare : Nat} {one two : Input} (alike : put.Alike (spare + 1) steps steps' one two) :
    put.Agrees (fun first second => termsUnplaced first.1 = termsUnplaced second.1 ∧
        put.Alike (spare + 9) steps steps' first.2.2 second.2.2)
      (Grammar.arguments steps one) (Grammar.arguments steps' two)
  fields {spare : Nat} {one two : Input} (place : Place)
    (alike : put.Alike (spare + 5) steps steps' one two) :
    put.Agrees (fun first second => fieldsUnplaced first.1 = fieldsUnplaced second.1 ∧
        put.Alike (spare + 13) steps steps' first.2.2 second.2.2)
      (Grammar.fields steps place one) (Grammar.fields steps' place two)
  field {spare : Nat} {one two : Input} (alike : put.Alike (spare + 4) steps steps' one two) :
    put.Agrees (fun first second => first.1.unplaced = second.1.unplaced ∧
        put.Alike (spare + 12) steps steps' first.2 second.2)
      (Grammar.field steps one) (Grammar.field steps' two)

namespace Lockstep

variable {put : Insertion} {spare steps steps' : Nat} {one two : Input}

/-- There is no reading without steps to spare. -/
theorem of_zero (zero : steps = 0 ∨ steps' = 0) : put.Lockstep steps steps' where
  block _ alike := (alike.not_zero zero).elim
  returnStatement _ alike := (alike.not_zero zero).elim
  statement alike := (alike.not_zero zero).elim
  globalStatement _ _ alike := (alike.not_zero zero).elim
  expressionStatement _ alike := (alike.not_zero zero).elim
  namedFunction _ alike := (alike.not_zero zero).elim
  declarationStatement _ _ alike := (alike.not_zero zero).elim
  assignment _ alike := (alike.not_zero zero).elim
  targets alike := (alike.not_zero zero).elim
  blockTo _ _ alike := (alike.not_zero zero).elim
  clause _ alike := (alike.not_zero zero).elim
  clauses alike := (alike.not_zero zero).elim
  forStatement alike := (alike.not_zero zero).elim
  forStep alike := (alike.not_zero zero).elim
  callable alike := (alike.not_zero zero).elim
  expressions alike := (alike.not_zero zero).elim
  expression _ alike := (alike.not_zero zero).elim
  operators _ _ alike := (alike.not_zero zero).elim
  operand alike := (alike.not_zero zero).elim
  suffixed alike := (alike.not_zero zero).elim
  suffixes _ alike := (alike.not_zero zero).elim
  arguments alike := (alike.not_zero zero).elim
  fields _ alike := (alike.not_zero zero).elim
  field alike := (alike.not_zero zero).elim

theorem block_succ (lock : put.Lockstep steps steps') (closers : Grammar.Closers)
    (alike : put.Alike (spare + 3) (steps + 1) (steps' + 1) one two) :
    put.Agrees (fun first second => statementsUnplaced first.1 = statementsUnplaced second.1 ∧
        put.Alike (spare + 3) (steps + 1) (steps' + 1) first.2 second.2)
      (Grammar.block (steps + 1) closers one) (Grammar.block (steps' + 1) closers two) := by
  rw [Grammar.block, Grammar.block, alike.endsBody, alike.keyword?]
  split
  · exact .pure ⟨rfl, alike⟩
  split
  · refine (lock.returnStatement _ alike.down).bind ?_
    rintro ⟨statement, rest⟩ ⟨statement', rest'⟩ ⟨same, alike⟩
    exact .pure ⟨by simp only [statementsUnplaced, same], alike.up (by omega)⟩
  · refine (lock.statement alike.down).bind ?_
    rintro ⟨form, stop, rest⟩ ⟨form', stop', rest'⟩ ⟨same, alike⟩
    refine (lock.block _ alike).bind ?_
    rintro ⟨statements, rest⟩ ⟨statements', rest'⟩ ⟨others, alike⟩
    exact .pure ⟨by simp only [statementsUnplaced, Statement.unplaced, same, others], alike.up (by omega)⟩

theorem returnStatement_succ (lock : put.Lockstep steps steps') (closers : List Keyword)
    (alike : put.Alike (spare + 1) (steps + 1) (steps' + 1) one two) :
    put.Agrees (fun first second => first.1.unplaced = second.1.unplaced ∧
        put.Alike (spare + 9) (steps + 1) (steps' + 1) first.2 second.2)
      (Grammar.returnStatement (steps + 1) closers one)
      (Grammar.returnStatement (steps' + 1) closers two) := by
  rw [Grammar.returnStatement, Grammar.returnStatement]
  refine (alike.down.keyword _ _).bind ?_
  rintro ⟨span, rest⟩ ⟨span', rest'⟩ alike
  refine Agrees.bind (R := fun first second => termsUnplaced first.1 = termsUnplaced second.1 ∧
    put.Alike (spare + 8) steps steps' first.2.2 second.2.2) ?_ ?_
  · rw [alike.endsBody, alike.isAt]
    split
    · exact .pure ⟨rfl, alike⟩
    · exact (lock.expressions alike).mono fun _ _ ⟨same, alike⟩ => ⟨same, alike.mono (by omega)⟩
  · rintro ⟨values, stop, rest⟩ ⟨values', stop', rest'⟩ ⟨same, alike⟩
    dsimp only
    rw [alike.isAt]
    split
    · refine (alike.symbol _ _).bind ?_
      rintro ⟨mark, rest⟩ ⟨mark', rest'⟩ alike
      exact .pure ⟨by simp only [Statement.unplaced, StatementForm.unplaced, same], alike.up (by omega)⟩
    · exact .pure ⟨by simp only [Statement.unplaced, StatementForm.unplaced, same], alike.up (by omega)⟩

/-- A statement that begins with no word of the grammar. -/
theorem plainStatement_succ (lock : put.Lockstep steps steps')
    (alike : put.Alike (spare + 2) (steps + 1) (steps' + 1) one two) :
    put.Agrees (fun first second => first.1.unplaced = second.1.unplaced ∧
        put.Alike (spare + 10) (steps + 1) (steps' + 1) first.2.2 second.2.2)
      (Grammar.plainStatement steps one) (Grammar.plainStatement steps' two) := by
  rw [Grammar.plainStatement, Grammar.plainStatement, alike.isAt, alike.isAt]
  split
  · refine (alike.down.symbol _ _).bind ?_
    rintro ⟨span, rest⟩ ⟨span', rest'⟩ alike
    exact .pure ⟨rfl, alike.up (by omega)⟩
  split
  · refine (alike.down.symbol _ _).bind ?_
    rintro ⟨_, rest⟩ ⟨_, rest'⟩ alike
    refine (alike.name _).bind ?_
    rintro ⟨label, _, rest⟩ ⟨_, _, rest'⟩ ⟨rfl, alike⟩
    refine (alike.symbol _ _).bind ?_
    rintro ⟨span, rest⟩ ⟨span', rest'⟩ alike
    exact .pure ⟨rfl, alike.up (by omega)⟩
  · refine (lock.suffixed alike.down).bind ?_
    rintro ⟨first, rest⟩ ⟨first', rest'⟩ ⟨same, alike⟩
    exact (lock.expressionStatement same alike).mono fun _ _ ⟨same, alike⟩ => ⟨same, alike.up (by omega)⟩

theorem statement_succ (lock : put.Lockstep steps steps')
    (alike : put.Alike (spare + 2) (steps + 1) (steps' + 1) one two) :
    put.Agrees (fun first second => first.1.unplaced = second.1.unplaced ∧
        put.Alike (spare + 10) (steps + 1) (steps' + 1) first.2.2 second.2.2)
      (Grammar.statement (steps + 1) one) (Grammar.statement (steps' + 1) two) := by
  have plain := lock.plainStatement_succ alike
  rw [Grammar.statement, Grammar.statement, alike.keyword?]
  generalize one.head.keyword? = word
  cases word with
  | none => exact plain
  | some word =>
    cases word with
    | break_ =>
      refine (alike.down.keyword _ _).bind ?_
      rintro ⟨span, rest⟩ ⟨span', rest'⟩ alike
      exact .pure ⟨rfl, alike.up (by omega)⟩
    | goto =>
      refine (alike.down.keyword _ _).bind ?_
      rintro ⟨_, rest⟩ ⟨_, rest'⟩ alike
      refine (alike.name _).bind ?_
      rintro ⟨label, span, rest⟩ ⟨_, span', rest'⟩ ⟨rfl, alike⟩
      exact .pure ⟨rfl, alike.up (by omega)⟩
    | do_ =>
      refine (alike.down.keyword _ _).bind ?_
      rintro ⟨_, rest⟩ ⟨_, rest'⟩ alike
      refine (lock.blockTo _ _ alike).bind ?_
      rintro ⟨body, stop, rest⟩ ⟨body', stop', rest'⟩ ⟨body_, alike⟩
      exact .pure ⟨by simp only [StatementForm.unplaced, body_], alike.up (by omega)⟩
    | while_ =>
      refine (alike.down.keyword _ _).bind ?_
      rintro ⟨_, rest⟩ ⟨_, rest'⟩ alike
      refine (lock.expression _ alike).bind ?_
      rintro ⟨condition, rest⟩ ⟨condition', rest'⟩ ⟨tested, alike⟩
      refine (alike.keyword _ _).bind ?_
      rintro ⟨_, rest⟩ ⟨_, rest'⟩ alike
      refine (lock.blockTo _ _ alike).bind ?_
      rintro ⟨body, stop, rest⟩ ⟨body', stop', rest'⟩ ⟨repeated, alike⟩
      exact .pure ⟨by simp only [StatementForm.unplaced, tested, repeated], alike.up (by omega)⟩
    | repeat_ =>
      refine (alike.down.keyword _ _).bind ?_
      rintro ⟨_, rest⟩ ⟨_, rest'⟩ alike
      refine (lock.blockTo _ _ alike).bind ?_
      rintro ⟨body, _, rest⟩ ⟨body', _, rest'⟩ ⟨repeated, alike⟩
      refine (lock.expression _ alike).bind ?_
      rintro ⟨condition, rest⟩ ⟨condition', rest'⟩ ⟨tested, alike⟩
      exact .pure ⟨by simp only [StatementForm.unplaced, tested, repeated], alike.up (by omega)⟩
    | if_ =>
      refine (lock.clause _ alike.down).bind ?_
      rintro ⟨first, rest⟩ ⟨first', rest'⟩ ⟨same, alike⟩
      refine (lock.clauses alike).bind ?_
      rintro ⟨⟨others, otherwise⟩, stop, rest⟩ ⟨⟨others', otherwise'⟩, stop', rest'⟩ ⟨⟨further, last⟩, alike⟩
      exact .pure ⟨by simp only [StatementForm.unplaced, same, further, last], alike.up (by omega)⟩
    | for_ =>
      refine (alike.down.keyword _ _).bind ?_
      rintro ⟨_, rest⟩ ⟨_, rest'⟩ alike
      exact (lock.forStatement alike).mono fun _ _ ⟨same, alike⟩ => ⟨same, alike.up (by omega)⟩
    | function =>
      refine (alike.down.keyword _ _).bind ?_
      rintro ⟨_, rest⟩ ⟨_, rest'⟩ alike
      refine alike.functionName.bind ?_
      rintro ⟨name, rest⟩ ⟨_, rest'⟩ ⟨rfl, alike⟩
      refine (lock.callable alike).bind ?_
      rintro ⟨body, stop, rest⟩ ⟨body', stop', rest'⟩ ⟨same, alike⟩
      exact .pure ⟨by simp only [StatementForm.unplaced, same], alike.up (by omega)⟩
    | local_ =>
      refine (alike.down.keyword _ _).bind ?_
      rintro ⟨span, rest⟩ ⟨span', rest'⟩ alike
      dsimp only
      rw [alike.keyword?]
      split
      · exact (lock.namedFunction _ alike).mono fun _ _ ⟨same, alike⟩ => ⟨same, alike.up (by omega)⟩
      · exact (lock.declarationStatement _ _ alike).mono fun _ _ ⟨same, alike⟩ => ⟨same, alike.up (by omega)⟩
    | global =>
      refine (alike.down.keyword _ _).bind ?_
      rintro ⟨span, rest⟩ ⟨span', rest'⟩ alike
      exact (lock.globalStatement _ _ alike).mono fun _ _ ⟨same, alike⟩ => ⟨same, alike.up (by omega)⟩
    | _ => exact plain

theorem globalStatement_succ (lock : put.Lockstep steps steps') (span span' : Span)
    (alike : put.Alike (spare + 4) (steps + 1) (steps' + 1) one two) :
    put.Agrees (fun first second => first.1.unplaced = second.1.unplaced ∧
        put.Alike (spare + 4) (steps + 1) (steps' + 1) first.2.2 second.2.2)
      (Grammar.globalStatement (steps + 1) span one) (Grammar.globalStatement (steps' + 1) span' two) := by
  have declaration : put.Agrees (fun first second => first.1.unplaced = second.1.unplaced ∧
        put.Alike (spare + 4) (steps + 1) (steps' + 1) first.2.2 second.2.2)
      (Grammar.declarationStatement steps span.stop one)
      (Grammar.declarationStatement steps' span'.stop two) :=
    (lock.declarationStatement _ _ alike.down).mono fun _ _ ⟨same, alike⟩ => ⟨same, alike.up (by omega)⟩
  have plain : put.Agrees (fun first second => first.1.unplaced = second.1.unplaced ∧
        put.Alike (spare + 4) (steps + 1) (steps' + 1) first.2.2 second.2.2)
      (Grammar.suffixes steps ⟨span, .global⟩ one >>= fun (first, rest) =>
        Grammar.expressionStatement steps first rest)
      (Grammar.suffixes steps' ⟨span', .global⟩ two >>= fun (first, rest) =>
        Grammar.expressionStatement steps' first rest) := by
    have same : Term.unplaced ⟨span, .global⟩ = Term.unplaced ⟨span', .global⟩ := rfl
    refine (lock.suffixes same alike.down).bind ?_
    rintro ⟨first, rest⟩ ⟨first', rest'⟩ ⟨same, alike⟩
    exact (lock.expressionStatement same alike).mono fun _ _ ⟨same, alike⟩ => ⟨same, alike.up (by omega)⟩
  rw [Grammar.globalStatement, Grammar.globalStatement, alike.kind]
  generalize one.head.kind = kind
  cases kind with
  | word text =>
    dsimp only
    rw [alike.keyword?]
    split
    · exact (lock.namedFunction _ alike.down).mono fun _ _ ⟨same, alike⟩ => ⟨same, alike.up (by omega)⟩
    · exact declaration
  | symbol kind =>
    cases kind with
    | star =>
      refine (alike.down.symbol _ _).bind ?_
      rintro ⟨star, rest⟩ ⟨star', rest'⟩ alike
      exact .pure ⟨rfl, alike.up (by omega)⟩
    | lt =>
      refine (alike.down.attrib _ _).bind ?_
      rintro ⟨_, _, rest⟩ ⟨_, _, rest'⟩ ⟨rfl, alike⟩
      dsimp only
      rw [alike.isAt]
      split
      · refine (alike.symbol _ _).bind ?_
        rintro ⟨star, rest⟩ ⟨star', rest'⟩ alike
        exact .pure ⟨rfl, alike.up (by omega)⟩
      · exact declaration
    | _ => exact plain
  | _ => exact plain

theorem expressionStatement_succ (lock : put.Lockstep steps steps') {first first' : Term}
    (same : first.unplaced = first'.unplaced)
    (alike : put.Alike (spare + 3) (steps + 1) (steps' + 1) one two) :
    put.Agrees (fun first second => first.1.unplaced = second.1.unplaced ∧
        put.Alike (spare + 3) (steps + 1) (steps' + 1) first.2.2 second.2.2)
      (Grammar.expressionStatement (steps + 1) first one)
      (Grammar.expressionStatement (steps' + 1) first' two) := by
  have isCall : first'.isCall = first.isCall := by rw [← Term.isCall_unplaced, ← same, Term.isCall_unplaced]
  rw [Grammar.expressionStatement, Grammar.expressionStatement, alike.isAt, alike.isAt, isCall]
  split
  · exact (lock.assignment same alike.down).mono fun _ _ ⟨same, alike⟩ => ⟨same, alike.up (by omega)⟩
  split
  · exact .pure ⟨by simp only [StatementForm.unplaced, same], alike⟩
  · exact .fail

theorem namedFunction_succ (lock : put.Lockstep steps steps') (isLocal : Bool)
    (alike : put.Alike (spare + 1) (steps + 1) (steps' + 1) one two) :
    put.Agrees (fun first second => first.1.unplaced = second.1.unplaced ∧
        put.Alike (spare + 9) (steps + 1) (steps' + 1) first.2.2 second.2.2)
      (Grammar.namedFunction (steps + 1) isLocal one) (Grammar.namedFunction (steps' + 1) isLocal two) := by
  rw [Grammar.namedFunction, Grammar.namedFunction]
  refine (alike.down.keyword _ _).bind ?_
  rintro ⟨_, rest⟩ ⟨_, rest'⟩ alike
  refine (alike.name _).bind ?_
  rintro ⟨text, _, rest⟩ ⟨_, _, rest'⟩ ⟨rfl, alike⟩
  refine (lock.callable alike).bind ?_
  rintro ⟨body, stop, rest⟩ ⟨body', stop', rest'⟩ ⟨same, alike⟩
  exact .pure ⟨by simp only [StatementForm.unplaced, same], alike.up (by omega)⟩

theorem declarationStatement_succ (lock : put.Lockstep steps steps') (stop stop' : Position)
    (alike : put.Alike (spare + 2) (steps + 1) (steps' + 1) one two) :
    put.Agrees (fun first second => first.1.unplaced = second.1.unplaced ∧
        put.Alike (spare + 10) (steps + 1) (steps' + 1) first.2.2 second.2.2)
      (Grammar.declarationStatement (steps + 1) stop one)
      (Grammar.declarationStatement (steps' + 1) stop' two) := by
  rw [Grammar.declarationStatement, Grammar.declarationStatement]
  refine (alike.down.attrib _ _).bind ?_
  rintro ⟨common, _, rest⟩ ⟨_, _, rest'⟩ ⟨rfl, alike⟩
  refine alike.declaredNames.bind ?_
  rintro ⟨⟨names, attributed⟩, stop, rest⟩ ⟨⟨names', _⟩, stop', rest'⟩ ⟨⟨named, rfl⟩, alike⟩
  dsimp only
  rw [alike.isAt]
  split
  · refine (alike.symbol _ _).bind ?_
    rintro ⟨_, rest⟩ ⟨_, rest'⟩ alike
    refine (lock.expressions alike).bind ?_
    rintro ⟨values, stop, rest⟩ ⟨values', stop', rest'⟩ ⟨same, alike⟩
    exact .pure ⟨by simp only [StatementForm.unplaced, named, same], alike.up (by omega)⟩
  · exact .pure ⟨by simp only [StatementForm.unplaced, named], alike.up (by omega)⟩

theorem assignment_succ (lock : put.Lockstep steps steps') {first first' : Term}
    (same : first.unplaced = first'.unplaced)
    (alike : put.Alike (spare + 2) (steps + 1) (steps' + 1) one two) :
    put.Agrees (fun first second => first.1.unplaced = second.1.unplaced ∧
        put.Alike (spare + 10) (steps + 1) (steps' + 1) first.2.2 second.2.2)
      (Grammar.assignment (steps + 1) first one) (Grammar.assignment (steps' + 1) first' two) := by
  have isTarget : first'.isTarget = first.isTarget := by
    rw [← Term.isTarget_unplaced, ← same, Term.isTarget_unplaced]
  rw [Grammar.assignment, Grammar.assignment, isTarget]
  split
  · refine (lock.targets alike.down).bind ?_
    rintro ⟨others, rest⟩ ⟨others', rest'⟩ ⟨further, alike⟩
    refine (alike.symbol _ _).bind ?_
    rintro ⟨_, rest⟩ ⟨_, rest'⟩ alike
    refine (lock.expressions alike).bind ?_
    rintro ⟨values, stop, rest⟩ ⟨values', stop', rest'⟩ ⟨assigned, alike⟩
    exact .pure ⟨by
      simp only [StatementForm.unplaced, termsUnplaced, same, further, assigned], alike.up (by omega)⟩
  · exact .fail

theorem targets_succ (lock : put.Lockstep steps steps')
    (alike : put.Alike (spare + 1) (steps + 1) (steps' + 1) one two) :
    put.Agrees (fun first second => termsUnplaced first.1 = termsUnplaced second.1 ∧
        put.Alike (spare + 1) (steps + 1) (steps' + 1) first.2 second.2)
      (Grammar.targets (steps + 1) one) (Grammar.targets (steps' + 1) two) := by
  rw [Grammar.targets, Grammar.targets, alike.isAt]
  split
  · refine (alike.down.symbol _ _).bind ?_
    rintro ⟨_, rest⟩ ⟨_, rest'⟩ alike
    refine (lock.suffixed alike).bind ?_
    rintro ⟨target, rest⟩ ⟨target', rest'⟩ ⟨same, alike⟩
    have isTarget : target'.isTarget = target.isTarget := by
      rw [← Term.isTarget_unplaced, ← show target.unplaced = target'.unplaced from same,
        Term.isTarget_unplaced]
    dsimp only
    rw [isTarget]
    split
    · refine (lock.targets alike).bind ?_
      rintro ⟨others, rest⟩ ⟨others', rest'⟩ ⟨further, alike⟩
      exact .pure ⟨by simp only [termsUnplaced, same, further], alike.up (by omega)⟩
    · exact .fail
  · exact .pure ⟨rfl, alike⟩

theorem blockTo_succ (lock : put.Lockstep steps steps') (last : Keyword) (place : Place)
    (alike : put.Alike (spare + 4) (steps + 1) (steps' + 1) one two) :
    put.Agrees (fun first second => statementsUnplaced first.1 = statementsUnplaced second.1 ∧
        put.Alike (spare + 12) (steps + 1) (steps' + 1) first.2.2 second.2.2)
      (Grammar.blockTo (steps + 1) last place one) (Grammar.blockTo (steps' + 1) last place two) := by
  rw [Grammar.blockTo, Grammar.blockTo]
  refine (lock.block _ alike.down).bind ?_
  rintro ⟨body, rest⟩ ⟨body', rest'⟩ ⟨same, alike⟩
  refine (alike.keyword _ _).bind ?_
  rintro ⟨span, rest⟩ ⟨span', rest'⟩ alike
  exact .pure ⟨same, alike.up (by omega)⟩

theorem clause_succ (lock : put.Lockstep steps steps') (word : Keyword)
    (alike : put.Alike (spare + 1) (steps + 1) (steps' + 1) one two) :
    put.Agrees (fun first second => first.1.unplaced = second.1.unplaced ∧
        put.Alike (spare + 9) (steps + 1) (steps' + 1) first.2 second.2)
      (Grammar.clause (steps + 1) word one) (Grammar.clause (steps' + 1) word two) := by
  rw [Grammar.clause, Grammar.clause]
  refine (alike.down.keyword _ _).bind ?_
  rintro ⟨_, rest⟩ ⟨_, rest'⟩ alike
  refine (lock.expression _ alike).bind ?_
  rintro ⟨condition, rest⟩ ⟨condition', rest'⟩ ⟨tested, alike⟩
  refine (alike.keyword _ _).bind ?_
  rintro ⟨_, rest⟩ ⟨_, rest'⟩ alike
  refine (lock.block _ alike).bind ?_
  rintro ⟨body, rest⟩ ⟨body', rest'⟩ ⟨same, alike⟩
  exact .pure ⟨by simp only [Clause.unplaced, tested, same], alike.up (by omega)⟩

theorem clauses_succ (lock : put.Lockstep steps steps')
    (alike : put.Alike (spare + 2) (steps + 1) (steps' + 1) one two) :
    put.Agrees (fun first second =>
        (clausesUnplaced first.1.1 = clausesUnplaced second.1.1 ∧
          otherwiseUnplaced first.1.2 = otherwiseUnplaced second.1.2) ∧
        put.Alike (spare + 10) (steps + 1) (steps' + 1) first.2.2 second.2.2)
      (Grammar.clauses (steps + 1) one) (Grammar.clauses (steps' + 1) two) := by
  have last : put.Agrees (fun first second =>
        (clausesUnplaced first.1.1 = clausesUnplaced second.1.1 ∧
          otherwiseUnplaced first.1.2 = otherwiseUnplaced second.1.2) ∧
        put.Alike (spare + 10) (steps + 1) (steps' + 1) first.2.2 second.2.2)
      (Grammar.keyword .end_ .other one >>= fun (span, rest) => pure (([], none), span.stop, rest))
      (Grammar.keyword .end_ .other two >>= fun (span, rest) => pure (([], none), span.stop, rest)) := by
    refine (alike.down.keyword _ _).bind ?_
    rintro ⟨span, rest⟩ ⟨span', rest'⟩ alike
    exact .pure ⟨⟨rfl, rfl⟩, alike.up (by omega)⟩
  rw [Grammar.clauses, Grammar.clauses, alike.keyword?]
  generalize one.head.keyword? = word
  cases word with
  | none => exact last
  | some word =>
    cases word with
    | elseif =>
      refine (lock.clause _ alike.down).bind ?_
      rintro ⟨first, rest⟩ ⟨first', rest'⟩ ⟨same, alike⟩
      refine (lock.clauses alike).bind ?_
      rintro ⟨⟨others, otherwise⟩, stop, rest⟩ ⟨⟨others', otherwise'⟩, stop', rest'⟩ ⟨⟨further, last⟩, alike⟩
      exact .pure ⟨⟨by simp only [clausesUnplaced, same, further], last⟩, alike.up (by omega)⟩
    | else_ =>
      refine (alike.down.keyword _ _).bind ?_
      rintro ⟨_, rest⟩ ⟨_, rest'⟩ alike
      refine (lock.blockTo _ _ alike).bind ?_
      rintro ⟨body, stop, rest⟩ ⟨body', stop', rest'⟩ ⟨same, alike⟩
      exact .pure ⟨⟨rfl, by simp only [otherwiseUnplaced, same]⟩, alike.up (by omega)⟩
    | _ => exact last

theorem forStatement_succ (lock : put.Lockstep steps steps')
    (alike : put.Alike (spare + 1) (steps + 1) (steps' + 1) one two) :
    put.Agrees (fun first second => first.1.unplaced = second.1.unplaced ∧
        put.Alike (spare + 9) (steps + 1) (steps' + 1) first.2.2 second.2.2)
      (Grammar.forStatement (steps + 1) one) (Grammar.forStatement (steps' + 1) two) := by
  rw [Grammar.forStatement, Grammar.forStatement]
  refine (alike.down.name _).bind ?_
  rintro ⟨var, _, rest⟩ ⟨_, _, rest'⟩ ⟨rfl, alike⟩
  dsimp only
  rw [alike.isAt]
  split
  · refine (alike.symbol _ _).bind ?_
    rintro ⟨_, rest⟩ ⟨_, rest'⟩ alike
    refine (lock.expression _ alike).bind ?_
    rintro ⟨start, rest⟩ ⟨start', rest'⟩ ⟨starts, alike⟩
    refine (alike.symbol _ _).bind ?_
    rintro ⟨_, rest⟩ ⟨_, rest'⟩ alike
    refine (lock.expression _ alike).bind ?_
    rintro ⟨limit, rest⟩ ⟨limit', rest'⟩ ⟨ends, alike⟩
    refine (lock.forStep alike).bind ?_
    rintro ⟨step, rest⟩ ⟨step', rest'⟩ ⟨stepped, alike⟩
    refine (alike.keyword _ _).bind ?_
    rintro ⟨_, rest⟩ ⟨_, rest'⟩ alike
    refine (lock.blockTo _ _ alike).bind ?_
    rintro ⟨body, stop, rest⟩ ⟨body', stop', rest'⟩ ⟨repeated, alike⟩
    exact .pure ⟨by simp only [StatementForm.unplaced, starts, ends, stepped, repeated], alike.up (by omega)⟩
  · refine alike.moreNames.bind ?_
    rintro ⟨others, rest⟩ ⟨_, rest'⟩ ⟨rfl, alike⟩
    refine (alike.keyword _ _).bind ?_
    rintro ⟨_, rest⟩ ⟨_, rest'⟩ alike
    refine (lock.expressions alike).bind ?_
    rintro ⟨exprs, _, rest⟩ ⟨exprs', _, rest'⟩ ⟨walked, alike⟩
    refine (alike.keyword _ _).bind ?_
    rintro ⟨_, rest⟩ ⟨_, rest'⟩ alike
    refine (lock.blockTo _ _ alike).bind ?_
    rintro ⟨body, stop, rest⟩ ⟨body', stop', rest'⟩ ⟨repeated, alike⟩
    exact .pure ⟨by simp only [StatementForm.unplaced, walked, repeated], alike.up (by omega)⟩

theorem forStep_succ (lock : put.Lockstep steps steps')
    (alike : put.Alike (spare + 1) (steps + 1) (steps' + 1) one two) :
    put.Agrees (fun first second => stepUnplaced first.1 = stepUnplaced second.1 ∧
        put.Alike (spare + 1) (steps + 1) (steps' + 1) first.2 second.2)
      (Grammar.forStep (steps + 1) one) (Grammar.forStep (steps' + 1) two) := by
  rw [Grammar.forStep, Grammar.forStep, alike.isAt]
  split
  · refine (alike.down.symbol _ _).bind ?_
    rintro ⟨_, rest⟩ ⟨_, rest'⟩ alike
    refine (lock.expression _ alike).bind ?_
    rintro ⟨step, rest⟩ ⟨step', rest'⟩ ⟨same, alike⟩
    exact .pure ⟨by simp only [stepUnplaced, same], alike.up (by omega)⟩
  · exact .pure ⟨rfl, alike⟩

theorem callable_succ (lock : put.Lockstep steps steps')
    (alike : put.Alike (spare + 1) (steps + 1) (steps' + 1) one two) :
    put.Agrees (fun first second => first.1.unplaced = second.1.unplaced ∧
        put.Alike (spare + 9) (steps + 1) (steps' + 1) first.2.2 second.2.2)
      (Grammar.callable (steps + 1) one) (Grammar.callable (steps' + 1) two) := by
  rw [Grammar.callable, Grammar.callable]
  refine alike.down.parameterList.bind ?_
  rintro ⟨⟨params, vararg⟩, rest⟩ ⟨_, rest'⟩ ⟨rfl, alike⟩
  refine (lock.blockTo _ _ alike).bind ?_
  rintro ⟨body, stop, rest⟩ ⟨body', stop', rest'⟩ ⟨same, alike⟩
  exact .pure ⟨by simp only [Callable.unplaced, same], alike.up (by omega)⟩

theorem expressions_succ (lock : put.Lockstep steps steps')
    (alike : put.Alike (spare + 4) (steps + 1) (steps' + 1) one two) :
    put.Agrees (fun first second => termsUnplaced first.1 = termsUnplaced second.1 ∧
        put.Alike (spare + 12) (steps + 1) (steps' + 1) first.2.2 second.2.2)
      (Grammar.expressions (steps + 1) one) (Grammar.expressions (steps' + 1) two) := by
  rw [Grammar.expressions, Grammar.expressions]
  refine (lock.expression _ alike.down).bind ?_
  rintro ⟨first, rest⟩ ⟨first', rest'⟩ ⟨same, alike⟩
  dsimp only
  rw [alike.isAt]
  split
  · refine (alike.symbol _ _).bind ?_
    rintro ⟨_, rest⟩ ⟨_, rest'⟩ alike
    refine (lock.expressions alike).bind ?_
    rintro ⟨others, stop, rest⟩ ⟨others', stop', rest'⟩ ⟨further, alike⟩
    exact .pure ⟨by simp only [termsUnplaced, same, further], alike.up (by omega)⟩
  · exact .pure ⟨by simp only [termsUnplaced, same], alike.up (by omega)⟩

theorem expression_succ (lock : put.Lockstep steps steps') (limit : Nat)
    (alike : put.Alike (spare + 3) (steps + 1) (steps' + 1) one two) :
    put.Agrees (fun first second => first.1.unplaced = second.1.unplaced ∧
        put.Alike (spare + 11) (steps + 1) (steps' + 1) first.2 second.2)
      (Grammar.expression (steps + 1) limit one) (Grammar.expression (steps' + 1) limit two) := by
  rw [Grammar.expression, Grammar.expression]
  refine (lock.operand alike.down).bind ?_
  rintro ⟨left, rest⟩ ⟨left', rest'⟩ ⟨same, alike⟩
  exact (lock.operators _ same alike).mono fun _ _ ⟨same, alike⟩ => ⟨same, alike.up (by omega)⟩

theorem operators_succ (lock : put.Lockstep steps steps') {left left' : Term} (limit : Nat)
    (same : left.unplaced = left'.unplaced) (alike : put.Alike (spare + 1) (steps + 1) (steps' + 1) one two) :
    put.Agrees (fun first second => first.1.unplaced = second.1.unplaced ∧
        put.Alike (spare + 1) (steps + 1) (steps' + 1) first.2 second.2)
      (Grammar.operators (steps + 1) limit left one) (Grammar.operators (steps' + 1) limit left' two) := by
  rw [Grammar.operators, Grammar.operators, alike.binaryOp?]
  cases found : Grammar.binaryOp? one.head with
  | none => exact .pure ⟨same, alike⟩
  | some op =>
    dsimp only
    split
    · refine (alike.down.next (Grammar.more_of_binaryOp? found) _).bind fun rest rest' alike => ?_
      refine (lock.expression _ alike).bind ?_
      rintro ⟨right, rest⟩ ⟨right', rest'⟩ ⟨second, alike⟩
      have joined : Term.unplaced ⟨⟨left.span.start, right.span.stop⟩, .binary op left right⟩ =
          Term.unplaced ⟨⟨left'.span.start, right'.span.stop⟩, .binary op left' right'⟩ := by
        simp only [Term.unplaced, TermForm.unplaced, same, second]
      exact (lock.operators _ joined alike).mono fun _ _ ⟨same, alike⟩ => ⟨same, alike.up (by omega)⟩
    · exact .pure ⟨same, alike⟩

theorem operand_succ (lock : put.Lockstep steps steps')
    (alike : put.Alike (spare + 2) (steps + 1) (steps' + 1) one two) :
    put.Agrees (fun first second => first.1.unplaced = second.1.unplaced ∧
        put.Alike (spare + 10) (steps + 1) (steps' + 1) first.2 second.2)
      (Grammar.operand (steps + 1) one) (Grammar.operand (steps' + 1) two) := by
  rw [Grammar.operand, Grammar.operand, alike.unaryOp?, alike.literal?, alike.keyword?, alike.isAt]
  cases unary : Grammar.unaryOp? one.head with
  | some op =>
    refine (alike.down.next (Grammar.more_of_unaryOp? unary) _).bind fun rest rest' alike => ?_
    refine (lock.expression _ alike).bind ?_
    rintro ⟨operand, rest⟩ ⟨operand', rest'⟩ ⟨same, alike⟩
    exact .pure ⟨by simp only [Term.unplaced, TermForm.unplaced, same], alike.up (by omega)⟩
  | none =>
    cases literal : Grammar.literal? one.head with
    | some form =>
      refine (alike.down.next (Grammar.more_of_literal? literal) _).bind fun rest rest' alike => ?_
      exact .pure ⟨by simp only [Term.unplaced], alike.up (by omega)⟩
    | none =>
      dsimp only
      split
      · refine (alike.down.keyword _ _).bind ?_
        rintro ⟨span, rest⟩ ⟨span', rest'⟩ alike
        refine (lock.callable alike).bind ?_
        rintro ⟨body, stop, rest⟩ ⟨body', stop', rest'⟩ ⟨same, alike⟩
        exact .pure ⟨by simp only [Term.unplaced, TermForm.unplaced, same], alike.up (by omega)⟩
      split
      · refine (alike.down.symbol _ _).bind ?_
        rintro ⟨span, rest⟩ ⟨span', rest'⟩ alike
        refine (lock.fields _ alike).bind ?_
        rintro ⟨entries, stop, rest⟩ ⟨entries', stop', rest'⟩ ⟨same, alike⟩
        exact .pure ⟨by simp only [Term.unplaced, TermForm.unplaced, same], alike.up (by omega)⟩
      · exact (lock.suffixed alike.down).mono fun _ _ ⟨same, alike⟩ => ⟨same, alike.up (by omega)⟩

theorem suffixed_succ (lock : put.Lockstep steps steps')
    (alike : put.Alike (spare + 1) (steps + 1) (steps' + 1) one two) :
    put.Agrees (fun first second => first.1.unplaced = second.1.unplaced ∧
        put.Alike (spare + 9) (steps + 1) (steps' + 1) first.2 second.2)
      (Grammar.suffixed (steps + 1) one) (Grammar.suffixed (steps' + 1) two) := by
  rw [Grammar.suffixed, Grammar.suffixed, alike.isAt]
  split
  · refine (alike.down.symbol _ _).bind ?_
    rintro ⟨span, rest⟩ ⟨span', rest'⟩ alike
    refine (lock.expression _ alike).bind ?_
    rintro ⟨inner, rest⟩ ⟨inner', rest'⟩ ⟨same, alike⟩
    refine (alike.symbol _ _).bind ?_
    rintro ⟨close, rest⟩ ⟨close', rest'⟩ alike
    have wrapped : Term.unplaced ⟨⟨span.start, close.stop⟩, .paren inner⟩ =
        Term.unplaced ⟨⟨span'.start, close'.stop⟩, .paren inner'⟩ := by
      simp only [Term.unplaced, TermForm.unplaced, same]
    exact (lock.suffixes wrapped alike).mono fun _ _ ⟨same, alike⟩ => ⟨same, alike.up (by omega)⟩
  · refine (alike.down.name _).bind ?_
    rintro ⟨text, span, rest⟩ ⟨_, span', rest'⟩ ⟨rfl, alike⟩
    have named : Term.unplaced ⟨span, .ofName text⟩ = Term.unplaced ⟨span', .ofName text⟩ := by
      simp only [Term.unplaced]
    exact (lock.suffixes named alike).mono fun _ _ ⟨same, alike⟩ => ⟨same, alike.up (by omega)⟩

theorem called (lock : put.Lockstep steps steps') {base base' : Term} (same : base.unplaced = base'.unplaced)
    (alike : put.Alike (spare + 2) (steps + 1) (steps' + 1) one two) :
    put.Agrees (fun first second => first.1.unplaced = second.1.unplaced ∧
        put.Alike (spare + 2) (steps + 1) (steps' + 1) first.2 second.2)
      (Grammar.arguments steps one >>= fun (args, stop, rest) =>
        Grammar.suffixes steps ⟨⟨base.span.start, stop⟩, .call base args⟩ rest)
      (Grammar.arguments steps' two >>= fun (args, stop, rest) =>
        Grammar.suffixes steps' ⟨⟨base'.span.start, stop⟩, .call base' args⟩ rest) := by
  refine (lock.arguments alike.down).bind ?_
  rintro ⟨args, stop, rest⟩ ⟨args', stop', rest'⟩ ⟨values, alike⟩
  have taken : Term.unplaced ⟨⟨base.span.start, stop⟩, .call base args⟩ =
      Term.unplaced ⟨⟨base'.span.start, stop'⟩, .call base' args'⟩ := by
    simp only [Term.unplaced, TermForm.unplaced, same, values]
  exact (lock.suffixes taken alike).mono fun _ _ ⟨same, alike⟩ => ⟨same, alike.up (by omega)⟩

theorem suffixes_succ (lock : put.Lockstep steps steps') {base base' : Term}
    (same : base.unplaced = base'.unplaced)
    (alike : put.Alike (spare + 2) (steps + 1) (steps' + 1) one two) :
    put.Agrees (fun first second => first.1.unplaced = second.1.unplaced ∧
        put.Alike (spare + 2) (steps + 1) (steps' + 1) first.2 second.2)
      (Grammar.suffixes (steps + 1) base one) (Grammar.suffixes (steps' + 1) base' two) := by
  have ended : put.Agrees (fun first second => first.1.unplaced = second.1.unplaced ∧
        put.Alike (spare + 2) (steps + 1) (steps' + 1) first.2 second.2)
          (pure (base, one)) (pure (base', two)) :=
    .pure ⟨same, alike⟩
  rw [Grammar.suffixes, Grammar.suffixes, alike.kind]
  generalize one.head.kind = kind
  cases kind with
  | string literal => exact lock.called same alike
  | symbol kind =>
    cases kind with
    | dot =>
      refine (alike.down.symbol _ _).bind ?_
      rintro ⟨_, rest⟩ ⟨_, rest'⟩ alike
      refine (alike.name _).bind ?_
      rintro ⟨text, span, rest⟩ ⟨_, span', rest'⟩ ⟨rfl, alike⟩
      have taken : Term.unplaced ⟨⟨base.span.start, span.stop⟩, .member base text⟩ =
          Term.unplaced ⟨⟨base'.span.start, span'.stop⟩, .member base' text⟩ := by
        simp only [Term.unplaced, TermForm.unplaced, same]
      exact (lock.suffixes taken alike).mono fun _ _ ⟨same, alike⟩ => ⟨same, alike.up (by omega)⟩
    | bracketOpen =>
      refine (alike.down.symbol _ _).bind ?_
      rintro ⟨_, rest⟩ ⟨_, rest'⟩ alike
      refine (lock.expression _ alike).bind ?_
      rintro ⟨key, rest⟩ ⟨key', rest'⟩ ⟨keyed, alike⟩
      refine (alike.symbol _ _).bind ?_
      rintro ⟨close, rest⟩ ⟨close', rest'⟩ alike
      have taken : Term.unplaced ⟨⟨base.span.start, close.stop⟩, .index base key⟩ =
          Term.unplaced ⟨⟨base'.span.start, close'.stop⟩, .index base' key'⟩ := by
        simp only [Term.unplaced, TermForm.unplaced, same, keyed]
      exact (lock.suffixes taken alike).mono fun _ _ ⟨same, alike⟩ => ⟨same, alike.up (by omega)⟩
    | colon =>
      refine (alike.down.symbol _ _).bind ?_
      rintro ⟨_, rest⟩ ⟨_, rest'⟩ alike
      refine (alike.name _).bind ?_
      rintro ⟨method, _, rest⟩ ⟨_, _, rest'⟩ ⟨rfl, alike⟩
      refine (lock.arguments alike).bind ?_
      rintro ⟨args, stop, rest⟩ ⟨args', stop', rest'⟩ ⟨values, alike⟩
      have taken : Term.unplaced ⟨⟨base.span.start, stop⟩, .methodCall base method args⟩ =
          Term.unplaced ⟨⟨base'.span.start, stop'⟩, .methodCall base' method args'⟩ := by
        simp only [Term.unplaced, TermForm.unplaced, same, values]
      exact (lock.suffixes taken alike).mono fun _ _ ⟨same, alike⟩ => ⟨same, alike.up (by omega)⟩
    | parenOpen => exact lock.called same alike
    | braceOpen => exact lock.called same alike
    | _ => exact ended
  | _ => exact ended

theorem arguments_succ (lock : put.Lockstep steps steps')
    (alike : put.Alike (spare + 1) (steps + 1) (steps' + 1) one two) :
    put.Agrees (fun first second => termsUnplaced first.1 = termsUnplaced second.1 ∧
        put.Alike (spare + 9) (steps + 1) (steps' + 1) first.2.2 second.2.2)
      (Grammar.arguments (steps + 1) one) (Grammar.arguments (steps' + 1) two) := by
  rw [Grammar.arguments, Grammar.arguments, alike.kind]
  cases kind : one.head.kind with
  | string literal =>
    refine (alike.down.next (by simp [kind]) _).bind fun rest rest' alike => ?_
    exact .pure ⟨by simp only [termsUnplaced, Term.unplaced], alike.up (by omega)⟩
  | symbol mark =>
    cases mark with
    | parenOpen =>
      refine (alike.down.symbol _ _).bind ?_
      rintro ⟨_, rest⟩ ⟨_, rest'⟩ alike
      dsimp only
      rw [alike.isAt]
      split
      · refine (alike.symbol _ _).bind ?_
        rintro ⟨close, rest⟩ ⟨close', rest'⟩ alike
        exact .pure ⟨rfl, alike.up (by omega)⟩
      · refine (lock.expressions alike).bind ?_
        rintro ⟨args, _, rest⟩ ⟨args', _, rest'⟩ ⟨same, alike⟩
        refine (alike.symbol _ _).bind ?_
        rintro ⟨close, rest⟩ ⟨close', rest'⟩ alike
        exact .pure ⟨same, alike.up (by omega)⟩
    | braceOpen =>
      refine (alike.down.symbol _ _).bind ?_
      rintro ⟨span, rest⟩ ⟨span', rest'⟩ alike
      refine (lock.fields _ alike).bind ?_
      rintro ⟨entries, stop, rest⟩ ⟨entries', stop', rest'⟩ ⟨same, alike⟩
      exact .pure ⟨by simp only [termsUnplaced, Term.unplaced, TermForm.unplaced, same], alike.up (by omega)⟩
    | _ => exact .fail
  | _ => exact .fail

theorem fields_succ (lock : put.Lockstep steps steps') (place : Place)
    (alike : put.Alike (spare + 5) (steps + 1) (steps' + 1) one two) :
    put.Agrees (fun first second => fieldsUnplaced first.1 = fieldsUnplaced second.1 ∧
        put.Alike (spare + 13) (steps + 1) (steps' + 1) first.2.2 second.2.2)
      (Grammar.fields (steps + 1) place one) (Grammar.fields (steps' + 1) place two) := by
  rw [Grammar.fields, Grammar.fields, alike.isAt]
  split
  · refine (alike.down.symbol _ _).bind ?_
    rintro ⟨span, rest⟩ ⟨span', rest'⟩ alike
    exact .pure ⟨rfl, alike.up (by omega)⟩
  · refine (lock.field alike.down).bind ?_
    rintro ⟨first, rest⟩ ⟨first', rest'⟩ ⟨same, alike⟩
    dsimp only
    rw [alike.isAt, alike.isAt, alike.isAt]
    split
    · refine (alike.symbol _ _).bind ?_
      rintro ⟨span, rest⟩ ⟨span', rest'⟩ alike
      exact .pure ⟨by simp only [fieldsUnplaced, same], alike.up (by omega)⟩
    split
    next separated =>
      have more : rest.head.kind ≠ .endOfText := by
        rcases Bool.or_eq_true_iff.1 separated with comma | semicolon
        · exact Grammar.more_of_isAt comma
        · exact Grammar.more_of_isAt semicolon
      refine (alike.next more _).bind fun rest rest' alike => ?_
      refine (lock.fields _ alike).bind ?_
      rintro ⟨others, stop, rest⟩ ⟨others', stop', rest'⟩ ⟨further, alike⟩
      exact .pure ⟨by simp only [fieldsUnplaced, same, further], alike.up (by omega)⟩
    next => exact .fail

theorem field_succ (lock : put.Lockstep steps steps')
    (alike : put.Alike (spare + 4) (steps + 1) (steps' + 1) one two) :
    put.Agrees (fun first second => first.1.unplaced = second.1.unplaced ∧
        put.Alike (spare + 12) (steps + 1) (steps' + 1) first.2 second.2)
      (Grammar.field (steps + 1) one) (Grammar.field (steps' + 1) two) := by
  have positional : put.Agrees (fun first second => Field.unplaced first.1 = Field.unplaced second.1 ∧
        put.Alike (spare + 12) (steps + 1) (steps' + 1) first.2 second.2)
      (Grammar.expression steps 0 one >>= fun (value, rest) => pure (Field.positional value, rest))
      (Grammar.expression steps' 0 two >>= fun (value, rest) => pure (Field.positional value, rest)) := by
    refine (lock.expression _ alike.down).bind ?_
    rintro ⟨value, rest⟩ ⟨value', rest'⟩ ⟨same, alike⟩
    exact .pure ⟨by simp only [Field.unplaced, same], alike.up (by omega)⟩
  rw [Grammar.field, Grammar.field, alike.isAt, alike.keyword?, alike.kind]
  split
  · refine (alike.down.symbol _ _).bind ?_
    rintro ⟨_, rest⟩ ⟨_, rest'⟩ alike
    refine (lock.expression _ alike).bind ?_
    rintro ⟨key, rest⟩ ⟨key', rest'⟩ ⟨keyed, alike⟩
    refine (alike.symbol _ _).bind ?_
    rintro ⟨_, rest⟩ ⟨_, rest'⟩ alike
    refine (alike.symbol _ _).bind ?_
    rintro ⟨_, rest⟩ ⟨_, rest'⟩ alike
    refine (lock.expression _ alike).bind ?_
    rintro ⟨value, rest⟩ ⟨value', rest'⟩ ⟨same, alike⟩
    exact .pure ⟨by simp only [Field.unplaced, keyed, same], alike.up (by omega)⟩
  cases kind : one.head.kind with
  | word text =>
    cases Grammar.beginsExpression one.head.keyword? with
    | true => exact positional
    | false =>
      refine (alike.down.next (by simp [kind]) _).bind fun rest rest' alike => ?_
      rw [alike.isAt]
      split
      · refine (alike.symbol _ _).bind ?_
        rintro ⟨_, rest⟩ ⟨_, rest'⟩ alike
        refine (lock.expression _ alike).bind ?_
        rintro ⟨value, rest⟩ ⟨value', rest'⟩ ⟨same, alike⟩
        dsimp only
        split
        · exact .pure ⟨by simp only [Field.unplaced, Term.unplaced, same], alike.up (by omega)⟩
        · exact .pure ⟨by simp only [Field.unplaced, same], alike.up (by omega)⟩
      · have named : Term.unplaced ⟨one.head.span, .ofName text⟩ = Term.unplaced
          ⟨two.head.span, .ofName text⟩ := by
          simp only [Term.unplaced]
        refine (lock.suffixes named alike).bind ?_
        rintro ⟨left, rest⟩ ⟨left', rest'⟩ ⟨same, alike⟩
        refine (lock.operators _ same alike).bind ?_
        rintro ⟨value, rest⟩ ⟨value', rest'⟩ ⟨same, alike⟩
        exact .pure ⟨by simp only [Field.unplaced, same], alike.up (by omega)⟩
  | _ => exact positional

theorem succ (lock : put.Lockstep steps steps') : put.Lockstep (steps + 1) (steps' + 1) where
  block := lock.block_succ
  returnStatement := lock.returnStatement_succ
  statement := lock.statement_succ
  globalStatement := lock.globalStatement_succ
  expressionStatement := lock.expressionStatement_succ
  namedFunction := lock.namedFunction_succ
  declarationStatement := lock.declarationStatement_succ
  assignment := lock.assignment_succ
  targets := lock.targets_succ
  blockTo := lock.blockTo_succ
  clause := lock.clause_succ
  clauses := lock.clauses_succ
  forStatement := lock.forStatement_succ
  forStep := lock.forStep_succ
  callable := lock.callable_succ
  expressions := lock.expressions_succ
  expression := lock.expression_succ
  operators := lock.operators_succ
  operand := lock.operand_succ
  suffixed := lock.suffixed_succ
  suffixes := lock.suffixes_succ
  arguments := lock.arguments_succ
  fields := lock.fields_succ
  field := lock.field_succ

end Lockstep

theorem lockstep (put : Insertion) : (steps steps' : Nat) → put.Lockstep steps steps'
  | 0, _ => .of_zero (.inl rfl)
  | _, 0 => .of_zero (.inr rfl)
  | steps + 1, steps' + 1 => (lockstep put steps steps').succ

end Insertion
end LuaClasses.Source
