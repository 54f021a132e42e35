/-! Steps that are done one after the other on a state, where each counts what it finds. -/

namespace LuaClasses

variable {α σ : Type}

/-- Do a step for each item in order, and add up what the steps count. -/
def runEach (step : α → σ → σ × Nat) : List α → σ → σ × Nat
  | [], state => (state, 0)
  | item :: rest, state =>
    let first := step item state
    let others := runEach step rest first.1
    (others.1, first.2 + others.2)

theorem runEach_append (step : α → σ → σ × Nat) (first second : List α) (state : σ) :
    runEach step (first ++ second) state =
      ((runEach step second (runEach step first state).1).1,
        (runEach step first state).2 + (runEach step second (runEach step first state).1).2) := by
  induction first generalizing state with
  | nil => simp [runEach]
  | cons item rest ih => simp only [List.cons_append, runEach, ih, Nat.add_assoc]

/-- A loop that carries its count along. -/
theorem foldl_eq_runEach (step : α → σ → σ × Nat) (items : List α) (state : σ) (count : Nat) :
    items.foldl (fun held item => ((step item held.1).1, held.2 + (step item held.1).2)) (state, count) =
      ((runEach step items state).1, count + (runEach step items state).2) := by
  induction items generalizing state count with
  | nil => rfl
  | cons item rest ih => simp only [List.foldl_cons, runEach, ih, Nat.add_assoc]

/-- What relates the states before and after each step relates those before and after all. -/
theorem runEach_relates (relation : σ → σ → Prop) (refl : ∀ state, relation state state)
    (trans : ∀ {first second third}, relation first second → relation second third → relation first third)
    {step : α → σ → σ × Nat} {items : List α}
    (each : ∀ item ∈ items, ∀ state, relation state (step item state).1) (state : σ) :
    relation state (runEach step items state).1 := by
  induction items generalizing state with
  | nil => exact refl state
  | cons item rest ih =>
    exact trans (each item List.mem_cons_self state)
      (ih (fun other member => each other (List.mem_cons_of_mem _ member)) _)

/-- What each step keeps, all keep. -/
theorem runEach_keeps (property : σ → Prop) {step : α → σ → σ × Nat} {items : List α}
    (each : ∀ item ∈ items, ∀ state, property state → property (step item state).1) {state : σ}
    (kept : property state) :
    property (runEach step items state).1 :=
  runEach_relates (fun before after => property before → property after) (fun _ held => held)
    (fun one two held => two (one held)) each state kept

/-- If a step that counts nothing changes nothing, so does a sequence of such steps. -/
theorem runEach_idle {step : α → σ → σ × Nat} {items : List α} {state : σ}
    (each : ∀ item, item ∈ items → (step item state).2 = 0 → (step item state).1 = state)
    (idle : (runEach step items state).2 = 0) : (runEach step items state).1 = state := by
  induction items with
  | nil => rfl
  | cons item rest ih =>
    obtain ⟨first, others⟩ := Nat.add_eq_zero_iff.1 idle
    have same := each item List.mem_cons_self first
    simp only [same] at others
    simp only [runEach, same]
    exact ih (fun other member => each other (List.mem_cons_of_mem _ member)) others

/-- If a step that counts nothing changes nothing and all steps together count nothing, then each of them
counts nothing in the state in which they begin. -/
theorem runEach_idle_each {step : α → σ → σ × Nat} {items : List α} {state : σ}
    (each : ∀ item, item ∈ items → (step item state).2 = 0 → (step item state).1 = state)
    (idle : (runEach step items state).2 = 0) : ∀ item ∈ items, (step item state).2 = 0 := by
  induction items with
  | nil =>
    intro item member
    cases member
  | cons head rest ih =>
    obtain ⟨first, others⟩ := Nat.add_eq_zero_iff.1 idle
    rw [each head List.mem_cons_self first] at others
    intro item member
    rcases List.mem_cons.1 member with rfl | later
    · exact first
    · exact ih (fun other listed => each other (List.mem_cons_of_mem _ listed)) others item later

/-- If each step adds what it counts to a measure, so do all together. -/
theorem runEach_adds (measure : σ → Nat) {step : α → σ → σ × Nat} {items : List α}
    (each : ∀ item ∈ items, ∀ state, measure state + (step item state).2 ≤ measure (step item state).1)
    (state : σ) :
    measure state + (runEach step items state).2 ≤ measure (runEach step items state).1 := by
  induction items generalizing state with
  | nil => exact Nat.le_refl _
  | cons item rest ih =>
    have first := each item List.mem_cons_self state
    have others := ih (fun other member => each other (List.mem_cons_of_mem _ member)) (step item state).1
    simp only [runEach]
    omega

end LuaClasses
