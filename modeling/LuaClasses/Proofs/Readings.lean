import LuaClasses.Source.Cursor

/-! What can be said of all that a reading gives, whether it fails or not. -/

namespace LuaClasses.Source
namespace Reading

variable {α β : Type} {P : α → Prop} {Q : β → Prop}

/-- Whether all that a reading can give has a property. -/
def Yields (P : α → Prop) (reading : Reading α) : Prop := ∀ value, reading.result = some value → P value

theorem Yields.fail : (fail : Reading α).Yields P := nofun

theorem Yields.pure {value : α} (holds : P value) : (pure value : Reading α).Yields P := by
  intro given same
  cases same
  exact holds

theorem Yields.bind {first : Reading α} {next : α → Reading β} (one : first.Yields P)
    (two : ∀ value, P value → (next value).Yields Q) : (first >>= next).Yields Q := by
  intro given read
  obtain ⟨result, attempts⟩ := first
  cases result with
  | none => cases read
  | some value => exact two value (one value rfl) given read

/-- What a reading yields can be clear whatever the first of its steps gives. -/
theorem Yields.after {first : Reading α} {next : α → Reading β} (two : ∀ value, (next value).Yields Q) :
    (first >>= next).Yields Q :=
  bind (P := fun _ => True) (fun _ _ => trivial) fun value _ => two value

theorem Yields.and {P Q : α → Prop} {reading : Reading α} (one : reading.Yields P)
    (other : reading.Yields Q) :
    reading.Yields fun value => P value ∧ Q value :=
  fun value read => ⟨one value read, other value read⟩

theorem Yields.imp {P Q : α → Prop} {reading : Reading α} (yields : reading.Yields P)
    (implies : ∀ value, P value → Q value) :
    reading.Yields Q :=
  fun value read => implies value (yields value read)

end Reading

end LuaClasses.Source
