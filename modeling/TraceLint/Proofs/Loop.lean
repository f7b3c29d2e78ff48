import TraceLint.Text.Basic

/-! Loops as steps from state to state. A loop stops where there is no next state; it may also go on
for ever, and then only its first rounds can be told. -/
namespace TraceLint.Loop

variable {α : Type} (next? : α → Option α)

/-- The state after so many rounds, if the loop has not stopped before. -/
def after? : Nat → α → Option α
  | 0, a => some a
  | n + 1, a => (next? a).bind (after? n)

/-- From one state the loop comes to another and stops there. -/
def Stops (a b : α) : Prop := ∃ n, after? next? n a = some b ∧ next? b = none

variable {next?}

theorem after?_add (m n : Nat) (a : α) :
    after? next? (m + n) a = (after? next? m a).bind (after? next? n) := by
  induction m generalizing a with
  | zero => rw [Nat.zero_add]; rfl
  | succ m ih =>
    rw [Nat.succ_add, after?, after?]
    cases next? a with
    | none => rfl
    | some b => exact ih b

theorem Stops.here {a : α} (last : next? a = none) : Stops next? a a := ⟨0, rfl, last⟩

theorem Stops.step {a b c : α} (later : Stops next? b c) (next : next? a = some b) :
    Stops next? a c := by
  obtain ⟨n, reached, last⟩ := later
  refine ⟨n + 1, ?_, last⟩
  rw [after?, next, Option.bind_some, reached]

theorem Stops.last {a b : α} (stops : Stops next? a b) : next? b = none := by
  obtain ⟨_, _, last⟩ := stops
  exact last

/-- A loop stops if its rounds keep an invariant and bring down a measure. What they leave as it is
has the same value where it stops. -/
theorem exists_stops {β : Type} {P : α → Prop} {value : α → β} (measure : α → Nat)
    (round : ∀ a b, P a → next? a = some b → P b ∧ measure b < measure a ∧ value b = value a)
    {a : α} (start : P a) : ∃ b, Stops next? a b ∧ value b = value a := by
  induction size : measure a using Nat.strongRecOn generalizing a with
  | ind n ih =>
    cases next : next? a with
    | none => exact ⟨a, .here next, rfl⟩
    | some b =>
      obtain ⟨kept, less, same⟩ := round a b start next
      obtain ⟨c, stops, value⟩ := ih (measure b) (size ▸ less) kept rfl
      exact ⟨c, stops.step next, value.trans same⟩

end TraceLint.Loop
