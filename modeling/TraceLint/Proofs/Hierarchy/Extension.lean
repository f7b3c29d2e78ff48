import TraceLint.Proofs.Hierarchy.Program
import TraceLint.Proofs.Logging.Arguments

/-! What one more record does to a hierarchy that does not know its class yet. Every answer that was
yes stays yes, whatever cycles the new link closes; some that were no become yes, so an argument may
turn out to be a throwable. -/
namespace TraceLint

namespace Hierarchy

variable {h : Hierarchy} {name above cls ancestor : Text}

theorem super?_add_of_recorded (fresh : h.super? name = none) {super : Text}
    (link : h.super? cls = some super) :
    (h.add name above).super? cls = some super := by
  rw [super?_add, if_neg]
  · exact link
  · rintro ⟨rfl, _⟩
    rw [fresh] at link
    contradiction

/-- What is reached after a record of a new class was reached before, or is reached over the new
link, which need not be taken twice. -/
theorem extends_add_iff (fresh : h.super? name = none) :
    (h.add name above).Extends cls ancestor ↔ h.Extends cls ancestor ∨
      name ≠ [] ∧ above ≠ [] ∧ h.Extends cls name ∧ h.Extends above ancestor := by
  have kept {x y : Text} (reached : h.Extends x y) : (h.add name above).Extends x y :=
    Relation.ReflTransGen.mono (fun _ _ link => super?_add_of_recorded fresh link) _ _ reached
  constructor
  · intro reached
    induction reached using Relation.ReflTransGen.head_induction_on with
    | refl => exact .inl .refl
    | @head cls super link _ ih =>
      rw [super?_add] at link
      split at link
      · rename_i entry
        obtain ⟨rfl, named, extended⟩ := entry
        obtain rfl : above = super := Option.some.inj link
        -- Where the rest comes back to the new link, only the last time that it is taken counts.
        have reached : h.Extends above ancestor := ih.elim id fun again => again.2.2.2
        exact .inr ⟨named, extended, .refl, reached⟩
      · rcases ih with reached | ⟨named, extended, front, back⟩
        · exact .inl (.head link reached)
        · exact .inr ⟨named, extended, .head link front, back⟩
  · rintro (reached | ⟨named, extended, front, back⟩)
    · exact kept reached
    · have link : (h.add name above).super? name = some above := by
        rw [super?_add, if_pos ⟨rfl, named, extended⟩]
      exact (kept front).trans (.head link (kept back))

theorem isSubclass_add_iff (fresh : h.super? name = none) :
    (h.add name above).isSubclass cls ancestor = true ↔ h.isSubclass cls ancestor = true ∨
      name ≠ [] ∧ h.isSubclass cls name = true ∧ h.isSubclass above ancestor = true := by
  simp only [isSubclass_iff, extends_add_iff fresh]
  constructor
  · rintro ⟨start, reached | ⟨named, extended, front, back⟩⟩
    · exact .inl ⟨start, reached⟩
    · exact .inr ⟨named, ⟨start, front⟩, extended, back⟩
  · rintro (⟨start, reached⟩ | ⟨named, ⟨start, front⟩, extended, back⟩)
    · exact ⟨start, .inl reached⟩
    · exact ⟨start, .inr ⟨named, extended, front, back⟩⟩

theorem isThrowable_add (fresh : h.super? name = none) {slot : Option Stack.Slot}
    (known : h.isThrowable slot = true) : (h.add name above).isThrowable slot = true := by
  cases slot with
  | none => contradiction
  | some slot => exact (isSubclass_add_iff fresh).mpr (.inl known)

end Hierarchy

namespace Logging

open Descriptor (FieldType MethodType)

/-- A call passes its arguments one by one, and only one of two hierarchies sees that the last is a
throwable. -/
def Gains (h h' : Hierarchy) (m : MethodType) (stack : Option Stack.Snapshot) : Prop :=
  m.params.getLast? ≠ some FieldType.objectArray ∧ h.isThrowable (Stack.slot? stack 0) = false ∧
    h'.isThrowable (Stack.slot? stack 0) = true

theorem countArguments_of_kept {h h' : Hierarchy}
    (kept : ∀ slot, h.isThrowable slot = true → h'.isThrowable slot = true)
    (m : MethodType) (stack : Option Stack.Snapshot) :
    ¬ Gains h h' m stack ∧ countArguments m stack h' = countArguments m stack h ∨
      Gains h h' m stack ∧
      ∃ count, countArguments m stack h = .ok count ∧
        countArguments m stack h' = .ok (count - 1) := by
  by_cases array : m.last = FieldType.objectArray
  · have variadic : m.params.getLast? = some FieldType.objectArray :=
      (last_eq_iff (by decide)).mp array
    left
    rw [countArguments, countArguments, if_pos array, if_pos array]
    exact ⟨fun gains => gains.1 variadic, rfl⟩
  · have fixed : m.params.getLast? ≠ some FieldType.objectArray :=
      (last_eq_iff (by decide)).not.mp array
    rw [countArguments, countArguments, if_neg array, if_neg array, Gains]
    cases before : h.isThrowable (Stack.slot? stack 0) with
    | true => simp [kept _ before]
    | false =>
      cases h'.isThrowable (Stack.slot? stack 0) with
      | false => simp
      | true => exact .inr ⟨⟨fixed, rfl, rfl⟩, _, rfl, by simp⟩

end Logging

namespace Hierarchy

open Descriptor (FieldType MethodType)
open Logging (countArguments Gains)

/-- A record of a class that is not known yet takes back no answer: subclasses and throwables stay
what they are. The count of arguments stays as well, or is one less where the argument on top is now
seen to be a throwable. -/
theorem add_keeps_answers {h : Hierarchy} {name : Text} (fresh : h.super? name = none)
    (above : Text) :
    (∀ cls ancestor, h.isSubclass cls ancestor = true →
      (h.add name above).isSubclass cls ancestor = true) ∧
    (∀ slot, h.isThrowable slot = true → (h.add name above).isThrowable slot = true) ∧
    ∀ (m : MethodType) (stack : Option Stack.Snapshot),
      ¬ Gains h (h.add name above) m stack ∧
          countArguments m stack (h.add name above) = countArguments m stack h ∨
        Gains h (h.add name above) m stack ∧ ∃ count, countArguments m stack h = .ok count ∧
          countArguments m stack (h.add name above) = .ok (count - 1) := by
  have kept (slot : Option Stack.Slot) :
      h.isThrowable slot = true → (h.add name above).isThrowable slot = true :=
    isThrowable_add fresh
  refine ⟨fun cls ancestor known => ?_, kept, Logging.countArguments_of_kept kept⟩
  exact (isSubclass_add_iff fresh).mpr (.inl known)

/-- An error class is recorded, the class that it extends is not. -/
def dangling : Hierarchy := initial.add (text "pkg/NetworkError") (text "pkg/AppError")

def errorLast : Option Stack.Snapshot :=
  some ⟨[{ signature := FieldType.string }, { signature := FieldType.object },
    { signature := text "Lpkg/NetworkError;" }]⟩

/-- The new record completes the chain of another class, and the error on top no longer counts. -/
theorem add_completes_chain :
    dangling.super? (text "pkg/AppError") = none ∧
    countArguments ⟨[FieldType.string, FieldType.object, FieldType.object], FieldType.void⟩
      errorLast dangling = .ok 2 ∧
    countArguments ⟨[FieldType.string, FieldType.object, FieldType.object], FieldType.void⟩
      errorLast (dangling.add (text "pkg/AppError") (text "java/lang/Error")) = .ok 1 := by
  have fresh : dangling.super? (text "pkg/AppError") = none := by decide
  have counted :
      countArguments ⟨[FieldType.string, FieldType.object, FieldType.object], FieldType.void⟩
        errorLast dangling = .ok 2 := by
    decide
  obtain ⟨_, _, counts⟩ := add_keeps_answers fresh (text "java/lang/Error")
  rcases counts ⟨[FieldType.string, FieldType.object, FieldType.object], FieldType.void⟩
      errorLast with
    ⟨none, _⟩ | ⟨_, count, before, after⟩
  · exact absurd ⟨by decide, by decide, by decide⟩ none
  · obtain rfl : (2 : Int) = count := Except.ok.inj (counted.symm.trans before)
    exact ⟨fresh, counted, after⟩

end Hierarchy

end TraceLint
