import TraceLint.Logging.Arguments
import TraceLint.Proofs.Hierarchy.Reachability

/-! Parameters in declaration order against slots from the top of the stack. Below the arguments the
stack may hold anything. -/
namespace TraceLint

namespace Stack

variable {base arguments : List Slot}

/-- The parameter at an index is passed as far below the top as there are parameters after it. -/
theorem slot?_argument {i : Nat} (inside : i < arguments.length) :
    slot? (some ⟨base ++ arguments⟩) (arguments.length - 1 - i : Nat) = arguments[i]? := by
  have below : arguments.length - 1 - i < arguments.length := by omega
  have back : arguments.length - 1 - (arguments.length - 1 - i) = i := by omega
  rw [slot?, if_neg (by omega), Int.toNat_natCast, Option.bind_some, Snapshot.slot?,
    List.reverse_append,
    List.getElem?_append_left (by simpa using below), List.getElem?_reverse below, back]

theorem slot?_top (passed : arguments ≠ []) :
    slot? (some ⟨base ++ arguments⟩) 0 = arguments.getLast? := by
  have inside : arguments.length - 1 < arguments.length := by
    have := List.length_pos_iff.mpr passed
    omega
  have top :
      slot? (some ⟨base ++ arguments⟩) (arguments.length - 1 - (arguments.length - 1) : Nat) = _ :=
    slot?_argument inside
  rw [Nat.sub_self] at top
  rw [List.getLast?_eq_getElem?]
  exact top

end Stack

namespace Logging

open Descriptor (FieldType MethodType)

/-- The first parameter of a type stands at an index. -/
def FirstParam (m : MethodType) (t : FieldType) (i : Nat) : Prop :=
  m.params[i]? = some t ∧ ∀ j < i, m.params[j]? ≠ some t

variable {m : MethodType} {base arguments : List Stack.Slot}

theorem FirstParam.inside {t : FieldType} {i : Nat} (first : FirstParam m t i) :
    i < m.params.length :=
  (List.getElem?_eq_some_iff.mp first.1).1

theorem FirstParam.depthOf? {t : FieldType} {i : Nat} (first : FirstParam m t i) :
    m.depthOf? t = some (m.params.length - 1 - i) := by
  obtain ⟨inside, here⟩ := List.getElem?_eq_some_iff.mp first.1
  have found : m.params.idxOf? t = some i := by
    refine List.idxOf?_eq_some_iff.mpr ⟨inside, here, fun j earlier same => first.2 j earlier ?_⟩
    exact List.getElem?_eq_some_iff.mpr ⟨Nat.lt_trans earlier inside, same⟩
  rw [MethodType.depthOf?, found]
  rfl

/-- The format is the argument of the first string parameter, however deep the stack is. -/
theorem FirstParam.formatSlot {i : Nat} (first : FirstParam m FieldType.string i)
    (arity : arguments.length = m.params.length) :
    formatSlot m (some ⟨base ++ arguments⟩) = arguments[i]? := by
  rw [Logging.formatSlot, first.depthOf?, Option.bind_some, ← arity]
  exact Stack.slot?_argument (arity ▸ first.inside)

theorem last_eq_iff {t : FieldType} (named : t ≠ []) : m.last = t ↔ m.params.getLast? = some t := by
  cases last : m.params.getLast? <;> simp [MethodType.last, last, named.symm]

theorem param_zero_eq_iff {t : FieldType} (named : t ≠ []) :
    m.param 0 = t ↔ m.params.head? = some t := by
  rw [List.head?_eq_getElem?]
  cases head : m.params[0]? <;> simp [MethodType.param, head, named.symm]

/-- All arguments but the format count, except a marker in front and a throwable on top. -/
theorem countArguments_fixed {top : Stack.Slot}
    (fixed : m.params.getLast? ≠ some FieldType.objectArray) (last : arguments.getLast? = some top)
    (hierarchy : Hierarchy) :
    countArguments m (some ⟨base ++ arguments⟩) hierarchy =
      .ok (m.params.length - 1 - (if m.params.head? = some FieldType.marker then 1 else 0) -
        if hierarchy.HoldsThrowable top then 1 else 0) := by
  have passed : arguments ≠ [] := by
    rintro rfl
    contradiction
  have array : m.last ≠ FieldType.objectArray := (last_eq_iff (by decide)).not.mpr fixed
  rw [countArguments, if_neg array, Stack.slot?_top passed, last]
  simp only [param_zero_eq_iff (show FieldType.marker ≠ [] by decide), Hierarchy.isThrowable_iff]

/-- An array that was built in place passes its elements, less a throwable at its end; of any other
array nothing is known. -/
theorem countArguments_array {top : Stack.Slot}
    (variadic : m.params.getLast? = some FieldType.objectArray)
    (last : arguments.getLast? = some top) (hierarchy : Hierarchy) :
    countArguments m (some ⟨base ++ arguments⟩) hierarchy =
      match top.array with
      | none => .error .array
      | some tag =>
        if tag.size < 0 then .error .array
        else .ok (tag.size.toInt - if tag.throwableAtLast then 1 else 0) := by
  have passed : arguments ≠ [] := by
    rintro rfl
    contradiction
  have array : m.last = FieldType.objectArray := (last_eq_iff (by decide)).mpr variadic
  rw [countArguments, if_pos array, Stack.slot?_top passed, last]
  rfl

end Logging

end TraceLint
