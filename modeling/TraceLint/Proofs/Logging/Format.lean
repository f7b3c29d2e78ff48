import TraceLint.Proofs.Logging.Locality

/-! The slot of the format. Parameters are counted from the first, slots from the top, and the
entries of a snapshot from the bottom; read by its place from the bottom, the slot is the one that
the declaration order asks for, and no place outside the stack is read. -/
namespace TraceLint

namespace Stack

/-- A place that no entry of a stack has. -/
structure OutOfRange where
  place : Int

/-- Reads the entry at a place counted from the bottom. -/
def readEntry (s : Option Snapshot) (place : Int) : Except OutOfRange Slot :=
  if place < 0 then .error ⟨place⟩
  else match (slots s)[place.toNat]? with
    | some slot => .ok slot
    | none => .error ⟨place⟩

/-- Reads the slot `i` entries below the top by its place, if the stack is that deep. -/
def readBelowTop (s : Option Snapshot) (i : Int) : Except OutOfRange (Option Slot) :=
  if i < 0 ∨ depth s ≤ i then .ok none else (readEntry s (depth s - 1 - i)).map some

variable {s : Option Snapshot} {i place : Nat}

theorem readEntry_of_entry {slot : Slot} (entry : (slots s)[place]? = some slot) :
    readEntry s place = .ok slot := by
  rw [readEntry, if_neg (by omega), Int.toNat_natCast, entry]

theorem slot?_of_deep (deep : i < depth s) : slot? s i = (slots s)[depth s - 1 - i]? := by
  rw [slot?_natCast, List.getElem?_reverse deep]
  rfl

theorem slot?_of_shallow (shallow : depth s ≤ i) : slot? s i = none := by
  rw [slot?_natCast, List.getElem?_eq_none_iff, List.length_reverse]
  exact shallow

theorem exists_slot (deep : i < depth s) :
    ∃ slot, (slots s)[depth s - 1 - i]? = some slot ∧ slot? s i = some slot := by
  have inside : depth s - 1 - i < (slots s).length := by
    change depth s - 1 - i < depth s
    omega
  have entry := List.getElem?_eq_getElem inside
  exact ⟨_, entry, (slot?_of_deep deep).trans entry⟩

/-- What is read below the top is always the slot there. -/
theorem readBelowTop_eq_slot? (s : Option Snapshot) (i : Nat) :
    readBelowTop s i = .ok (slot? s i) := by
  rw [readBelowTop]
  split
  · rename_i outside
    rw [slot?_of_shallow (by omega)]
  · rename_i inside
    have deep : i < depth s := by omega
    have place : (depth s : Int) - 1 - i = (depth s - 1 - i : Nat) := by omega
    obtain ⟨slot, entry, same⟩ := exists_slot deep
    rw [place, readEntry_of_entry entry, same]
    rfl

end Stack

namespace Logging

open Descriptor (FieldType MethodType)

variable {m : MethodType} {s : Option Stack.Snapshot} {i : Nat}

/-- Reads the slot of the format entry by entry. -/
def readFormat (m : MethodType) (s : Option Stack.Snapshot) :
    Except Stack.OutOfRange (Option Stack.Slot) :=
  match m.depthOf? FieldType.string with
  | none => .ok none
  | some i => Stack.readBelowTop s i

theorem readFormat_eq_formatSlot (m : MethodType) (s : Option Stack.Snapshot) :
    readFormat m s = .ok (formatSlot m s) := by
  rw [readFormat, formatSlot]
  cases m.depthOf? FieldType.string with
  | none => rfl
  | some i => exact Stack.readBelowTop_eq_slot? s i

theorem FirstParam.formatSlot_eq_slot? (first : FirstParam m FieldType.string i)
    (s : Option Stack.Snapshot) :
    Logging.formatSlot m s = Stack.slot? s (m.params.length - (i + 1) : Nat) := by
  have below : m.params.length - 1 - i = m.params.length - (i + 1) := by omega
  rw [Logging.formatSlot, first.depthOf?, Option.bind_some, below]

/-- Without a string parameter there is no format. Otherwise it is the argument of the first one,
whatever lies below the arguments; on a stack too shallow for all of them it is the slot with as
many above it as parameters follow, if there is one. -/
theorem formatSlot_in_declaration_order (m : MethodType) (s : Option Stack.Snapshot) :
    readFormat m s = .ok (formatSlot m s) ∧
    (FieldType.string ∉ m.params → formatSlot m s = none) ∧
    ∀ i, FirstParam m FieldType.string i →
      (∀ base arguments, s = some ⟨base ++ arguments⟩ → arguments.length = m.params.length →
        ∃ slot, arguments[i]? = some slot ∧ formatSlot m s = some slot) ∧
      (m.params.length - (i + 1) < Stack.depth s →
        ∃ slot, (Stack.slots s)[Stack.depth s - 1 - (m.params.length - (i + 1))]? = some slot ∧
          formatSlot m s = some slot) ∧
      (Stack.depth s ≤ m.params.length - (i + 1) → formatSlot m s = none) := by
  refine ⟨readFormat_eq_formatSlot m s, fun missing => formatSlot_of_no_string missing s, ?_⟩
  intro i first
  refine ⟨?_, ?_, ?_⟩
  · rintro base arguments rfl arity
    have inside : i < arguments.length := arity ▸ first.inside
    have passed := List.getElem?_eq_getElem inside
    exact ⟨_, passed, (first.formatSlot arity).trans passed⟩
  · intro deep
    rw [first.formatSlot_eq_slot?]
    exact Stack.exists_slot deep
  · intro shallow
    rw [first.formatSlot_eq_slot?]
    exact Stack.slot?_of_shallow shallow

/-- Of four parameters the second and the last are strings. -/
def twoStrings : MethodType :=
  ⟨[FieldType.marker, FieldType.string, FieldType.object, FieldType.string], FieldType.void⟩

/-- The marker is not on the stack, and the format is its bottom. -/
theorem formatSlot_without_marker :
    formatSlot twoStrings
      (some ⟨[{ constant := .text (text "\x7b\x7d") }, {}, { constant := .text [] }]⟩) =
      some { constant := .text (text "\x7b\x7d") } := by
  have first : FirstParam twoStrings FieldType.string 1 := ⟨rfl, by decide⟩
  obtain ⟨_, _, declared⟩ := formatSlot_in_declaration_order twoStrings
    (some ⟨[{ constant := .text (text "\x7b\x7d") }, {}, { constant := .text [] }]⟩)
  obtain ⟨slot, entry, found⟩ := (declared 1 first).2.1 (by decide)
  cases entry
  exact found

end Logging

end TraceLint
