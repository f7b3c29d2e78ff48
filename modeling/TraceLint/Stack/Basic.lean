import TraceLint.Value

/-! The abstract operand stack before an instruction, as the interpreter that wrote the trace knew
it. -/
namespace TraceLint.Stack

/-- An array that was filled in place just before its use, as compilers do for a variadic call. -/
structure ArrayTag where
  /-- The number of elements, negative if it is not known. -/
  size : Int64
  /-- Whether the last element is statically a throwable. -/
  throwableAtLast : Bool
deriving DecidableEq

/-- What is known of one stack entry. -/
structure Slot where
  /-- The static type as an encoded field type, empty if unknown. -/
  signature : Text := []
  /-- The compile-time constant, `null` if there is none. -/
  constant : Value := .null
  array : Option ArrayTag := none

/-- The stack at one program point, bottom first. -/
structure Snapshot where
  slots : List Slot

def ArrayTag.shown (a : ArrayTag) : Text :=
  text "array[" ++ Text.ofInt a.size.toInt ++
    text (if a.throwableAtLast then "]+throwable" else "]")

namespace Slot

def isConstant (s : Slot) : Bool := !s.constant.isNull

def shown (s : Slot) : Text :=
  let signature := if s.signature = [] then text "?" else s.signature
  let constant := if s.isConstant then byte '=' :: s.constant.spelled else []
  let tag := match s.array with
    | some a => text " \x7b" ++ a.shown ++ text "\x7d"
    | none => []
  signature ++ constant ++ tag

end Slot

namespace Snapshot

def depth (s : Snapshot) : Nat := s.slots.length

/-- The slot `i` entries below the top. -/
def slot? (s : Snapshot) (i : Nat) : Option Slot := s.slots.reverse[i]?

def shown (s : Snapshot) : Text :=
  byte '[' :: Text.join [byte ' '] (s.slots.map Slot.shown) ++ [byte ']']

end Snapshot

/-- A point the interpreter could not model has no snapshot, and counts as an empty stack. -/
def slots (s : Option Snapshot) : List Slot := (s.map Snapshot.slots).getD []

def depth (s : Option Snapshot) : Nat := (slots s).length

/-- The slot `i` entries below the top; there is none below the bottom or above the top. -/
def slot? (s : Option Snapshot) (i : Int) : Option Slot :=
  if i < 0 then none else s.bind fun snapshot => snapshot.slot? i.toNat

def shownSlot : Option Slot → Text
  | some s => s.shown
  | none => text "?"

def shown : Option Snapshot → Text
  | some s => s.shown
  | none => text "[?]"

end TraceLint.Stack
