import TraceLint.Bytecode.Inspector

/-! The instructions around the place of a finding. Their indices are 64-bit numbers: where the last
one is the greatest of them, there is always a next index and writing does not end. -/
namespace TraceLint.Report

open Bytecode (Method Instruction Inspector Position)

/-- What is written to a channel. If writing does not end, a refrain follows over and over. -/
structure Transcript where
  written : Text := []
  refrain : Option Text := none
deriving DecidableEq

namespace Transcript

def ended (s : Text) : Transcript := { written := s }

/-- Nothing comes after a refrain. -/
def append (a b : Transcript) : Transcript :=
  match a.refrain with
  | none => { b with written := a.written ++ b.written }
  | some _ => a

instance : Append Transcript := ⟨append⟩

def concat : List Transcript → Transcript
  | [] => {}
  | a :: rest => a ++ concat rest

@[simp]
theorem empty_append (t : Transcript) : {} ++ t = t := rfl

@[simp]
theorem append_empty (t : Transcript) : t ++ {} = t := by
  obtain ⟨written, refrain⟩ := t
  cases refrain with
  | none => exact congrArg ended (List.append_nil written)
  | some _ => rfl

theorem append_assoc (a b c : Transcript) : a ++ b ++ c = a ++ (b ++ c) := by
  obtain ⟨first, refrain⟩ := a
  cases refrain with
  | some _ => rfl
  | none =>
    obtain ⟨second, refrain⟩ := b
    cases refrain with
    | some _ => rfl
    | none =>
      exact congrArg (fun s => (⟨s, c.refrain⟩ : Transcript))
        (List.append_assoc first second c.written)

theorem concat_append (front back : List Transcript) :
    concat (front ++ back) = concat front ++ concat back := by
  induction front with
  | nil => rfl
  | cons a rest ih => rw [List.cons_append, concat, concat, ih, append_assoc]

end Transcript

/-- Whether a method is the one of a position. -/
def isAt (pos : Position) (c : Bytecode.Class) (m : Method) : Bool :=
  c.name = pos.cls && m.name = pos.method && m.desc = pos.methodDesc

/-- The line of an instruction; the one at index `i` is marked. -/
def line (i : Nat) (entry : Instruction × Nat) : Text :=
  (if entry.2 = i then byte '>' else byte ' ') :: byte '\t' :: entry.1.shown ++ [byte '\n']

def linesBetween (first last : Int) (code : List Instruction) (i : Nat) : Text :=
  code.zipIdx.flatMap fun entry =>
    if first ≤ entry.2 && entry.2 ≤ last then line i entry else []

/-- The instructions of a method that are at most `size` away from the one at index `i`. -/
def window (size : Int64) (code : List Instruction) (i : Nat) : Transcript :=
  let last := Int64.ofNat i + size
  { written := linesBetween (Int64.ofNat i - size).toInt last.toInt code i
    -- After the greatest index comes the least one.
    refrain := if last = Int64.maxValue
      then some (linesBetween Int64.minValue.toInt last.toInt code i) else none }

/-- The window around the instruction at a position, if there is one. -/
def context (inspector : Inspector) (size : Int64) (pos : Position) : Transcript :=
  inspector.visitInContext none (fun out (c, m, code, i) =>
    if isAt pos c m then
      match code[i]? with
      | some instruction =>
        if instruction.pc = pos.pc then (out ++ window size code i, false) else (out, true)
      | none => (out, true)
    else (out, false)) {}

end TraceLint.Report
