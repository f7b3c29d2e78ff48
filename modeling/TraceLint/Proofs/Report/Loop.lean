import TraceLint.Proofs.Loop
import TraceLint.Report.Context

/-! The window around an instruction as a loop writes it that counts through the indices with 64-bit
numbers. After the greatest number comes the least one, so a loop up to the greatest never ends. -/
namespace TraceLint.Report

open Bytecode (Instruction)

section Lines

variable {code : List Instruction} {i : Nat}

theorem flatMap_zipIdx_outside {xs : List Instruction} {k : Nat} {first last : Int}
    (outside : ∀ e ∈ xs.zipIdx k, ¬ (first ≤ e.2 ∧ e.2 ≤ last)) :
    ((xs.zipIdx k).flatMap fun e => if first ≤ e.2 && e.2 ≤ last then line i e else []) = [] := by
  refine List.flatMap_eq_nil_iff.mpr fun e member => if_neg ?_
  rw [Bool.and_eq_true, decide_eq_true_iff, decide_eq_true_iff]
  exact outside e member

theorem flatMap_zipIdx_beyond {xs : List Instruction} {k : Nat} {first last : Int}
    (beyond : last < k) :
    ((xs.zipIdx k).flatMap fun e => if first ≤ e.2 && e.2 ≤ last then line i e else []) = [] := by
  refine flatMap_zipIdx_outside fun e member => ?_
  have after := List.le_snd_of_mem_zipIdx member
  omega

theorem linesBetween_of_lt {first last : Int} (empty : last < first) :
    linesBetween first last code i = [] := by
  refine flatMap_zipIdx_outside fun e _ => ?_
  omega

/-- The last index of a range comes after the others. -/
theorem linesBetween_last {first last : Int} (ordered : first ≤ last + 1) :
    linesBetween first (last + 1) code i =
      linesBetween first last code i ++ linesBetween (last + 1) (last + 1) code i := by
  have from_index (xs : List Instruction) (k : Nat) :
      ((xs.zipIdx k).flatMap fun e => if first ≤ e.2 && e.2 ≤ last + 1 then line i e else []) =
        ((xs.zipIdx k).flatMap fun e => if first ≤ e.2 && e.2 ≤ last then line i e else []) ++
          (xs.zipIdx k).flatMap fun e =>
            if last + 1 ≤ e.2 && e.2 ≤ last + 1 then line i e else [] := by
    induction xs generalizing k with
    | nil => rfl
    | cons x rest ih =>
      simp only [List.zipIdx_cons, List.flatMap_cons]
      rw [ih]
      rcases Int.lt_trichotomy k (last + 1) with before | here | after
      · simp [show (k : Int) ≤ last by omega, show (k : Int) ≤ last + 1 by omega,
          show ¬ last + 1 ≤ (k : Int) by omega]
      · rw [@flatMap_zipIdx_beyond i rest (k + 1) first last (by omega)]
        simp [here, ordered, show ¬ last + 1 ≤ last by omega]
      · simp [show ¬ (k : Int) ≤ last by omega, show ¬ (k : Int) ≤ last + 1 by omega]
  exact from_index code 0

theorem linesBetween_single (n : Nat) :
    linesBetween n n code i = ((code[n]?).map fun x => line i (x, n)).getD [] := by
  have from_index (xs : List Instruction) (k n : Nat) :
      ((xs.zipIdx k).flatMap fun e =>
        if ((k + n : Nat) : Int) ≤ e.2 && e.2 ≤ ((k + n : Nat) : Int) then line i e else []) =
      ((xs[n]?).map fun x => line i (x, k + n)).getD [] := by
    induction xs generalizing k n with
    | nil => rfl
    | cons x rest ih =>
      rw [List.zipIdx_cons, List.flatMap_cons]
      cases n with
      | zero =>
        rw [Nat.add_zero, flatMap_zipIdx_beyond (by omega)]
        simp
      | succ n =>
        have later := ih (k + 1) n
        rw [show k + 1 + n = k + (n + 1) by omega] at later
        rw [later]
        simp [show ¬ ((k : Int) + (n + 1) ≤ k) by omega]
  have whole := from_index code 0 n
  rw [Nat.zero_add] at whole
  exact whole

end Lines

/-- Where a loop over indices stands, and what it has written. -/
structure Scan where
  index : Int64
  out : Text := []

namespace Scan

variable (code : List Instruction) (i : Nat) (last : Int64)

/-- What is written at an index: the line of the instruction there, if there is one. -/
def lineAt (j : Int64) : Text :=
  if 0 ≤ j ∧ j.toInt < code.length then
    ((code[j.toInt.toNat]?).map fun x => line i (x, j.toInt.toNat)).getD []
  else []

/-- One round of the loop, if the index is not beyond the last one. -/
def next? (s : Scan) : Option Scan :=
  if s.index ≤ last then some ⟨s.index + 1, s.out ++ lineAt code i s.index⟩ else none

/-- The loop comes to an end. -/
def Ends (s : Scan) : Prop := ∃ t, Loop.Stops (next? code i last) s t

/-- What the loop writes: all it has written when it ends; or what it has written by some round, and
then the same text over and over, after which it stands where it stood. -/
inductive Writes (s : Scan) : Transcript → Prop where
  | ends {t : Scan} : Loop.Stops (next? code i last) s t → Writes s (.ended t.out)
  | turns (n : Nat) {period : Nat} (index : Int64) {out refrain : Text} : 0 < period →
      (∀ k, Loop.after? (next? code i last) (n + k * period) s =
        some ⟨index, out ++ (List.replicate k refrain).flatten⟩) →
      Writes s ⟨out, some refrain⟩

variable {code i last}

theorem lineAt_eq (j : Int64) : lineAt code i j = linesBetween j.toInt j.toInt code i := by
  unfold lineAt
  split
  · rename_i inside
    obtain ⟨n, same⟩ := Int.eq_ofNat_of_zero_le (Int64.le_iff_toInt_le.mp inside.1)
    rw [same, Int.toNat_natCast, linesBetween_single]
  · rename_i outside
    symm
    refine flatMap_zipIdx_outside fun e member => ?_
    have bound : e.2 < code.length := by simpa using List.snd_lt_add_of_mem_zipIdx member
    rw [Int64.le_iff_toInt_le, show (0 : Int64).toInt = 0 from rfl] at outside
    omega

theorem toInt_le_max (j : Int64) : j.toInt ≤ Int64.maxValue.toInt :=
  Int.le_of_lt_add_one j.toInt_lt

theorem toInt_add_ofNat {j : Int64} {n : Nat} (within : j.toInt + n ≤ Int64.maxValue.toInt) :
    (j + Int64.ofNat n).toInt = j.toInt + n := by
  have low := j.le_toInt
  have high : Int64.maxValue.toInt = 0x7fffffffffffffff := rfl
  have numbers : Int64.size = 0x10000000000000000 := rfl
  rw [Int64.toInt_add, Int64.toInt_ofNat', Int.add_bmod_bmod]
  exact Int.bmod_eq_of_le (by omega) (by omega)

/-- Rounds that do not pass the last index write the lines of so many indices. -/
theorem after?_eq {n : Nat} {j : Int64} (within : j.toInt + n ≤ last.toInt + 1) (out : Text) :
    Loop.after? (next? code i last) n ⟨j, out⟩ =
      some ⟨j + Int64.ofNat n, out ++ linesBetween j.toInt (j.toInt + n - 1) code i⟩ := by
  induction n with
  | zero =>
    rw [linesBetween_of_lt (by omega), List.append_nil, show Int64.ofNat 0 = 0 from rfl,
      Int64.add_zero]
    rfl
  | succ n ih =>
    have greatest := toInt_le_max last
    have index : (j + Int64.ofNat n).toInt = j.toInt + n := toInt_add_ofNat (by omega)
    have round (out : Text) : next? code i last ⟨j + Int64.ofNat n, out⟩ =
        some ⟨j + Int64.ofNat (n + 1), out ++ lineAt code i (j + Int64.ofNat n)⟩ := by
      rw [Int64.ofNat_add, ← Int64.add_assoc]
      have inside : (j + Int64.ofNat n).toInt ≤ last.toInt := by omega
      exact if_pos (Int64.le_iff_toInt_le.mpr inside)
    have lines := @linesBetween_last code i j.toInt (j.toInt + n - 1) (by omega)
    have high : j.toInt + n - 1 + 1 = j.toInt + n := by omega
    rw [high] at lines
    rw [Loop.after?_add, ih (by omega), Option.bind_some, Loop.after?, round, lineAt_eq, index,
      List.append_assoc, ← lines, Int.natCast_succ, ← Int.add_assoc, Int.add_sub_cancel]
    rfl

theorem add_ofNat {j k : Int64} {n : Nat} (apart : j.toInt + n = k.toInt) :
    j + Int64.ofNat n = k :=
  Int64.toInt_inj.mp ((toInt_add_ofNat (apart ▸ toInt_le_max k)).trans apart)

/-- Below the greatest number the loop ends, with the lines of all its indices written. -/
theorem ended_of_ne_max (bounded : last ≠ Int64.maxValue) (s : Scan) :
    ∃ t, Loop.Stops (next? code i last) s t ∧
      t.out = s.out ++ linesBetween s.index.toInt last.toInt code i := by
  obtain ⟨first, out⟩ := s
  have greatest : last.toInt < Int64.maxValue.toInt :=
    Int.lt_iff_le_and_ne.mpr ⟨toInt_le_max last, fun same => bounded (Int64.toInt_inj.mp same)⟩
  by_cases empty : last.toInt < first.toInt
  · refine ⟨⟨first, out⟩, .here (if_neg fun within => ?_), ?_⟩
    · exact absurd (Int64.le_iff_toInt_le.mp within) (Int.not_le.mpr empty)
    · rw [linesBetween_of_lt empty, List.append_nil]
  · obtain ⟨n, count⟩ := Int.eq_ofNat_of_zero_le (show 0 ≤ last.toInt + 1 - first.toInt by omega)
    have index : (first + Int64.ofNat n).toInt = first.toInt + n := toInt_add_ofNat (by omega)
    refine ⟨_, ⟨n, after?_eq (by omega) out, if_neg fun within => ?_⟩, ?_⟩
    · have within : (first + Int64.ofNat n).toInt ≤ last.toInt := Int64.le_iff_toInt_le.mp within
      omega
    · rw [show first.toInt + n - 1 = last.toInt by omega]

/-- Up to the greatest number there is always a next round. -/
theorem next?_max (s : Scan) :
    s.next? code i Int64.maxValue = some ⟨s.index + 1, s.out ++ lineAt code i s.index⟩ :=
  if_pos (Int64.le_iff_toInt_le.mpr (toInt_le_max s.index))

theorem ends_iff {s : Scan} : s.Ends code i last ↔ last ≠ Int64.maxValue := by
  constructor
  · rintro ⟨t, n, -, ended⟩ same
    rw [same, next?_max] at ended
    cases ended
  · intro bounded
    obtain ⟨t, stops, -⟩ := ended_of_ne_max bounded s
    exact ⟨t, stops⟩

/-- How many 64-bit numbers there are. -/
def period : Nat := 0x10000000000000000

/-- The greatest number is followed by the least. -/
theorem after?_max {first : Int64} :
    ∃ n, Loop.after? (next? code i Int64.maxValue) n ⟨first, []⟩ =
      some ⟨Int64.minValue, linesBetween first.toInt Int64.maxValue.toInt code i⟩ := by
  obtain ⟨n, count⟩ := Int.eq_ofNat_of_zero_le (Int.sub_nonneg_of_le (toInt_le_max first))
  have counted := @after?_eq code i Int64.maxValue (n + 1) first (by omega) []
  have index : first + Int64.ofNat (n + 1) = Int64.minValue := by
    have greatest : first + Int64.ofNat n = Int64.maxValue := add_ofNat (by omega)
    rw [Int64.ofNat_add, ← Int64.add_assoc, greatest]
    rfl
  have high : first.toInt + (n + 1 : Nat) - 1 = Int64.maxValue.toInt := by omega
  rw [index, high, List.nil_append] at counted
  exact ⟨n + 1, counted⟩

/-- From the least number on, the loop comes back to it and writes the lines of all indices. -/
theorem after?_period (out : Text) (k : Nat) :
    Loop.after? (next? code i Int64.maxValue) (k * period) ⟨Int64.minValue, out⟩ =
      some ⟨Int64.minValue, out ++ (List.replicate k (linesBetween Int64.minValue.toInt
        Int64.maxValue.toInt code i)).flatten⟩ := by
  induction k generalizing out with
  | zero => simp [Loop.after?]
  | succ k ih =>
    have around := @after?_eq code i Int64.maxValue period Int64.minValue (by decide) out
    have index : Int64.minValue + Int64.ofNat period = Int64.minValue := by decide
    have high : Int64.minValue.toInt + (period : Nat) - 1 = Int64.maxValue.toInt := by decide
    rw [index, high] at around
    rw [Nat.succ_mul, Nat.add_comm, Loop.after?_add, around, Option.bind_some, ih,
      List.append_assoc]
    rfl

/-- The window is what the loop writes, whether it ends or not. -/
theorem writes_window (size : Int64) :
    Writes code i (Int64.ofNat i + size) ⟨Int64.ofNat i - size, []⟩ (window size code i) := by
  dsimp only [window]
  generalize Int64.ofNat i - size = first
  generalize Int64.ofNat i + size = last
  by_cases endless : last = Int64.maxValue
  · subst endless
    obtain ⟨n, reached⟩ := @after?_max code i first
    rw [if_pos rfl]
    refine Writes.turns n Int64.minValue (show 0 < period by decide) fun k => ?_
    rw [Loop.after?_add, reached, Option.bind_some, after?_period]
  · obtain ⟨t, stops, out⟩ := @ended_of_ne_max code i last endless ⟨first, []⟩
    have writes := Writes.ends stops
    rw [out, List.nil_append] at writes
    rw [if_neg endless]
    exact writes

end Scan

end TraceLint.Report
