import TraceLint.Proofs.Logging.Check

/-! The check of a logging call looks at no slot below the arguments. Several reads count from the
top of the stack; each of them stays above the parameters, and where there is no parameter nothing
is read. -/
namespace TraceLint

namespace Stack

variable {n i : Nat} {s s' : Option Snapshot}

/-- The `n` uppermost slots, bottom first, or all if there are fewer. -/
def uppermost (n : Nat) (s : Option Snapshot) : List Slot := (slots s).drop (depth s - n)

/-- Two stacks hold the same `n` slots on top. What lies below is left open, the depth included. -/
structure AgreeOn (n : Nat) (s s' : Option Snapshot) : Prop where
  deep : n ≤ depth s
  deep' : n ≤ depth s'
  uppermost : uppermost n s = uppermost n s'

theorem slot?_natCast (s : Option Snapshot) (i : Nat) : slot? s i = (slots s).reverse[i]? := by
  rw [slot?, if_neg (by omega), Int.toNat_natCast]
  cases s with
  | none => rfl
  | some snapshot => rfl

theorem slot?_uppermost (inside : i < n) (s : Option Snapshot) :
    slot? s i = (uppermost n s).reverse[i]? := by
  rw [slot?_natCast, uppermost, depth, ← List.take_reverse, List.getElem?_take_of_lt inside]

theorem AgreeOn.slot? (agree : AgreeOn n s s') (inside : i < n) :
    Stack.slot? s i = Stack.slot? s' i := by
  rw [slot?_uppermost inside, slot?_uppermost inside, agree.uppermost]

end Stack

namespace Logging

open Descriptor (FieldType MethodType)

variable {m : MethodType} {s s' : Option Stack.Snapshot}

theorem depthOf?_lt {t : FieldType} {i : Nat} (found : m.depthOf? t = some i) :
    i < m.params.length := by
  obtain ⟨j, here, rfl⟩ := Option.map_eq_some_iff.mp found
  obtain ⟨inside, _⟩ := List.idxOf?_eq_some_iff.mp here
  omega

theorem formatSlot_of_agree (agree : Stack.AgreeOn m.params.length s s') :
    formatSlot m s = formatSlot m s' := by
  unfold formatSlot
  cases found : m.depthOf? FieldType.string with
  | none => rfl
  | some i => exact agree.slot? (depthOf?_lt found)

theorem formatSlot_of_no_string (none : FieldType.string ∉ m.params) (s : Option Stack.Snapshot) :
    formatSlot m s = .none := by
  rw [formatSlot, MethodType.depthOf?, List.idxOf?_eq_none_iff.mpr none]
  rfl

theorem params_pos_of_formatSlot {slot : Stack.Slot} (found : formatSlot m s = some slot) :
    0 < m.params.length := by
  obtain ⟨i, depth, _⟩ := Option.bind_eq_some_iff.mp found
  have inside := depthOf?_lt depth
  omega

/-- The counts read the top of the stack, which is an argument only if there is one. -/
theorem countArguments_of_agree (agree : Stack.AgreeOn m.params.length s s')
    (taken : 0 < m.params.length) (hierarchy : Hierarchy) :
    countArguments m s hierarchy = countArguments m s' hierarchy := by
  have top : Stack.slot? s 0 = Stack.slot? s' 0 := agree.slot? taken
  rw [countArguments, countArguments, top]

section

variable {site : CallSite} (hierarchy : Hierarchy) (reportSignOnly : Bool)

theorem check_of_agree (parsed : Descriptor.parse site.desc = .ok m)
    (agree : Stack.AgreeOn m.params.length s s') :
    check { site with stack := s } hierarchy reportSignOnly =
      check { site with stack := s' } hierarchy reportSignOnly := by
  have same := formatSlot_of_agree agree
  have deep := Nat.not_lt.mpr agree.deep
  have deep' := Nat.not_lt.mpr agree.deep'
  simp only [check, parsed, if_neg deep, if_neg deep', same]
  cases found : formatSlot m s' with
  | none => rfl
  | some slot =>
    have counts := countArguments_of_agree agree (params_pos_of_formatSlot found) hierarchy
    simp only [CallSite.countFindings, counts]
    rfl

theorem check_of_malformed {e : Descriptor.Invalid}
    (malformed : Descriptor.parse site.desc = .error e) (s s' : Option Stack.Snapshot) :
    check { site with stack := s } hierarchy reportSignOnly =
      check { site with stack := s' } hierarchy reportSignOnly := by
  simp only [check, malformed]
  rfl

theorem check_of_no_format (parsed : Descriptor.parse site.desc = .ok m)
    (missing : Stack.depth s < m.params.length ∨ FieldType.string ∉ m.params) :
    check { site with stack := s } hierarchy reportSignOnly = .ok [] := by
  rw [check]
  split
  · rfl
  dsimp only
  rw [parsed]
  dsimp only
  split
  · rfl
  · rename_i deep
    rcases missing with shallow | noString
    · exact absurd shallow deep
    · rw [formatSlot_of_no_string noString]

end

/-- Stacks that agree on the arguments are judged alike, whatever lies below them; and without a
slot for every parameter, or without a format among them, no stack gives a finding. A descriptor
that cannot be read has no parameters to agree on, and then no stack matters. -/
theorem check_reads_arguments (site : CallSite) (hierarchy : Hierarchy) (reportSignOnly : Bool) :
    (∀ s s' : Option Stack.Snapshot,
      (∀ m, Descriptor.parse site.desc = .ok m → Stack.AgreeOn m.params.length s s') →
      check { site with stack := s } hierarchy reportSignOnly =
        check { site with stack := s' } hierarchy reportSignOnly) ∧
    ∀ (m : MethodType) (s : Option Stack.Snapshot), Descriptor.parse site.desc = .ok m →
      Stack.depth s < m.params.length ∨ FieldType.string ∉ m.params →
      check { site with stack := s } hierarchy reportSignOnly = .ok [] := by
  constructor
  · intro s s' agree
    cases parsed : Descriptor.parse site.desc with
    | error e => exact check_of_malformed hierarchy reportSignOnly parsed s s'
    | ok m => exact check_of_agree hierarchy reportSignOnly parsed (agree m parsed)
  · intro m s parsed missing
    exact check_of_no_format hierarchy reportSignOnly parsed missing

/-- A call with a format and one argument, and with anything below. -/
def callAbove (below : List Stack.Slot) : CallSite where
  pos := {}
  owner := loggerClass
  name := text "info"
  desc := text "(Ljava/lang/String;Ljava/lang/Object;)V"
  stack := some ⟨below ++ [{ constant := .text (text "\x7b\x7d \x7b\x7d") }, {}]⟩

/-- A receiver that could be taken for a format changes nothing, and a missing argument silences the
check. -/
theorem check_callAbove :
    check (callAbove [{ constant := .text (text "\x7b\x7d") }]) .initial false =
      .ok [(callAbove []).mismatch 2 1] ∧
    check { callAbove [] with stack := some ⟨[{ constant := .text (text "\x7b\x7d") }]⟩ }
      .initial false = .ok [] := by
  have read : Descriptor.parse (callAbove []).desc =
      .ok ⟨[FieldType.string, FieldType.object], FieldType.void⟩ :=
    Descriptor.parse_iff.mpr (by decide)
  have bare : check (callAbove []) .initial false = .ok [(callAbove []).mismatch 2 1] := by
    rw [check, if_neg (by decide), read]
    rfl
  obtain ⟨alike, silent⟩ := check_reads_arguments (callAbove []) .initial false
  refine ⟨?_, silent _ _ read (.inl (by decide))⟩
  rw [← bare]
  refine alike _ (callAbove []).stack fun m parsed => ?_
  obtain rfl := Except.ok.inj (read.symm.trans parsed)
  exact ⟨by decide, by decide, rfl⟩

end Logging

end TraceLint
