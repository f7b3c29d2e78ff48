import TraceLint.Proofs.Logging.Locality

/-! How low the count of arguments can get. A marker, a throwable on top and a throwable at the end
of an array are each taken off without a look at what is left, so the count can go one below zero,
and no further. -/
namespace TraceLint.Logging

open Descriptor (FieldType MethodType)

/-- More is taken off than there is: an array without elements is said to end with a throwable, or
no argument follows the format, and the format is a throwable by its own type. -/
def Overdrawn (m : MethodType) (stack : Option Stack.Snapshot) (hierarchy : Hierarchy) : Prop :=
  ∃ top, Stack.slot? stack 0 = some top ∧
    (m.params.getLast? = some FieldType.objectArray ∧ top.array = some ⟨0, true⟩ ∨
      (m.params = [FieldType.string] ∨ m.params = [FieldType.marker, FieldType.string]) ∧
        hierarchy.HoldsThrowable top)

section

variable {m : MethodType} {stack : Option Stack.Snapshot} {hierarchy : Hierarchy} {arguments : Int}

theorem overdrawn_array {top : Stack.Slot}
    (variadic : m.params.getLast? = some FieldType.objectArray)
    (here : Stack.slot? stack 0 = some top) :
    Overdrawn m stack hierarchy ↔ top.array = some ⟨0, true⟩ := by
  have unmarked : m.params ≠ [FieldType.string] := by
    intro same
    rw [same] at variadic
    exact absurd variadic (by decide)
  have marked : m.params ≠ [FieldType.marker, FieldType.string] := by
    intro same
    rw [same] at variadic
    exact absurd variadic (by decide)
  simp [Overdrawn, here, variadic, unmarked, marked]

theorem countArguments_array_cases (variadic : m.params.getLast? = some FieldType.objectArray)
    (counted : countArguments m stack hierarchy = .ok arguments) :
    arguments = -1 ∧ Overdrawn m stack hierarchy ∨
      0 ≤ arguments ∧ ¬ Overdrawn m stack hierarchy := by
  have array : m.last = FieldType.objectArray := (last_eq_iff (by decide)).mpr variadic
  rw [countArguments, if_pos array] at counted
  split at counted
  · contradiction
  rename_i tag tagged
  obtain ⟨top, here, own⟩ := Option.bind_eq_some_iff.mp tagged
  split at counted
  · contradiction
  rename_i known
  have size : 0 ≤ tag.size.toInt := by
    rw [Int64.lt_iff_toInt_lt, Int64.toInt_zero] at known
    omega
  have empty : tag = ⟨0, true⟩ ↔ tag.size.toInt = 0 ∧ tag.throwableAtLast = true := by
    rw [← Int64.toInt_zero, Int64.toInt_inj]
    cases tag
    simp
  rw [overdrawn_array variadic here, own, Option.some_inj, empty, ← Except.ok.inj counted]
  cases tag.throwableAtLast with
  | false =>
    simp only [Bool.false_eq_true, if_false, and_false, not_false_eq_true, and_true, false_or]
    omega
  | true =>
    simp only [if_true, and_true]
    omega

theorem overdrawn_fixed (fixed : m.params.getLast? ≠ some FieldType.objectArray) :
    Overdrawn m stack hierarchy ↔
      (m.params = [FieldType.string] ∨ m.params = [FieldType.marker, FieldType.string]) ∧
      hierarchy.isThrowable (Stack.slot? stack 0) = true := by
  rw [Overdrawn]
  cases Stack.slot? stack 0 with
  | none => simp [Hierarchy.isThrowable]
  | some top => simp [fixed, Hierarchy.isThrowable_iff]

/-- Without the format and a marker in front there are arguments left, unless there were none to
begin with. -/
theorem unmarked_params (formatted : FieldType.string ∈ m.params) :
    let left := (m.params.length : Int) - 1 - if m.param 0 = FieldType.marker then 1 else 0
    0 ≤ left ∧ (left = 0 ↔ m.params = [FieldType.string] ∨
      m.params = [FieldType.marker, FieldType.string]) := by
  have apart : FieldType.string ≠ FieldType.marker := by decide
  obtain ⟨params, result⟩ := m
  dsimp only at formatted ⊢
  cases params with
  | nil => contradiction
  | cons first rest =>
    cases rest with
    | nil =>
      obtain rfl : FieldType.string = first := by simpa using formatted
      simp [MethodType.param, apart]
    | cons second rest =>
      cases rest with
      | nil =>
        by_cases marked : first = FieldType.marker
        · subst marked
          obtain rfl : FieldType.string = second := by simpa [apart] using formatted
          simp [MethodType.param]
        · simp [MethodType.param, marked]
      | cons third rest =>
        simp only [List.length_cons, List.cons.injEq, reduceCtorEq, and_false, or_false, iff_false]
        split <;> omega

theorem countArguments_fixed_cases (fixed : m.params.getLast? ≠ some FieldType.objectArray)
    (formatted : FieldType.string ∈ m.params)
    (counted : countArguments m stack hierarchy = .ok arguments) :
    arguments = -1 ∧ Overdrawn m stack hierarchy ∨
      0 ≤ arguments ∧ ¬ Overdrawn m stack hierarchy := by
  have array : m.last ≠ FieldType.objectArray := (last_eq_iff (by decide)).not.mpr fixed
  rw [countArguments, if_neg array] at counted
  obtain ⟨left, none⟩ := unmarked_params formatted
  rw [overdrawn_fixed fixed, ← none, ← Except.ok.inj counted]
  cases hierarchy.isThrowable (Stack.slot? stack 0) with
  | false =>
    simp only [Bool.false_eq_true, if_false, and_false, not_false_eq_true, and_true, false_or]
    omega
  | true =>
    simp only [if_true, and_true]
    omega

theorem countArguments_cases (formatted : FieldType.string ∈ m.params)
    (counted : countArguments m stack hierarchy = .ok arguments) :
    arguments = -1 ∧ Overdrawn m stack hierarchy ∨
      0 ≤ arguments ∧ ¬ Overdrawn m stack hierarchy := by
  by_cases variadic : m.params.getLast? = some FieldType.objectArray
  · exact countArguments_array_cases variadic counted
  · exact countArguments_fixed_cases variadic formatted counted

end

section

variable {site : CallSite} {hierarchy : Hierarchy} {reportSignOnly : Bool} {findings : List Finding}
    {f : Finding}

theorem category_advice {format : Text} (member : f ∈ site.advice reportSignOnly format) :
    f.category = Category.signOnly := by
  unfold CallSite.advice at member
  split at member
  · rw [List.mem_singleton.mp member]
    rfl
  · contradiction

/-- A mismatch is found only where the descriptor holds a format and both counts are known. -/
theorem counts_of_mismatch (checked : check site hierarchy reportSignOnly = .ok findings)
    (member : f ∈ findings) (mismatch : f.category = Category.mismatch) :
    ∃ m format arguments, Descriptor.parse site.desc = .ok m ∧ FieldType.string ∈ m.params ∧
      countArguments m site.stack hierarchy = .ok arguments ∧
      f = site.mismatch (countPlaceholders format) arguments := by
  have differs : Category.notConstant ≠ Category.mismatch ∧ Category.signOnly ≠ Category.mismatch ∧
      Category.unknownArray ≠ Category.mismatch := by decide
  rcases check_inversion checked with rfl | ⟨m, slot, parsed, _, found, rest⟩
  · contradiction
  have formatted : FieldType.string ∈ m.params := by
    by_contra none
    rw [formatSlot_of_no_string none] at found
    contradiction
  rcases rest with ⟨_, rfl⟩ | ⟨format, _, rfl⟩
  · rw [List.mem_singleton.mp member] at mismatch
    exact absurd mismatch differs.1
  rcases List.mem_append.mp member with advice | counts
  · exact absurd ((category_advice advice).symm.trans mismatch) differs.2.1
  unfold CallSite.countFindings at counts
  split at counts
  · rw [List.mem_singleton.mp counts] at mismatch
    exact absurd mismatch differs.2.2
  · rename_i arguments counted
    dsimp only at counts
    split at counts
    · exact ⟨m, format, arguments, parsed, formatted, counted, List.mem_singleton.mp counts⟩
    · contradiction

end

/-- The counts of a mismatch are not negative, but for one case: the arguments count as one below
zero exactly where more is taken off than there is. -/
theorem mismatch_counts {site : CallSite} {hierarchy : Hierarchy} {reportSignOnly : Bool}
    {findings : List Finding} {f : Finding}
    (checked : check site hierarchy reportSignOnly = .ok findings) (member : f ∈ findings)
    (mismatch : f.category = Category.mismatch) :
    ∃ m placeholders arguments, Descriptor.parse site.desc = .ok m ∧
      f.payload = .mismatch placeholders arguments ∧ 0 ≤ placeholders ∧
      (arguments = -1 ∧ Overdrawn m site.stack hierarchy ∨
        0 ≤ arguments ∧ ¬ Overdrawn m site.stack hierarchy) := by
  obtain ⟨m, format, arguments, parsed, formatted, counted, rfl⟩ :=
    counts_of_mismatch checked member mismatch
  exact ⟨m, _, arguments, parsed, rfl, Int.natCast_nonneg _, countArguments_cases formatted counted⟩

/-- A slot of some type that holds the format `done`. -/
def doneSlot (type : Text) : Stack.Slot := { signature := type, constant := .text (text "done") }

def doneCall (desc : String) (arguments : List Stack.Slot) : CallSite where
  pos := {}
  owner := loggerClass
  name := text "info"
  desc := text desc
  stack := some ⟨arguments⟩

theorem placeholders_done : placeholders (text "done") = 0 := by decide

theorem advice_done (site : CallSite) : site.advice true (text "done") = [] := by
  have letters : ¬ Letterless (text "done") := by decide
  rw [CallSite.advice, if_neg fun advised => letters advised.2]

/-- The format comes after a marker, and is an exception by its type. -/
def exceptionFormat : CallSite :=
  doneCall "(Lorg/slf4j/Marker;Ljava/lang/String;)V"
    [{ signature := FieldType.marker }, doneSlot (text "Ljava/lang/Exception;")]

theorem mismatch_counts_exceptionFormat :
    check exceptionFormat .initial true = .ok [exceptionFormat.mismatch 0 (-1)] ∧
    ∃ m placeholders arguments, Descriptor.parse exceptionFormat.desc = .ok m ∧
      Payload.mismatch 0 (-1) = .mismatch placeholders arguments ∧ 0 ≤ placeholders ∧
      (arguments = -1 ∧ Overdrawn m exceptionFormat.stack .initial ∨
        0 ≤ arguments ∧ ¬ Overdrawn m exceptionFormat.stack .initial) := by
  have call :
      FormatCall exceptionFormat ⟨[FieldType.marker, FieldType.string], FieldType.void⟩ [] _
        (text "done") :=
    ⟨rfl, by decide, by decide, by decide, rfl, rfl, 1, _, ⟨rfl, by decide⟩, rfl, rfl⟩
  have last :
      [{ signature := FieldType.marker }, doneSlot (text "Ljava/lang/Exception;")].getLast? =
      some (doneSlot (text "Ljava/lang/Exception;")) := rfl
  have throwable :
      Hierarchy.initial.HoldsThrowable (doneSlot (text "Ljava/lang/Exception;")) := by
    decide
  have checked : check exceptionFormat .initial true = .ok [exceptionFormat.mismatch 0 (-1)] := by
    rw [call.check_eq (by decide), advice_done, CallSite.countFindings, call.stack,
      countArguments_fixed (by decide) last, countPlaceholders_eq_placeholders, placeholders_done,
      if_pos (by decide), if_pos throwable]
    rfl
  exact ⟨checked, mismatch_counts checked List.mem_cons_self rfl⟩

/-- The array has no elements, and is yet said to end with a throwable. -/
def emptyArray : CallSite :=
  doneCall "(Ljava/lang/String;[Ljava/lang/Object;)V"
    [doneSlot FieldType.string, { signature := FieldType.objectArray, array := some ⟨0, true⟩ }]

theorem arguments_below_zero : ¬ ∀ site hierarchy reportSignOnly findings,
    check site hierarchy reportSignOnly = .ok findings →
      ∀ f ∈ findings, f.category = Category.mismatch →
      ∃ placeholders arguments, f.payload = .mismatch placeholders arguments ∧ 0 ≤ placeholders ∧
        0 ≤ arguments := by
  have call :
      FormatCall emptyArray ⟨[FieldType.string, FieldType.objectArray], FieldType.void⟩ [] _
        (text "done") :=
    ⟨rfl, by decide, by decide, by decide, rfl, rfl, 0, _, ⟨rfl, by decide⟩, rfl, rfl⟩
  have checked : check emptyArray .initial true = .ok [emptyArray.mismatch 0 (-1)] := by
    rw [call.check_array rfl rfl, advice_done]
    simp [CallSite.arrayFindings, CallSite.compared, placeholders_done]
  intro never
  obtain ⟨placeholders, arguments, payload, _, nonneg⟩ :=
    never _ _ _ _ checked _ List.mem_cons_self rfl
  cases payload
  contradiction

end TraceLint.Logging
