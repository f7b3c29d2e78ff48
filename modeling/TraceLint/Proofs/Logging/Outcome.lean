import TraceLint.Proofs.Logging.Counts

/-! How the check of a call can end. Only a malformed descriptor is an error; otherwise the findings
come in a few shapes, and a computed format is reported alone. -/
namespace TraceLint

theorem Stack.exists_arguments {n : Nat} {s : Option Snapshot} (taken : 0 < n)
    (deep : n ≤ depth s) :
    ∃ base arguments, s = some ⟨base ++ arguments⟩ ∧ arguments.length = n := by
  cases s with
  | none =>
    have nothing : depth none = 0 := rfl
    omega
  | some snapshot =>
    have size : n ≤ snapshot.slots.length := deep
    refine ⟨snapshot.slots.take (snapshot.slots.length - n),
      snapshot.slots.drop (snapshot.slots.length - n), ?_, ?_⟩
    · rw [List.take_append_drop]
    · rw [List.length_drop]
      omega

namespace Logging

open Descriptor (FieldType MethodType)

section

variable {m : MethodType}

theorem exists_firstParam {t : FieldType} (taken : t ∈ m.params) : ∃ i, FirstParam m t i := by
  obtain ⟨i, found⟩ := Option.isSome_iff_exists.mp (List.isSome_idxOf?.mpr taken)
  obtain ⟨inside, here, first⟩ := List.idxOf?_eq_some_iff.mp found
  refine ⟨i, List.getElem?_eq_some_iff.mpr ⟨inside, here⟩, fun j earlier same => ?_⟩
  obtain ⟨_, there⟩ := List.getElem?_eq_some_iff.mp same
  exact first j earlier there

theorem formatSlot_eq_some_iff {base arguments : List Stack.Slot}
    (arity : arguments.length = m.params.length) {slot : Stack.Slot} :
    formatSlot m (some ⟨base ++ arguments⟩) = some slot ↔
      ∃ i, FirstParam m FieldType.string i ∧ arguments[i]? = some slot := by
  constructor
  · intro found
    by_cases taken : FieldType.string ∈ m.params
    · obtain ⟨i, first⟩ := exists_firstParam taken
      exact ⟨i, first, first.formatSlot arity ▸ found⟩
    · rw [formatSlot_of_no_string taken] at found
      contradiction
  · rintro ⟨i, first, passed⟩
    rw [first.formatSlot arity, passed]

end

namespace CallSite

/-- A call of a logging method that takes a format. No other call is looked at. -/
structure TakesFormat (site : CallSite) : Prop where
  owner : site.owner = loggerClass
  name : site.name ∈ logMethods
  desc : site.desc ∉ withoutFormat

/-- The stack ends with one slot per parameter, and the slot of the first string parameter has no
constant. -/
def ComputesFormat (site : CallSite) : Prop :=
  ∃ m base arguments i slot, Descriptor.parse site.desc = .ok m ∧
    site.stack = some ⟨base ++ arguments⟩ ∧
    arguments.length = m.params.length ∧ FirstParam m FieldType.string i ∧
    arguments[i]? = some slot ∧ slot.isConstant = false

/-- At most one finding about the letters of a format, and then at most one about its arguments. -/
def Assessed (site : CallSite) (findings : List Finding) : Prop :=
  ∃ advice verdict, findings = advice ++ verdict ∧
    (advice = [] ∨ ∃ format, advice = [site.signOnly format]) ∧
    (verdict = [] ∨ verdict = [site.unknownArray] ∨
      ∃ placeholders arguments, placeholders ≠ arguments ∧
        verdict = [site.mismatch placeholders arguments])

theorem Assessed.mem_cases {site : CallSite} {findings : List Finding}
    (assessed : site.Assessed findings) {f : Finding} (member : f ∈ findings) :
    (∃ format, f = site.signOnly format) ∨ f = site.unknownArray ∨
      ∃ placeholders arguments, placeholders ≠ arguments ∧
        f = site.mismatch placeholders arguments := by
  obtain ⟨advice, verdict, rfl, letters, counts⟩ := assessed
  rcases List.mem_append.mp member with member | member
  · rcases letters with rfl | ⟨format, rfl⟩
    · contradiction
    · exact .inl ⟨format, List.mem_singleton.mp member⟩
  · rcases counts with rfl | rfl | ⟨placeholders, arguments, differ, rfl⟩
    · contradiction
    · exact .inr (.inl (List.mem_singleton.mp member))
    · exact .inr (.inr ⟨placeholders, arguments, differ, List.mem_singleton.mp member⟩)

end CallSite

section

variable {site : CallSite} {hierarchy : Hierarchy} {reportSignOnly : Bool} {findings : List Finding}

theorem takesFormat_iff : site.TakesFormat ↔
    ¬ (!site.isLogging || withoutFormat.contains site.desc) = true := by
  simp only [Bool.or_eq_true, Bool.not_eq_true', ← Bool.not_eq_true, isLogging_iff,
    List.contains_iff_mem, not_or, not_not]
  exact ⟨fun takes => ⟨⟨takes.owner, takes.name⟩, takes.desc⟩,
    fun ⟨⟨owner, name⟩, desc⟩ => ⟨owner, name, desc⟩⟩

theorem check_of_no_call (other : ¬ site.TakesFormat) :
    check site hierarchy reportSignOnly = .ok [] := by
  rw [takesFormat_iff, not_not] at other
  rw [check, if_pos other]

theorem check_eq_error_iff {e : Descriptor.Invalid} :
    check site hierarchy reportSignOnly = .error e ↔
    site.TakesFormat ∧ Descriptor.parse site.desc = .error e := by
  constructor
  · intro failed
    unfold check at failed
    split at failed
    · contradiction
    rename_i enters
    split at failed
    · rename_i malformed
      exact ⟨takesFormat_iff.mpr enters, malformed.trans (congrArg _ (Except.error.inj failed))⟩
    · -- Once the descriptor is read, every way out gives findings.
      repeat' split at failed
      all_goals contradiction
  · rintro ⟨takes, malformed⟩
    rw [check, if_neg (takesFormat_iff.mp takes), malformed]

theorem check_of_computed (takes : site.TakesFormat) (computes : site.ComputesFormat) :
    check site hierarchy reportSignOnly = .ok [site.notConstant] := by
  obtain ⟨m, base, arguments, i, slot, parsed, stack, arity, first, passed, computed⟩ := computes
  have found : formatSlot m site.stack = some slot := by
    rw [stack]
    exact (formatSlot_eq_some_iff arity).mpr ⟨i, first, passed⟩
  have deep : ¬ Stack.depth site.stack < m.params.length := by
    simp [Stack.depth, Stack.slots, stack, arity]
  rw [check, if_neg (takesFormat_iff.mp takes), parsed]
  dsimp only
  rw [if_neg deep, found]
  simp [constantFormat, computed]

theorem assessed_of_constant (site : CallSite) (hierarchy : Hierarchy) (reportSignOnly : Bool)
    (m : MethodType) (format : Text) :
    site.Assessed (site.advice reportSignOnly format ++ site.countFindings m hierarchy format) := by
  refine ⟨_, _, rfl, ?_, countFindings_cases site hierarchy m format⟩
  unfold CallSite.advice
  split
  · exact .inr ⟨format, rfl⟩
  · exact .inl rfl

theorem CallSite.Assessed.not_notConstant (assessed : site.Assessed findings) :
    ∀ f ∈ findings, f.category ≠ Category.notConstant := by
  have apart : Category.signOnly ≠ Category.notConstant ∧
      Category.unknownArray ≠ Category.notConstant ∧
      Category.mismatch ≠ Category.notConstant := by decide
  intro f member
  rcases assessed.mem_cases member with ⟨format, rfl⟩ | rfl | ⟨_, _, _, rfl⟩
  · exact apart.1
  · exact apart.2.1
  · exact apart.2.2

/-- A computed format is reported only where the check has come as far as its slot. -/
theorem computesFormat_of_notConstant (checked : check site hierarchy reportSignOnly = .ok findings)
    {f : Finding} (member : f ∈ findings) (computed : f.category = Category.notConstant) :
    site.ComputesFormat := by
  rcases check_inversion checked with
    rfl | ⟨m, slot, parsed, deep, found, ⟨none, _⟩ | ⟨format, _, rfl⟩⟩
  · contradiction
  · obtain ⟨base, arguments, stack, arity⟩ :=
      Stack.exists_arguments (params_pos_of_formatSlot found) deep
    rw [stack] at found
    obtain ⟨i, first, passed⟩ := (formatSlot_eq_some_iff arity).mp found
    refine ⟨m, base, arguments, i, slot, parsed, stack, arity, first, passed, ?_⟩
    simpa [constantFormat] using none
  · exact absurd computed
      ((assessed_of_constant site hierarchy reportSignOnly m format).not_notConstant f member)

theorem notConstant_reported_iff :
    (∃ findings, check site hierarchy reportSignOnly = .ok findings ∧
        ∃ f ∈ findings, f.category = Category.notConstant) ↔
      site.TakesFormat ∧ site.ComputesFormat := by
  constructor
  · rintro ⟨findings, checked, f, member, computed⟩
    refine ⟨?_, computesFormat_of_notConstant checked member computed⟩
    by_contra other
    obtain rfl := Except.ok.inj ((check_of_no_call other).symm.trans checked)
    contradiction
  · rintro ⟨takes, computes⟩
    exact ⟨_, check_of_computed takes computes, _, List.mem_singleton_self _, rfl⟩

theorem assessed_of_check (checked : check site hierarchy reportSignOnly = .ok findings) :
    findings = [site.notConstant] ∨ site.Assessed findings := by
  rcases check_cases checked with rfl | rfl | ⟨m, format, rfl⟩
  · exact .inr ⟨[], [], rfl, .inl rfl, .inl rfl⟩
  · exact .inl rfl
  · exact .inr (assessed_of_constant site hierarchy reportSignOnly m format)

theorem about_call (checked : check site hierarchy reportSignOnly = .ok findings) {f : Finding}
    (member : f ∈ findings) :
    f.pos = site.pos ∧ f.called = site.called ∧ (f.category = Category.mismatch →
      ∃ placeholders arguments, placeholders ≠ arguments ∧
        f.payload = .mismatch placeholders arguments) := by
  have apart : Category.notConstant ≠ Category.mismatch ∧ Category.signOnly ≠ Category.mismatch ∧
      Category.unknownArray ≠ Category.mismatch := by decide
  rcases assessed_of_check checked with rfl | assessed
  · rw [List.mem_singleton.mp member]
    exact ⟨rfl, rfl, fun same => absurd same apart.1⟩
  rcases assessed.mem_cases member with ⟨format, rfl⟩ | rfl | ⟨placeholders, arguments, differ, rfl⟩
  · exact ⟨rfl, rfl, fun same => absurd same apart.2.1⟩
  · exact ⟨rfl, rfl, fun same => absurd same apart.2.2⟩
  · exact ⟨rfl, rfl, fun _ => ⟨placeholders, arguments, differ, rfl⟩⟩

end

/-- A check fails exactly for calls that take a format and have a malformed descriptor, and the
error names that. Any other check gives its findings in one of the known shapes, all about the call
itself. A computed format is reported exactly for calls that take one, and then nothing else is. -/
theorem check_outcome (site : CallSite) (hierarchy : Hierarchy) (reportSignOnly : Bool) :
    ((∃ e, check site hierarchy reportSignOnly = .error e) ↔
      site.TakesFormat ∧ ∃ e, Descriptor.parse site.desc = .error e) ∧
    (∀ e, check site hierarchy reportSignOnly = .error e →
      Descriptor.parse site.desc = .error e ∧ e.descriptor = site.desc ∧
        text "invalid method signature: " <+: e.message) ∧
    (∀ findings, check site hierarchy reportSignOnly = .ok findings →
      (findings = [site.notConstant] ∨ site.Assessed findings) ∧
      ∀ f ∈ findings, f.pos = site.pos ∧ f.called = site.called ∧ (f.category = Category.mismatch →
        ∃ placeholders arguments, placeholders ≠ arguments ∧
          f.payload = .mismatch placeholders arguments)) ∧
    ((∃ findings, check site hierarchy reportSignOnly = .ok findings ∧
        ∃ f ∈ findings, f.category = Category.notConstant) ↔
      site.TakesFormat ∧ site.ComputesFormat) := by
  refine ⟨?_, ?_, ?_, notConstant_reported_iff⟩
  · simp only [check_eq_error_iff, exists_and_left]
  · intro e failed
    obtain ⟨_, malformed⟩ := check_eq_error_iff.mp failed
    exact ⟨malformed, Descriptor.parse_error_descriptor malformed, Descriptor.message_prefix e⟩
  · intro findings checked
    exact ⟨assessed_of_check checked, fun f member => about_call checked member⟩

def computedFormat : CallSite :=
  doneCall "(Ljava/lang/String;Ljava/lang/Object;)V" [{ signature := FieldType.string }, {}]

theorem check_outcome_computedFormat :
    check computedFormat .initial true = .ok [computedFormat.notConstant] := by
  have takes : computedFormat.TakesFormat := ⟨rfl, by decide, by decide⟩
  have computes : computedFormat.ComputesFormat :=
    ⟨⟨[FieldType.string, FieldType.object], FieldType.void⟩, [], _, 0,
      { signature := FieldType.string },
      Descriptor.parse_iff.mpr (by decide), rfl, rfl, ⟨rfl, by omega⟩, rfl, rfl⟩
  obtain ⟨_, _, shapes, reported⟩ := check_outcome computedFormat .initial true
  obtain ⟨findings, checked, f, member, category⟩ := reported.mpr ⟨takes, computes⟩
  obtain ⟨rfl | assessed, _⟩ := shapes findings checked
  · exact checked
  · exact absurd category (assessed.not_notConstant f member)

/-- The message is computed, but printed as it is. -/
def computedMessage : CallSite :=
  doneCall "(Ljava/lang/String;)V" [{ signature := FieldType.string }]

theorem computed_message_unreported : ¬ ∀ site hierarchy reportSignOnly,
    (∃ findings, check site hierarchy reportSignOnly = .ok findings ∧
        ∃ f ∈ findings, f.category = Category.notConstant) ↔
      site.ComputesFormat := by
  have computes : computedMessage.ComputesFormat :=
    ⟨⟨[FieldType.string], FieldType.void⟩, [], _, 0, { signature := FieldType.string },
      Descriptor.parse_iff.mpr (by decide), rfl, rfl, ⟨rfl, by omega⟩, rfl, rfl⟩
  have plain : ¬ computedMessage.TakesFormat := fun takes => takes.desc (by decide)
  intro always
  obtain ⟨findings, checked, f, member, _⟩ := (always computedMessage .initial true).mpr computes
  obtain rfl := Except.ok.inj ((check_of_no_call plain).symm.trans checked)
  contradiction

end Logging

end TraceLint
