import TraceLint.Proofs.Logging.Conclusion
import TraceLint.Proofs.Logging.Outcome
import TraceLint.Proofs.Trace.Rebuilt

/-! Logging calls of which some constants were not recorded. A check looks at the constant of the
format, and at the type and the array of the slot on top; only the constant can be left out, and
then the format counts as computed. -/
namespace TraceLint.Logging

/-- A call is checked as far as the slot of its format, and the slot has a property. -/
def CallSite.FormatSatisfies (site : CallSite) (p : Stack.Slot → Prop) : Prop :=
  site.TakesFormat ∧ ∃ m slot, Descriptor.parse site.desc = .ok m ∧
    m.params.length ≤ Stack.depth site.stack ∧
    formatSlot m site.stack = some slot ∧ p slot

/-- What the format of a call gives, once its slot is found: computed or constant. -/
def CallSite.assess (site : CallSite) (m : Descriptor.MethodType) (hierarchy : Hierarchy)
    (reportSignOnly : Bool) :
    Option Text → List Finding
  | none => [site.notConstant]
  | some format => site.advice reportSignOnly format ++ site.countFindings m hierarchy format

theorem mem_slots_of_formatSlot {m : Descriptor.MethodType} {s : Option Stack.Snapshot}
    {slot : Stack.Slot} (found : formatSlot m s = some slot) : slot ∈ Stack.slots s := by
  obtain ⟨i, _, read⟩ := Option.bind_eq_some_iff.mp found
  rw [Stack.slot?_natCast] at read
  exact List.mem_reverse.mp (List.mem_of_getElem? read)

theorem CallSite.formatSatisfies_congr {site : CallSite} {p q : Stack.Slot → Prop}
    (same : ∀ slot ∈ Stack.slots site.stack, (p slot ↔ q slot)) :
    site.FormatSatisfies p ↔ site.FormatSatisfies q := by
  refine and_congr_right fun _ => exists₂_congr fun m slot => and_congr_right fun _ =>
    and_congr_right fun _ => ?_
  exact and_congr_right fun found => same slot (mem_slots_of_formatSlot found)

theorem mem_slots_of_loggingCalls {c : Bytecode.Class} {site : CallSite}
    (call : site ∈ loggingCalls c) {slot : Stack.Slot} (listed : slot ∈ Stack.slots site.stack) :
    slot ∈ c.slots := by
  obtain ⟨m, method, member⟩ := List.mem_flatMap.mp (List.mem_of_mem_filter call)
  obtain ⟨i, code, rfl⟩ := List.mem_map.mp member
  exact List.mem_flatMap.mpr ⟨m, method,
    List.mem_flatMap.mpr ⟨i, List.mem_of_mem_filter code, listed⟩⟩

section

variable (omits : Value → Bool)

/-- The call with the stack that was recorded. -/
def CallSite.recorded (site : CallSite) : CallSite :=
  { site with stack := Stack.recorded omits site.stack }

/-- The format of a call is a constant that is left out. -/
def CallSite.LosesFormat (site : CallSite) : Prop :=
  site.FormatSatisfies fun slot => slot.isConstant = true ∧ omits slot.constant = true

theorem formatSlot_recorded (m : Descriptor.MethodType) (s : Option Stack.Snapshot) :
    formatSlot m (Stack.recorded omits s) = (formatSlot m s).map (Stack.Slot.recorded omits) := by
  rw [formatSlot, formatSlot]
  cases m.depthOf? Descriptor.FieldType.string with
  | none => rfl
  | some i => exact Stack.slot?_recorded omits s i

theorem constantFormat_recorded (slot : Stack.Slot) :
    constantFormat (some (slot.recorded omits)) =
      if omits slot.constant then none else constantFormat (some slot) := by
  unfold Stack.Slot.recorded
  split <;> rfl

/-- The arguments are counted without a look at constants. -/
theorem countArguments_recorded (m : Descriptor.MethodType) (s : Option Stack.Snapshot)
    (hierarchy : Hierarchy) :
    countArguments m (Stack.recorded omits s) hierarchy = countArguments m s hierarchy := by
  have array : ((Stack.slot? s 0).map (Stack.Slot.recorded omits)).bind Stack.Slot.array =
      (Stack.slot? s 0).bind Stack.Slot.array := by
    cases Stack.slot? s 0 <;> rfl
  have throwable : hierarchy.isThrowable ((Stack.slot? s 0).map (Stack.Slot.recorded omits)) =
      hierarchy.isThrowable (Stack.slot? s 0) := by
    cases Stack.slot? s 0 <;> rfl
  simp only [countArguments, Stack.slot?_recorded, array, throwable]

variable {omits} (hierarchy : Hierarchy) (reportSignOnly : Bool) {site : CallSite}
    {m : Descriptor.MethodType}

theorem check_of_slot (takes : site.TakesFormat) (parsed : Descriptor.parse site.desc = .ok m)
    (deep : m.params.length ≤ Stack.depth site.stack) {slot : Stack.Slot}
    (found : formatSlot m site.stack = some slot) :
    check site hierarchy reportSignOnly =
      .ok (site.assess m hierarchy reportSignOnly (constantFormat (some slot))) := by
  rw [check, if_neg (takesFormat_iff.mp takes), parsed]
  dsimp only
  rw [if_neg (Nat.not_lt.mpr deep), found]
  dsimp only
  cases constantFormat (some slot) with
  | none => rfl
  | some format => simp [CallSite.assess, CallSite.advice, isSignOnly_iff]

theorem check_of_no_slot (parsed : Descriptor.parse site.desc = .ok m)
    (missing : m.params.length ≤ Stack.depth site.stack → formatSlot m site.stack = none) :
    check site hierarchy reportSignOnly = .ok [] := by
  unfold check
  split
  · rfl
  rw [parsed]
  dsimp only
  split
  · rfl
  · rename_i deep
    rw [missing (Nat.not_lt.mp deep)]

theorem CallSite.TakesFormat.recorded (takes : site.TakesFormat) :
    (site.recorded omits).TakesFormat :=
  ⟨takes.owner, takes.name, takes.desc⟩

/-- Of a call that gets as far as its format, only the constant of the format can be missed. -/
theorem check_recorded_of_slot (takes : site.TakesFormat)
    (parsed : Descriptor.parse site.desc = .ok m) (deep : m.params.length ≤ Stack.depth site.stack)
    {slot : Stack.Slot} (found : formatSlot m site.stack = some slot) :
    check (site.recorded omits) hierarchy reportSignOnly =
      if omits slot.constant then .ok [site.notConstant]
        else check site hierarchy reportSignOnly := by
  have deep' : m.params.length ≤ Stack.depth (site.recorded omits).stack := by
    rwa [CallSite.recorded, Stack.depth_recorded]
  have found' : formatSlot m (site.recorded omits).stack = some (slot.recorded omits) := by
    rw [CallSite.recorded, formatSlot_recorded, found, Option.map_some]
  have same (format : Option Text) :
      (site.recorded omits).assess m hierarchy reportSignOnly format =
      site.assess m hierarchy reportSignOnly format := by
    cases format with
    | none => rfl
    | some format =>
      simp only [CallSite.assess, CallSite.countFindings, CallSite.recorded,
        countArguments_recorded]
      rfl
  rw [check_of_slot hierarchy reportSignOnly takes.recorded parsed deep' found',
    constantFormat_recorded, same, check_of_slot hierarchy reportSignOnly takes parsed deep found]
  cases omits slot.constant <;> rfl

theorem check_recorded_of_loses (loses : site.LosesFormat omits) :
    check (site.recorded omits) hierarchy reportSignOnly = .ok [site.notConstant] := by
  obtain ⟨takes, m, slot, parsed, deep, found, _, omitted⟩ := loses
  rw [check_recorded_of_slot hierarchy reportSignOnly takes parsed deep found, if_pos omitted]

theorem check_recorded_of_keeps (keeps : ¬ site.LosesFormat omits) :
    check (site.recorded omits) hierarchy reportSignOnly = check site hierarchy reportSignOnly := by
  by_cases takes : site.TakesFormat
  · cases parsed : Descriptor.parse site.desc with
    | error e =>
      rw [check_eq_error_iff.mpr ⟨takes.recorded, parsed⟩,
        check_eq_error_iff.mpr ⟨takes, parsed⟩]
    | ok m =>
      by_cases reached : m.params.length ≤ Stack.depth site.stack ∧
        ∃ slot, formatSlot m site.stack = some slot
      · obtain ⟨deep, slot, found⟩ := reached
        rw [check_recorded_of_slot hierarchy reportSignOnly takes parsed deep found]
        split
        · rename_i omitted
          -- What is omitted was no constant before.
          have computed : slot.isConstant = false := by
            rw [Bool.eq_false_iff]
            exact fun constant => keeps ⟨takes, m, slot, parsed, deep, found, constant, omitted⟩
          rw [check_of_slot hierarchy reportSignOnly takes parsed deep found]
          simp [constantFormat, computed, CallSite.assess]
        · rfl
      · have missing : m.params.length ≤ Stack.depth site.stack →
            formatSlot m site.stack = none := by
          intro deep
          rw [Option.eq_none_iff_forall_ne_some]
          exact fun slot found => reached ⟨deep, slot, found⟩
        have missing' : m.params.length ≤ Stack.depth (site.recorded omits).stack →
            formatSlot m (site.recorded omits).stack = none := by
          rw [CallSite.recorded, Stack.depth_recorded, formatSlot_recorded, Option.map_eq_none_iff]
          exact missing
        have parsed' : Descriptor.parse (site.recorded omits).desc = .ok m := parsed
        rw [check_of_no_slot hierarchy reportSignOnly parsed missing,
          check_of_no_slot hierarchy reportSignOnly parsed' missing']
  · have other : ¬ (site.recorded omits).TakesFormat :=
      fun takes' => takes ⟨takes'.owner, takes'.name, takes'.desc⟩
    rw [check_of_no_call takes, check_of_no_call other]

end

section

variable (omits : Value → Bool) (hierarchy : Hierarchy) (reportSignOnly : Bool)

/-- How many formats are reported as computed. -/
def computed (findings : List Finding) : Nat :=
  findings.countP fun f => f.category = Category.notConstant

variable {omits} {site : CallSite}

theorem findingsAt_recorded_of_keeps (keeps : ¬ site.LosesFormat omits) :
    findingsAt hierarchy reportSignOnly (site.recorded omits) =
      findingsAt hierarchy reportSignOnly site := by
  rw [findingsAt, check_recorded_of_keeps hierarchy reportSignOnly keeps, findingsAt]

/-- A constant format is not reported as computed, so leaving it out shows. -/
theorem computed_lt_of_loses (loses : site.LosesFormat omits) :
    computed (findingsAt hierarchy reportSignOnly site) <
      computed (findingsAt hierarchy reportSignOnly (site.recorded omits)) := by
  have after : findingsAt hierarchy reportSignOnly (site.recorded omits) = [site.notConstant] := by
    rw [findingsAt, check_recorded_of_loses hierarchy reportSignOnly loses]
  obtain ⟨takes, m, slot, parsed, deep, found, constant, _⟩ := loses
  have before : computed (findingsAt hierarchy reportSignOnly site) = 0 := by
    have format : constantFormat (some slot) = some slot.constant.shown := if_pos constant
    have assessed := assessed_of_constant site hierarchy reportSignOnly m slot.constant.shown
    rw [findingsAt, check_of_slot hierarchy reportSignOnly takes parsed deep found, format]
    refine List.countP_eq_zero.mpr fun f member => ?_
    rw [decide_eq_true_iff]
    exact assessed.not_notConstant f member
  rw [before, after]
  exact Nat.zero_lt_one

theorem computed_le (omits : Value → Bool) (sites : List CallSite) :
    computed (sites.flatMap (findingsAt hierarchy reportSignOnly)) ≤
      computed (sites.flatMap fun site =>
        findingsAt hierarchy reportSignOnly (site.recorded omits)) := by
  induction sites with
  | nil => exact Nat.le_refl _
  | cons site rest ih =>
    rw [List.flatMap_cons, List.flatMap_cons, computed, computed, List.countP_append,
      List.countP_append]
    refine Nat.add_le_add ?_ ih
    by_cases loses : site.LosesFormat omits
    · exact (computed_lt_of_loses hierarchy reportSignOnly loses).le
    · rw [findingsAt_recorded_of_keeps hierarchy reportSignOnly loses]

/-- The findings stay the same exactly if no format is left out. -/
theorem findings_recorded_eq_iff (sites : List CallSite) :
    (sites.flatMap fun site => findingsAt hierarchy reportSignOnly (site.recorded omits)) =
        sites.flatMap (findingsAt hierarchy reportSignOnly) ↔
      ∀ site ∈ sites, ¬ site.LosesFormat omits := by
  constructor
  · intro same site member loses
    obtain ⟨front, back, rfl⟩ := List.append_of_mem member
    -- No other call can make up for the format that counts as computed here.
    have counts := congrArg computed same
    have before := computed_le hierarchy reportSignOnly omits front
    have here := computed_lt_of_loses hierarchy reportSignOnly loses
    have after := computed_le hierarchy reportSignOnly omits back
    simp only [List.flatMap_append, List.flatMap_cons, computed,
      List.countP_append] at counts before here after
    omega
  · intro kept
    exact List.flatMap_congr fun site member =>
      findingsAt_recorded_of_keeps hierarchy reportSignOnly (kept site member)

theorem loggingCalls_mapStack (c : Bytecode.Class) :
    loggingCalls (c.mapStack (Stack.recorded omits)) =
      (loggingCalls c).map (CallSite.recorded omits) := by
  have calls (m : Bytecode.Method) :
      ((m.mapStack (Stack.recorded omits)).code.filter fun i => i.op = .invokeInterface).map
          (CallSite.of (c.mapStack (Stack.recorded omits)) (m.mapStack (Stack.recorded omits))) =
        ((m.code.filter fun i => i.op = .invokeInterface).map (CallSite.of c m)).map
          (CallSite.recorded omits) := by
    rw [Bytecode.Method.mapStack, List.filter_map, List.map_map, List.map_map]
    rfl
  have logging : CallSite.isLogging ∘ CallSite.recorded omits = CallSite.isLogging := rfl
  rw [loggingCalls, interfaceCalls]
  change ((c.methods.map (Bytecode.Method.mapStack _)).flatMap _).filter _ = _
  rw [List.flatMap_map]
  simp only [calls]
  rw [← List.map_flatMap, List.filter_map, logging]
  rfl

end

end TraceLint.Logging
