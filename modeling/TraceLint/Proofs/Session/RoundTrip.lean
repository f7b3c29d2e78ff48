import TraceLint.Proofs.Logging.Constants
import TraceLint.Proofs.Session.Logging
import TraceLint.Proofs.Trace.MessagePack

/-! What a round trip through MessagePack does to the classes of a trace and to what is reported on
them. A constant that is the empty text is not written, and unknown from then on. -/
namespace TraceLint

open Trace (File SlotRecord packedLimits)
open Trace.ToMessagePack (isZero)

section Constants

/-- Of unknown constants and texts, only the empty text is left out. -/
theorem isZero_iff {v : Value} (plain : packedLimits.constant v) :
    v.isNull = false ∧ isZero v = true ↔ v = .text [] := by
  obtain rfl | ⟨s, rfl, _⟩ := plain
  · simp [Value.isNull]
  · simp [Value.isNull, isZero]

theorem recorded_constant_eq_iff {v : Value} (plain : packedLimits.constant v) :
    (if isZero v then .null else v) = v ↔ v ≠ .text [] := by
  obtain rfl | ⟨s, rfl, _⟩ := plain
  · simp [isZero]
  · cases s <;> simp [isZero]

theorem Trace.SlotRecord.recorded_eq_iff {s : SlotRecord} (within : s.Within packedLimits) :
    s.recorded isZero = s ↔ s.const ≠ .text [] := by
  refine Iff.trans ?_ (recorded_constant_eq_iff within.const)
  exact ⟨congrArg const, congrArg fun const => { s with const }⟩

theorem Stack.Slot.recorded_build_eq_iff {s : SlotRecord} (within : s.Within packedLimits) :
    s.build.recorded isZero = s.build ↔ s.const ≠ .text [] := by
  refine Iff.trans ?_ (recorded_constant_eq_iff within.const)
  exact ⟨congrArg constant, congrArg fun constant => { s.build with constant }⟩

end Constants

section Classes

variable {f : File} {classes : List Bytecode.Class} (within : f.Within packedLimits)
    (built : f.build = .ok classes)
include within built

/-- The slots come back exactly if no constant is an empty text. -/
theorem slots_recorded_eq_iff :
    (classes.map (Bytecode.Class.mapStack (Stack.recorded isZero))).flatMap Bytecode.Class.slots =
        classes.flatMap Bytecode.Class.slots ↔ ∀ s ∈ f.slots, s.const ≠ .text [] := by
  have slots :
      (classes.map (Bytecode.Class.mapStack (Stack.recorded isZero))).flatMap Bytecode.Class.slots =
      f.slots.map fun s => s.build.recorded isZero := by
    rw [List.flatMap_map]
    simp only [Bytecode.Class.slots_mapStack]
    rw [← List.map_flatMap, File.slots_of_build built, List.map_map]
    rfl
  rw [slots, File.slots_of_build built, List.map_inj_left]
  exact forall₂_congr fun s member => Stack.Slot.recorded_build_eq_iff (within.slots s member)

theorem plain_of_mem_slots {c : Bytecode.Class} (member : c ∈ classes) {slot : Stack.Slot}
    (listed : slot ∈ c.slots) :
    packedLimits.constant slot.constant := by
  have listed : slot ∈ classes.flatMap Bytecode.Class.slots :=
    List.mem_flatMap.mpr ⟨c, member, listed⟩
  rw [File.slots_of_build built] at listed
  obtain ⟨s, member, rfl⟩ := List.mem_map.mp listed
  exact (within.slots s member).const

theorem losesFormat_iff {c : Bytecode.Class} (member : c ∈ classes) {site : Logging.CallSite}
    (call : site ∈ Logging.loggingCalls c) :
    site.LosesFormat isZero ↔ site.FormatSatisfies fun slot => slot.constant = .text [] := by
  refine Logging.CallSite.formatSatisfies_congr fun slot listed => ?_
  rw [← isZero_iff
    (plain_of_mem_slots within built member (Logging.mem_slots_of_loggingCalls call listed))]
  simp [Stack.Slot.isConstant]

end Classes

namespace Session

open Logging (loggingCalls)

/-- What the analysis of logging calls reports on some classes. -/
def reported (reportSignOnly : Bool) (classes : List Bytecode.Class) : List Finding :=
  ((logging reportSignOnly (.ofClasses classes)).analyze [1]).flatMap fun root =>
    root.conclusion.findings

theorem reported_eq (reportSignOnly : Bool) (classes : List Bytecode.Class) :
    reported reportSignOnly classes =
      ((classes.filter fun c => !c.incomplete).flatMap loggingCalls).flatMap
      (Logging.findingsAt (Bytecode.Program.ofClasses classes).hierarchy reportSignOnly) := by
  rw [reported, findings_analyze_logging, findingsOf_eq, List.flatMap_assoc]
  rfl

/-- The same is reported exactly if no format is left out. -/
theorem reported_recorded_eq_iff (omits : Value → Bool) (reportSignOnly : Bool)
    (classes : List Bytecode.Class) :
    reported reportSignOnly (classes.map (Bytecode.Class.mapStack (Stack.recorded omits))) =
        reported reportSignOnly classes ↔
      ∀ c ∈ classes, c.incomplete = false → ∀ site ∈ loggingCalls c, ¬ site.LosesFormat omits := by
  have hierarchy :
      (Bytecode.Program.ofClasses
        (classes.map (Bytecode.Class.mapStack (Stack.recorded omits)))).hierarchy =
        (Bytecode.Program.ofClasses classes).hierarchy := List.foldl_map
  have calls :
      ((classes.map (Bytecode.Class.mapStack (Stack.recorded omits))).filter
        fun c => !c.incomplete).flatMap loggingCalls =
      ((classes.filter fun c => !c.incomplete).flatMap loggingCalls).map
        (Logging.CallSite.recorded omits) := by
    rw [List.filter_map, List.flatMap_map, List.map_flatMap]
    simp only [Logging.loggingCalls_mapStack]
    rfl
  rw [reported_eq, reported_eq, hierarchy, calls, List.flatMap_map,
    Logging.findings_recorded_eq_iff]
  simp only [List.mem_flatMap, List.mem_filter]
  grind

/-- Through MessagePack a trace loses the constants that are empty texts and nothing else. It comes
back whole, and its classes with all slots, exactly if there are none; what is reported changes
exactly if one of them is the format of a logging call. -/
theorem messagePack_keeps_all_but_empty_constants {f : File} (within : f.Within packedLimits) :
    ∃ data g, Trace.encode .messagePack f = .ok data ∧ Trace.decode .messagePack data = .ok g ∧
      g = (f.recorded isZero).compact ∧
      (g = f.compact ↔ ∀ s ∈ f.slots, s.const ≠ .text []) ∧
      g.build = f.build.map (List.map (Bytecode.Class.mapStack (Stack.recorded isZero))) ∧
      ∀ classes classes', f.build = .ok classes → g.build = .ok classes' →
        (classes'.flatMap Bytecode.Class.slots = classes.flatMap Bytecode.Class.slots ↔
          ∀ s ∈ f.slots, s.const ≠ .text []) ∧
        ∀ reportSignOnly, reported reportSignOnly classes' = reported reportSignOnly classes ↔
          ∀ c ∈ classes, c.incomplete = false → ∀ site ∈ loggingCalls c,
            ¬ site.FormatSatisfies fun slot => slot.constant = .text [] := by
  refine ⟨_, _, rfl, Trace.decode_encodeMessagePack within, rfl, ?_, File.build_recorded isZero f,
    ?_⟩
  · rw [File.recorded_compact_eq_iff]
    exact forall₂_congr fun s member => SlotRecord.recorded_eq_iff (within.slots s member)
  · intro classes classes' built rebuilt
    rw [File.build_recorded, built] at rebuilt
    cases rebuilt
    refine ⟨slots_recorded_eq_iff within built, fun reportSignOnly => ?_⟩
    rw [reported_recorded_eq_iff]
    refine forall₂_congr fun c member => forall_congr' fun _ => forall₂_congr fun site call => ?_
    rw [losesFormat_iff within built member call]

/-- A trace with one call of a logging method, which passes a format and an argument. -/
def greeting (format argument : Text) : File :=
  { classes := some [{ name := text "a/B", methods := some [
      { name := text "m", desc := text "()V", code := some [
        { op := text "invokeinterface", owner := Logging.loggerClass, name := text "info",
          desc := text "(Ljava/lang/String;Ljava/lang/Object;)V", want := some [],
          stack := some [{ const := .text format },
            { const := .text argument, array := some { size := 1 } }] }] }] }] }

theorem greeting_within {format argument : Text} (short : format.length < 0x100000000)
    (short' : argument.length < 0x100000000) : (greeting format argument).Within packedLimits := by
  have named (s : String) (small : (text s).length < 0x100000000) : packedLimits.text (text s) :=
    small
  have empty : packedLimits.text [] := named "" (by decide)
  have few (n : Nat) (small : n < 3) : packedLimits.count n := show n < 0x100000000 by omega
  refine ⟨few 1 (by decide), List.forall_mem_singleton.mpr ?_⟩
  refine ⟨named _ (by decide), empty, empty, few 1 (by decide), List.forall_mem_singleton.mpr ?_⟩
  refine ⟨named _ (by decide), named _ (by decide), few 1 (by decide),
    List.forall_mem_singleton.mpr ?_⟩
  refine ⟨named _ (by decide), named _ (by decide), named _ (by decide), named _ (by decide),
    few 2 (by decide), ?_, few 0 (by decide), List.forall_mem_nil _⟩
  exact List.forall_mem_cons.mpr ⟨⟨empty, .inr ⟨_, rfl, short⟩⟩,
    List.forall_mem_singleton.mpr ⟨empty, .inr ⟨_, rfl, short'⟩⟩⟩

/-- An argument that is an empty text is lost, but the report does not depend on it. -/
theorem messagePack_loses_empty_argument :
    ∃ data g classes classes', Trace.encode .messagePack (greeting (text "hi") []) = .ok data ∧
      Trace.decode .messagePack data = .ok g ∧ g ≠ (greeting (text "hi") []).compact ∧
      (greeting (text "hi") []).build = .ok classes ∧ g.build = .ok classes' ∧
      reported true classes' = reported true classes := by
  have within : (greeting (text "hi") []).Within packedLimits :=
    greeting_within (by decide) (by decide)
  have evaluated : ((greeting (text "hi") []).build.toOption.any fun classes => decide (
      ∀ c ∈ classes, ∀ site ∈ loggingCalls c, (Descriptor.parse site.desc).toOption.all fun m =>
        Logging.constantFormat (Logging.formatSlot m site.stack) = some (text "hi"))) = true := by
    decide +kernel
  obtain ⟨classes, built, formats⟩ := exists_of_any evaluated
  obtain ⟨data, g, encoded, decoded, _, same, rebuilt, findings⟩ :=
    messagePack_keeps_all_but_empty_constants within
  rw [built] at rebuilt
  refine ⟨data, g, classes, _, encoded, decoded, ?_, built, rebuilt, ?_⟩
  · exact fun whole => same.mp whole _ (List.mem_cons_of_mem _ List.mem_cons_self) rfl
  · refine ((findings classes _ built rebuilt).2 true).mpr ?_
    rintro c member _ site call ⟨_, m, slot, parsed, _, found, empty⟩
    have format := of_decide_eq_true formats c member site call
    rw [parsed] at format
    have format := of_decide_eq_true format
    rw [found, Logging.constantFormat, Stack.Slot.isConstant, empty] at format
    exact absurd format (by decide)

/-- A format that is an empty text counts as computed afterwards. -/
theorem messagePack_loses_empty_format :
    ∃ data g classes classes', Trace.encode .messagePack (greeting [] (text "hi")) = .ok data ∧
      Trace.decode .messagePack data = .ok g ∧ g ≠ (greeting [] (text "hi")).compact ∧
      (greeting [] (text "hi")).build = .ok classes ∧ g.build = .ok classes' ∧
      (reported true classes).map Finding.category =
        [Logging.Category.signOnly, Logging.Category.mismatch] ∧
      (reported true classes').map Finding.category = [Logging.Category.notConstant] := by
  have evaluated : ((greeting [] (text "hi")).build.toOption.any fun classes => decide (
      (reported true classes).map Finding.category =
        [Logging.Category.signOnly, Logging.Category.mismatch] ∧
      (reported true (classes.map (Bytecode.Class.mapStack (Stack.recorded isZero)))).map
        Finding.category =
        [Logging.Category.notConstant])) = true := by
    decide +kernel
  obtain ⟨classes, built, findings⟩ := exists_of_any evaluated
  obtain ⟨before, after⟩ := of_decide_eq_true findings
  have within : (greeting [] (text "hi")).Within packedLimits :=
    greeting_within (by decide) (by decide)
  have rebuilt := File.build_recorded isZero (greeting [] (text "hi"))
  rw [built] at rebuilt
  refine ⟨_, _, classes, _, rfl, Trace.decode_encodeMessagePack within, ?_, built, rebuilt, before,
    after⟩
  rw [ne_eq, File.recorded_compact_eq_iff]
  intro kept
  exact (SlotRecord.recorded_eq_iff (within.slots _ List.mem_cons_self)).mp
    (kept _ List.mem_cons_self) rfl

end Session

end TraceLint
