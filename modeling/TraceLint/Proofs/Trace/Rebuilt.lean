import TraceLint.Proofs.Logging.Locality
import TraceLint.Proofs.Trace.Build
import TraceLint.Proofs.Trace.Schema

/-! The classes of a trace that was written and read again. They differ only in their operand
stacks: constants that were left out are unknown, and a stack without slots is absent. -/
namespace TraceLint

namespace Stack

variable (omits : Value → Bool) (s : Option Snapshot)

/-- A slot of which the constant may be left out. -/
def Slot.recorded (slot : Slot) : Slot :=
  { slot with constant := if omits slot.constant then .null else slot.constant }

/-- A stack of such slots, absent if it has none. -/
def recorded : Option Snapshot :=
  if (slots s).isEmpty then none else some ⟨(slots s).map (Slot.recorded omits)⟩

theorem slots_recorded : slots (recorded omits s) = (slots s).map (Slot.recorded omits) := by
  rw [recorded]
  split
  · rename_i empty
    rw [List.isEmpty_iff.mp empty]
    rfl
  · rfl

theorem depth_recorded : depth (recorded omits s) = depth s := by
  rw [depth, slots_recorded, List.length_map]
  rfl

theorem slot?_recorded (i : Int) :
    slot? (recorded omits s) i = (slot? s i).map (Slot.recorded omits) := by
  by_cases below : i < 0
  · rw [slot?, slot?, if_pos below, if_pos below]
    rfl
  · obtain ⟨n, rfl⟩ := Int.eq_ofNat_of_zero_le (Int.not_lt.mp below)
    rw [slot?_natCast, slot?_natCast, slots_recorded, ← List.map_reverse, List.getElem?_map]

end Stack

namespace Bytecode

variable (g : Option Stack.Snapshot → Option Stack.Snapshot)

def Instruction.mapStack (i : Instruction) : Instruction := { i with stack := g i.stack }

def Method.mapStack (m : Method) : Method := { m with code := m.code.map (Instruction.mapStack g) }

/-- The same class with other operand stacks. -/
def Class.mapStack (c : Class) : Class := { c with methods := c.methods.map (Method.mapStack g) }

/-- All slots of a class, in the order of its code. -/
def Class.slots (c : Class) : List Stack.Slot :=
  c.methods.flatMap fun m => m.code.flatMap fun i => Stack.slots i.stack

theorem Class.slots_mapStack (omits : Value → Bool) (c : Class) :
    (c.mapStack (Stack.recorded omits)).slots = c.slots.map (Stack.Slot.recorded omits) := by
  simp [slots, mapStack, Method.mapStack, Instruction.mapStack, List.flatMap_map, List.map_flatMap,
    Stack.slots_recorded]

end Bytecode

namespace Trace

section Build

variable (omits : Value → Bool)

theorem InstructionRecord.build_recorded (i : InstructionRecord) :
    ((i.mapSlots (SlotRecord.recorded omits)).compact).build =
      i.build.map (Bytecode.Instruction.mapStack (Stack.recorded omits)) := by
  have slot (s : SlotRecord) : (s.recorded omits).build = s.build.recorded omits := rfl
  have stack : ((i.mapSlots (SlotRecord.recorded omits)).compact.stack).map
      (fun slots => (⟨slots.map SlotRecord.build⟩ : Stack.Snapshot)) =
        Stack.recorded omits (i.stack.map fun slots => ⟨slots.map SlotRecord.build⟩) := by
    cases given : i.stack with
    | none => simp [mapSlots, compact, given, Stack.recorded, Stack.slots]
    | some slots =>
      cases slots <;> simp [mapSlots, compact, given, Stack.recorded, Stack.slots, slot]
  rw [InstructionRecord.build, stack, InstructionRecord.build]
  dsimp only [compact, mapSlots]
  cases Bytecode.Opcode.ofMnemonic? i.op with
  | none => rfl
  | some op =>
    dsimp only
    rw [apply_ite (Except.map _)]
    rfl

variable {r : InstructionRecord → InstructionRecord}
  {g : Option Stack.Snapshot → Option Stack.Snapshot} (pc : ∀ i, (r i).pc = i.pc)
  (build : ∀ i, (r i).build = i.build.map (Bytecode.Instruction.mapStack g))
include pc build

theorem buildCode_map (previous : Option Int64) (records : List InstructionRecord) :
    buildCode previous (records.map r) =
      (buildCode previous records).map (List.map (Bytecode.Instruction.mapStack g)) := by
  induction records generalizing previous with
  | nil => rfl
  | cons i rest ih =>
    rw [List.map_cons, buildCode, buildCode, pc, build, ih]
    split
    · rfl
    · cases i.build with
      | error fault => rfl
      | ok instruction => cases buildCode (some i.pc) rest <;> rfl

theorem MethodRecord.build_mapCode (cls : Text) (m : MethodRecord) :
    (m.mapCode r).build cls = (m.build cls).map (Bytecode.Method.mapStack g) := by
  have code : (m.mapCode r).code.getD [] = (m.code.getD []).map r := by
    cases given : m.code <;> simp [mapCode, given]
  rw [MethodRecord.build, code, buildCode_map pc build, MethodRecord.build]
  cases buildCode none (m.code.getD []) <;> rfl

theorem buildMethods_map (cls : Text) (records : List MethodRecord) :
    buildMethods cls (records.map (MethodRecord.mapCode r)) =
      (buildMethods cls records).map (List.map (Bytecode.Method.mapStack g)) := by
  induction records with
  | nil => rfl
  | cons m rest ih =>
    rw [List.map_cons, buildMethods, buildMethods, m.build_mapCode pc build, ih]
    cases m.build cls with
    | error fault => rfl
    | ok method => cases buildMethods cls rest <;> rfl

theorem ClassRecord.build_mapCode (c : ClassRecord) :
    (c.mapCode r).build = c.build.map (Bytecode.Class.mapStack g) := by
  have methods :
      (c.mapCode r).methods.getD [] = (c.methods.getD []).map (MethodRecord.mapCode r) := by
    cases given : c.methods <;> simp [mapCode, given]
  by_cases unnamed : c.name = []
  · rw [ClassRecord.build, if_pos (show (c.mapCode r).name = [] from unnamed), ClassRecord.build,
      if_pos unnamed]
    rfl
  · rw [ClassRecord.build, if_neg (show (c.mapCode r).name ≠ [] from unnamed), methods,
      buildMethods_map pc build, ClassRecord.build, if_neg unnamed]
    change _ = ((buildMethods (c.mapCode r).name (c.methods.getD [])).map _).map _
    cases buildMethods (c.mapCode r).name (c.methods.getD []) <;> rfl

theorem buildClasses_map (records : List ClassRecord) :
    buildClasses (records.map (ClassRecord.mapCode r)) =
      (buildClasses records).map (List.map (Bytecode.Class.mapStack g)) := by
  induction records with
  | nil => rfl
  | cons c rest ih =>
    rw [List.map_cons, buildClasses, buildClasses, c.build_mapCode pc build, ih]
    cases c.build with
    | error fault => rfl
    | ok cls => cases buildClasses rest <;> rfl

theorem File.build_mapCode (f : File) :
    (f.mapCode r).build = f.build.map (List.map (Bytecode.Class.mapStack g)) := by
  have classes :
      (f.mapCode r).classes.getD [] = (f.classes.getD []).map (ClassRecord.mapCode r) := by
    cases given : f.classes <;> simp [mapCode, given]
  rw [File.build, classes, buildClasses_map pc build]
  rfl

end Build

theorem File.mapCode_mapCode (r r' : InstructionRecord → InstructionRecord) (f : File) :
    (f.mapCode r).mapCode r' = f.mapCode (r' ∘ r) := by
  have method (m : MethodRecord) : (m.mapCode r).mapCode r' = m.mapCode (r' ∘ r) := by
    simp [MethodRecord.mapCode, Function.comp_def]
  have cls (c : ClassRecord) : (c.mapCode r).mapCode r' = c.mapCode (r' ∘ r) := by
    simp [ClassRecord.mapCode, Function.comp_def, method]
  simp [mapCode, Function.comp_def, cls]

/-- A trace that was written and read again describes the same classes with the stacks that were
recorded. -/
theorem File.build_recorded (omits : Value → Bool) (f : File) :
    (f.recorded omits).compact.build =
      f.build.map (List.map (Bytecode.Class.mapStack (Stack.recorded omits))) := by
  rw [compact, recorded, mapCode_mapCode]
  refine build_mapCode ?_ (InstructionRecord.build_recorded omits) f
  exact fun _ => rfl

section Slots

/-- The records of all instructions, in document order. -/
def File.code (f : File) : List InstructionRecord :=
  (f.classes.getD []).flatMap fun c => (c.methods.getD []).flatMap fun m => m.code.getD []

/-- The records of all slots, in document order. -/
def File.slots (f : File) : List SlotRecord := f.code.flatMap fun i => i.stack.getD []

theorem getD_map_map {α β : Type} (g : α → β) (xs : Option (List α)) :
    (xs.map (List.map g)).getD [] = (xs.getD []).map g := by
  cases xs <;> rfl

theorem File.code_mapCode (r : InstructionRecord → InstructionRecord) (f : File) :
    (f.mapCode r).code = f.code.map r := by
  simp [code, mapCode, ClassRecord.mapCode, MethodRecord.mapCode, getD_map_map, List.map_flatMap,
    List.flatMap_map]

theorem File.slots_compact (f : File) : f.compact.slots = f.slots := by
  have kept (i : InstructionRecord) : i.compact.stack.getD [] = i.stack.getD [] := by
    cases given : i.stack with
    | none => simp [InstructionRecord.compact, given]
    | some slots => cases slots <;> simp [InstructionRecord.compact, given, Option.filter]
  simp [slots, compact, code_mapCode, List.flatMap_map, kept]

theorem File.slots_recorded (omits : Value → Bool) (f : File) :
    (f.recorded omits).slots = f.slots.map (SlotRecord.recorded omits) := by
  simp [slots, recorded, code_mapCode, List.flatMap_map, List.map_flatMap,
    InstructionRecord.mapSlots, getD_map_map]

theorem map_eq_self {α : Type} {g : α → α} {xs : Option (List α)}
    (kept : ∀ x ∈ xs.getD [], g x = x) :
    xs.map (List.map g) = xs := by
  cases xs with
  | none => rfl
  | some xs => exact congrArg some ((List.map_congr_left kept).trans (List.map_id xs))

theorem File.mapCode_eq_self {r : InstructionRecord → InstructionRecord} {f : File}
    (kept : ∀ i ∈ f.code, r i = i) :
    f.mapCode r = f := by
  refine congrArg File.mk (map_eq_self fun c given => ?_)
  have methods : c.methods.map (List.map (MethodRecord.mapCode r)) = c.methods := by
    refine map_eq_self fun m listed => ?_
    have code : m.code.map (List.map r) = m.code := by
      refine map_eq_self fun i member => kept i ?_
      exact List.mem_flatMap.mpr ⟨c, given, List.mem_flatMap.mpr ⟨m, listed, member⟩⟩
    exact congrArg (MethodRecord.mk m.name m.desc) code
  exact congrArg (fun methods => ClassRecord.mk c.name c.super c.source methods c.incomplete)
    methods

theorem File.recorded_eq_self {omits : Value → Bool} {f : File}
    (kept : ∀ s ∈ f.slots, s.recorded omits = s) :
    f.recorded omits = f := by
  refine mapCode_eq_self fun i member => ?_
  have stack : i.stack.map (List.map (SlotRecord.recorded omits)) = i.stack :=
    map_eq_self fun s listed => kept s (List.mem_flatMap.mpr ⟨i, member, listed⟩)
  exact congrArg (fun stack => { i with stack }) stack

/-- A trace comes back exactly if no constant is left out. -/
theorem File.recorded_compact_eq_iff {omits : Value → Bool} {f : File} :
    (f.recorded omits).compact = f.compact ↔ ∀ s ∈ f.slots, s.recorded omits = s := by
  constructor
  · intro same
    have slots := congrArg File.slots same
    rw [slots_compact, slots_compact, slots_recorded] at slots
    exact List.map_inj_left.mp (slots.trans (List.map_id f.slots).symm)
  · intro kept
    rw [recorded_eq_self kept]

/-- What is found part by part, in order, is what the records of the parts say. -/
theorem flatMap_of_each {α β γ δ : Type} {built : α → β → Prop} {said : α → List γ}
    {found : β → List δ} {g : γ → δ} {records : List α} {parts : List β}
    (each : List.Forall₂ built records parts) (same : ∀ r b, built r b → found b = (said r).map g) :
    parts.flatMap found = (records.flatMap said).map g := by
  induction each with
  | nil => rfl
  | cons first _ ih =>
    rw [List.flatMap_cons, List.flatMap_cons, List.map_append, same _ _ first, ih]

theorem InstructionRecord.slots_of_build {i : InstructionRecord}
    {instruction : Bytecode.Instruction} (built : i.build = .ok instruction) :
    Stack.slots instruction.stack = (i.stack.getD []).map SlotRecord.build := by
  unfold InstructionRecord.build at built
  split at built
  · contradiction
  · split at built
    · contradiction
    · cases built
      cases i.stack <;> rfl

/-- The slots of the classes are those of the trace, in document order. -/
theorem File.slots_of_build {f : File} {classes : List Bytecode.Class}
    (built : f.build = .ok classes) :
    classes.flatMap Bytecode.Class.slots = f.slots.map SlotRecord.build := by
  simp only [slots, code, List.flatMap_assoc]
  refine flatMap_of_each (buildClasses_eq_ok_iff.mp built) fun record c built => ?_
  obtain ⟨_, methods, each, rfl⟩ := ClassRecord.build_eq_ok_iff.mp built
  refine flatMap_of_each each fun record m built => ?_
  obtain ⟨code, read, rfl⟩ := MethodRecord.build_eq_ok_iff.mp built
  exact flatMap_of_each (buildCode_eq_ok_iff.mp read).1 fun _ _ => InstructionRecord.slots_of_build

theorem File.Within.slots {limits : Limits} {f : File} (within : f.Within limits) :
    ∀ s ∈ f.slots, s.Within limits := by
  intro s member
  obtain ⟨i, member, listed⟩ := List.mem_flatMap.mp member
  obtain ⟨c, given, member⟩ := List.mem_flatMap.mp member
  obtain ⟨m, method, code⟩ := List.mem_flatMap.mp member
  exact ((((within.classes c given).methods m method).code i code).stack s listed)

end Slots

end Trace

end TraceLint
