import Mathlib.Data.List.Chain
import Mathlib.Data.List.Nodup
import TraceLint.Proofs.Trace.Build

/-! Which traces describe classes, what the classes then are, and what is said of the others. A
trace is read in document order: each class name, and each instruction in the light of the one
before it in its method. The first record that is at fault decides the answer. -/
namespace TraceLint.Trace

open Bytecode (Opcode Instruction)

/-- The mnemonics of the calls that name owner, method and descriptor. -/
def calls : List Text :=
  ["invokevirtual", "invokespecial", "invokestatic", "invokeinterface"].map text

structure InstructionRecord.WellFormed (i : InstructionRecord) : Prop where
  known : i.op ∈ Opcode.mnemonics.map Prod.snd
  target : i.op ∈ calls → i.owner ≠ [] ∧ i.name ≠ [] ∧ i.desc ≠ []

structure MethodRecord.WellFormed (m : MethodRecord) : Prop where
  ascending : (m.code.getD []).IsChain fun i j => i.pc < j.pc
  code : ∀ i ∈ m.code.getD [], i.WellFormed

structure ClassRecord.WellFormed (c : ClassRecord) : Prop where
  named : c.name ≠ []
  methods : ∀ m ∈ c.methods.getD [], m.WellFormed

def File.WellFormed (f : File) : Prop := ∀ c ∈ f.classes.getD [], c.WellFormed

/-- A slot with all that its record says: a tag stands exactly where one is given. -/
structure SlotRecord.Describes (r : SlotRecord) (s : Stack.Slot) : Prop where
  sig : s.signature = r.sig
  const : s.constant = r.const
  array : Option.Rel
    (fun a tag => tag.size = a.size ∧ tag.throwableAtLast = a.throwableAtLast) r.array s.array

/-- An instruction with all that its record says. An absent stack stays absent, and an empty one
empty. -/
structure InstructionRecord.Describes (r : InstructionRecord) (i : Instruction) : Prop where
  pc : i.pc = r.pc
  line : i.line = r.line
  op : (i.op.code, r.op) ∈ Opcode.mnemonics
  owner : i.owner = r.owner
  name : i.name = r.name
  desc : i.desc = r.desc
  stack : Option.Rel
    (fun slots snapshot => List.Forall₂ SlotRecord.Describes slots snapshot.slots) r.stack i.stack

structure MethodRecord.Describes (r : MethodRecord) (m : Bytecode.Method) : Prop where
  name : m.name = r.name
  desc : m.desc = r.desc
  code : List.Forall₂ InstructionRecord.Describes (r.code.getD []) m.code

structure ClassRecord.Describes (r : ClassRecord) (c : Bytecode.Class) : Prop where
  name : c.name = r.name
  super : c.super = r.super
  source : c.source = r.source
  methods : List.Forall₂ MethodRecord.Describes (r.methods.getD []) c.methods
  incomplete : c.incomplete = r.incomplete

/-- What is wrong with an instruction record by itself. -/
inductive InstructionRecord.Faulty (r : InstructionRecord) : CodeFault → Prop where
  | unknown : r.op ∉ Opcode.mnemonics.map Prod.snd → r.Faulty (.unknownOpcode r.op)
  | noTarget {op : Opcode} : (op.code, r.op) ∈ Opcode.mnemonics → r.op ∈ calls →
      r.owner = [] ∨ r.name = [] ∨ r.desc = [] → r.Faulty (.noTarget op)

section Instructions

variable {r : InstructionRecord} {i : Instruction} {fault other : CodeFault}

theorem mnemonics_distinct : (Opcode.mnemonics.map Prod.snd).Nodup := by decide

theorem opcode_unique {op op' : Opcode} {name : Text} (known : (op.code, name) ∈ Opcode.mnemonics)
    (known' : (op'.code, name) ∈ Opcode.mnemonics) : op = op' := by
  have same := List.inj_on_of_nodup_map mnemonics_distinct known known' rfl
  cases op
  cases op'
  simpa using same

theorem isInvoke_iff {op : Opcode} {name : Text} (known : (op.code, name) ∈ Opcode.mnemonics) :
    op.isInvoke = true ↔ name ∈ calls := by
  have table : ∀ entry ∈ Opcode.mnemonics, Opcode.isInvoke ⟨entry.1⟩ = true ↔
      entry.2 ∈ calls := by decide
  exact table _ known

theorem mem_of_ofMnemonic? {name : Text} {op : Opcode} (named : Opcode.ofMnemonic? name = some op) :
    (op.code, name) ∈ Opcode.mnemonics := by
  obtain ⟨entry, found, rfl⟩ := Option.map_eq_some_iff.mp named
  have same := List.find?_some found
  obtain rfl : entry.2 = name := of_decide_eq_true same
  exact List.mem_of_find?_eq_some found

theorem not_mem_of_ofMnemonic? {name : Text} (unnamed : Opcode.ofMnemonic? name = none) :
    name ∉ Opcode.mnemonics.map Prod.snd := by
  intro listed
  obtain ⟨entry, member, same⟩ := List.mem_map.mp listed
  have missing := List.find?_eq_none.mp (Option.map_eq_none_iff.mp unnamed) entry member
  exact missing (decide_eq_true same)

theorem SlotRecord.describes_build (r : SlotRecord) : r.Describes r.build := by
  refine ⟨rfl, rfl, ?_⟩
  cases given : r.array with
  | none =>
    rw [SlotRecord.build, given]
    exact .none
  | some a =>
    rw [SlotRecord.build, given]
    exact .some ⟨rfl, rfl⟩

/-- A record is at fault, or its instruction is as the record says. -/
theorem InstructionRecord.build_cases (r : InstructionRecord) :
    (∃ fault, r.build = .error fault ∧ r.Faulty fault) ∨
      ∃ i, r.build = .ok i ∧ r.WellFormed ∧ r.Describes i := by
  unfold InstructionRecord.build
  split
  · rename_i unnamed
    exact .inl ⟨_, rfl, .unknown (not_mem_of_ofMnemonic? unnamed)⟩
  rename_i op named
  have known := mem_of_ofMnemonic? named
  split
  · rename_i lacking
    simp only [Bool.and_eq_true, Bool.or_eq_true, decide_eq_true_eq, or_assoc] at lacking
    exact .inl ⟨_, rfl, .noTarget known ((isInvoke_iff known).mp lacking.1) lacking.2⟩
  · rename_i complete
    refine .inr ⟨_, rfl, ⟨List.mem_map_of_mem known, fun call => ?_⟩, rfl, rfl, known, rfl, rfl,
      rfl, ?_⟩
    · have invokes := (isInvoke_iff known).mpr call
      simpa [invokes, and_assoc] using complete
    · cases r.stack with
      | none => exact .none
      | some slots =>
        refine .some ?_
        rw [List.forall₂_map_right_iff]
        exact List.forall₂_same.mpr fun slot _ => slot.describes_build

theorem InstructionRecord.Faulty.not_wellFormed (faulty : r.Faulty fault) : ¬ r.WellFormed := by
  intro valid
  cases faulty with
  | unknown unlisted => exact unlisted valid.known
  | noTarget _ call lacking =>
    obtain ⟨owner, name, desc⟩ := valid.target call
    rcases lacking with none | none | none
    · exact owner none
    · exact name none
    · exact desc none

theorem InstructionRecord.Faulty.unique (faulty : r.Faulty fault) (faulty' : r.Faulty other) :
    fault = other := by
  cases faulty with
  | unknown unlisted =>
    cases faulty' with
    | unknown => rfl
    | noTarget known => exact absurd (List.mem_map_of_mem known) unlisted
  | noTarget known =>
    cases faulty' with
    | unknown unlisted => exact absurd (List.mem_map_of_mem known) unlisted
    | noTarget known' => rw [opcode_unique known known']

theorem InstructionRecord.build_eq_error_iff : r.build = .error fault ↔ r.Faulty fault := by
  rcases r.build_cases with ⟨own, failed, faulty⟩ | ⟨i, built, valid, _⟩
  · rw [failed, Except.error.injEq]
    exact ⟨fun same => same ▸ faulty, fun given => faulty.unique given⟩
  · rw [built]
    exact ⟨fun failed => by contradiction, fun faulty => absurd valid faulty.not_wellFormed⟩

theorem InstructionRecord.of_build (built : r.build = .ok i) : r.WellFormed ∧ r.Describes i := by
  rcases r.build_cases with ⟨_, failed, _⟩ | ⟨_, same, valid, describes⟩
  · rw [built] at failed
    contradiction
  · rw [built] at same
    cases same
    exact ⟨valid, describes⟩

theorem InstructionRecord.WellFormed.exists_build (valid : r.WellFormed) :
    ∃ i, r.build = .ok i := by
  rcases r.build_cases with ⟨_, _, faulty⟩ | ⟨i, built, _⟩
  · exact absurd valid faulty.not_wellFormed
  · exact ⟨i, built⟩

end Instructions

theorem exists_each {α β : Type} {built : α → β → Prop} {records : List α}
    (each : ∀ r ∈ records, ∃ b, built r b) :
    ∃ parts, List.Forall₂ built records parts := by
  induction records with
  | nil => exact ⟨[], .nil⟩
  | cons record rest ih =>
    obtain ⟨⟨b, built⟩, others⟩ := List.forall_mem_cons.mp each
    obtain ⟨parts, all⟩ := ih others
    exact ⟨b :: parts, .cons built all⟩

theorem map_pc_of_build {records : List InstructionRecord} {code : List Instruction}
    (each : List.Forall₂ (fun r i => r.build = .ok i) records code) :
    code.map Instruction.pc = records.map InstructionRecord.pc := by
  induction each with
  | nil => rfl
  | cons built _ ih => rw [List.map_cons, List.map_cons, InstructionRecord.pc_of_build built, ih]

theorem pairwise_pc_of_build {records : List InstructionRecord} {code : List Instruction}
    (each : List.Forall₂ (fun r i => r.build = .ok i) records code) :
    (code.Pairwise fun i j => i.pc < j.pc) ↔ records.IsChain fun i j => i.pc < j.pc := by
  let rises : @Trans Int64 Int64 Int64 (· < ·) (· < ·) (· < ·) := ⟨Int64.lt_trans⟩
  calc (code.Pairwise fun i j => i.pc < j.pc)
    _ ↔ (code.map Instruction.pc).Pairwise (· < ·) := List.pairwise_map.symm
    _ ↔ (records.map InstructionRecord.pc).Pairwise (· < ·) := by rw [map_pc_of_build each]
    _ ↔ (records.map InstructionRecord.pc).IsChain (· < ·) := List.isChain_iff_pairwise.symm
    _ ↔ records.IsChain fun i j => i.pc < j.pc := List.isChain_map _

theorem MethodRecord.of_build {cls : Text} {r : MethodRecord} {m : Bytecode.Method}
    (built : r.build cls = .ok m) :
    r.WellFormed ∧ r.Describes m := by
  obtain ⟨code, read, rfl⟩ := MethodRecord.build_eq_ok_iff.mp built
  obtain ⟨each, ascending, _⟩ := buildCode_eq_ok_iff.mp read
  obtain ⟨valid, described⟩ :=
    (List.forall₂_and_left _ _).mp (each.imp fun _ _ => InstructionRecord.of_build)
  exact ⟨⟨(pairwise_pc_of_build each).mp ascending, valid⟩, rfl, rfl, described⟩

theorem MethodRecord.WellFormed.exists_build {r : MethodRecord} (valid : r.WellFormed)
    (cls : Text) :
    ∃ m, r.build cls = .ok m := by
  obtain ⟨code, each⟩ := exists_each fun i member => (valid.code i member).exists_build
  have read : buildCode none (r.code.getD []) = .ok code :=
    buildCode_eq_ok_iff.mpr ⟨each, (pairwise_pc_of_build each).mpr valid.ascending, by simp⟩
  exact ⟨_, MethodRecord.build_eq_ok_iff.mpr ⟨code, read, rfl⟩⟩

theorem ClassRecord.of_build {r : ClassRecord} {c : Bytecode.Class} (built : r.build = .ok c) :
    r.WellFormed ∧ r.Describes c := by
  obtain ⟨named, methods, each, rfl⟩ := ClassRecord.build_eq_ok_iff.mp built
  obtain ⟨valid, described⟩ :=
    (List.forall₂_and_left _ _).mp (each.imp fun _ _ => MethodRecord.of_build)
  exact ⟨⟨named, valid⟩, rfl, rfl, rfl, described, rfl⟩

theorem ClassRecord.WellFormed.exists_build {r : ClassRecord} (valid : r.WellFormed) :
    ∃ c, r.build = .ok c := by
  obtain ⟨methods, each⟩ := exists_each fun m member => (valid.methods m member).exists_build r.name
  exact ⟨_, ClassRecord.build_eq_ok_iff.mpr ⟨valid.named, methods, each, rfl⟩⟩

/-- One thing to check in a trace: the name of a class, or an instruction after the one before
it. -/
inductive Spot where
  | heading (c : ClassRecord)
  | code (c : ClassRecord) (m : MethodRecord) (previous : Option InstructionRecord)
    (i : InstructionRecord)

def codeSpots (c : ClassRecord) (m : MethodRecord) (previous : Option InstructionRecord) :
    List InstructionRecord → List Spot
  | [] => []
  | i :: rest => .code c m previous i :: codeSpots c m (some i) rest

def ClassRecord.spots (c : ClassRecord) : List Spot :=
  .heading c :: (c.methods.getD []).flatMap fun m => codeSpots c m none (m.code.getD [])

/-- All that is to be checked, in document order. -/
def File.spots (f : File) : List Spot := (f.classes.getD []).flatMap ClassRecord.spots

/-- What is wrong at one point of a trace. An instruction out of order is not looked at any
further. -/
inductive Spot.Offends : Spot → BuildFault → Prop where
  | unnamed {c : ClassRecord} : c.name = [] → Offends (.heading c) .unnamedClass
  | outOfOrder {c : ClassRecord} {m : MethodRecord} {previous i : InstructionRecord} :
    i.pc ≤ previous.pc →
      Offends (.code c m (some previous) i) (.code c.name m.name m.desc i.pc .outOfOrder)
  | faulty {c : ClassRecord} {m : MethodRecord} {previous : Option InstructionRecord}
    {i : InstructionRecord}
      {fault : CodeFault} : (∀ p, previous = some p → p.pc < i.pc) → i.Faulty fault →
      Offends (.code c m previous i) (.code c.name m.name m.desc i.pc fault)

section Faults

variable {ε α β : Type}

/-- The error of a result that is one. -/
def error? : Except ε α → Option ε
  | .error e => some e
  | .ok _ => none

theorem error?_eq_some_iff {result : Except ε α} {e : ε} :
    error? result = some e ↔ result = .error e := by
  cases result <;> simp [error?]

theorem error?_map (g : α → β) (result : Except ε α) : error? (result.map g) = error? result := by
  cases result <;> rfl

def Spot.fault? : Spot → Option BuildFault
  | .heading c => if c.name = [] then some .unnamedClass else none
  | .code c m previous i =>
    (if previous.any (i.pc ≤ ·.pc) then some .outOfOrder else error? i.build).map
      (.code c.name m.name m.desc i.pc)

theorem Spot.fault?_eq_some_iff {spot : Spot} {fault : BuildFault} :
    spot.fault? = some fault ↔ spot.Offends fault := by
  cases spot with
  | heading c =>
    rw [Spot.fault?]
    constructor
    · intro found
      split at found
      · rename_i unnamed
        cases found
        exact .unnamed unnamed
      · contradiction
    · rintro ⟨unnamed⟩
      rw [if_pos unnamed]
  | code c m previous i =>
    have above : (∀ p, previous = some p → p.pc < i.pc) ↔ ¬ previous.any (i.pc ≤ ·.pc) = true := by
      cases previous <;> simp
    rw [Spot.fault?, Option.map_eq_some_iff]
    constructor
    · rintro ⟨own, found, rfl⟩
      split at found
      · rename_i below
        cases found
        cases previous with
        | none => contradiction
        | some p => exact .outOfOrder (of_decide_eq_true below)
      · rename_i ascends
        exact .faulty (above.mpr ascends)
          (InstructionRecord.build_eq_error_iff.mp (error?_eq_some_iff.mp found))
    · intro offence
      cases offence with
      | outOfOrder below => exact ⟨_, if_pos (decide_eq_true below), rfl⟩
      | faulty ascends faulty =>
        refine ⟨_, ?_, rfl⟩
        rw [if_neg (above.mp ascends), error?_eq_some_iff]
        exact InstructionRecord.build_eq_error_iff.mpr faulty

theorem error?_buildCode (c : ClassRecord) (m : MethodRecord) (previous : Option InstructionRecord)
    (records : List InstructionRecord) :
    (error? (buildCode (previous.map InstructionRecord.pc) records)).map
        (fun e => BuildFault.code c.name m.name m.desc e.1 e.2) =
      (codeSpots c m previous records).findSome? Spot.fault? := by
  induction records generalizing previous with
  | nil => rfl
  | cons i rest ih =>
    rw [buildCode, codeSpots, List.findSome?_cons, Spot.fault?, Option.any_map]
    split
    · rfl
    · cases i.build with
      | error fault => rfl
      | ok instruction =>
        rw [error?_map]
        exact ih (some i)

theorem error?_method (c : ClassRecord) (m : MethodRecord) :
    error? (m.build c.name) = (codeSpots c m none (m.code.getD [])).findSome? Spot.fault? := by
  rw [← error?_buildCode, MethodRecord.build, Option.map_none]
  cases buildCode none (m.code.getD []) <;> rfl

theorem error?_methods (c : ClassRecord) (methods : List MethodRecord) :
    error? (buildMethods c.name methods) =
      (methods.flatMap fun m => codeSpots c m none (m.code.getD [])).findSome? Spot.fault? := by
  induction methods with
  | nil => rfl
  | cons m rest ih =>
    rw [buildMethods, List.flatMap_cons, List.findSome?_append, ← ih, ← error?_method]
    cases m.build c.name with
    | error fault => rfl
    | ok method => exact error?_map _ _

theorem error?_class (c : ClassRecord) : error? c.build = c.spots.findSome? Spot.fault? := by
  rw [ClassRecord.build, ClassRecord.spots, List.findSome?_cons, Spot.fault?]
  split
  · rfl
  · rw [error?_map, error?_methods]

theorem error?_classes (classes : List ClassRecord) :
    error? (buildClasses classes) = (classes.flatMap ClassRecord.spots).findSome? Spot.fault? := by
  induction classes with
  | nil => rfl
  | cons c rest ih =>
    rw [buildClasses, List.flatMap_cons, List.findSome?_append, ← ih, ← error?_class]
    cases c.build with
    | error fault => rfl
    | ok cls => exact error?_map _ _

/-- The first point of a trace at which something is wrong. -/
def FirstOffence (spots : List Spot) (fault : BuildFault) : Prop :=
  ∃ front spot back, spots = front ++ spot :: back ∧ spot.Offends fault ∧
    ∀ x ∈ front, ∀ e, ¬ x.Offends e

theorem findSome?_fault? {spots : List Spot} {fault : BuildFault} :
    spots.findSome? Spot.fault? = some fault ↔ FirstOffence spots fault := by
  simp only [List.findSome?_eq_some_iff, FirstOffence, Spot.fault?_eq_some_iff,
    Option.eq_none_iff_forall_ne_some, ne_eq]

end Faults

/-- Exactly the well-formed traces are accepted. An accepted trace gives its classes record by
record, with nothing lost and no pc twice in a method; for any other, the first offence in document
order is the answer. -/
theorem File.build_decides_wellFormed (f : File) :
    ((∃ classes, f.build = .ok classes) ↔ f.WellFormed) ∧
    (∀ classes, f.build = .ok classes →
      List.Forall₂ ClassRecord.Describes (f.classes.getD []) classes ∧
      ∀ c ∈ classes, ∀ m ∈ c.methods, (m.code.map Instruction.pc).Nodup) ∧
    ∀ fault, f.build = .error fault ↔ FirstOffence f.spots fault := by
  refine ⟨⟨?_, ?_⟩, ?_, ?_⟩
  · rintro ⟨classes, built⟩
    have each := buildClasses_eq_ok_iff.mp built
    exact ((List.forall₂_and_left _ _).mp (each.imp fun _ _ => ClassRecord.of_build)).1
  · intro valid
    obtain ⟨classes, each⟩ := exists_each fun c member => (valid c member).exists_build
    exact ⟨classes, buildClasses_eq_ok_iff.mpr each⟩
  · intro classes built
    have each := buildClasses_eq_ok_iff.mp built
    refine ⟨each.imp fun _ _ build => (ClassRecord.of_build build).2, fun c listed m member => ?_⟩
    have ascending := f.ascending_of_build built c listed m member
    exact List.pairwise_map.mpr (ascending.imp Int64.ne_of_lt)
  · intro fault
    rw [← error?_eq_some_iff, File.build, error?_classes, findSome?_fault?]
    rfl

/-- Of two faults in one record, the order of the pcs comes first. -/
example :
    File.build ⟨some [{
      name := text "a/A"
      methods := some [{
        name := text "m"
        desc := text "()V"
        code := some [{ pc := 4, op := text "nop" }, { pc := 4, op := text "frobnicate" }] }] }]⟩ =
      .error (.code (text "a/A") (text "m") (text "()V") 4 .outOfOrder) := rfl

end TraceLint.Trace
