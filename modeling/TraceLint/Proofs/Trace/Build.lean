import Mathlib.Data.List.Forall2
import TraceLint.Trace.Build

/-! What a trace must be like to describe classes. Each record is built by itself, in order; beyond
that, only the pc must ascend in the code of each method. -/
namespace TraceLint

/-- In every method, later instructions have a greater pc. -/
def Bytecode.Class.Ascending (c : Bytecode.Class) : Prop :=
  ∀ m ∈ c.methods, m.code.Pairwise fun i j => i.pc < j.pc

namespace Trace

variable {cls : Text}

theorem map_cons_eq_ok_iff {ε β : Type} {remaining : Except ε (List β)} {b : β} {all : List β} :
    remaining.map (b :: ·) = .ok all ↔ ∃ rest, remaining = .ok rest ∧ all = b :: rest := by
  cases remaining <;> simp [Except.map, eq_comm]

/-- What holds of all that is built holds of each part of a whole that is built record by record. -/
theorem forall_of_each {α β : Type} {built : α → β → Prop} {P : β → Prop} {records : List α}
    {parts : List β} (each : List.Forall₂ built records parts) (holds : ∀ r b, built r b → P b) :
    ∀ b ∈ parts, P b := by
  induction each with
  | nil => simp
  | cons first _ ih => exact List.forall_mem_cons.mpr ⟨holds _ _ first, ih⟩

theorem InstructionRecord.pc_of_build {i : InstructionRecord} {instruction : Bytecode.Instruction}
    (built : i.build = .ok instruction) : instruction.pc = i.pc := by
  unfold InstructionRecord.build at built
  split at built
  · contradiction
  · split at built
    · contradiction
    · cases built
      rfl

theorem buildCode_cons_eq_ok_iff {previous : Option Int64} {record : InstructionRecord}
    {rest : List InstructionRecord} {code : List Bytecode.Instruction} :
    buildCode previous (record :: rest) = .ok code ↔ (∀ p, previous = some p → p < record.pc) ∧
      ∃ instruction later, record.build = .ok instruction ∧
        buildCode (some record.pc) rest = .ok later ∧
        code = instruction :: later := by
  have above : (∀ p, previous = some p → p < record.pc) ↔
      ¬ previous.any (record.pc ≤ ·) = true := by
    cases previous <;> simp
  rw [buildCode, above]
  split
  · rename_i below
    exact iff_of_false (by simp) fun built => built.1 below
  · rename_i ascends
    rw [and_iff_right ascends]
    cases record.build with
    | error fault => simp
    | ok instruction => simp [map_cons_eq_ok_iff]

/-- Code is built record by record, and in addition the pc has to ascend. -/
theorem buildCode_eq_ok_iff {previous : Option Int64} {records : List InstructionRecord}
    {code : List Bytecode.Instruction} :
    buildCode previous records = .ok code ↔ List.Forall₂ (fun r i => r.build = .ok i) records code ∧
      code.Pairwise (fun i j => i.pc < j.pc) ∧ ∀ p, previous = some p → ∀ i ∈ code, p < i.pc := by
  induction records generalizing previous code with
  | nil =>
    rw [buildCode, List.forall₂_nil_left_iff]
    constructor
    · intro built
      cases built
      simp
    · rintro ⟨rfl, _⟩
      rfl
  | cons record rest ih =>
    rw [buildCode_cons_eq_ok_iff, List.forall₂_cons_left_iff]
    constructor
    · rintro ⟨above, instruction, later, first, built, rfl⟩
      obtain ⟨each, ascending, beyond⟩ := ih.mp built
      have beyond := beyond record.pc rfl
      rw [← record.pc_of_build first] at above beyond
      refine ⟨⟨instruction, later, first, each, rfl⟩, List.pairwise_cons.mpr ⟨beyond, ascending⟩,
        ?_⟩
      intro p same
      refine List.forall_mem_cons.mpr ⟨above p same, fun i member => ?_⟩
      exact Int64.lt_trans (above p same) (beyond i member)
    · rintro ⟨⟨instruction, later, first, each, rfl⟩, ascending, above⟩
      obtain ⟨beyond, ascending⟩ := List.pairwise_cons.mp ascending
      rw [record.pc_of_build first] at beyond
      refine ⟨?_, instruction, later, first, ih.mpr ⟨each, ascending, ?_⟩, rfl⟩
      · intro p same
        rw [← record.pc_of_build first]
        exact above p same instruction List.mem_cons_self
      · rintro p ⟨⟩
        exact beyond

theorem buildMethods_eq_ok_iff {records : List MethodRecord} {methods : List Bytecode.Method} :
    buildMethods cls records = .ok methods ↔
      List.Forall₂ (fun r m => r.build cls = .ok m) records methods := by
  induction records generalizing methods with
  | nil => simp [buildMethods, eq_comm]
  | cons record rest ih =>
    rw [buildMethods, List.forall₂_cons_left_iff]
    cases record.build cls with
    | error fault => simp
    | ok method => simp [map_cons_eq_ok_iff, ih]

theorem buildClasses_eq_ok_iff {records : List ClassRecord} {classes : List Bytecode.Class} :
    buildClasses records = .ok classes ↔
      List.Forall₂ (fun r c => r.build = .ok c) records classes := by
  induction records generalizing classes with
  | nil => simp [buildClasses, eq_comm]
  | cons record rest ih =>
    rw [buildClasses, List.forall₂_cons_left_iff]
    cases record.build with
    | error fault => simp
    | ok c => simp [map_cons_eq_ok_iff, ih]

theorem MethodRecord.build_eq_ok_iff {record : MethodRecord} {m : Bytecode.Method} :
    record.build cls = .ok m ↔
      ∃ code, buildCode none (record.code.getD []) = .ok code ∧
        m = ⟨record.name, record.desc, code⟩ := by
  rw [MethodRecord.build]
  cases buildCode none (record.code.getD []) <;> simp [eq_comm]

theorem ClassRecord.build_eq_ok_iff {record : ClassRecord} {c : Bytecode.Class} :
    record.build = .ok c ↔ record.name ≠ [] ∧ ∃ methods,
      List.Forall₂ (fun r m => r.build record.name = .ok m) (record.methods.getD []) methods ∧
      c = ⟨record.name, record.super, record.source, methods, record.incomplete⟩ := by
  rw [ClassRecord.build]
  split
  · rename_i unnamed
    simp [unnamed]
  · rename_i named
    simp only [← buildMethods_eq_ok_iff]
    cases buildMethods record.name (record.methods.getD []) <;> simp [Except.map, named, eq_comm]

theorem MethodRecord.ascending_of_build {record : MethodRecord} {m : Bytecode.Method}
    (built : record.build cls = .ok m) : m.code.Pairwise fun i j => i.pc < j.pc := by
  obtain ⟨code, read, rfl⟩ := MethodRecord.build_eq_ok_iff.mp built
  exact (buildCode_eq_ok_iff.mp read).2.1

theorem ClassRecord.ascending_of_build {record : ClassRecord} {c : Bytecode.Class}
    (built : record.build = .ok c) : c.Ascending := by
  obtain ⟨_, methods, each, rfl⟩ := ClassRecord.build_eq_ok_iff.mp built
  exact forall_of_each each fun _ _ => MethodRecord.ascending_of_build

theorem File.ascending_of_build {f : File} {classes : List Bytecode.Class}
    (built : f.build = .ok classes) :
    ∀ c ∈ classes, c.Ascending :=
  forall_of_each (buildClasses_eq_ok_iff.mp built) fun _ _ => ClassRecord.ascending_of_build

end Trace

end TraceLint
