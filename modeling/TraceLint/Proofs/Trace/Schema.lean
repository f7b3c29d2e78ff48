import Mathlib.Data.List.Forall2
import Mathlib.Data.List.Nodup
import TraceLint.Trace.Schema

/-! What comes back of a trace that is written and read again, whatever the encoding. An encoding
only has to give back texts, numbers, constants, lists and records; that the fields of the five
kinds of records are found again is said here once. -/
namespace TraceLint.Trace

section Records

/-- A slot of which the constant may be left out. -/
def SlotRecord.recorded (omits : Value → Bool) (s : SlotRecord) : SlotRecord :=
  { s with const := if omits s.const then .null else s.const }

/-- Empty lists of slots or expectations are left out. -/
def InstructionRecord.compact (i : InstructionRecord) : InstructionRecord :=
  { i with
    stack := i.stack.filter fun slots => !slots.isEmpty
    want := i.want.filter fun wants => !wants.isEmpty }

def InstructionRecord.mapSlots (g : SlotRecord → SlotRecord) (i : InstructionRecord) :
    InstructionRecord :=
  { i with stack := i.stack.map fun slots => slots.map g }

def MethodRecord.mapCode (g : InstructionRecord → InstructionRecord) (m : MethodRecord) :
    MethodRecord :=
  { m with code := m.code.map fun code => code.map g }

def ClassRecord.mapCode (g : InstructionRecord → InstructionRecord)
    (c : ClassRecord) : ClassRecord :=
  { c with methods := c.methods.map fun methods => methods.map (MethodRecord.mapCode g) }

def File.mapCode (g : InstructionRecord → InstructionRecord) (f : File) : File :=
  ⟨f.classes.map fun classes => classes.map (ClassRecord.mapCode g)⟩

/-- The same trace, except that empty lists of slots or expectations are absent. -/
def File.compact (f : File) : File := f.mapCode InstructionRecord.compact

/-- The same trace, except that constants may be left out of their slots. -/
def File.recorded (omits : Value → Bool) (f : File) : File :=
  f.mapCode (InstructionRecord.mapSlots (SlotRecord.recorded omits))

end Records

/-- What an encoding can express. -/
structure Limits where
  text : Text → Prop
  /-- The lengths of lists. -/
  count : Nat → Prop
  constant : Value → Prop

section Within

variable (limits : Limits)

structure SlotRecord.Within (s : SlotRecord) : Prop where
  sig : limits.text s.sig
  const : limits.constant s.const

structure InstructionRecord.Within (i : InstructionRecord) : Prop where
  op : limits.text i.op
  owner : limits.text i.owner
  name : limits.text i.name
  desc : limits.text i.desc
  depth : limits.count (i.stack.getD []).length
  stack : ∀ s ∈ i.stack.getD [], s.Within limits
  wants : limits.count (i.want.getD []).length
  want : ∀ s ∈ i.want.getD [], limits.text s

structure MethodRecord.Within (m : MethodRecord) : Prop where
  name : limits.text m.name
  desc : limits.text m.desc
  size : limits.count (m.code.getD []).length
  code : ∀ i ∈ m.code.getD [], i.Within limits

structure ClassRecord.Within (c : ClassRecord) : Prop where
  name : limits.text c.name
  super : limits.text c.super
  source : limits.text c.source
  size : limits.count (c.methods.getD []).length
  methods : ∀ m ∈ c.methods.getD [], m.Within limits

/-- All of a trace is within the limits of an encoding. -/
structure File.Within (f : File) : Prop where
  size : limits.count (f.classes.getD []).length
  classes : ∀ c ∈ f.classes.getD [], c.Within limits

end Within

section Drafts

variable (omits : Value → Bool)

/-- A slate of the items of a list, unless there are none. -/
def Slate.unlessEmpty {α : Type} (xs : List α) : Option (Slate α) :=
  if xs.isEmpty then none else some (.ofList xs)

/-- What is read of an instruction. -/
def InstructionRecord.draft (i : InstructionRecord) : InstructionDraft :=
  ⟨i.pc, i.line, i.op, i.owner, i.name, i.desc,
    Slate.unlessEmpty ((i.stack.getD []).map (SlotRecord.recorded omits)),
    Slate.unlessEmpty (i.want.getD [])⟩

def MethodRecord.draft (m : MethodRecord) : MethodDraft :=
  ⟨m.name, m.desc, m.code.map fun code => .ofList (code.map (InstructionRecord.draft omits))⟩

def ClassRecord.draft (c : ClassRecord) : ClassDraft :=
  ⟨c.name, c.super, c.source,
    c.methods.map fun methods => .ofList (methods.map (MethodRecord.draft omits)), c.incomplete⟩

def File.draft (f : File) : FileDraft :=
  ⟨f.classes.map fun classes => .ofList (classes.map (ClassRecord.draft omits))⟩

theorem Slate.finish_unlessEmpty {α β : Type} (g : α → β) (xs : List α) :
    Slate.finish g (unlessEmpty xs) = if xs.isEmpty then none else some (xs.map g) := by
  rw [unlessEmpty]
  split <;> simp [Slate.finish]

theorem Slate.finish_map_ofList {α β γ : Type} (g : β → γ) (h : α → β) (xs : Option (List α)) :
    Slate.finish g (xs.map fun xs => .ofList (xs.map h)) = xs.map fun xs => xs.map (g ∘ h) := by
  cases xs <;> simp [Slate.finish]

theorem getD_filter_nonempty {α : Type} (xs : Option (List α)) :
    (if (xs.getD []).isEmpty then none else some (xs.getD [])) =
      xs.filter fun xs => !xs.isEmpty := by
  cases xs with
  | none => rfl
  | some xs => cases xs <;> rfl

theorem InstructionRecord.finish_draft (i : InstructionRecord) :
    (i.draft omits).finish = (i.mapSlots (SlotRecord.recorded omits)).compact := by
  have stack :=
    getD_filter_nonempty (i.stack.map fun slots => slots.map (SlotRecord.recorded omits))
  have want := getD_filter_nonempty i.want
  have slots : (i.stack.getD []).map (SlotRecord.recorded omits) =
      (i.stack.map fun slots => slots.map (SlotRecord.recorded omits)).getD [] := by
    cases i.stack <;> rfl
  simp only [draft, InstructionDraft.finish, Slate.finish_unlessEmpty, List.map_id, mapSlots,
    compact, slots]
  rw [stack, want]

theorem MethodRecord.finish_draft (m : MethodRecord) :
    (m.draft omits).finish =
      (m.mapCode (InstructionRecord.mapSlots (SlotRecord.recorded omits))).mapCode
        InstructionRecord.compact := by
  simp only [draft, MethodDraft.finish, Slate.finish_map_ofList, mapCode, Option.map_map,
    Function.comp_def, List.map_map, InstructionRecord.finish_draft]

theorem ClassRecord.finish_draft (c : ClassRecord) :
    (c.draft omits).finish =
      (c.mapCode (InstructionRecord.mapSlots (SlotRecord.recorded omits))).mapCode
        InstructionRecord.compact := by
  simp only [draft, ClassDraft.finish, Slate.finish_map_ofList, mapCode, Option.map_map,
    Function.comp_def, List.map_map, MethodRecord.finish_draft]

theorem File.finish_draft (f : File) : (f.draft omits).finish = (f.recorded omits).compact := by
  simp only [draft, FileDraft.finish, Slate.finish_map_ofList, recorded, compact, mapCode,
    Option.map_map, Function.comp_def, List.map_map, ClassRecord.finish_draft]

end Drafts

/-- What is written over nothing is all there is. -/
theorem Slate.overwrite_nil {α : Type} (xs : List α) : Slate.overwrite [] xs = .ofList xs := by
  simp [overwrite, ofList]

/-- The names of all fields. -/
def vocabulary : List String :=
  ["classes", "name", "super", "source", "methods", "incomplete", "desc", "code", "pc", "line",
    "op", "owner", "stack", "want", "sig", "const", "array", "size", "throwableAtLast"]

/-- A reader and a writer, with what it means that a document, nested at most so deep, is read as a
value. -/
structure Encoding (m : Type → Type) (δ : Type) where
  reader : Reader m
  writer : Writer δ
  Yields : {α : Type} → Nat → δ → m α → α → Prop

namespace Encoding

variable {m : Type → Type} {δ ρ : Type}

/-- Members fill the fields of a record in their order, and may leave out some of them. -/
inductive Fills (e : Encoding m δ) (height : Nat) :
    List (Field m ρ) → ρ → List (String × δ) → ρ → Prop where
  | nil {x : ρ} : Fills e height [] x [] x
  | skip {f : Field m ρ} {fields : List (Field m ρ)} {x y : ρ} {members : List (String × δ)} :
      Fills e height fields x members y → Fills e height (f :: fields) x members y
  | read {f : Field m ρ} {fields : List (Field m ρ)} {x y z : ρ} {d : δ}
    {members : List (String × δ)} :
      e.Yields height d (f.read x) y → Fills e height fields y members z →
      Fills e height (f :: fields) x ((f.name, d) :: members) z

/-- Fields with names that the schema has, each name once. -/
structure Named (fields : List (Field m ρ)) : Prop where
  known : ∀ f ∈ fields, f.name ∈ vocabulary
  distinct : (fields.map Field.name).Nodup

/-- However an encoding compares names, it finds a field if it tells the name from those of the
other fields. -/
theorem Named.find?_eq_some {fields : List (Field m ρ)} (named : Named fields) {f : Field m ρ}
    (member : f ∈ fields) {accepts : Field m ρ → Bool}
    (tells : ∀ g ∈ fields, accepts g = true ↔ g.name = f.name) :
    fields.find? accepts = some f := by
  have found : ∃ g, fields.find? accepts = some g := by
    rw [← Option.isSome_iff_exists, List.find?_isSome]
    exact ⟨f, member, (tells f member).mpr rfl⟩
  obtain ⟨g, found⟩ := found
  have same := (tells g (List.mem_of_find?_eq_some found)).mp (List.find?_some found)
  rw [found, List.inj_on_of_nodup_map named.distinct (List.mem_of_find?_eq_some found) member same]

/-- What is written within the limits is read as it was. What is read on top of something may depend
on that only where a field can be left out. -/
structure Faithful [Functor m] (e : Encoding m δ) (limits : Limits) : Prop where
  map {α β : Type} {height : Nat} {d : δ} {reading : m α} {x : α} (g : α → β) :
    e.Yields height d reading x → e.Yields height d (g <$> reading) (g x)
  text {height : Nat} {s : Text} (old : Text) :
    limits.text s → e.Yields height (e.writer.text s) (e.reader.text old) s
  int {height : Nat} (old n : Int64) : e.Yields height (e.writer.int n) (e.reader.int old) n
  bool {height : Nat} (old b : Bool) : e.Yields height (e.writer.bool b) (e.reader.bool old) b
  constant {height : Nat} {v : Value} : limits.constant v → e.writer.omits v = false →
    e.Yields height (e.writer.value v) (e.reader.value .null) v
  texts {height : Nat} {ss : List Text} : (∀ s ∈ ss, limits.text s) → limits.count ss.length →
    e.Yields (height + 1) (e.writer.list (some (ss.map e.writer.text))) (e.reader.texts none)
      (some (.ofList ss))
  absent {α : Type} {height : Nat} (zero : α) (one : α → m α) :
    e.Yields height (e.writer.list none) (e.reader.list zero one none) none
  list {α : Type} {height : Nat} {zero : α} {one : α → m α} {docs : List δ} {xs : List α} :
    List.Forall₂ (fun d x => e.Yields height d (one zero) x) docs xs → limits.count xs.length →
    e.Yields (height + 1) (e.writer.list (some docs)) (e.reader.list zero one none)
      (some (.ofList xs))
  optional {α : Type} {height : Nat} {zero x : α} {one : α → m α} {members : List (String × δ)} :
    e.Yields height (e.writer.record members) (one zero) x →
    e.Yields height (e.writer.record members) (e.reader.optional zero one none) (some x)
  record {α : Type} {height : Nat} {zero x y : α} {fields : List (Field m α)}
    {members : List (String × δ)} :
    Named fields → e.Fills height fields x members y →
    e.Yields (height + 1) (e.writer.record members) (e.reader.record zero fields x) y

variable {e : Encoding m δ} {height : Nat}

theorem Fills.last {f : Field m ρ} {piece : List (String × δ)} {x y : ρ}
    (fills : e.Fills height [f] x (piece ++ []) y) : e.Fills height [f] x piece y := by
  rw [List.append_nil] at fills
  exact fills

namespace Faithful

variable [Functor m] {limits : Limits} (faithful : e.Faithful limits) {f : Field m ρ}
    {fields : List (Field m ρ)}
  {members : List (String × δ)} {x z : ρ}

include faithful

/-- A field is set to what is read of it. -/
theorem fills {α : Type} {d : δ} {reading : m α} {a : α} {set : α → ρ}
    (read : f.read x = set <$> reading) (yields : e.Yields height d reading a)
    (rest : e.Fills height fields (set a) members z) :
    e.Fills height (f :: fields) x ((f.name, d) :: members) z := by
  refine .read ?_ rest
  rw [read]
  exact faithful.map set yields

theorem fills_textUnlessEmpty {s old : Text} {set : Text → ρ}
    (read : f.read x = set <$> e.reader.text old) (zero : set [] = x) (within : limits.text s)
    (rest : e.Fills height fields (set s) members z) :
    e.Fills height (f :: fields) x (e.writer.textUnlessEmpty f.name s ++ members) z := by
  unfold Writer.textUnlessEmpty
  split
  · rename_i empty
    rw [empty, zero] at rest
    exact .skip rest
  · exact faithful.fills read (faithful.text old within) rest

theorem fills_intUnlessZero {n old : Int64} {set : Int64 → ρ}
    (read : f.read x = set <$> e.reader.int old) (zero : set 0 = x)
    (rest : e.Fills height fields (set n) members z) :
    e.Fills height (f :: fields) x (e.writer.intUnlessZero f.name n ++ members) z := by
  unfold Writer.intUnlessZero
  split
  · rename_i none
    rw [none, zero] at rest
    exact .skip rest
  · exact faithful.fills read (faithful.int old n) rest

theorem fills_boolIfTrue {b old : Bool} {set : Bool → ρ}
    (read : f.read x = set <$> e.reader.bool old) (zero : set false = x)
    (rest : e.Fills height fields (set b) members z) :
    e.Fills height (f :: fields) x (e.writer.boolIfTrue f.name b ++ members) z := by
  cases b with
  | false =>
    rw [zero] at rest
    exact .skip rest
  | true => exact faithful.fills read (faithful.bool old true) rest

theorem fills_constant {v : Value} {set : Value → ρ}
    (read : f.read x = set <$> e.reader.value .null) (zero : set .null = x)
    (within : limits.constant v)
    (rest : e.Fills height fields (set (if e.writer.omits v then .null else v)) members z) :
    e.Fills height (f :: fields) x
      ((if e.writer.omits v then [] else [(f.name, e.writer.value v)]) ++ members) z := by
  split
  · rename_i omitted
    rw [if_pos omitted, zero] at rest
    exact .skip rest
  · rename_i written
    rw [if_neg written] at rest
    exact faithful.fills read (faithful.constant within (Bool.eq_false_iff.mpr written)) rest

theorem fills_listUnlessEmpty {β : Type} {reading : m (Option (Slate β))}
    {set : Option (Slate β) → ρ} {docs : List δ} {ys : List β} (read : f.read x = set <$> reading)
    (zero : set none = x) (same : docs.length = ys.length)
    (yields : e.Yields height (e.writer.list (some docs)) reading (some (.ofList ys)))
    (rest : e.Fills height fields (set (Slate.unlessEmpty ys)) members z) :
    e.Fills height (f :: fields) x (e.writer.listUnlessEmpty f.name docs ++ members) z := by
  cases docs with
  | nil =>
    obtain rfl := List.eq_nil_of_length_eq_zero same.symm
    change e.Fills height fields (set none) members z at rest
    rw [zero] at rest
    exact .skip rest
  | cons doc docs =>
    cases ys with
    | nil => contradiction
    | cons y ys => exact faithful.fills read yields rest

/-- A list, absent or not, of which each item is read as its draft. -/
theorem yields_all {α β : Type} {zero : β} {one : β → m β} {doc : α → δ} {draft : α → β}
    (xs : Option (List α)) (each : ∀ x ∈ xs.getD [], e.Yields height (doc x) (one zero) (draft x))
    (size : limits.count (xs.getD []).length) :
    e.Yields (height + 1) (e.writer.all doc xs) (e.reader.list zero one none)
      (xs.map fun xs => .ofList (xs.map draft)) := by
  cases xs with
  | none => exact faithful.absent zero one
  | some xs =>
    refine faithful.list ?_ ?_
    · rw [List.forall₂_map_left_iff, List.forall₂_map_right_iff]
      exact List.forall₂_same.mpr each
    · rw [List.length_map]
      exact size

variable (height)

theorem yields_array (a : ArrayRecord) :
    e.Yields (height + 1) (e.writer.array a) (e.reader.record {} e.reader.arrayFields {}) a := by
  refine faithful.record ⟨by simp [Reader.arrayFields, vocabulary], by simp [Reader.arrayFields]⟩ ?_
  refine faithful.fills rfl (faithful.int _ a.size) ?_
  refine .last (faithful.fills_boolIfTrue rfl rfl ?_)
  exact .nil

theorem yields_slot {s : SlotRecord} (within : s.Within limits) :
    e.Yields (height + 2) (e.writer.slot s) (e.reader.record {} e.reader.slotFields {})
      (s.recorded e.writer.omits) := by
  refine faithful.record ⟨by simp [Reader.slotFields, vocabulary], by simp [Reader.slotFields]⟩ ?_
  rw [List.append_assoc]
  refine faithful.fills_textUnlessEmpty rfl rfl within.sig ?_
  refine faithful.fills_constant rfl rfl within.const ?_
  obtain ⟨sig, const, array⟩ := s
  cases array with
  | none => exact .skip .nil
  | some a =>
    refine faithful.fills rfl (faithful.optional (faithful.yields_array height a)) ?_
    exact .nil

theorem yields_instruction {i : InstructionRecord} (within : i.Within limits) :
    e.Yields (height + 4) (e.writer.instruction i)
      (e.reader.record {} e.reader.instructionFields {}) (i.draft e.writer.omits) := by
  have stack : e.Yields (height + 3) (e.writer.list (some ((i.stack.getD []).map e.writer.slot)))
      (e.reader.list {} (e.reader.record {} e.reader.slotFields) none)
      (some (.ofList ((i.stack.getD []).map (SlotRecord.recorded e.writer.omits)))) :=
    faithful.yields_all (some (i.stack.getD []))
      (fun s member => faithful.yields_slot height (within.stack s member)) within.depth
  have want : e.Yields (height + 3)
      (e.writer.list (some ((i.want.getD []).map e.writer.text))) (e.reader.texts none)
      (some (.ofList (i.want.getD []))) := faithful.texts within.want within.wants
  refine faithful.record
    ⟨by simp [Reader.instructionFields, vocabulary], by simp [Reader.instructionFields]⟩ ?_
  simp only [List.cons_append, List.append_assoc]
  refine faithful.fills rfl (faithful.int _ i.pc) ?_
  refine faithful.fills_intUnlessZero rfl rfl ?_
  refine faithful.fills rfl (faithful.text _ within.op) ?_
  refine faithful.fills_textUnlessEmpty rfl rfl within.owner ?_
  refine faithful.fills_textUnlessEmpty rfl rfl within.name ?_
  refine faithful.fills_textUnlessEmpty rfl rfl within.desc ?_
  refine faithful.fills_listUnlessEmpty rfl rfl (by simp) stack ?_
  refine .last (faithful.fills_listUnlessEmpty rfl rfl (by simp) want ?_)
  exact .nil

theorem yields_method {d : MethodRecord} (within : d.Within limits) :
    e.Yields (height + 6) (e.writer.method d) (e.reader.record {} e.reader.methodFields {})
      (d.draft e.writer.omits) := by
  have code :=
    faithful.yields_all d.code
      (fun i member => faithful.yields_instruction height (within.code i member)) within.size
  refine faithful.record
    ⟨by simp [Reader.methodFields, vocabulary], by simp [Reader.methodFields]⟩ ?_
  refine faithful.fills rfl (faithful.text _ within.name) ?_
  refine faithful.fills rfl (faithful.text _ within.desc) ?_
  refine faithful.fills rfl code ?_
  exact .nil

theorem yields_class {c : ClassRecord} (within : c.Within limits) :
    e.Yields (height + 8) (e.writer.cls c) (e.reader.record {} e.reader.classFields {})
      (c.draft e.writer.omits) := by
  have methods :=
    faithful.yields_all c.methods
      (fun d member => faithful.yields_method height (within.methods d member)) within.size
  refine faithful.record ⟨by simp [Reader.classFields, vocabulary], by simp [Reader.classFields]⟩ ?_
  simp only [List.cons_append, List.append_assoc]
  refine faithful.fills rfl (faithful.text _ within.name) ?_
  refine faithful.fills_textUnlessEmpty rfl rfl within.super ?_
  refine faithful.fills_textUnlessEmpty rfl rfl within.source ?_
  refine faithful.fills rfl methods ?_
  refine .last (faithful.fills_boolIfTrue rfl rfl ?_)
  exact .nil

/-- A trace within the limits comes back, less what was left out. -/
theorem yields_file {t : File} (within : t.Within limits) :
    e.Yields (height + 10) (e.writer.file t) e.reader.file (t.recorded e.writer.omits).compact := by
  have classes :=
    faithful.yields_all t.classes
      (fun c member => faithful.yields_class height (within.classes c member)) within.size
  rw [← File.finish_draft]
  refine faithful.map FileDraft.finish ?_
  refine faithful.record ⟨by simp [Reader.fileFields, vocabulary], by simp [Reader.fileFields]⟩ ?_
  refine faithful.fills rfl classes ?_
  exact .nil

end Faithful

end Encoding

end TraceLint.Trace
