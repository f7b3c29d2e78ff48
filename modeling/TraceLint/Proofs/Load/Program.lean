import Mathlib.Data.List.Nodup
import TraceLint.Load
import TraceLint.Proofs.Trace.Build

/-! What can be loaded: files that all hold classes, no two of which share a name. The program then
lists the classes file by file. -/
namespace TraceLint.Load

variable {fs : FileSystem} {filenames : List Text} {entries : List (Text × Bytecode.Class)}

/-- The classes of a file, none if it does not load. -/
def classesIn (fs : FileSystem) (filename : Text) : List Bytecode.Class :=
  (classesOf fs filename).toOption.getD []

/-- The classes of some files, each with the name of its file. -/
def entriesIn (fs : FileSystem) (filenames : List Text) : List (Text × Bytecode.Class) :=
  filenames.flatMap fun f => (classesIn fs f).map fun c => (f, c)

theorem map_snd_entriesIn (fs : FileSystem) (filenames : List Text) :
    (entriesIn fs filenames).map Prod.snd = filenames.flatMap (classesIn fs) := by
  simp [entriesIn, List.map_flatMap, List.map_map, Function.comp_def]

theorem filed_cons_eq_ok_iff {filename : Text} :
    filed fs (filename :: filenames) = .ok entries ↔
      ∃ classes later, classesOf fs filename = .ok classes ∧
      filed fs filenames = .ok later ∧ entries = classes.map (fun c => (filename, c)) ++ later := by
  rw [filed]
  cases classesOf fs filename with
  | error fault => simp
  | ok classes => cases filed fs filenames <;> simp [Except.map, eq_comm]

theorem filed_eq_ok_iff :
    filed fs filenames = .ok entries ↔
      (∀ f ∈ filenames, ∃ classes, classesOf fs f = .ok classes) ∧
        entries = entriesIn fs filenames := by
  induction filenames generalizing entries with
  | nil => simp [filed, entriesIn, eq_comm]
  | cons filename rest ih =>
    rw [filed_cons_eq_ok_iff, List.forall_mem_cons, entriesIn, List.flatMap_cons, ← entriesIn]
    constructor
    · rintro ⟨classes, later, loaded, rest, rfl⟩
      obtain ⟨others, rfl⟩ := ih.mp rest
      have here : classesIn fs filename = classes := by simp [classesIn, loaded, Except.toOption]
      rw [here]
      exact ⟨⟨⟨classes, loaded⟩, others⟩, rfl⟩
    · rintro ⟨⟨⟨classes, loaded⟩, others⟩, rfl⟩
      have here : classesIn fs filename = classes := by simp [classesIn, loaded, Except.toOption]
      rw [here]
      exact ⟨classes, _, loaded, ih.mpr ⟨others, rfl⟩, rfl⟩

theorem firstDuplicate_eq_none_iff (seen : List (Text × Text))
    (entries : List (Text × Bytecode.Class)) :
    firstDuplicate seen entries = none ↔ (entries.map fun e => e.2.name).Nodup ∧
      ∀ e ∈ entries, seen.lookup e.2.name = none := by
  induction entries generalizing seen with
  | nil => simp [firstDuplicate]
  | cons e rest ih =>
    rw [List.map_cons, List.nodup_cons, List.forall_mem_cons, firstDuplicate]
    cases defined : seen.lookup e.2.name with
    | some first => simp
    | none =>
      have recorded (other : Text × Bytecode.Class) :
          List.lookup other.2.name ((e.2.name, e.1) :: seen) = none ↔
            other.2.name ≠ e.2.name ∧ seen.lookup other.2.name = none := by
        rw [List.lookup_cons]
        by_cases same : other.2.name = e.2.name
        · simp [same]
        · rw [beq_false_of_ne same]
          exact (and_iff_right same).symm
      simp only [ih, recorded]
      grind

/-- The program over some classes, unless a name occurs twice. -/
def settled (entries : List (Text × Bytecode.Class)) : Except Fault Bytecode.Program :=
  match firstDuplicate [] entries with
  | some fault => .error fault
  | none => .ok (.ofClasses (entries.map Prod.snd))

theorem names_entriesIn (fs : FileSystem) (filenames : List Text) :
    (entriesIn fs filenames).map (fun e => e.2.name) =
      (filenames.flatMap (classesIn fs)).map Bytecode.Class.name := by
  rw [← map_snd_entriesIn, List.map_map]
  rfl

theorem settled_eq_ok_iff {entries : List (Text × Bytecode.Class)} {program : Bytecode.Program} :
    settled entries = .ok program ↔
      (entries.map fun e => e.2.name).Nodup ∧ program = .ofClasses (entries.map Prod.snd) := by
  have distinct := firstDuplicate_eq_none_iff [] entries
  simp only [List.lookup_nil, implies_true, and_true] at distinct
  rw [settled, ← distinct]
  cases firstDuplicate [] entries <;> simp [eq_comm]

/-- Loading succeeds exactly if there are files, all of them load, and no class name occurs
twice. -/
theorem program_eq_ok_iff {program : Bytecode.Program} :
    Load.program fs filenames = .ok program ↔ filenames ≠ [] ∧
      (∀ f ∈ filenames, ∃ classes, classesOf fs f = .ok classes) ∧
      ((filenames.flatMap (classesIn fs)).map Bytecode.Class.name).Nodup ∧
      program = .ofClasses (filenames.flatMap (classesIn fs)) := by
  unfold Load.program
  by_cases none : filenames = []
  · simp [none]
  rw [if_neg (by simpa using none), and_iff_right none]
  cases filed : filed fs filenames with
  | error fault =>
    refine iff_of_false (by simp) fun loaded => ?_
    rw [filed_eq_ok_iff.mpr ⟨loaded.1, rfl⟩] at filed
    contradiction
  | ok entries =>
    obtain ⟨all, rfl⟩ := filed_eq_ok_iff.mp filed
    rw [and_iff_right all, ← names_entriesIn, ← map_snd_entriesIn]
    exact settled_eq_ok_iff

theorem classesOf_eq_ok_iff {filename : Text} {classes : List Bytecode.Class} :
    classesOf fs filename = .ok classes ↔
      ∃ file, traceFile fs filename = .ok file ∧ file.build = .ok classes := by
  rw [classesOf]
  cases traceFile fs filename with
  | error fault => simp
  | ok file => cases built : file.build <;> simp [built, Except.mapError]

/-- Files that load in one order load in any other, with the same classes in another order. -/
theorem program_of_perm {filenames' : List Text} {program : Bytecode.Program}
    (loaded : Load.program fs filenames = .ok program) (shuffled : filenames.Perm filenames') :
    ∃ classes classes', program = .ofClasses classes ∧
      Load.program fs filenames' = .ok (.ofClasses classes') ∧
      classes.Perm classes' ∧ (classes.map Bytecode.Class.name).Nodup := by
  obtain ⟨given, all, distinct, same⟩ := program_eq_ok_iff.mp loaded
  have moved := shuffled.flatMap_right (classesIn fs)
  refine ⟨_, filenames'.flatMap (classesIn fs), same, program_eq_ok_iff.mpr ⟨?_, ?_, ?_, rfl⟩,
    moved, distinct⟩
  · rintro rfl
    exact given (List.perm_nil.mp shuffled)
  · intro f listed
    exact all f (shuffled.mem_iff.mpr listed)
  · exact (moved.map _).nodup_iff.mp distinct

end TraceLint.Load
