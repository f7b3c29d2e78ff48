import TraceLint.Proofs.Hierarchy.Program
import TraceLint.Proofs.Load.Program
import TraceLint.Proofs.Trace.WellFormed

/-! Loading with one decoder per file. The decoders finish in any order, and each leaves the classes
of its file in a cell of its own; of those that fail, the first one to do so is heard. When all have
finished, the cells are put together in argument order, so the order of finishing shows only in
which fault is reported. -/
namespace TraceLint.Load

/-- The files with their classes, once their decoder has finished, and the fault of the first
decoder that failed. -/
structure Pool where
  cells : List (Text × Option (List Bytecode.Class))
  fault : Option Fault

namespace Pool

/-- The classes in the cells, each with the name of its file. -/
def entries (cells : List (Text × Option (List Bytecode.Class))) : List (Text × Bytecode.Class) :=
  cells.flatMap fun cell => (cell.2.getD []).map fun c => (cell.1, c)

def Finished (p : Pool) : Prop := ∀ cell ∈ p.cells, cell.2.isSome = true

/-- How far the decoders of some files may have come. A decoder that fails leaves nothing in its
cell. -/
inductive Reached (fs : FileSystem) (filenames : List Text) : Pool → Prop where
  | start : Reached fs filenames ⟨filenames.map fun f => (f, none), none⟩
  | loaded (front back : List (Text × Option (List Bytecode.Class))) {f : Text}
      {classes : List Bytecode.Class} {fault : Option Fault} :
      Reached fs filenames ⟨front ++ (f, none) :: back, fault⟩ →
      classesOf fs f = .ok classes →
        Reached fs filenames ⟨front ++ (f, some classes) :: back, fault⟩
  | failed (front back : List (Text × Option (List Bytecode.Class))) {f : Text} {e : Fault}
      {fault : Option Fault} :
      Reached fs filenames ⟨front ++ (f, none) :: back, fault⟩ →
      classesOf fs f = .error e →
        Reached fs filenames ⟨front ++ (f, some []) :: back, fault.or (some e)⟩

def result (p : Pool) : Except Fault Bytecode.Program :=
  match p.fault with
  | some fault => .error fault
  | none => settled (entries p.cells)

end Pool

/-- What loading some files may end with. -/
def Loads (fs : FileSystem) (filenames : List Text)
    (result : Except Fault Bytecode.Program) : Prop :=
  if filenames = [] then result = .error .noFiles
  else ∃ pool, Pool.Reached fs filenames pool ∧ pool.Finished ∧ result = pool.result

/-- A class that repeats a name before any other does, with its file and the file of the first class
of that name. -/
def FirstRepeat (entries : List (Text × Bytecode.Class)) (cls first again : Text) : Prop :=
  ∃ front earlier later back, entries = front ++ (again, later) :: back ∧ (first, earlier) ∈ front ∧
    earlier.name = cls ∧ later.name = cls ∧ (front.map fun e => e.2.name).Nodup

variable {fs : FileSystem} {filenames : List Text} {result : Except Fault Bytecode.Program}

/-- What holds of the decoders at any time. -/
structure Pool.Sound (fs : FileSystem) (filenames : List Text) (p : Pool) : Prop where
  files : p.cells.map Prod.fst = filenames
  classes : p.fault = none → ∀ cell ∈ p.cells, ∀ classes, cell.2 = some classes →
    classesOf fs cell.1 = .ok classes
  fault : ∀ e, p.fault = some e → ∃ f ∈ filenames, classesOf fs f = .error e

theorem Pool.Reached.sound {p : Pool} (reached : Reached fs filenames p) :
    p.Sound fs filenames := by
  induction reached with
  | start => exact ⟨by simp [Function.comp_def], by simp, by simp⟩
  | @loaded front back f classes fault _ read ih =>
    refine ⟨?_, ?_, ih.fault⟩
    · rw [← ih.files]
      simp
    · intro none cell member found there
      rcases List.mem_append.mp member with before | here
      · exact ih.classes none cell (List.mem_append_left _ before) found there
      rcases List.mem_cons.mp here with rfl | behind
      · cases there
        exact read
      · exact ih.classes none cell
          (List.mem_append_right _ (List.mem_cons_of_mem _ behind)) found there
  | @failed front back f e fault _ read ih =>
    refine ⟨?_, ?_, ?_⟩
    · rw [← ih.files]
      simp
    · simp
    · intro e' reported
      rcases Option.or_eq_some_iff.mp reported with earlier | ⟨_, own⟩
      · exact ih.fault e' earlier
      · cases own
        have member : f ∈ filenames := by
          rw [← ih.files]
          simp
        exact ⟨f, member, read⟩

/-- Where no decoder has failed, each cell holds the classes of its file in the end. -/
theorem Pool.Sound.entries_eq {p : Pool} (sound : p.Sound fs filenames) (finished : p.Finished)
    (none : p.fault = none) : entries p.cells = entriesIn fs filenames := by
  rw [← sound.files, entriesIn, List.flatMap_map, entries]
  refine List.flatMap_congr fun cell member => ?_
  obtain ⟨classes, there⟩ := Option.isSome_iff_exists.mp (finished cell member)
  rw [classesIn, sound.classes none cell member classes there, there]
  rfl

theorem Pool.Sound.loaded {p : Pool} (sound : p.Sound fs filenames) (finished : p.Finished)
    (none : p.fault = none) : ∀ f ∈ filenames, ∃ classes, classesOf fs f = .ok classes := by
  intro f listed
  rw [← sound.files] at listed
  obtain ⟨cell, member, rfl⟩ := List.mem_map.mp listed
  obtain ⟨classes, there⟩ := Option.isSome_iff_exists.mp (finished cell member)
  exact ⟨classes, sound.classes none cell member classes there⟩

/-- All files load, and what they hold decides; or one does not, and loading fails. -/
theorem Loads.cases (loads : Loads fs filenames result) (given : filenames ≠ []) :
    ((∀ f ∈ filenames, ∃ classes, classesOf fs f = .ok classes) ∧
      result = settled (entriesIn fs filenames)) ∨
    ∃ f ∈ filenames, ∃ e, classesOf fs f = .error e ∧ result = .error e := by
  rw [Loads, if_neg given] at loads
  obtain ⟨pool, reached, finished, rfl⟩ := loads
  have sound := reached.sound
  rw [Pool.result]
  cases fault : pool.fault with
  | none =>
    refine .inl ⟨sound.loaded finished fault, ?_⟩
    rw [← sound.entries_eq finished fault]
  | some e =>
    obtain ⟨f, listed, failed⟩ := sound.fault e fault
    exact .inr ⟨f, listed, e, failed, rfl⟩

/-- The names so far with their files, the latest first. -/
def seenIn (entries : List (Text × Bytecode.Class)) : List (Text × Text) :=
  entries.reverse.map fun e => (e.2.name, e.1)

theorem firstDuplicate_eq_some {front rest : List (Text × Bytecode.Class)} {fault : Fault}
    (distinct : (front.map fun e => e.2.name).Nodup)
    (found : firstDuplicate (seenIn front) rest = some fault) :
    ∃ cls first again, FirstRepeat (front ++ rest) cls first again ∧
      fault = .duplicate cls first again := by
  induction rest generalizing front with
  | nil => contradiction
  | cons entry rest ih =>
    obtain ⟨filename, c⟩ := entry
    rw [firstDuplicate] at found
    split at found
    · rename_i first known
      cases found
      obtain ⟨_, _, split, _⟩ := List.lookup_eq_some_iff.mp known
      have member : (c.name, first) ∈ seenIn front := by simp [split]
      obtain ⟨earlier, listed, same⟩ := List.mem_map.mp member
      obtain ⟨name, file⟩ := Prod.mk.inj same
      subst file
      exact ⟨_, _, _,
        ⟨front, earlier.2, c, rest, rfl, List.mem_reverse.mp listed, name, rfl, distinct⟩, rfl⟩
    · rename_i unknown
      have fresh : c.name ∉ front.map fun e => e.2.name := by
        intro repeated
        obtain ⟨e, listed, same⟩ := List.mem_map.mp repeated
        have member : (e.2.name, e.1) ∈ seenIn front :=
          List.mem_map_of_mem (List.mem_reverse.mpr listed)
        have differs := List.lookup_eq_none_iff.mp unknown _ member
        simp [same] at differs
      have longer : ((front ++ [(filename, c)]).map fun e => e.2.name).Nodup := by
        rw [List.map_append]
        exact distinct.append (List.nodup_singleton _) (List.disjoint_singleton.mpr fresh)
      have seen :
          seenIn (front ++ [(filename, c)]) = (c.name, filename) :: seenIn front := by simp [seenIn]
      have further := ih longer (seen ▸ found)
      rwa [List.append_assoc] at further

theorem settled_of_repeat {entries : List (Text × Bytecode.Class)}
    (twice : ¬ (entries.map fun e => e.2.name).Nodup) :
    ∃ cls first again, FirstRepeat entries cls first again ∧
      settled entries = .error (.duplicate cls first again) := by
  rw [settled]
  cases found : firstDuplicate [] entries with
  | none => exact absurd ((firstDuplicate_eq_none_iff [] entries).mp found).1 twice
  | some fault =>
    obtain ⟨cls, first, again, repeats, rfl⟩ := @firstDuplicate_eq_some [] _ _ List.nodup_nil found
    exact ⟨cls, first, again, repeats, rfl⟩

theorem named_of_classesIn {filename : Text} {c : Bytecode.Class}
    (member : c ∈ classesIn fs filename) :
    c.name ≠ [] := by
  rw [classesIn] at member
  cases read : classesOf fs filename with
  | error fault => simp [read, Except.toOption] at member
  | ok classes =>
    obtain ⟨file, _, built⟩ := classesOf_eq_ok_iff.mp read
    have named : ∀ c ∈ classes, c.name ≠ [] := by
      refine Trace.forall_of_each (Trace.buildClasses_eq_ok_iff.mp built) fun r c build => ?_
      obtain ⟨valid, described⟩ := r.of_build build
      rw [described.name]
      exact valid.named
    rw [read] at member
    exact named c member

/-- Decoders that finish in argument order end with what the program of the files is. -/
theorem exists_run (front : List (Text × Option (List Bytecode.Class))) (fault : Option Fault)
    (rest : List Text)
    (reached : Pool.Reached fs filenames ⟨front ++ rest.map fun f => (f, none), fault⟩) :
    ∃ cells, Pool.Reached fs filenames ⟨front ++ cells, fault.or (Trace.error? (filed fs rest))⟩ ∧
      (∀ cell ∈ cells, cell.2.isSome = true) ∧
      ∀ entries, filed fs rest = .ok entries → Pool.entries cells = entries := by
  induction rest generalizing front fault with
  | nil =>
    refine ⟨[], ?_, by simp, ?_⟩
    · rw [filed, Trace.error?, Option.or_none]
      exact reached
    · intro entries read
      exact Except.ok.inj read
  | cons f rest ih =>
    rw [List.map_cons] at reached
    cases read : classesOf fs f with
    | error e =>
      have step := Pool.Reached.failed front _ reached read
      rw [List.append_cons] at step
      obtain ⟨cells, reached, finished, _⟩ := ih _ _ step
      have failed : filed fs (f :: rest) = .error e := by rw [filed, read]
      refine ⟨(f, some []) :: cells, ?_, by simpa using finished, by simp [failed]⟩
      rw [failed, Trace.error?, List.append_cons]
      rwa [Option.or_assoc, Option.some_or] at reached
    | ok classes =>
      have step := Pool.Reached.loaded front _ reached read
      rw [List.append_cons] at step
      obtain ⟨cells, reached, finished, entered⟩ := ih _ _ step
      refine ⟨(f, some classes) :: cells, ?_, by simpa using finished, ?_⟩
      · rw [filed, read, Trace.error?_map, List.append_cons]
        exact reached
      · intro entries filed
        obtain ⟨own, later, same, others, rfl⟩ := filed_cons_eq_ok_iff.mp filed
        rw [read] at same
        cases same
        rw [← entered later others]
        rfl

theorem loads_program (fs : FileSystem) (filenames : List Text) :
    Loads fs filenames (Load.program fs filenames) := by
  rw [Loads]
  split
  · rename_i none
    rw [none]
    rfl
  · rename_i given
    obtain ⟨cells, reached, finished, entered⟩ := exists_run [] none filenames Pool.Reached.start
    refine ⟨_, reached, finished, ?_⟩
    have some : ¬ filenames.isEmpty = true := by simpa using given
    rw [Load.program, if_neg some, Pool.result]
    cases read : filed fs filenames with
    | error fault => rfl
    | ok entries =>
      rw [← entered entries read]
      rfl

/-- A file that can be decoded, with a trace that describes classes. -/
def Readable (fs : FileSystem) (filename : Text) : Prop :=
  ∃ file classes, traceFile fs filename = .ok file ∧ file.build = .ok classes

theorem readable_iff {filename : Text} : Readable fs filename ↔
    ∃ classes, classesOf fs filename = .ok classes := by
  simp only [Readable, classesOf_eq_ok_iff]
  exact exists_comm

theorem Loads.eq_ok_iff (loads : Loads fs filenames result) {program : Bytecode.Program} :
    result = .ok program ↔ filenames ≠ [] ∧ (∀ f ∈ filenames, Readable fs f) ∧
      ((filenames.flatMap (classesIn fs)).map Bytecode.Class.name).Nodup ∧
      program = .ofClasses (filenames.flatMap (classesIn fs)) := by
  by_cases given : filenames = []
  · rw [Loads, if_pos given] at loads
    simp [loads, given]
  rw [and_iff_right given]
  simp only [readable_iff]
  rcases loads.cases given with ⟨all, rfl⟩ | ⟨f, listed, e, failed, rfl⟩
  · rw [settled_eq_ok_iff, names_entriesIn, map_snd_entriesIn, and_iff_right all]
  · refine iff_of_false (by simp) fun loaded => ?_
    obtain ⟨classes, read⟩ := loaded.1 f listed
    rw [failed] at read
    contradiction

theorem Loads.eq_duplicate (loads : Loads fs filenames result)
    (all : ∀ f ∈ filenames, Readable fs f)
    (twice : ¬ ((filenames.flatMap (classesIn fs)).map Bytecode.Class.name).Nodup) :
    ∃ cls first again, FirstRepeat (entriesIn fs filenames) cls first again ∧
      result = .error (.duplicate cls first again) := by
  have given : filenames ≠ [] := by
    rintro rfl
    exact twice List.nodup_nil
  rcases loads.cases given with ⟨_, rfl⟩ | ⟨f, listed, e, failed, _⟩
  · rw [← names_entriesIn] at twice
    exact settled_of_repeat twice
  · obtain ⟨classes, read⟩ := readable_iff.mp (all f listed)
    rw [failed] at read
    contradiction

section

variable {classes : List Bytecode.Class}

theorem super?_of_class (distinct : (classes.map Bytecode.Class.name).Nodup) {c : Bytecode.Class}
    (member : c ∈ classes) (named : c.name ≠ []) (extended : c.super ≠ []) :
    (Bytecode.Program.ofClasses classes).hierarchy.super? c.name = some c.super :=
  (Bytecode.Program.super?_ofClasses distinct).mpr (.inl ⟨c, member, rfl, rfl, named, extended⟩)

theorem super?_of_other (distinct : (classes.map Bytecode.Class.name).Nodup) {name : Text}
    (other : ∀ c ∈ classes, c.name = name → c.super = []) :
    (Bytecode.Program.ofClasses classes).hierarchy.super? name = Hierarchy.initial.super? name := by
  have none (super : Text) : ¬ Bytecode.Extending classes name super := by
    rintro ⟨c, member, same, rfl, _, extended⟩
    exact extended (other c member same)
  refine Option.ext fun super => ?_
  rw [Bytecode.Program.super?_ofClasses distinct]
  simp [none]

end

/-- Whatever the order in which the decoders finish, loading succeeds exactly if there are files,
each of them loads and builds, and no class name occurs twice. The program has the classes in
argument order, and its hierarchy the super class of each class that extends one, and otherwise the
platform's. A name that occurs twice is reported at its first repetition. -/
theorem program_of_decoders (fs : FileSystem) (filenames : List Text) :
    Loads fs filenames (Load.program fs filenames) ∧
    ∀ result, Loads fs filenames result →
      ((∃ program, result = .ok program) ↔ filenames ≠ [] ∧ (∀ f ∈ filenames, Readable fs f) ∧
        ((filenames.flatMap (classesIn fs)).map Bytecode.Class.name).Nodup) ∧
      (∀ program, result = .ok program →
        program.classes = filenames.flatMap (classesIn fs) ∧
        (∀ c ∈ program.classes, c.super ≠ [] → program.hierarchy.super? c.name = some c.super) ∧
        ∀ name, (∀ c ∈ program.classes, c.name = name → c.super = []) →
          program.hierarchy.super? name = Hierarchy.initial.super? name) ∧
      ((∀ f ∈ filenames, Readable fs f) →
        ¬ ((filenames.flatMap (classesIn fs)).map Bytecode.Class.name).Nodup →
        ∃ cls first again, FirstRepeat (entriesIn fs filenames) cls first again ∧
          result = .error (.duplicate cls first again)) := by
  refine ⟨loads_program fs filenames, fun result loads => ⟨⟨?_, ?_⟩, ?_, loads.eq_duplicate⟩⟩
  · rintro ⟨program, loaded⟩
    obtain ⟨given, all, distinct, _⟩ := loads.eq_ok_iff.mp loaded
    exact ⟨given, all, distinct⟩
  · rintro ⟨given, all, distinct⟩
    exact ⟨_, loads.eq_ok_iff.mpr ⟨given, all, distinct, rfl⟩⟩
  · intro program loaded
    obtain ⟨_, _, distinct, rfl⟩ := loads.eq_ok_iff.mp loaded
    refine ⟨rfl, fun c member extended => ?_, fun name other => super?_of_other distinct other⟩
    obtain ⟨filename, _, inside⟩ := List.mem_flatMap.mp member
    exact super?_of_class distinct member (named_of_classesIn inside) extended

end TraceLint.Load
