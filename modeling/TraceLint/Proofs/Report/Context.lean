import Mathlib.Data.List.Nodup
import TraceLint.Proofs.Bytecode.Traversal
import TraceLint.Report.Context

/-! The context of a position, method by method. Only a class with the name that the position gives
has a part in it, so where names are distinct the order of the classes does not show. -/
namespace TraceLint.Report

open Bytecode (Method Instruction Inspector Position OpcodeSet)

/-- What a method shows around a position: the window at the first instruction there. -/
def shownIn (size : Int64) (pos : Position) (c : Bytecode.Class) (m : Method) : List Transcript :=
  if isAt pos c m then
    match m.code.findIdx? fun i => i.pc = pos.pc with
    | some i => [window size m.code i]
    | none => []
  else []

/-- The visitor that collects the context of a position. -/
def collect (size : Int64) (pos : Position) : Bytecode.Visitor Transcript Bytecode.Event :=
  fun out e =>
    if isAt pos e.cls e.method then
      match e.method.code[e.index]? with
      | some instruction =>
        if instruction.pc = pos.pc then (out ++ window size e.method.code e.index, false)
        else (out, true)
      | none => (out, true)
    else (out, false)

theorem visitCode_collect_elsewhere {size : Int64} {pos : Position} {c : Bytecode.Class}
    {m : Method} (elsewhere : isAt pos c m = false) (out : Transcript) (code : List Instruction) :
    Bytecode.visitCode (.ofFilter none) (collect size pos) c m out code = out := by
  cases code with
  | nil => rfl
  | cons i rest => simp [Bytecode.visitCode, OpcodeSet.contains_unfiltered, collect, elsewhere]

/-- Visiting the rest of a method's code finds the first place in it with the pc of the position. -/
theorem visitCode_collect {size : Int64} {pos : Position} {c : Bytecode.Class} {m : Method}
    (here : isAt pos c m = true) {front rest : List Instruction} (code : m.code = front ++ rest)
    (out : Transcript) :
    Bytecode.visitCode (.ofFilter none) (collect size pos) c m out rest =
      out ++ .concat (match rest.findIdx? fun i => i.pc = pos.pc with
        | some j => [window size m.code (front.length + j)]
        | none => []) := by
  induction rest generalizing front with
  | nil => exact (Transcript.append_empty out).symm
  | cons i rest ih =>
    have index : (Bytecode.Event.mk c m i rest.length).index = front.length :=
      Bytecode.Event.index_eq code
    have instruction : m.code[front.length]? = some i := by simp [code]
    rw [Bytecode.visitCode, if_pos (OpcodeSet.contains_unfiltered i.op), List.findIdx?_cons]
    by_cases found : i.pc = pos.pc
    · simp [collect, here, index, instruction, found, Transcript.concat]
    · have later := @ih (front ++ [i]) (by simp [code])
      simp only [collect, here, index, instruction, found, if_true, if_false, later, decide_false]
      cases rest.findIdx? fun i => i.pc = pos.pc with
      | none => rfl
      | some j =>
        have place : (front ++ [i]).length + j = front.length + (j + 1) := by
          rw [List.length_append, List.length_singleton]
          omega
        exact congrArg (fun k => out ++ .concat [window size m.code k]) place

theorem visitCode_eq_shownIn (size : Int64) (pos : Position) (c : Bytecode.Class) (m : Method)
    (out : Transcript) :
    Bytecode.visitCode (.ofFilter none) (collect size pos) c m out m.code =
      out ++ .concat (shownIn size pos c m) := by
  unfold shownIn
  split
  · rename_i here
    have found := @visitCode_collect size pos c m here [] m.code rfl out
    simp only [List.length_nil, Nat.zero_add] at found
    exact found
  · rename_i elsewhere
    rw [visitCode_collect_elsewhere (Bool.not_eq_true _ ▸ elsewhere)]
    exact (Transcript.append_empty out).symm

theorem foldl_append_concat {α : Type} (part : α → List Transcript) (xs : List α)
    (out : Transcript) :
    xs.foldl (fun out x => out ++ .concat (part x)) out = out ++ .concat (xs.flatMap part) := by
  induction xs generalizing out with
  | nil => exact (Transcript.append_empty out).symm
  | cons x rest ih =>
    rw [List.foldl_cons, ih, List.flatMap_cons, Transcript.concat_append, Transcript.append_assoc]

/-- The context of a position is what the methods show, class by class. -/
theorem context_eq_concat (classes : List Bytecode.Class) (size : Int64) (pos : Position) :
    context (.ofClasses classes) size pos =
      .concat (classes.flatMap fun c => c.methods.flatMap (shownIn size pos c)) := by
  have visited : context (.ofClasses classes) size pos =
      Bytecode.visitAfter (.ofFilter none) (collect size pos) 0 {}
        (Inspector.ofClasses classes).events := rfl
  rw [visited, Bytecode.visitAfter_classes]
  simp only [visitCode_eq_shownIn, foldl_append_concat]
  rfl

theorem shownIn_of_other_class {size : Int64} {pos : Position} {c : Bytecode.Class}
    (other : c.name ≠ pos.cls) : c.methods.flatMap (shownIn size pos c) = [] := by
  refine List.flatMap_eq_nil_iff.mpr fun m _ => ?_
  simp [shownIn, isAt, other]

/-- Where class names are distinct, the order of the classes does not show in a context. -/
theorem context_of_perm {classes classes' : List Bytecode.Class}
    (distinct : (classes.map Bytecode.Class.name).Nodup) (shuffled : classes.Perm classes')
    (size : Int64) (pos : Position) :
    context (.ofClasses classes) size pos = context (.ofClasses classes') size pos := by
  rw [context_eq_concat, context_eq_concat]
  refine congrArg Transcript.concat ?_
  exact Bytecode.flatMap_of_perm distinct shuffled pos.cls fun c => shownIn_of_other_class

end TraceLint.Report
