import TraceLint.Proofs.Bytecode.Traversal

/-! What the visitors of flattened classes are given. The traversal makes the calls that plain
nested loops over classes, methods and instructions make. -/
namespace TraceLint.Bytecode

/-- An instruction with its class and method, as a visitor is given it. -/
abbrev Visit := Class × Method × Instruction

namespace Visitor

variable {σ α : Type}

def onEvents (visit : Visitor σ Visit) : Visitor σ Event :=
  fun s e => visit s (e.cls, e.method, e.instruction)

/-- The visitor that also writes down what it is given, in order. -/
def logged (visit : Visitor σ α) : Visitor (σ × List α) α :=
  fun s x => (((visit s.1 x).1, s.2 ++ [x]), (visit s.1 x).2)

/-- Decides as a sequence says, call by call. -/
def deciding (decisions : Nat → Bool) : Visitor Nat α := fun n _ => (n + 1, decisions n)

end Visitor

section

variable {σ : Type} (classes : List Class) (filter : Option (List Opcode)) (visit : Visitor σ Visit)

/-- Visits by plain nested loops. -/
def visitNested (start : σ) : σ := Id.run do
  let mut s := start
  for c in classes do
    for m in c.methods do
      for i in m.code do
        -- Without a filter there is no list that the opcode could be missing from.
        if ∀ ops ∈ filter, i.op ∈ ops then
          let (s', go) := visit s (c, m, i)
          s := s'
          if !go then break
  return s

theorem forIn_code (c : Class) (m : Method) (code : List Instruction) (s : σ) :
    (forIn code s fun i s =>
        if ∀ ops ∈ filter, i.op ∈ ops then
          if (!(visit s (c, m, i)).2) = true then pure (.done (visit s (c, m, i)).1)
          else pure (.yield (visit s (c, m, i)).1)
        else pure (.yield s) : Id σ) =
      pure (visitCode (.ofFilter filter) visit.onEvents c m s code) := by
  induction code generalizing s with
  | nil => rfl
  | cons i rest ih =>
    have passes := OpcodeSet.contains_ofFilter filter i.op
    rw [List.forIn_cons, visitCode]
    split
    · rename_i listed
      rw [if_pos (passes.mpr listed)]
      cases go : (visit s (c, m, i)).2 with
      | true => simp [Visitor.onEvents, go, ← ih]
      | false => simp [Visitor.onEvents, go]
    · rename_i unlisted
      rw [if_neg fun inside => unlisted (passes.mp inside)]
      exact ih s

theorem visitNested_eq (s : σ) : visitNested classes filter visit s =
    classes.foldl (fun s c => c.methods.foldl (fun s m =>
      visitCode (.ofFilter filter) visit.onEvents c m s m.code) s) s := by
  unfold visitNested
  simp only [forIn_code]
  simp

theorem visitOpcodes_eq_visitNested (s : σ) :
    (Inspector.ofClasses classes).visitOpcodes filter visit.onEvents s =
      visitNested classes filter visit s := by
  rw [Inspector.visitOpcodes, visitAfter_classes, visitNested_eq]

theorem visitOpcodes_logged (inspector : Inspector) (s : σ) (log : List Visit) :
    (inspector.visitOpcodes filter visit.logged.onEvents (s, log)).1 =
      inspector.visitOpcodes filter visit.onEvents s :=
  (visitAfter_hom (f := Prod.fst) _ (fun _ _ => rfl) 0 (s, log) inspector.events).symm

end

/-- Whatever a visitor decides, it is called as nested loops call it that leave a method where it
declines: on the same instructions in the same order, so that it comes to the same state. -/
theorem visitOpcodes_refines_loops {σ : Type} (classes : List Class) (filter : Option (List Opcode))
    (visit : Visitor σ Visit) (s : σ) :
    (Inspector.ofClasses classes).visitOpcodes filter visit.logged.onEvents (s, []) =
      visitNested classes filter visit.logged (s, []) ∧
    (visitNested classes filter visit.logged (s, [])).1 =
      (Inspector.ofClasses classes).visitOpcodes filter visit.onEvents s := by
  have calls := visitOpcodes_eq_visitNested classes filter visit.logged (s, [])
  refine ⟨calls, ?_⟩
  rw [← calls, visitOpcodes_logged]

end TraceLint.Bytecode
