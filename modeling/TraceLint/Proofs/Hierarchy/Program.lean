import Mathlib.Data.List.Nodup
import TraceLint.Bytecode.Basic
import TraceLint.Proofs.Hierarchy.Reachability

/-! The hierarchy of a program whose classes have names of their own. Each class counts with its
super class and every other name as the platform has it, so the order of the classes does not
matter. -/
namespace TraceLint

namespace Hierarchy

variable {h h' : Hierarchy}

theorem super?_add (h : Hierarchy) (cls super name : Text) :
    (h.add cls super).super? name =
      if cls = name ∧ cls ≠ [] ∧ super ≠ [] then some super else h.super? name := by
  unfold add super?
  split
  · rename_i void
    rw [if_neg]
    rintro ⟨_, named, extended⟩
    exact void.elim named extended
  · rename_i entry
    obtain ⟨named, extended⟩ := not_or.mp entry
    rw [List.lookup_cons]
    by_cases same : cls = name
    · subst same
      simp [named, extended]
    · have other : (name == cls) = false := beq_false_of_ne (Ne.symm same)
      simp [same, other]

/-- Two hierarchies record the same super classes. -/
def Agrees (h h' : Hierarchy) : Prop := ∀ cls, h.super? cls = h'.super? cls

theorem Agrees.isThrowable (same : h.Agrees h') (slot : Option Stack.Slot) :
    h.isThrowable slot = h'.isThrowable slot := by
  have links : h.Extends = h'.Extends := by
    unfold Extends
    simp only [same _]
  cases slot with
  | none => rfl
  | some slot =>
    rw [Bool.eq_iff_iff, isThrowable_iff, isThrowable_iff]
    unfold HoldsThrowable
    rw [links]

end Hierarchy

namespace Bytecode

/-- Some class has a name and extends another by name. -/
def Extending (classes : List Class) (name super : Text) : Prop :=
  ∃ c ∈ classes, c.name = name ∧ c.super = super ∧ name ≠ [] ∧ super ≠ []

theorem super?_foldl_add {classes : List Class} (distinct : (classes.map Class.name).Nodup)
    (h : Hierarchy) {name super : Text} :
    (classes.foldl (fun h c => h.add c.name c.super) h).super? name = some super ↔
      Extending classes name super ∨ (¬ ∃ s, Extending classes name s) ∧
        h.super? name = some super := by
  induction classes generalizing h with
  | nil => simp [Extending]
  | cons c rest ih =>
    obtain ⟨fresh, distinct⟩ := List.nodup_cons.mp distinct
    have either (s : Text) : Extending (c :: rest) name s ↔
        (c.name = name ∧ c.super = s ∧ name ≠ [] ∧ s ≠ []) ∨ Extending rest name s := by
      simp [Extending]
    rw [List.foldl_cons, ih distinct, Hierarchy.super?_add]
    by_cases entry : c.name = name ∧ c.name ≠ [] ∧ c.super ≠ []
    · obtain ⟨rfl, named, extended⟩ := entry
      have unique (s : Text) : ¬ Extending rest c.name s := by
        rintro ⟨other, member, same, _⟩
        exact fresh (same ▸ List.mem_map_of_mem member)
      simp only [either, unique]
      grind
    · have without (s : Text) : Extending (c :: rest) name s ↔ Extending rest name s := by
        rw [either]
        refine or_iff_right ?_
        rintro ⟨rfl, rfl, named, extended⟩
        exact entry ⟨rfl, named, extended⟩
      simp only [without, if_neg entry]

/-- A name extends what its class says, or else what the platform says. -/
theorem Program.super?_ofClasses {classes : List Class} (distinct : (classes.map Class.name).Nodup)
    {name super : Text} :
    (Program.ofClasses classes).hierarchy.super? name = some super ↔ Extending classes name super ∨
      (¬ ∃ s, Extending classes name s) ∧ Hierarchy.initial.super? name = some super :=
  super?_foldl_add distinct .initial

theorem Program.agrees_of_perm {classes classes' : List Class}
    (distinct : (classes.map Class.name).Nodup) (shuffled : classes.Perm classes') :
    (Program.ofClasses classes).hierarchy.Agrees (Program.ofClasses classes').hierarchy := by
  have same (name super : Text) : Extending classes name super ↔ Extending classes' name super := by
    simp only [Extending, shuffled.mem_iff]
  intro name
  refine Option.ext fun super => ?_
  rw [super?_ofClasses distinct, super?_ofClasses ((shuffled.map _).nodup_iff.mp distinct)]
  simp only [same]

end Bytecode

end TraceLint
