import TraceLint.Trace.Basic

/-! Traces while they are read. A record may be read twice, the second time on top of the first; a
list that is written over by a shorter one hides the rest of its items, and a longer one after it
uncovers them again. -/
namespace TraceLint.Trace

/-- A list that is written over in place: of its cells, the first `length` are in use. -/
structure Slate (α : Type) where
  cells : List α := []
  length : Nat := 0

namespace Slate

variable {α β : Type}

/-- The items in use. -/
def items (s : Slate α) : List α := s.cells.take s.length

/-- A slate with nothing hidden. -/
def ofList (xs : List α) : Slate α := ⟨xs, xs.length⟩

/-- Items written over the first of the cells. -/
def overwrite (cells items : List α) : Slate α := ⟨items ++ cells.drop items.length, items.length⟩

/-- The items in use of a slate that may be absent, each finished. -/
def finish (f : α → β) (s : Option (Slate α)) : Option (List β) := s.map fun s => s.items.map f

@[simp]
theorem items_ofList (xs : List α) : (ofList xs).items = xs := List.take_length

@[simp]
theorem items_overwrite (cells items : List α) : (overwrite cells items).items = items := by
  simp [overwrite, Slate.items]

end Slate

structure InstructionDraft where
  pc : Int64 := 0
  line : Int64 := 0
  op : Text := []
  owner : Text := []
  name : Text := []
  desc : Text := []
  stack : Option (Slate SlotRecord) := none
  want : Option (Slate Text) := none

def InstructionDraft.finish (i : InstructionDraft) : InstructionRecord :=
  ⟨i.pc, i.line, i.op, i.owner, i.name, i.desc, Slate.finish id i.stack, Slate.finish id i.want⟩

structure MethodDraft where
  name : Text := []
  desc : Text := []
  code : Option (Slate InstructionDraft) := none

def MethodDraft.finish (m : MethodDraft) : MethodRecord :=
  ⟨m.name, m.desc, Slate.finish InstructionDraft.finish m.code⟩

structure ClassDraft where
  name : Text := []
  super : Text := []
  source : Text := []
  methods : Option (Slate MethodDraft) := none
  incomplete : Bool := false

def ClassDraft.finish (c : ClassDraft) : ClassRecord :=
  ⟨c.name, c.super, c.source, Slate.finish MethodDraft.finish c.methods, c.incomplete⟩

structure FileDraft where
  classes : Option (Slate ClassDraft) := none

def FileDraft.finish (f : FileDraft) : File := ⟨Slate.finish ClassDraft.finish f.classes⟩

end TraceLint.Trace
