import TraceLint.Bytecode.Basic

/-! Traversal of the instructions of some classes. The classes are flattened once into a list of
events; each knows how many events of its method follow, so a visitor that has seen enough of a
method skips the rest of it without walking there. -/
namespace TraceLint.Bytecode

/-- A set of opcodes as bits. -/
structure OpcodeSet where
  bits : BitVec 256
deriving DecidableEq

namespace OpcodeSet

def all : OpcodeSet := ⟨BitVec.allOnes 256⟩

def empty : OpcodeSet := ⟨0⟩

def insert (s : OpcodeSet) (op : Opcode) : OpcodeSet := ⟨s.bits ||| (1 <<< op.code.toNat)⟩

def contains (s : OpcodeSet) (op : Opcode) : Bool := s.bits.getLsbD op.code.toNat

def ofList (ops : List Opcode) : OpcodeSet := ops.foldl insert empty

/-- The opcodes a filter lets through; no filter lets through all. -/
def ofFilter : Option (List Opcode) → OpcodeSet
  | none => all
  | some ops => ofList ops

end OpcodeSet

structure Event where
  cls : Class
  method : Method
  instruction : Instruction
  /-- How many instructions of the method follow. -/
  following : Nat

/-- The index of an event's instruction in its method's code. -/
def Event.index (e : Event) : Nat := e.method.code.length - 1 - e.following

/-- The instructions of some classes, in class, method and code order. -/
structure Inspector where
  events : List Event

/-- The events of the given instructions, which are the last ones of the method's code. -/
def eventsOf (c : Class) (m : Method) : List Instruction → List Event
  | [] => []
  | i :: rest => ⟨c, m, i, rest.length⟩ :: eventsOf c m rest

def Inspector.ofClasses (classes : List Class) : Inspector :=
  ⟨classes.flatMap fun c => c.methods.flatMap fun m => eventsOf c m m.code⟩

/-- A visitor with a state: it tells whether to go on with the method. -/
abbrev Visitor (σ : Type) (α : Type) := σ → α → σ × Bool

/-- Applies a visitor to the events whose opcode is in a set, after skipping some. -/
def visitAfter {σ : Type} (ops : OpcodeSet) (visit : Visitor σ Event) : Nat → σ → List Event → σ
  | _, s, [] => s
  | skip + 1, s, _ :: rest => visitAfter ops visit skip s rest
  | 0, s, e :: rest =>
    if ops.contains e.instruction.op then
      let (s', go) := visit s e
      visitAfter ops visit (if go then 0 else e.following) s' rest
    else visitAfter ops visit 0 s rest

namespace Inspector

/-- Visits the instructions that a filter lets through; when the visitor declines, the rest of the
method is skipped. -/
def visitOpcodes {σ : Type} (inspector : Inspector) (filter : Option (List Opcode))
    (visit : Visitor σ Event) (s : σ) : σ :=
  visitAfter (.ofFilter filter) visit 0 s inspector.events

def visitAll {σ : Type} (inspector : Inspector) (visit : Visitor σ Event) (s : σ) : σ :=
  inspector.visitOpcodes none visit s

/-- Visits like `visitOpcodes`, but the visitor is given class, method, the whole code of the
method, and the index of the instruction in it. -/
def visitInContext {σ : Type} (inspector : Inspector) (filter : Option (List Opcode))
    (visit : Visitor σ (Class × Method × List Instruction × Nat)) (s : σ) : σ :=
  inspector.visitOpcodes filter (fun s e => visit s (e.cls, e.method, e.method.code, e.index)) s

end Inspector

end TraceLint.Bytecode
