import TraceLint.Bytecode.Basic
import TraceLint.Trace.Basic

/-! From a trace to the classes it describes. -/
namespace TraceLint.Trace

open Bytecode (Opcode Instruction)

/-- Why an instruction record describes no instruction. -/
inductive CodeFault where
  /-- Its pc is not above that of the record before it. -/
  | outOfOrder
  | unknownOpcode (mnemonic : Text)
  /-- A call that lacks owner, name or descriptor. -/
  | noTarget (op : Opcode)
deriving DecidableEq

/-- Why a trace describes no classes. -/
inductive BuildFault where
  | unnamedClass
  | code (cls method desc : Text) (pc : Int64) (fault : CodeFault)
deriving DecidableEq

def CodeFault.message : CodeFault → Text
  | .outOfOrder => text "instructions out of order"
  | .unknownOpcode mnemonic => text "unknown opcode " ++ Text.quoted mnemonic
  | .noTarget op => op.shown ++ text " needs owner, name and desc"

def BuildFault.message : BuildFault → Text
  | .unnamedClass => text "class without a name"
  | .code cls method desc pc fault =>
    Bytecode.called cls method desc ++ text ": pc " ++ Text.ofInt pc.toInt ++ text ": " ++
      fault.message

def ArrayRecord.build (a : ArrayRecord) : Stack.ArrayTag := ⟨a.size, a.throwableAtLast⟩

def SlotRecord.build (s : SlotRecord) : Stack.Slot :=
  ⟨s.sig, s.const, s.array.map ArrayRecord.build⟩

/-- The instruction of a record. -/
def InstructionRecord.build (i : InstructionRecord) : Except CodeFault Instruction :=
  match Opcode.ofMnemonic? i.op with
  | none => .error (.unknownOpcode i.op)
  | some op =>
    if op.isInvoke && (i.owner = [] || i.name = [] || i.desc = []) then .error (.noTarget op)
    else .ok ⟨i.pc, i.line, op, i.owner, i.name, i.desc,
      i.stack.map fun slots => ⟨slots.map SlotRecord.build⟩⟩

/-- The instructions of records whose pc lies above `previous` and ascends; a fault comes with the
pc of its record. -/
def buildCode (previous : Option Int64) : List InstructionRecord →
    Except (Int64 × CodeFault) (List Instruction)
  | [] => .ok []
  | i :: rest =>
    if previous.any (i.pc ≤ ·) then .error (i.pc, .outOfOrder)
    else match i.build with
      | .error fault => .error (i.pc, fault)
      | .ok instruction => (buildCode (some i.pc) rest).map (instruction :: ·)

def MethodRecord.build (cls : Text) (m : MethodRecord) : Except BuildFault Bytecode.Method :=
  match buildCode none (m.code.getD []) with
  | .ok code => .ok ⟨m.name, m.desc, code⟩
  | .error (pc, fault) => .error (.code cls m.name m.desc pc fault)

def buildMethods (cls : Text) : List MethodRecord → Except BuildFault (List Bytecode.Method)
  | [] => .ok []
  | m :: rest =>
    match m.build cls with
    | .error fault => .error fault
    | .ok method => (buildMethods cls rest).map (method :: ·)

def ClassRecord.build (c : ClassRecord) : Except BuildFault Bytecode.Class :=
  if c.name = [] then .error .unnamedClass
  else (buildMethods c.name (c.methods.getD [])).map fun methods =>
    ⟨c.name, c.super, c.source, methods, c.incomplete⟩

def buildClasses : List ClassRecord → Except BuildFault (List Bytecode.Class)
  | [] => .ok []
  | c :: rest =>
    match c.build with
    | .error fault => .error fault
    | .ok cls => (buildClasses rest).map (cls :: ·)

/-- The classes of a trace. The first record that is at fault decides the error. -/
def File.build (f : File) : Except BuildFault (List Bytecode.Class) :=
  buildClasses (f.classes.getD [])

end TraceLint.Trace
