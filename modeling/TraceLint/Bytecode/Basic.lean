import TraceLint.Bytecode.Opcode
import TraceLint.Hierarchy

/-! Programs under analysis: classes, their methods, and each method's instructions with the operand
stack before them. -/
namespace TraceLint.Bytecode

structure Instruction where
  pc : Int64
  /-- The source line, zero if unknown. -/
  line : Int64
  op : Opcode
  /-- Owner, name and descriptor of the method that a call invokes. -/
  owner : Text
  name : Text
  desc : Text
  stack : Option Stack.Snapshot

structure Method where
  name : Text
  desc : Text
  code : List Instruction

structure Class where
  name : Text
  super : Text
  source : Text
  methods : List Method
  /-- Set when part of the class could not be decoded. -/
  incomplete : Bool

/-- The classes submitted for analysis and the hierarchy over them. -/
structure Program where
  classes : List Class
  hierarchy : Hierarchy

/-- A program over some classes: each is recorded in a fresh hierarchy. -/
def Program.ofClasses (classes : List Class) : Program :=
  ⟨classes, classes.foldl (fun h c => h.add c.name c.super) .initial⟩

/-- Where an instruction stands. -/
structure Position where
  cls : Text := []
  method : Text := []
  /-- Tells overloads apart. -/
  methodDesc : Text := []
  source : Text := []
  line : Int64 := 0
  pc : Int64 := 0
deriving DecidableEq

def Position.of (c : Class) (m : Method) (i : Instruction) : Position :=
  ⟨c.name, m.name, m.desc, c.source, i.line, i.pc⟩

/-- A position as `File.java:12 (pkg/C.method@pc 34)`, without the parts that are unknown. -/
def Position.shown (p : Position) : Text :=
  let place := p.cls ++ byte '.' :: p.method ++ text "@pc " ++ Text.ofInt p.pc.toInt
  if p.source = [] then place
  else
    let line := if 0 < p.line then byte ':' :: Text.ofInt p.line.toInt else []
    p.source ++ line ++ text " (" ++ place ++ text ")"

/-- The invoked method as owner, name and descriptor. -/
def called (owner name desc : Text) : Text := owner ++ byte '.' :: name ++ desc

def Instruction.shown (i : Instruction) : Text :=
  let head := Text.ofInt i.pc.toInt ++ text ": " ++ i.op.shown
  if i.op.isInvoke then head ++ byte ' ' :: called i.owner i.name i.desc else head

end TraceLint.Bytecode
