import TraceLint.Value

/-! Traces: what an interpreter wrote down of the classes it decoded, one record an instruction. A
list may be absent, which is not the same as empty. -/
namespace TraceLint.Trace

/-- An array built in place. -/
structure ArrayRecord where
  size : Int64 := 0
  throwableAtLast : Bool := false
deriving DecidableEq

structure SlotRecord where
  sig : Text := []
  const : Value := .null
  array : Option ArrayRecord := none

structure InstructionRecord where
  pc : Int64 := 0
  line : Int64 := 0
  /-- The mnemonic. -/
  op : Text := []
  owner : Text := []
  name : Text := []
  desc : Text := []
  stack : Option (List SlotRecord) := none
  /-- Patterns of the findings that a test expects at the instruction. -/
  want : Option (List Text) := none

structure MethodRecord where
  name : Text := []
  desc : Text := []
  code : Option (List InstructionRecord) := none

structure ClassRecord where
  name : Text := []
  super : Text := []
  source : Text := []
  methods : Option (List MethodRecord) := none
  incomplete : Bool := false

/-- The contents of one trace file. -/
structure File where
  classes : Option (List ClassRecord) := none

namespace File

/-- The expectations of a trace, in document order. -/
def wants (f : File) : List Text :=
  (f.classes.getD []).flatMap fun c => (c.methods.getD []).flatMap fun m =>
    (m.code.getD []).flatMap fun i => i.want.getD []

end File

end TraceLint.Trace
