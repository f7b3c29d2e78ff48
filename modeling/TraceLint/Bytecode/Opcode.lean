import TraceLint.Text.Basic

/-! Instruction opcodes and their mnemonics. -/
namespace TraceLint.Bytecode

structure Opcode where
  code : UInt8
deriving DecidableEq

namespace Opcode

/-- The opcodes that have a name here, by code. -/
def mnemonics : List (UInt8 × Text) :=
  [(0x00, text "nop"), (0x01, text "aconst_null"), (0x03, text "iconst_0"), (0x10, text "bipush"),
   (0x11, text "sipush"), (0x12, text "ldc"), (0x13, text "ldc_w"), (0x19, text "aload"),
   (0x2a, text "aload_0"), (0x2b, text "aload_1"), (0x2c, text "aload_2"), (0x2d, text "aload_3"),
   (0x3a, text "astore"), (0x53, text "aastore"), (0x57, text "pop"), (0x59, text "dup"),
   (0xb0, text "areturn"), (0xb1, text "return"), (0xb2, text "getstatic"), (0xb4, text "getfield"),
   (0xb6, text "invokevirtual"), (0xb7, text "invokespecial"), (0xb8, text "invokestatic"),
   (0xb9, text "invokeinterface"), (0xba, text "invokedynamic"), (0xbb, text "new"),
   (0xbd, text "anewarray"), (0xbf, text "athrow"), (0xc0, text "checkcast")]

/-- Calls through an interface. -/
def invokeInterface : Opcode := ⟨0xb9⟩

def ofMnemonic? (name : Text) : Option Opcode :=
  (mnemonics.find? fun entry => entry.2 = name).map fun entry => ⟨entry.1⟩

/-- The mnemonic, or the code in hexadecimal for an opcode without a name. -/
def shown (op : Opcode) : Text :=
  match mnemonics.lookup op.code with
  | some name => name
  | none => text "op0x" ++ Text.hex 2 op.code.toNat

/-- Calls that name an owner, a method and a descriptor; a dynamic call has none. -/
def isInvoke (op : Opcode) : Bool := 0xb6 ≤ op.code && op.code ≤ 0xb9

end Opcode

end TraceLint.Bytecode
