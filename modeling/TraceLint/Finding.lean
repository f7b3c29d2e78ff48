import TraceLint.Bytecode.Basic

/-! Findings: messages about places in a program, their rank and their order. -/
namespace TraceLint

/-- The rank of a finding. Only the ranks one to three have a name. -/
structure Severity where
  rank : Int
deriving DecidableEq

namespace Severity

def low : Severity := ⟨1⟩

def normal : Severity := ⟨2⟩

def high : Severity := ⟨3⟩

def names : List (Severity × Text) :=
  [(low, text "low"), (normal, text "normal"), (high, text "high")]

def name? (s : Severity) : Option Text := names.lookup s

def ofName? (name : Text) : Option Severity :=
  (names.find? fun entry => entry.2 = name).map Prod.fst

def shown (s : Severity) : Text :=
  s.name?.getD (text "Severity(" ++ Text.ofInt s.rank ++ text ")")

/-- Why a severity has no encoded form, or a text denotes none. -/
inductive Fault where
  | unnamed (s : Severity)
  | unknown (name : Text)
deriving DecidableEq

def Fault.message : Fault → Text
  | .unnamed s => text "invalid severity " ++ Text.ofInt s.rank
  | .unknown name => text "unknown severity " ++ Text.quoted name

def encode (s : Severity) : Except Fault Text :=
  match s.name? with
  | some name => .ok name
  | none => .error (.unnamed s)

def decode (name : Text) : Except Fault Severity :=
  match ofName? name with
  | some s => .ok s
  | none => .error (.unknown name)

end Severity

/-- The data that goes with a finding. -/
inductive Payload where
  | none
  | value (v : Value)
  /-- Two counts that should agree. -/
  | mismatch (placeholders arguments : Int)
  /-- A format without letters. -/
  | signOnly (format : Text)

structure Finding where
  pos : Bytecode.Position
  category : Text
  severity : Severity
  message : Text
  /-- The invoked method, if the finding is about a call. -/
  called : Text
  payload : Payload

namespace Finding

/-- The category, if any, in brackets before the message. -/
def shown (f : Finding) : Text :=
  let category := if f.category = [] then [] else byte '[' :: f.category ++ text "] "
  f.pos.shown ++ text ": " ++ category ++ f.message

/-- The order of findings: by class, method, pc and category. -/
def less (x y : Finding) : Bool :=
  if x.pos.cls ≠ y.pos.cls then Text.lt x.pos.cls y.pos.cls
  else if x.pos.method ≠ y.pos.method then Text.lt x.pos.method y.pos.method
  else if x.pos.pc ≠ y.pos.pc then decide (x.pos.pc < y.pos.pc)
  else Text.lt x.category y.category

end Finding

/-- Findings as they arrived. -/
structure Sink where
  arrived : List Finding := []

namespace Sink

def add (s : Sink) (findings : List Finding) : Sink := ⟨s.arrived ++ findings⟩

/-- The findings in order; those of equal rank stay as they arrived. -/
def findings (s : Sink) : List Finding := s.arrived.mergeSort fun x y => !Finding.less y x

end Sink

end TraceLint
