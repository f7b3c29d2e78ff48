import TraceLint.Bytecode.Inspector
import TraceLint.Finding
import TraceLint.Pattern.Parser
import TraceLint.Trace.Basic

/-! Expected findings: a trace says by regular expressions what is to be reported at an instruction.
Findings are paired with expectations one by one, each with the first that it meets. -/
namespace TraceLint

/-- An instruction, told apart from those of overloaded methods. -/
structure Site where
  cls : Text
  method : Text
  desc : Text
  pc : Int64
deriving DecidableEq

def Site.shown (s : Site) : Text :=
  Bytecode.called s.cls s.method s.desc ++ text "@pc " ++ Text.ofInt s.pc.toInt

def Finding.site (f : Finding) : Site := ⟨f.pos.cls, f.pos.method, f.pos.methodDesc, f.pos.pc⟩

/-- A finding as an expectation sees it. -/
def Finding.expected (f : Finding) : Text := byte '[' :: f.category ++ text "] " ++ f.message

/-- A finding that is expected at a site, by an expression of some kind. -/
structure Expectation (ρ : Type) where
  site : Site
  expression : ρ

namespace Expectation

/-- The expectations without the first that a finding meets; `none` if it meets none. -/
def meet? {ρ : Type} (agrees : ρ → Text → Bool) (f : Finding) :
    List (Expectation ρ) → Option (List (Expectation ρ))
  | [] => none
  | e :: rest =>
    if e.site = f.site && agrees e.expression f.expected then some rest
    else (meet? agrees f rest).map (e :: ·)

/-- What findings leave: the ones that nothing expected, in order, and the expectations not met. -/
def settle {ρ : Type} (agrees : ρ → Text → Bool) (wants : List (Expectation ρ)) :
    List Finding → List Finding × List (Expectation ρ)
  | [] => ([], wants)
  | f :: rest =>
    match meet? agrees f wants with
    | some left => settle agrees left rest
    | none =>
      let (unexpected, left) := settle agrees wants rest
      (f :: unexpected, left)

structure Expression where
  source : Text
  pattern : Pattern

def Expression.agrees (e : Expression) (s : Text) : Bool := e.pattern.occursIn s

def ofInstruction (cls method desc : Text) (i : Trace.InstructionRecord) :
    Except Text (List (Expectation Expression)) :=
  (i.want.getD []).mapM fun want =>
    match Pattern.parse want with
    | .ok pattern => .ok ⟨⟨cls, method, desc, i.pc⟩, ⟨want, pattern⟩⟩
    | .error fault =>
      let place := cls ++ byte '.' :: method ++ text "@pc " ++ Text.ofInt i.pc.toInt
      .error (place ++ text ": " ++ fault.message)

/-- The expectations of a trace, in document order. -/
def ofFile (f : Trace.File) : Except Text (List (Expectation Expression)) := do
  let found ← (f.classes.getD []).mapM fun c => (c.methods.getD []).mapM fun m =>
    (m.code.getD []).mapM (ofInstruction c.name m.name m.desc)
  return (found.map fun methods => (methods.map List.flatten).flatten).flatten

end Expectation

end TraceLint
