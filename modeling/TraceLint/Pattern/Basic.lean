import TraceLint.Pattern.Charset
import TraceLint.Text.Utf8

/-! Regular expressions that are searched for anywhere in a text. -/
namespace TraceLint

inductive Pattern where
  | empty
  /-- A character of a set. -/
  | one (s : Pattern.Charset)
  | anyButBreak
  | any
  | startOfText
  | endOfText
  | startOfLine
  | endOfLine
  /-- A place between a word and what is no word, or none. -/
  | boundary (negated : Bool)
  | sequence (p q : Pattern)
  | either (p q : Pattern)
  /-- Any number of times. -/
  | star (p : Pattern)
  /-- At least so many times, and at most so many, if there is a limit. -/
  | repeated (least : Nat) (most : Option Nat) (p : Pattern)
deriving Inhabited

namespace Pattern

def plus (p : Pattern) : Pattern := .sequence p (.star p)

def optional (p : Pattern) : Pattern := .either p .empty

/-- A place in a text: the character before it, and what follows. -/
structure Place where
  before : Option Char
  rest : List Char
deriving DecidableEq

namespace Place

def step (p : Place) (accepts : Char → Bool) : List Place :=
  match p.rest with
  | c :: rest => if accepts c then [⟨some c, rest⟩] else []
  | [] => []

def stay (p : Place) (holds : Bool) : List Place := if holds then [p] else []

/-- Whether exactly one of the characters around a place belongs to a word. -/
def atBoundary (p : Place) : Bool :=
  let inWord (c : Option Char) : Bool := c.any fun c => CharGroup.word.contains false c.toNat
  inWord p.before != inWord p.rest.head?

end Place

/-- The places that any number of steps reach, at most `fuel` of them; a step that stays in place
adds nothing. -/
def reached (step : Place → List Place) : (fuel : Nat) → Place → List Place
  | 0, p => [p]
  | fuel + 1, p =>
    (p :: (step p).flatMap fun q =>
      if q.rest.length < p.rest.length then reached step fuel q else []).eraseDups

/-- The places that exactly `n` steps reach. -/
def afterSteps (step : Place → List Place) (n : Nat) (ps : List Place) : List Place :=
  match n with
  | 0 => ps
  | n + 1 => afterSteps step n (ps.flatMap step).eraseDups

/-- The places that at most `n` steps reach. -/
def withinSteps (step : Place → List Place) (n : Nat) (ps : List Place) : List Place :=
  match n with
  | 0 => ps
  | n + 1 => (ps ++ withinSteps step n (ps.flatMap step).eraseDups).eraseDups

/-- The places where a match that begins at a place can end. -/
def ends : Pattern → Place → List Place
  | .empty, p => [p]
  | .one s, p => p.step s.contains
  | .anyButBreak, p => p.step (· ≠ '\n')
  | .any, p => p.step fun _ => true
  | .startOfText, p => p.stay p.before.isNone
  | .endOfText, p => p.stay p.rest.isEmpty
  | .startOfLine, p => p.stay (p.before.all (· = '\n'))
  | .endOfLine, p => p.stay (p.rest.head?.all (· = '\n'))
  | .boundary negated, p => p.stay (p.atBoundary != negated)
  | .sequence a b, p => ((a.ends p).flatMap b.ends).eraseDups
  | .either a b, p => (a.ends p ++ b.ends p).eraseDups
  | .star a, p => reached a.ends p.rest.length p
  | .repeated least most a, p =>
    let first := afterSteps a.ends least [p]
    match most with
    | some most => withinSteps a.ends (most - least) first
    | none => (first.flatMap fun p => reached a.ends p.rest.length p).eraseDups

/-- Whether a match begins at a place or later. -/
def occursFrom (pattern : Pattern) (before : Option Char) : List Char → Bool
  | [] => !(pattern.ends ⟨before, []⟩).isEmpty
  | c :: rest => !(pattern.ends ⟨before, c :: rest⟩).isEmpty || pattern.occursFrom (some c) rest

def occursIn (pattern : Pattern) (s : Text) : Bool := pattern.occursFrom none (Utf8.chars s)

end Pattern

end TraceLint
