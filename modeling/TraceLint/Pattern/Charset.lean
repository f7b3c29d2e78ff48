import TraceLint.Unicode.Digit
import TraceLint.Unicode.Fold
import TraceLint.Unicode.Letter

/-! Sets of characters by their code points. -/
namespace TraceLint.Pattern

/-- The code points in some inclusive ranges, or all but those. -/
structure CharGroup where
  negated : Bool := false
  ranges : List (Nat × Nat)
deriving DecidableEq

/-- A union of groups, or all but it. -/
structure Charset where
  negated : Bool := false
  /-- Whether letters that differ in case only count as the same. -/
  fold : Bool := false
  groups : List CharGroup
deriving DecidableEq

namespace CharGroup

def negate (g : CharGroup) : CharGroup := { g with negated := !g.negated }

def contains (fold : Bool) (n : Nat) (g : CharGroup) : Bool :=
  let inside (n : Nat) : Bool := g.ranges.any fun (lo, hi) => lo ≤ n && n ≤ hi
  (if fold then (Unicode.caseVariants n).any inside else inside n) != g.negated

/-- Ranges of ASCII characters by their ends. -/
def ofPairs (pairs : List (Char × Char)) : CharGroup :=
  { ranges := pairs.map fun (lo, hi) => (lo.toNat, hi.toNat) }

def digit : CharGroup := ofPairs [('0', '9')]

def space : CharGroup := ofPairs [('\t', '\n'), ('\x0c', '\r'), (' ', ' ')]

def word : CharGroup := ofPairs [('0', '9'), ('A', 'Z'), ('_', '_'), ('a', 'z')]

/-- The group that a letter after a backslash stands for; in upper case it is negated. -/
def ofLetter? (c : Char) : Option CharGroup :=
  match c with
  | 'd' => some digit
  | 'D' => some digit.negate
  | 's' => some space
  | 'S' => some space.negate
  | 'w' => some word
  | 'W' => some word.negate
  | _ => none

/-- The groups of ASCII characters that have a name. -/
def ofName? (name : String) : Option CharGroup :=
  match name with
  | "alnum" => some (ofPairs [('0', '9'), ('A', 'Z'), ('a', 'z')])
  | "alpha" => some (ofPairs [('A', 'Z'), ('a', 'z')])
  | "ascii" => some (ofPairs [('\x00', '\x7f')])
  | "blank" => some (ofPairs [('\t', '\t'), (' ', ' ')])
  | "cntrl" => some (ofPairs [('\x00', '\x1f'), ('\x7f', '\x7f')])
  | "digit" => some digit
  | "graph" => some (ofPairs [('!', '~')])
  | "lower" => some (ofPairs [('a', 'z')])
  | "print" => some (ofPairs [(' ', '~')])
  | "punct" => some (ofPairs [('!', '/'), (':', '@'), ('[', '\x60'), ('\x7b', '~')])
  | "space" => some (ofPairs [('\t', '\r'), (' ', ' ')])
  | "upper" => some (ofPairs [('A', 'Z')])
  | "word" => some word
  | "xdigit" => some (ofPairs [('0', '9'), ('A', 'F'), ('a', 'f')])
  | _ => none

/-- The groups of characters of any script: letters, decimal digits, and all. -/
def ofProperty? (name : String) : Option CharGroup :=
  match name with
  | "L" => some { ranges := Unicode.letterRanges }
  | "Nd" => some { ranges := Unicode.digitRanges }
  | "Any" => some { ranges := [(0, 0x10ffff)] }
  | _ => none

end CharGroup

namespace Charset

def contains (s : Charset) (c : Char) : Bool :=
  s.groups.any (·.contains s.fold c.toNat) != s.negated

def single (fold : Bool) (n : Nat) : Charset := { fold, groups := [{ ranges := [(n, n)] }] }

end Charset

end TraceLint.Pattern
