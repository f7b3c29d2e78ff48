import TraceLint.Yaml.Source

/-! Scalars as they are written: plain, quoted, and as an indented block. Inside the first two a
single line break reads as a space, and of several the first is dropped. -/
namespace TraceLint.Yaml

/-- Blank space inside a scalar whose meaning depends on what follows. Lists hold the latest
first. -/
inductive Gap where
  | closed
  | blanks (cs : List Char)
  /-- Line breaks; the first is absent if it was escaped. -/
  | lines (first : Option Char) (more : List Char)

namespace Gap

/-- Blanks next to a line break do not count. -/
def addBlank (c : Char) : Gap → Gap
  | .closed => .blanks [c]
  | .blanks cs => .blanks (c :: cs)
  | .lines first more => .lines first more

def addBreak (c : Char) : Gap → Gap
  | .lines first more => .lines first (c :: more)
  | _ => .lines (some c) []

def isLines : Gap → Bool
  | .lines .. => true
  | _ => false

/-- The characters that a gap stands for, the latest first. -/
def text : Gap → List Char
  | .closed => []
  | .blanks cs => cs
  | .lines first more =>
    match first with
    | some '\n' => if more.isEmpty then [' '] else more
    | some c => more ++ [c]
    | none => more

end Gap

/-- A scalar as far as it is read: its characters, the latest first, and the gap after them. -/
structure Begun where
  value : List Char := []
  gap : Gap := .closed

namespace Begun

def push (p : Begun) (c : Char) : Begun := { value := c :: (p.gap.text ++ p.value) }

def settle (p : Begun) : Begun := { value := p.gap.text ++ p.value }

/-- The characters that were read; a gap at their end does not count. -/
def result (p : Begun) : List Char := p.value.reverse

end Begun

namespace Scan

/-- Passes blanks and line breaks into the gap of a scalar. A tab may not take the place of
indentation below the column `indent`. -/
def gap (indent : Int) (p : Begun) : Scan Begun :=
  loop p fun p => do
    match ← look 0 with
    | some c =>
      if isBlank c then
        if p.gap.isLines && (← column) < indent && c = '\t' then failure
        advance
        return .inl { p with gap := p.gap.addBlank c }
      else if isBreak c then
        let c ← passBreak
        need 1
        return .inl { p with gap := p.gap.addBreak c }
      else return .inr p
    | none => return .inr p

def isFlowIndicator (c : Char) : Bool := ",?[]\x7b\x7d".toList.contains c

/-- Passes the characters of a plain scalar up to the next gap or its end. -/
def plainWord (flow : Bool) (p : Begun) : Scan Begun :=
  loop p fun p => do
    let next ← look 0
    match next with
    | some c =>
      if endsWord next || (c = ':' && endsWord (← look 1)) || (flow && isFlowIndicator c) then
        return .inr p
      else
        pass
        need 2
        return .inl (p.push c)
    | none => return .inr p

/-- A plain scalar inside a block that is indented by `indent`, and whether it ended its line. -/
def plain (flow : Bool) (indent : Int) : Scan (List Char × Bool) := do
  let p ← loop {} fun (p : Begun) => do
    need 4
    if (← atDocumentEnd) || (← look 0) = some '#' then return .inr p
    let p ← plainWord flow p
    let next ← look 0
    if next.isSome && endsWord next then
      let p ← gap (indent + 1) p
      if !flow && (← column) < indent + 1 then return .inr p
      return .inl p
    else return .inr p
  return (p.result, p.gap.isLines)

end Scan

def escapedChar? (c : Char) : Option Char :=
  match c with
  | '0' => some (Char.ofNat 0)
  | 'a' => some (Char.ofNat 7)
  | 'b' => some (Char.ofNat 8)
  | 't' => some '\t'
  | '\t' => some '\t'
  | 'n' => some '\n'
  | 'v' => some (Char.ofNat 11)
  | 'f' => some (Char.ofNat 12)
  | 'r' => some '\r'
  | 'e' => some (Char.ofNat 27)
  | ' ' => some ' '
  | '\x22' => some '\x22'
  | '\x27' => some '\x27'
  | '\\' => some '\\'
  | 'N' => some (Char.ofNat 0x85)
  | '_' => some (Char.ofNat 0xa0)
  | 'L' => some (Char.ofNat 0x2028)
  | 'P' => some (Char.ofNat 0x2029)
  | _ => none

def escapeDigits? (c : Char) : Option Nat :=
  match c with
  | 'x' => some 2
  | 'u' => some 4
  | 'U' => some 8
  | _ => none

def hexDigit? (c : Char) : Option Nat :=
  if c.toNat < 0x80 then Text.hexValue? (byte c) else none

namespace Scan

def escapeCode (digits : Nat) : Scan Char := do
  need digits
  let code ← (((← get).ready.take digits).foldlM
    (fun n c => (hexDigit? c).map (n * 16 + ·)) 0 : Option Nat)
  if ((← get).ready.take digits).length < digits || !code.isValidChar then failure
  passMany digits
  return Char.ofNat code

def escape : Scan Char := do
  let some c ← look 1 | failure
  match escapedChar? c, escapeDigits? c with
  | some d, _ =>
    passMany 2
    return d
  | none, some digits =>
    passMany 2
    escapeCode digits
  | none, none => failure

/-- Passes the characters of a quoted scalar up to the next gap or the closing quote. An escaped
line break opens a gap. -/
def quotedWord (double : Bool) (p : Begun) : Scan Begun :=
  loop p fun p => do
    let next ← look 0
    let after ← look 1
    match next with
    | some c =>
      if endsWord next then return .inr p
      else if !double && c = '\x27' && after = some '\x27' then
        passMany 2
        need 2
        return .inl (p.push c)
      else if c = (if double then '\x22' else '\x27') then return .inr p.settle
      else if double && c = '\\' && after.any isBreak then
        need 3
        pass
        let _ ← passBreak
        return .inr { p.settle with gap := .lines none [] }
      else if double && c = '\\' then
        let d ← escape
        need 2
        return .inl (p.push d)
      else
        pass
        need 2
        return .inl (p.push c)
    | none => return .inr p

def quoted (double : Bool) : Scan (List Char) := do
  pass
  let p ← loop {} fun (p : Begun) => do
    need 4
    if ← atDocumentEnd then failure
    if (← look 0).isNone then failure
    let p ← quotedWord double p
    need 1
    if (← look 0) = some (if double then '\x22' else '\x27') then return .inr p.settle
    return .inl (← gap (-1) p)
  pass
  return p.result

end Scan

/-- What becomes of the line breaks at the end of a block scalar. -/
inductive Chomping where
  | strip
  /-- The first is kept. -/
  | clip
  | keep
deriving DecidableEq

/-- A block scalar as far as it is read. Lists hold the latest first. -/
structure Block where
  literal : Bool
  chomping : Chomping
  /-- The indentation of its lines, zero while unknown. -/
  indent : Nat
  value : List Char := []
  /-- The break at the end of the last line. -/
  lineEnd : List Char := []
  /-- The breaks of empty lines after it. -/
  breaks : List Char := []
  /-- Whether the last line starts with a blank. -/
  blankLine : Bool := false

namespace Block

/-- Begins a line with the character `c`: in a folded scalar, a break between two lines that start
with no blank becomes a space. -/
def beginLine (b : Block) (c : Char) : Block :=
  let joined :=
    if !b.literal && !b.blankLine && !isBlank c && b.lineEnd = ['\n'] then
      if b.breaks.isEmpty then [' '] else []
    else b.lineEnd
  { b with
    value := b.breaks ++ joined ++ b.value
    lineEnd := []
    breaks := []
    blankLine := isBlank c }

def result (b : Block) : List Char :=
  let value := if b.chomping = .strip then b.value else b.lineEnd ++ b.value
  (if b.chomping = .keep then b.breaks ++ value else value).reverse

end Block

def chomping? (c : Char) : Option Chomping :=
  if c = '+' then some .keep else if c = '-' then some .strip else none

namespace Scan

/-- Passes spaces up to the column `indent`, or all of them if that is zero. -/
def indentation (indent : Nat) : Scan Unit := do
  need 1
  loop () fun () => do
    if (indent = 0 || (← column) < indent) && (← look 0) = some ' ' then
      advance
      return .inl ()
    else return .inr ()

/-- Passes the empty lines and the indentation before a line of a block scalar. If its indentation
is not known, it is that of the deepest of these lines, and at least that which the block around it
demands. -/
def blockBreaks (least : Nat) (b : Block) : Scan Block := do
  let (b, deepest) ← loop (b, 0) fun ((b, deepest) : Block × Nat) => do
    indentation b.indent
    let deepest := max deepest (← column)
    let next ← look 0
    if (b.indent = 0 || (← column) < b.indent) && next = some '\t' then failure
    if next.any isBreak then
      let c ← passBreak
      return .inl ({ b with breaks := c :: b.breaks }, deepest)
    else return .inr (b, deepest)
  return if b.indent = 0 then { b with indent := max deepest (max least 1) } else b

def increment : Scan Nat := do
  match ← look 0 with
  | some c =>
    if c = '0' then failure
    else if c.isDigit then
      pass
      return c.toNat - '0'.toNat
    else return 0
  | none => return 0

def chomping : Scan Chomping := do
  match (← look 0).bind chomping? with
  | some chomping =>
    pass
    return chomping
  | none => return .clip

/-- The indicators after `|` or `>`, in either order. -/
def blockHeader : Scan (Chomping × Nat) := do
  need 1
  let first ← chomping
  need 1
  let n ← increment
  if first = .clip && n ≠ 0 then
    need 1
    return (← chomping, n)
  return (first, n)

/-- A block scalar whose indicator comes first, inside a block that is indented by `indent`. -/
def block (literal : Bool) (indent : Int) : Scan (List Char) := do
  pass
  let (chomping, increment) ← blockHeader
  let _ ← takeWhile isBlank
  if (← look 0) = some '#' then passLine
  if !endsLine (← look 0) then failure
  if (← look 0).isSome then
    let _ ← passBreak
  let least := (indent + 1).toNat
  let b : Block :=
    { literal, chomping
      indent := if increment = 0 then 0 else indent.toNat + increment }
  let b ← blockBreaks least b
  need 1
  let b ← loop b fun b => do
    match ← look 0 with
    | some c =>
      if (← column) = b.indent then
        let line ← takeWhile (!isBreak ·)
        let b := b.beginLine c
        let b := { b with value := line.reverse ++ b.value }
        let b ← if (← look 0).isSome then do
            let c ← passBreak
            pure { b with lineEnd := [c] }
          else pure b
        return .inl (← blockBreaks least b)
      else return .inr b
    | none => return .inr b
  return b.result

end Scan

end TraceLint.Yaml
