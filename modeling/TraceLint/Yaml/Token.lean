import TraceLint.Yaml.Scalar

/-! The tokens of a YAML text, read one after another as they are asked for. Indentation becomes
tokens of its own. A key is recognised at the colon after it, so its token and the start of its
mapping are put in where the key began; a token that may turn out to be a key is held back until
that is decided. -/
namespace TraceLint.Yaml

inductive Token where
  | streamStart
  | streamEnd
  | version (major minor : Nat)
  | tagHandle (handle : Text) (meaning : Text)
  | documentStart
  | documentEnd
  | sequenceStart
  | mappingStart
  | blockEnd
  | openSequence
  | closeSequence
  | openMapping
  | closeMapping
  | entry
  | separator
  | key
  | value
  | alias (name : Text)
  | anchor (name : Text)
  /-- A tag in its two parts; a tag in full has no handle. -/
  | tag (handle suffix : Text)
  | scalar (plain : Bool) (value : Text)
deriving DecidableEq

/-- The place where a key may have begun. -/
structure Candidate where
  possible : Bool := false
  /-- The block that it stands in takes nothing but keys there. -/
  required : Bool := false
  /-- The number of its first token. -/
  number : Nat := 0
  mark : Mark := {}

structure Lexer where
  source : Source
  /-- The tokens that are read and not yet taken. -/
  queue : List Token := []
  taken : Nat := 0
  /-- Whether the first of the queue is what it seems, and no key that begins there is missing. -/
  settled : Bool := false
  /-- The indentation of the innermost block, and of those around it. -/
  indent : Int := -1
  outer : List Int := []
  keyAllowed : Bool := true
  depth : Nat := 0
  /-- The candidates at each level of brackets, the innermost first. -/
  candidates : List Candidate := [{}]
  /-- The levels, counted from the outermost, of the candidates by the numbers of their tokens, the
latest first. -/
  levels : List (Nat × Nat) := []

namespace Lexer

def inFlow (l : Lexer) : Bool := 0 < l.depth

def column (l : Lexer) : Int := l.source.mark.column

def nextNumber (l : Lexer) : Nat := l.taken + l.queue.length

def emit (l : Lexer) (t : Token) : Lexer := { l with queue := l.queue ++ [t] }

/-- Puts a token in where the token of a number stands; if that was taken, at the end. -/
def insertAt (l : Lexer) (number : Nat) (t : Token) : Lexer :=
  if number < l.taken then l.emit t
  else
    let (before, after) := l.queue.splitAt (number - l.taken)
    { l with queue := before ++ t :: after }

/-- Forgets at which level the token of a number stands. -/
def forget (l : Lexer) (number : Nat) : Lexer :=
  { l with levels := l.levels.filter (·.1 ≠ number) }

/-- The greatest number of blocks, or of brackets, that may be open at once. -/
def greatestDepth : Nat := 10000

/-- Opens a block at a column, unless one of at least that indentation is open. Its token goes where
the token of a number stands, if one is given. -/
def openBlock (l : Lexer) (column : Int) (number : Option Nat) (start : Token) : Option Lexer :=
  if !l.inFlow && l.indent < column then
    let l := { l with indent := column, outer := l.indent :: l.outer }
    if greatestDepth < l.outer.length then none
    else some (match number with
      | some number => l.insertAt number start
      | none => l.emit start)
  else some l

/-- Ends the blocks that are indented beyond a column: the indentation that is left, that of the
blocks around it, and how many were ended. -/
def closeFrom (column : Int) : Int → List Int → Nat → Int × List Int × Nat
  | indent, [], count => (indent, [], count)
  | indent, around :: outer, count =>
    if column < indent then closeFrom column around outer (count + 1)
    else (indent, around :: outer, count)

def closeBlocks (l : Lexer) (column : Int) : Lexer :=
  if l.inFlow then l
  else
    let (indent, outer, count) := closeFrom column l.indent l.outer 0
    { l with indent, outer, queue := l.queue ++ List.replicate count .blockEnd }

def candidate (l : Lexer) : Candidate := l.candidates.headD {}

def setCandidate (l : Lexer) (c : Candidate) : Lexer :=
  { l with candidates := c :: l.candidates.tail }

/-- Gives up the candidate at this level, which fails if a key is required there. -/
def dropCandidate (l : Lexer) : Option Lexer :=
  let c := l.candidate
  if !c.possible then some l
  else if c.required then none
  else some ((l.setCandidate { c with possible := false }).forget c.number)

/-- Notes that the next token may begin a key. -/
def noteCandidate (l : Lexer) : Option Lexer :=
  if l.keyAllowed then do
    let c : Candidate :=
      { possible := true, required := !l.inFlow && l.indent = l.column
        number := l.nextNumber, mark := l.source.mark }
    let l ← l.dropCandidate
    let l := l.setCandidate c
    return { l with levels := (c.number, l.depth) :: l.levels.takeWhile (l.taken ≤ ·.1) }
  else some l

/-- A key ends on the line where it begins, and within 1024 characters. -/
def isLive (l : Lexer) (c : Candidate) : Bool :=
  c.mark.line = l.source.mark.line && l.source.mark.index ≤ c.mark.index + 1024

/-- Whether the candidate at a level, counted from the outermost, can still become a key. One that
cannot is given up, which fails if a key is required there. -/
def stillPossible (l : Lexer) (level : Nat) : Option (Bool × Lexer) :=
  let place := l.depth - level
  match l.candidates[place]? with
  | none => some (false, l)
  | some c =>
    if !c.possible then some (false, l)
    else if l.isLive c then some (true, l)
    else if c.required then none
    else some (false, { l with candidates := l.candidates.set place { c with possible := false } })

end Lexer

/-- Reading tokens, or failing to. -/
abbrev Lex := StateT Lexer Option

namespace Lex

def onSource {α : Type} (scan : Scan α) : Lex α := fun l =>
  (scan.run l.source).map fun (x, source) => (x, { l with source })

def change (f : Lexer → Option Lexer) : Lex Unit := fun l => (f l).map fun l => ((), l)

def emit (t : Token) : Lex Unit := modify (·.emit t)

def allowKey (allowed : Bool) : Lex Unit := modify fun l => { l with keyAllowed := allowed }

def inFlow : Lex Bool := do return (← get).inFlow

def take (n : Nat) (t : Token) : Lex Unit := do
  onSource (Scan.passMany n)
  emit t

/-- Passes blanks, comments and line breaks. Where a key may begin, a tab is not passed; after a
line break outside brackets, a key may begin. While the characters at hand begin with a byte order
mark, the first character of a line is passed too. -/
def passSpace : Lex Unit := do
  let rec lines (fuel : Nat) : Lex Unit :=
    match fuel with
    | 0 => failure
    | fuel + 1 => do
      onSource (Scan.need 1)
      let source := (← get).source
      if source.mark.column = 0 && source.marked then onSource Scan.pass
      let l ← get
      let _ ← onSource (Scan.takeWhile fun c =>
          c = ' ' || (c = '\t' && (l.inFlow || !l.keyAllowed)))
      if (← onSource (Scan.look 0)) = some '#' then onSource (Scan.comments l.inFlow)
      if (← onSource (Scan.look 0)).any isBreak then
        let _ ← onSource Scan.passBreak
        if !l.inFlow then allowKey true
        lines fuel
      else return
  lines ((← get).source.bound + 1)

/-- Ends all blocks and gives up what may have been a key. -/
def endBlocks : Lex Unit := do
  modify (·.closeBlocks (-1))
  change Lexer.dropCandidate
  allowKey false

def streamEnd : Lex Unit := do
  modify fun l =>
    let m := l.source.mark
    let mark := if m.column = 0 then m else { m with column := 0, line := m.line + 1 }
    { l with source := { l.source with mark } }
  endBlocks
  emit .streamEnd

def openBracket (t : Token) : Lex Unit := do
  change Lexer.noteCandidate
  change fun l =>
    if Lexer.greatestDepth ≤ l.depth then none
    else some { l with
      depth := l.depth + 1
      candidates := { number := l.nextNumber, mark := l.source.mark } :: l.candidates }
  allowKey true
  take 1 t

def closeBracket (t : Token) : Lex Unit := do
  change Lexer.dropCandidate
  modify fun l =>
    if l.inFlow then
      { l.forget l.candidate.number with depth := l.depth - 1, candidates := l.candidates.tail }
    else l
  allowKey false
  take 1 t

def separator : Lex Unit := do
  change Lexer.dropCandidate
  allowKey true
  take 1 .separator

def entry : Lex Unit := do
  if !(← inFlow) then
    if !(← get).keyAllowed then failure
    change fun l => l.openBlock l.column none .sequenceStart
  change Lexer.dropCandidate
  allowKey true
  take 1 .entry

/-- A key that is marked as such. -/
def markedKey : Lex Unit := do
  if !(← inFlow) then
    if !(← get).keyAllowed then failure
    change fun l => l.openBlock l.column none .mappingStart
  change Lexer.dropCandidate
  allowKey (!(← inFlow))
  take 1 .key

/-- A colon: it makes a key of the candidate before it, if there is one. -/
def value : Lex Unit := do
  let level := (← get).depth
  if ← fun l => l.stillPossible level then
    let c := (← get).candidate
    modify (·.insertAt c.number .key)
    change (·.openBlock c.mark.column (some c.number) .mappingStart)
    modify fun l => (l.setCandidate { c with possible := false }).forget c.number
    allowKey false
  else
    if !(← inFlow) then
      if !(← get).keyAllowed then failure
      change fun l => l.openBlock l.column none .mappingStart
    allowKey (!(← inFlow))
  take 1 .value

def isNameChar (c : Char) : Bool := c.isAlphanum || c = '_' || c = '-'

/-- A name, as the bytes of its characters. -/
def name : Scan Text := do return Utf8.ofChars (← Scan.takeWhile isNameChar)

def reference (token : Text → Token) : Lex Unit := do
  change Lexer.noteCandidate
  allowKey false
  onSource Scan.pass
  let s ← onSource name
  let after ← onSource (Scan.look 0)
  if s.isEmpty || !(endsWord after || after.any fun c => "?:,]\x7d%@\x60".toList.contains c) then
    failure
  emit (token s)

def isTagChar (c : Char) : Bool := c.isAlphanum || "_-;/?:@&=+$,.!~*\x27()[]%".toList.contains c

/-- The bytes of a character that is written as hexadecimal numbers after percent signs. -/
def percentBytes : Scan Text := do
  let octet : Scan UInt8 := do
    Scan.need 3
    match (← get).ready with
    | '%' :: a :: b :: _ =>
      match hexDigit? a, hexDigit? b with
      | some x, some y =>
        Scan.passMany 3
        return (x * 16 + y).toUInt8
      | _, _ => failure
    | _ => failure
  let rec more (n : Nat) : Scan Text :=
    match n with
    | 0 => return []
    | n + 1 => do
      let b ← octet
      if b < 0x80 || 0xc0 ≤ b then failure
      return b :: (← more n)
  let first ← octet
  if first < 0x80 then return [first]
  else if first < 0xc0 || 0xf8 ≤ first then failure
  else return first :: (← more (if first < 0xe0 then 1 else if first < 0xf0 then 2 else 3))

/-- The characters of a tag after `head`. Without a head there must be some. -/
def tagRest (head : Text) : Scan Text := do
  Scan.need 1
  let (found, any) ← Scan.loop (head.tail, !head.isEmpty) fun ((found, any) : Text × Bool) => do
    match ← Scan.look 0 with
    | some c =>
      if c = '%' then
        let bytes ← percentBytes
        Scan.need 1
        return .inl (found ++ bytes, true)
      else if isTagChar c then
        Scan.advance
        return .inl (found ++ Utf8.encode c, true)
      else return .inr (found, any)
    | none => return .inr (found, any)
  if any then return found else failure

/-- A handle of tags: an exclamation mark, alone or before a name. Whether another mark ends it
decides if it is one; a directive demands that. -/
def tagHandle (directive : Bool) : Scan Text := do
  Scan.need 1
  if (← Scan.look 0) ≠ some '!' then failure
  Scan.pass
  let s ← name
  if (← Scan.look 0) = some '!' then
    Scan.pass
    return byte '!' :: s ++ [byte '!']
  else if directive && s ≠ [] then failure
  else return byte '!' :: s

def tagParts : Scan (Text × Text) := do
  Scan.need 2
  if (← Scan.look 1) = some '<' then
    Scan.passMany 2
    let whole ← tagRest []
    if (← Scan.look 0) ≠ some '>' then failure
    Scan.pass
    return ([], whole)
  else
    let handle ← tagHandle false
    if 1 < handle.length && handle.getLast? = some (byte '!') then return (handle, ← tagRest [])
    else
      let suffix ← tagRest handle
      return if suffix.isEmpty then ([], handle) else ([byte '!'], suffix)

def tag : Lex Unit := do
  change Lexer.noteCandidate
  allowKey false
  let (handle, suffix) ← onSource tagParts
  onSource (Scan.need 1)
  if !endsWord (← onSource (Scan.look 0)) then failure
  emit (.tag handle suffix)

/-- A number of one or two digits. -/
def versionNumber : Scan Nat := do
  let digits ← Scan.takeWhile Char.isDigit
  if digits.isEmpty || 2 < digits.length then failure
  return Text.digitsValue (Utf8.ofChars digits)

/-- The directive after a percent sign. -/
def directiveToken : Scan Token := do
  Scan.pass
  let s ← name
  if s.isEmpty || !endsWord (← Scan.look 0) then failure
  let blanks : Scan Unit := do
    let _ ← Scan.takeWhile isBlank
  if s = text "YAML" then
    blanks
    let major ← versionNumber
    if (← Scan.look 0) ≠ some '.' then failure
    Scan.pass
    return .version major (← versionNumber)
  else if s = text "TAG" then
    blanks
    let handle ← tagHandle true
    Scan.need 1
    if !(← Scan.look 0).any isBlank then failure
    blanks
    let meaning ← tagRest []
    Scan.need 1
    if !endsWord (← Scan.look 0) then failure
    return .tagHandle handle meaning
  else failure

def directive : Lex Unit := do
  endBlocks
  let t ← onSource do
    let t ← directiveToken
    let _ ← Scan.takeWhile isBlank
    if (← Scan.look 0) = some '#' then Scan.passLine
    match ← Scan.look 0 with
    | some c =>
      if !isBreak c then failure
      let _ ← Scan.passBreak
      return t
    | none => return t
  emit t

/-- A block scalar, after which a key may begin. -/
def blockScalar (literal : Bool) : Lex Unit := do
  change Lexer.dropCandidate
  allowKey true
  let s ← onSource (Scan.block literal (← get).indent)
  emit (.scalar false (Utf8.ofChars s))

def quotedScalar (double : Bool) : Lex Unit := do
  change Lexer.noteCandidate
  allowKey false
  let s ← onSource (Scan.quoted double)
  emit (.scalar false (Utf8.ofChars s))

/-- A plain scalar; if it ended its line, a key may begin. -/
def plainScalar : Lex Unit := do
  change Lexer.noteCandidate
  allowKey false
  let l ← get
  let (s, broke) ← onSource (Scan.plain l.inFlow l.indent)
  if broke then allowKey true
  emit (.scalar true (Utf8.ofChars s))

/-- Whether a plain scalar may begin with a character, given the one after it. -/
def startsPlain (flow : Bool) (c : Char) (after : Option Char) : Bool :=
  !(isBlank c || "-?:,[]\x7b\x7d#&*!|>\x27\x22%@\x60".toList.contains c) ||
    (c = '-' && !after.any isBlank) || (!flow && (c = '?' || c = ':') && !endsWord after)

def contentToken (c : Char) : Lex Unit := do
  let after ← onSource (Scan.look 1)
  let flow ← inFlow
  if c = '[' then openBracket .openSequence
  else if c = '\x7b' then openBracket .openMapping
  else if c = ']' then closeBracket .closeSequence
  else if c = '\x7d' then closeBracket .closeMapping
  else if c = ',' then separator
  else if c = '-' && endsWord after then entry
  else if c = '?' && (flow || endsWord after) then markedKey
  else if c = ':' && (flow || endsWord after) then value
  else if c = '*' then reference .alias
  else if c = '&' then reference .anchor
  else if c = '!' then tag
  else if c = '|' && !flow then blockScalar true
  else if c = '>' && !flow then blockScalar false
  else if c = '\x27' then quotedScalar false
  else if c = '\x22' then quotedScalar true
  else if startsPlain flow c after then plainScalar
  else failure

/-- Reads a token into the queue. After a token inside a document, a comment on its line is passed,
except after the start of an item. -/
def fetch : Lex Unit := do
  passSpace
  modify fun l => l.closeBlocks l.column
  onSource (Scan.need 4)
  match ← onSource (Scan.look 0) with
  | none => streamEnd
  | some c =>
    if (← get).column = 0 && c = '%' then directive
    else if ← onSource (Scan.atMarker '-') then
      endBlocks
      take 3 .documentStart
    else if ← onSource (Scan.atMarker '.') then
      endBlocks
      take 3 .documentEnd
    else
      contentToken c
      if (← get).queue.getLast? ≠ some .entry then onSource Scan.lineComment

/-- Whether the first token of the queue may turn out to begin a key. -/
def headUndecided : Lex Bool := do
  let l ← get
  match l.levels.lookup l.taken with
  | none => return false
  | some level => fun l => l.stillPossible level

/-- Reads tokens until the first of the queue is settled and two more follow it. -/
def settle : Lex Unit := do
  let rec more (fuel : Nat) : Lex Unit :=
    match fuel with
    | 0 => failure
    | fuel + 1 => do
      let short := (← get).queue.length < 3
      let undecided ← if short then pure true else headUndecided
      if undecided then
        fetch
        more fuel
      else modify fun l => { l with settled := true }
  more ((← get).source.bound + 4)

def peek : Lex Token := do
  if !(← get).settled then settle
  match (← get).queue with
  | t :: _ => return t
  | [] => failure

def advance : Lex Unit :=
  modify fun l => { l with queue := l.queue.tail, taken := l.taken + 1, settled := false }

def start (s : Text) : Option Lexer := do
  let source ← (Source.ofText s).need 1
  return { source, queue := [.streamStart] }

end Lex

end TraceLint.Yaml
