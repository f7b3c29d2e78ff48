import TraceLint.Pattern.Basic

/-! Reading regular expressions. -/
namespace TraceLint.Pattern

open Utf8 (Piece)

/-- Why an expression is refused. -/
inductive Reason where
  | badRange
  | badEscape
  | badGroupName
  | badGroup
  | badCount
  | badEncoding
  | nestedRepetition
  | nothingToRepeat
  | missingBracket
  | missingParenthesis
  | unexpectedParenthesis
  | trailingBackslash
deriving DecidableEq

structure Fault where
  reason : Reason
  part : Text
deriving DecidableEq

def Reason.message : Reason → String
  | .badRange => "invalid character class range"
  | .badEscape => "invalid escape sequence"
  | .badGroupName => "invalid named capture"
  | .badGroup => "invalid or unsupported Perl syntax"
  | .badCount => "invalid repeat count"
  | .badEncoding => "invalid UTF-8"
  | .nestedRepetition => "invalid nested repetition operator"
  | .nothingToRepeat => "missing argument to repetition operator"
  | .missingBracket => "missing closing ]"
  | .missingParenthesis => "missing closing )"
  | .unexpectedParenthesis => "unexpected )"
  | .trailingBackslash => "trailing backslash at end of expression"

def Fault.message (f : Fault) : Text :=
  text "error parsing regexp: " ++ text f.reason.message ++ text ": \x60" ++ f.part ++ text "\x60"

/-- What an expression turns on and off for the part after it. -/
structure Options where
  fold : Bool := false
  /-- Whether lines begin and end inside the text, too. -/
  lines : Bool := false
  /-- Whether the dot stands for line breaks, too. -/
  breaks : Bool := false

def written (ps : List Piece) : Text := ps.flatMap Piece.bytes

def excerpt (start rest : List Piece) : Text := written (start.take (start.length - rest.length))

/-- Fails at the first piece that is no character. -/
def requireChars : List Piece → Except Fault (List Char)
  | [] => .ok []
  | .char c :: rest => (requireChars rest).map (c :: ·)
  | .stray b :: rest => .error ⟨.badEncoding, written (.stray b :: rest)⟩

def next? : List Piece → Except Fault (Option (Char × List Piece))
  | [] => .ok none
  | .char c :: rest => .ok (some (c, rest))
  | .stray b :: rest => .error ⟨.badEncoding, written (.stray b :: rest)⟩

/-- What stands before and after the first occurrence of some pieces. -/
def cutAt (stop : List Piece) : List Piece → Option (List Piece × List Piece)
  | [] => none
  | p :: rest =>
    if stop.isPrefixOf (p :: rest) then some ([], (p :: rest).drop stop.length)
    else (cutAt stop rest).map fun (before, after) => (p :: before, after)

def digitIn? (base : Nat) (c : Char) : Option Nat :=
  let value := if c.isDigit then some (c.toNat - '0'.toNat)
    else if 'a' ≤ c && c ≤ 'f' then some (c.toNat - 'a'.toNat + 10)
    else if 'A' ≤ c && c ≤ 'F' then some (c.toNat - 'A'.toNat + 10)
    else none
  value.filter (· < base)

def badEscape {α : Type} (start rest : List Piece) : Except Fault α :=
  .error ⟨.badEscape, excerpt start rest⟩

/-- A hexadecimal number up to a closing brace. -/
def hexInBraces (start : List Piece) (value : Nat) (any : Bool) :
    List Piece → Except Fault (Nat × List Piece)
  | [] => badEscape start []
  | .stray b :: rest => .error ⟨.badEncoding, written (.stray b :: rest)⟩
  | .char c :: rest =>
    if c = '\x7d' then if any then .ok (value, rest) else badEscape start rest
    else match digitIn? 16 c with
      | none => badEscape start rest
      | some d =>
        let value := value * 16 + d
        if 0x10ffff < value then badEscape start rest else hexInBraces start value true rest

/-- A hexadecimal number of two digits, or in braces. -/
def hexadecimal (start rest : List Piece) : Except Fault (Nat × List Piece) := do
  match ← next? rest with
  | none => badEscape start []
  | some ('\x7b', rest) => hexInBraces start 0 false rest
  | some (a, rest) =>
    match ← next? rest with
    | none => badEscape start []
    | some (b, rest) =>
      match digitIn? 16 a, digitIn? 16 b with
      | some x, some y => .ok (x * 16 + y, rest)
      | _, _ => badEscape start rest

/-- Reads on in an octal number, at most so many digits. -/
def octalFrom (value : Nat) : Nat → List Piece → Nat × List Piece
  | n + 1, .char c :: rest =>
    match digitIn? 8 c with
    | some d => octalFrom (value * 8 + d) n rest
    | none => (value, .char c :: rest)
  | _, rest => (value, rest)

/-- The control characters that a letter after a backslash stands for. -/
def control? (c : Char) : Option Nat :=
  match c with
  | 'a' => some 0x07
  | 'f' => some 0x0c
  | 'n' => some 0x0a
  | 'r' => some 0x0d
  | 't' => some 0x09
  | 'v' => some 0x0b
  | _ => none

/-- The code point that a backslash and what follows it stand for. An octal number has two digits or
more, unless it starts with a zero. -/
def escaped (start : List Piece) : Except Fault (Nat × List Piece) := do
  match ← next? (start.drop 1) with
  | none => .error ⟨.trailingBackslash, []⟩
  | some (c, rest) =>
    match digitIn? 8 c, control? c with
    | some d, _ =>
      let (value, after) := octalFrom d 2 rest
      if d = 0 || after.length < rest.length then .ok (value, after) else badEscape start rest
    | none, some n => .ok (n, rest)
    | none, none =>
      if c = 'x' then hexadecimal start rest
      else if c.toNat < 0x80 && !c.isAlphanum then .ok (c.toNat, rest)
      else badEscape start rest

/-- A group by its name between colons and brackets. -/
def namedGroup? (ps : List Piece) : Except Fault (Option (CharGroup × List Piece)) :=
  match ps with
  | .char '[' :: .char ':' :: inside =>
    match cutAt [.char ':', .char ']'] inside with
    | none => .ok none
    | some (name, rest) =>
      let (negated, name) := match name with
        | .char '^' :: name => (true, name)
        | name => (false, name)
      match CharGroup.ofName? (String.ofList (name.map Piece.shown)) with
      | some g => .ok (some (if negated then g.negate else g, rest))
      | none => .error ⟨.badRange, excerpt ps rest⟩
  | _ => .ok none

/-- A group by a property of its characters: one letter after a backslash and a `p`, or a name in
braces. -/
def propertyGroup? (ps : List Piece) : Except Fault (Option (CharGroup × List Piece)) := do
  let found (negated : Bool) (name : List Char) (rest : List Piece) :
      Except Fault (Option (CharGroup × List Piece)) :=
    let (negated, name) := match name with
      | '^' :: name => (!negated, name)
      | name => (negated, name)
    match CharGroup.ofProperty? (String.ofList name) with
    | some g => .ok (some (if negated then g.negate else g, rest))
    | none => .error ⟨.badRange, excerpt ps rest⟩
  match ps with
  | .char '\\' :: .char p :: inside =>
    if p = 'p' || p = 'P' then
      match ← next? inside with
      | none => found (p = 'P') [] []
      | some ('\x7b', inside) =>
        match cutAt [.char '\x7d'] inside with
        | none => do
          let _ ← requireChars ps
          .error ⟨.badRange, written ps⟩
        | some (name, rest) => found (p = 'P') (← requireChars name) rest
      | some (c, rest) => found (p = 'P') [c] rest
    else .ok none
  | _ => .ok none

/-- A group by a letter after a backslash. -/
def letterGroup? (ps : List Piece) : Option (CharGroup × List Piece) :=
  match ps with
  | .char '\\' :: .char c :: rest => (CharGroup.ofLetter? c).map (·, rest)
  | _ => none

def group? (ps : List Piece) : Except Fault (Option (CharGroup × List Piece)) := do
  match ← namedGroup? ps with
  | some found => return some found
  | none =>
    match ← propertyGroup? ps with
    | some found => return some found
    | none => return letterGroup? ps

def setChar (whole ps : List Piece) : Except Fault (Nat × List Piece) := do
  match ps with
  | .char '\\' :: _ => escaped ps
  | _ =>
    match ← next? ps with
    | none => .error ⟨.missingBracket, written whole⟩
    | some (c, rest) => .ok (c.toNat, rest)

def setRange (whole ps : List Piece) : Except Fault (CharGroup × List Piece) := do
  let (lo, rest) ← setChar whole ps
  match rest with
  | .char '-' :: p :: more =>
    if p = .char ']' then return ({ ranges := [(lo, lo)] }, rest)
    else
      let (hi, rest) ← setChar whole (p :: more)
      if hi < lo then .error ⟨.badRange, excerpt ps rest⟩
      else return ({ ranges := [(lo, hi)] }, rest)
  | _ => return ({ ranges := [(lo, lo)] }, rest)

/-- The groups of a set up to its closing bracket, which is none if it comes first. -/
def setGroups (whole : List Piece) : (fuel : Nat) → (first : Bool) → List CharGroup → List Piece →
    Except Fault (List CharGroup × List Piece)
  | 0, _, _, _ => .error ⟨.missingBracket, written whole⟩
  | fuel + 1, first, groups, ps => do
    if !first && ps.head? = some (.char ']') then return (groups.reverse, ps.tail)
    else
      let (g, rest) ← match ← group? ps with
        | some found => pure found
        | none => setRange whole ps
      setGroups whole fuel false (g :: groups) rest

/-- A set, from its opening bracket. -/
def set (o : Options) (ps : List Piece) : Except Fault (Pattern × List Piece) := do
  let (negated, inside) := match ps.tail with
    | .char '^' :: rest => (true, rest)
    | rest => (false, rest)
  let (groups, rest) ← setGroups ps (ps.length + 1) true [] inside
  return (.one { negated, fold := o.fold, groups }, rest)

inductive Opening where
  /-- Opens a group with options of its own. -/
  | group (o : Options)
  /-- Changes the options for the rest of the group around it. -/
  | change (o : Options)

/-- The options after a parenthesis with a question mark; a dash turns those after it off. -/
def openingFrom (start : List Piece) (on any : Bool) (o : Options) :
    List Piece → Except Fault (Opening × List Piece)
  | [] => .error ⟨.badGroup, written start⟩
  | .stray b :: rest => .error ⟨.badEncoding, written (.stray b :: rest)⟩
  | .char c :: rest =>
    if c = 'i' then openingFrom start on true { o with fold := on } rest
    else if c = 'm' then openingFrom start on true { o with lines := on } rest
    else if c = 's' then openingFrom start on true { o with breaks := on } rest
    else if c = 'U' then openingFrom start on true o rest
    else if c = '-' && on then openingFrom start false false o rest
    else if c = ':' && (on || any) then .ok (.group o, rest)
    else if c = ')' && (on || any) then .ok (.change o, rest)
    else .error ⟨.badGroup, excerpt start rest⟩

def isGroupName (name : List Char) : Bool :=
  !name.isEmpty && name.all fun c => c.isAlphanum || c = '_'

/-- A group with a name, from its parenthesis; `inside` is what stands after the opening angle. -/
def namedOpening (o : Options) (start inside : List Piece) :
    Except Fault (Opening × List Piece) := do
  match cutAt [.char '>'] inside with
  | none =>
    let _ ← requireChars start
    .error ⟨.badGroupName, written start⟩
  | some (name, rest) =>
    if isGroupName (← requireChars name) then return (.group o, rest)
    else .error ⟨.badGroupName, excerpt start rest⟩

def opening (o : Options) (ps : List Piece) : Except Fault (Opening × List Piece) :=
  match ps.drop 2 with
  | .char 'P' :: .char '<' :: p :: inside => namedOpening o ps (p :: inside)
  | .char '<' :: p :: inside => namedOpening o ps (p :: inside)
  | inside => openingFrom ps true false o inside

/-- An open group: the options around it, the alternatives before the current one, and its parts,
the latest first. -/
structure Level where
  around : Options := {}
  alternatives : List Pattern := []
  parts : List Pattern := []

namespace Level

def push (l : Level) (p : Pattern) : Level := { l with parts := p :: l.parts }

def current (l : Level) : Pattern :=
  match l.parts with
  | [] => .empty
  | last :: before => before.foldl (fun done p => .sequence p done) last

def alternate (l : Level) : Level :=
  { l with alternatives := l.current :: l.alternatives, parts := [] }

def close (l : Level) : Pattern := l.alternatives.foldl (fun done p => .either p done) l.current

end Level

/-- Repeats the last part. A repetition may not follow another; a question mark after it does not
matter for whether there is a match. -/
def quantify (level : Level) (repetition : Option (List Piece)) (ps after : List Piece)
    (make : Pattern → Pattern) : Except Fault (Level × List Piece) :=
  let after := match after with
    | .char '?' :: rest => rest
    | rest => rest
  match repetition, level.parts with
  | some start, _ => .error ⟨.nestedRepetition, excerpt start after⟩
  | none, [] => .error ⟨.nothingToRepeat, excerpt ps after⟩
  | none, p :: before => .ok ({ level with parts := make p :: before }, after)

/-- Whether no part is counted more than `limit` times in all. -/
def countsWithin (limit : Nat) : Pattern → Bool
  | .sequence p q => p.countsWithin limit && q.countsWithin limit
  | .either p q => p.countsWithin limit && q.countsWithin limit
  | .star p => p.countsWithin limit
  | .repeated least most p =>
    let n := most.getD least
    most = some 0 || (n ≤ limit && p.countsWithin (if n = 0 then limit else limit / n))
  | _ => true

/-- A decimal number without superfluous zeros. -/
def number? (ps : List Piece) : Option (Nat × List Piece) :=
  let digits := ps.takeWhile fun p => match p with
    | .char c => c.isDigit
    | .stray _ => false
  let written := digits.map Piece.shown
  if written.isEmpty || (written.head? = some '0' && 1 < written.length) then none
  else some (written.foldl (fun n c => n * 10 + (c.toNat - '0'.toNat)) 0, ps.drop digits.length)

def counts? (ps : List Piece) : Option (Nat × Option Nat × List Piece) := do
  let (least, rest) ← number? ps.tail
  match rest with
  | .char '\x7d' :: rest => return (least, some least, rest)
  | .char ',' :: .char '\x7d' :: rest => return (least, none, rest)
  | .char ',' :: rest =>
    match ← number? rest with
    | (most, .char '\x7d' :: rest) => return (least, some most, rest)
    | _ => none
  | _ => none

def greatestCount : Nat := 1000

def count (level : Level) (repetition : Option (List Piece)) (ps after : List Piece) (least : Nat)
    (most : Option Nat) : Except Fault (Level × List Piece) := do
  if greatestCount < least || most.any fun n => greatestCount < n || n < least then
    .error ⟨.badCount, excerpt ps after⟩
  else
    let (level, rest) ← quantify level repetition ps after (.repeated least most)
    if level.parts.head?.all (·.countsWithin greatestCount) then return (level, rest)
    else .error ⟨.badCount, excerpt ps rest⟩

def assertion? (c : Char) : Option Pattern :=
  match c with
  | 'A' => some .startOfText
  | 'z' => some .endOfText
  | 'b' => some (.boundary false)
  | 'B' => some (.boundary true)
  | _ => none

/-- What is matched by a backslash and what follows it, as the parts that it adds. -/
def escape (o : Options) (ps : List Piece) : Except Fault (List Pattern × List Piece) := do
  let literal (n : Nat) : Pattern := .one (.single o.fold n)
  match ps with
  | .char '\\' :: .char 'Q' :: rest =>
    let (quoted, rest) := (cutAt [.char '\\', .char 'E'] rest).getD (rest, [])
    return ((← requireChars quoted).map (literal ·.toNat), rest)
  | _ =>
    match ps.tail.head? with
    | some (.char c) =>
      match assertion? c, ← propertyGroup? ps, letterGroup? ps with
      | some p, _, _ => return ([p], ps.drop 2)
      | none, some (g, rest), _ => return ([.one { fold := o.fold, groups := [g] }], rest)
      | none, none, some (g, rest) => return ([.one { fold := o.fold, groups := [g] }], rest)
      | none, none, none =>
        let (n, rest) ← escaped ps
        return ([literal n], rest)
    | _ =>
      let (n, rest) ← escaped ps
      return ([literal n], rest)

/-- Reads on inside the innermost level; `repetition` is the place of a repetition that was read
last. -/
def parseFrom (whole : List Piece) : (fuel : Nat) → Options → Level → (outer : List Level) →
    (repetition : Option (List Piece)) → List Piece → Except Fault Pattern
  | 0, _, _, _, _, _ => .error ⟨.missingParenthesis, written whole⟩
  | fuel + 1, o, level, outer, repetition, ps => do
    let add (p : Pattern) (rest : List Piece) :=
      parseFrom whole fuel o (level.push p) outer none rest
    match ps with
    | [] =>
      if outer.isEmpty then return level.close else .error ⟨.missingParenthesis, written whole⟩
    | .stray _ :: _ => .error ⟨.badEncoding, written ps⟩
    | .char c :: rest =>
      match c with
      | '(' =>
        if rest.head? = some (.char '?') then
          match ← opening o ps with
          | (.group inside, rest) =>
            parseFrom whole fuel inside { around := o } (level :: outer) none rest
          | (.change o, rest) => parseFrom whole fuel o level outer none rest
        else parseFrom whole fuel o { around := o } (level :: outer) none rest
      | ')' =>
        match outer with
        | [] => .error ⟨.unexpectedParenthesis, written whole⟩
        | parent :: outer =>
          parseFrom whole fuel level.around (parent.push level.close) outer none rest
      | '|' => parseFrom whole fuel o level.alternate outer none rest
      | '^' => add (if o.lines then .startOfLine else .startOfText) rest
      | '$' => add (if o.lines then .endOfLine else .endOfText) rest
      | '.' => add (if o.breaks then .any else .anyButBreak) rest
      | '[' => do
        let (p, rest) ← set o ps
        add p rest
      | '*' => do
        let (level, rest) ← quantify level repetition ps rest .star
        parseFrom whole fuel o level outer (some ps) rest
      | '+' => do
        let (level, rest) ← quantify level repetition ps rest plus
        parseFrom whole fuel o level outer (some ps) rest
      | '?' => do
        let (level, rest) ← quantify level repetition ps rest optional
        parseFrom whole fuel o level outer (some ps) rest
      | '\x7b' =>
        match counts? ps with
        | none => add (.one (.single o.fold c.toNat)) rest
        | some (least, most, rest) => do
          let (level, rest) ← count level repetition ps rest least most
          parseFrom whole fuel o level outer (some ps) rest
      | '\\' => do
        let (parts, rest) ← escape o ps
        parseFrom whole fuel o (parts.foldl Level.push level) outer none rest
      | c => add (.one (.single o.fold c.toNat)) rest

def parse (s : Text) : Except Fault Pattern :=
  let ps := Utf8.pieces s
  parseFrom ps (ps.length + 1) {} {} [] none ps

end TraceLint.Pattern
