import TraceLint.Text.Utf8

/-! The characters of a YAML text. The text is decoded in blocks of 512 bytes, each when its
characters are needed; what is wrong with a block that is never needed does not matter. -/
namespace TraceLint.Yaml

def isBlank (c : Char) : Bool := c = ' ' || c = '\t'

/-- Line ends of any kind. -/
def isBreak (c : Char) : Bool :=
  c = '\n' || c = '\r' || c.toNat = 0x85 || c.toNat = 0x2028 || c.toNat = 0x2029

def endsLine : Option Char → Bool
  | none => true
  | some c => isBreak c

def endsWord : Option Char → Bool
  | none => true
  | some c => isBlank c || isBreak c

def byteOrderMark : Char := Char.ofNat 0xfeff

/-- The characters that may stand in a text: no control characters but tab and line ends. -/
def isAllowed (c : Char) : Bool :=
  let n := c.toNat
  n = 0x09 || n = 0x0a || n = 0x0d || (0x20 ≤ n && n ≤ 0x7e) || n = 0x85 ||
    (0xa0 ≤ n && n ≤ 0xfffd) || 0x10000 ≤ n

inductive Encoding where
  | utf8
  | utf16 (bigEndian : Bool)

/-- What the bytes at the start of a text give. -/
inductive Decoded where
  /-- A character in so many bytes. -/
  | char (c : Char) (width : Nat)
  /-- The start of a character. -/
  | incomplete
  | invalid

def decodeUtf8 (b : UInt8) (rest : Text) : Decoded :=
  let width := if b < 0x80 then 1 else if b < 0xc0 then 0 else if b < 0xe0 then 2
    else if b < 0xf0 then 3 else if b < 0xf8 then 4 else 0
  if width = 0 then .invalid
  else if rest.length + 1 < width then .incomplete
  else match Utf8.first b rest with
    | (.char c, _) => .char c width
    | (.stray _, _) => .invalid

def decodeUtf16 (bigEndian : Bool) (bytes : Text) : Decoded :=
  let unit (a b : UInt8) : Nat :=
    if bigEndian then a.toNat * 256 + b.toNat else b.toNat * 256 + a.toNat
  match bytes with
  | a :: b :: rest =>
    let high := unit a b
    if 0xdc00 ≤ high && high < 0xe000 then .invalid
    else if high < 0xd800 || 0xe000 ≤ high then .char (Char.ofNat high) 2
    else match rest with
      | c :: d :: _ =>
        let low := unit c d
        if 0xdc00 ≤ low && low < 0xe000 then
          .char (Char.ofNat (0x10000 + (high - 0xd800) * 0x400 + (low - 0xdc00))) 4
        else .invalid
      | _ => .incomplete
  | _ => .incomplete

def Encoding.decode (e : Encoding) (b : UInt8) (rest : Text) : Decoded :=
  match e with
  | .utf8 => decodeUtf8 b rest
  | .utf16 bigEndian => decodeUtf16 bigEndian (b :: rest)

/-- The characters of a block after its first `skip` bytes, and the bytes of a character that the
block cuts off. -/
def decodeAfter (e : Encoding) : Nat → Text → Option (List Char × Text)
  | _, [] => some ([], [])
  | skip + 1, _ :: rest => decodeAfter e skip rest
  | 0, b :: rest =>
    match e.decode b rest with
    | .invalid => none
    | .incomplete => some ([], b :: rest)
    | .char c width =>
      if isAllowed c then (decodeAfter e (width - 1) rest).map fun (cs, cut) => (c :: cs, cut)
      else none

def blockSize : Nat := 512

/-- The characters of the blocks up to the first that is invalid, and whether there is none. A
character that a block cuts off belongs to the next one. -/
def blocks (e : Encoding) : (fuel : Nat) → (cut rest : Text) → List (List Char) × Bool
  | 0, cut, _ => ([], cut.isEmpty)
  | fuel + 1, cut, rest =>
    if rest.isEmpty then ([], cut.isEmpty)
    else
      let size := blockSize - cut.length
      match decodeAfter e 0 (cut ++ rest.take size) with
      | none => ([], false)
      | some (cs, cut) =>
        let (later, sound) := blocks e fuel cut (rest.drop size)
        (cs :: later, sound)

/-- The encoding that a byte order mark at the start of a text gives, and the length of the mark. -/
def encodingOf : Text → Encoding × Nat
  | 0xff :: 0xfe :: _ => (.utf16 false, 2)
  | 0xfe :: 0xff :: _ => (.utf16 true, 2)
  | 0xef :: 0xbb :: 0xbf :: _ => (.utf8, 3)
  | _ => (.utf8, 0)

structure Mark where
  line : Nat := 0
  column : Nat := 0
  /-- How many characters come before it. -/
  index : Nat := 0

structure Source where
  mark : Mark := {}
  /-- The characters that are decoded and not yet passed. -/
  ready : List Char := []
  /-- The blocks after them. -/
  later : List (List Char)
  /-- Whether the text ends after those, or goes on with an invalid block. -/
  sound : Bool
  /-- A number that the characters of the whole text do not exceed. -/
  bound : Nat
  /-- Whether the characters at hand, when they were last added to, began with a byte order mark. -/
  marked : Bool := false
  /-- Whether nothing but blanks was passed since the last line break. -/
  freshLine : Bool := false

namespace Source

/-- A text as a source. The first block is the shorter by a byte order mark. -/
def ofText (s : Text) : Source :=
  let (encoding, length) := encodingOf s
  let size := blockSize - length
  let s := s.drop length
  let bound := s.length
  match s with
  | [] => { later := [], sound := true, bound }
  | _ =>
    match decodeAfter encoding 0 (s.take size) with
    | none => { later := [], sound := false, bound }
    | some (cs, cut) =>
      let (later, sound) := blocks encoding bound cut (s.drop size)
      { later := cs :: later, sound, bound }

/-- Adds blocks to the characters at hand until there are `n`, or the text ends. -/
def fill (n : Nat) (ready : List Char) (sound : Bool) :
    List (List Char) → Option (List Char × List (List Char))
  | [] => if n ≤ ready.length || sound then some (ready, []) else none
  | block :: later =>
    if n ≤ ready.length then some (ready, block :: later) else fill n (ready ++ block) sound later

/-- Makes `n` characters ready, if the text has so many. -/
def need (s : Source) (n : Nat) : Option Source :=
  if n ≤ (s.ready.take n).length then some s
  else (fill n s.ready s.sound s.later).map fun (ready, later) =>
    { s with ready, later, marked := ready.head? = some byteOrderMark }

def pass (s : Source) : Source :=
  match s.ready with
  | [] => s
  | c :: ready =>
    { s with
      ready
      mark := { s.mark with column := s.mark.column + 1, index := s.mark.index + 1 }
      freshLine := s.freshLine && isBlank c }

/-- Passes a line break; a carriage return takes a line feed with it. -/
def passBreak (s : Source) : Source :=
  let after (ready : List Char) (n : Nat) : Source :=
    { s with ready, mark := ⟨s.mark.line + 1, 0, s.mark.index + n⟩, freshLine := true }
  match s.ready with
  | '\r' :: '\n' :: ready => after ready 2
  | c :: ready => if isBreak c then after ready 1 else s
  | [] => s

end Source

abbrev Scan := StateT Source Option

namespace Scan

def need (n : Nat) : Scan Unit := fun s => (s.need n).map fun s => ((), s)

/-- The character `k` places ahead, if it is ready; nothing stands after the end of the text. -/
def look (k : Nat) : Scan (Option Char) := do return (← get).ready[k]?

def mark : Scan Mark := do return (← get).mark

def column : Scan Nat := do return (← get).mark.column

def pass : Scan Unit := modify Source.pass

def passMany (n : Nat) : Scan Unit := modify fun s => Nat.repeat Source.pass n s

def advance : Scan Unit := do pass; need 1

/-- Passes a line break, and gives the character that it stands for: a line feed, or a separator of
lines or paragraphs itself. -/
def passBreak : Scan Char := do
  need 2
  let c ← look 0
  modify Source.passBreak
  return match c with
    | some c => if c.toNat = 0x2028 || c.toNat = 0x2029 then c else '\n'
    | none => '\n'

/-- Repeats a step until it gives a result, at most so many times. -/
def iterate {σ ρ : Type} (step : σ → Scan (σ ⊕ ρ)) : Nat → σ → Scan ρ
  | 0, _ => failure
  | n + 1, x => do
    match ← step x with
    | .inl x => iterate step n x
    | .inr r => return r

/-- Repeats a step that passes a character or gives a result. -/
def loop {σ ρ : Type} (start : σ) (step : σ → Scan (σ ⊕ ρ)) : Scan ρ := do
  iterate step ((← get).bound + 1) start

/-- Passes characters while they satisfy `p`, and gives them. -/
def takeWhile (p : Char → Bool) : Scan (List Char) := do
  need 1
  let taken ← loop [] fun (taken : List Char) => do
    match ← look 0 with
    | some c =>
      if p c then
        advance
        return .inl (c :: taken)
      else return .inr taken
    | none => return .inr taken
  return taken.reverse

/-- Whether a document marker, three times `c` on their own, starts the line here. -/
def atMarker (c : Char) : Scan Bool := do
  let s ← get
  return s.mark.column = 0 && s.ready.take 3 = [c, c, c] && endsWord s.ready[3]?

def atDocumentEnd : Scan Bool := do return (← atMarker '-') || (← atMarker '.')

/-- How many blanks come before a hash, if there are not too many of them. -/
def hashAfterBlanks : Scan (Option Nat) :=
  let rec ahead (left k : Nat) : Scan (Option Nat) :=
    match left with
    | 0 => return none
    | left + 1 => do
      need (k + 1)
      match ← look k with
      | some c =>
        if isBlank c then ahead left (k + 1) else return if c = '#' then some k else none
      | none => return none
  ahead 512 0

def passLine : Scan Unit := do
  let _ ← takeWhile (!isBreak ·)

def lineComment : Scan Unit := do
  if !(← get).freshLine then
    match ← hashAfterBlanks with
    | some k => passMany k; passLine
    | none => return

/-- How many blanks and line ends of ASCII come before another comment, if there are not too many of
them. Inside brackets a closing one ends the search. -/
def nextComment (flow : Bool) : Scan (Option Nat) :=
  let rec ahead (left k : Nat) : Scan (Option Nat) :=
    match left with
    | 0 => return none
    | left + 1 => do
      need (k + 1)
      match ← look k with
      | some c =>
        if isBlank c then ahead left (k + 1)
        else if flow && (c = ']' || c = '\x7d') then return none
        else if c = '\n' || c = '\r' then ahead left (k + 1)
        else return if c = '#' then some k else none
      | none => return none
  ahead 512 0

/-- Passes blanks and line breaks, `k` characters in all. -/
def passGap (k : Nat) : Scan Unit := do
  let target := (← mark).index + k
  loop () fun () => do
    need 1
    if target ≤ (← mark).index then return .inr ()
    match ← look 0 with
    | some c =>
      if isBreak c then
        let _ ← passBreak
      else pass
      return .inl ()
    | none => return .inr ()

/-- Passes a comment, and those after it that only blanks and line breaks separate from it. -/
def comments (flow : Bool) : Scan Unit :=
  loop () fun () => do
    match ← nextComment flow with
    | some k =>
      passGap k
      passLine
      return .inl ()
    | none => return .inr ()

end Scan

end TraceLint.Yaml
