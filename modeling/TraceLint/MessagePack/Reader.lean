import TraceLint.MessagePack.Basic

/-! Reading MessagePack: a stack of open containers, each with the number of items it still lacks.
An object is read with the bytes that follow it; those are not looked at. -/
namespace TraceLint.MessagePack

def bigEndian (bytes : Text) : Nat := bytes.foldl (fun n b => n * 256 + b.toNat) 0

def take? (n : Nat) (s : Text) : Option Text :=
  let taken := s.take n
  if taken.length = n then some taken else none

def unsigned? (n : Nat) (s : Text) : Option Nat := (take? n s).map bigEndian

/-- The number in the first `n` bytes, in two's complement. -/
def signed? (n : Nat) (s : Text) : Option Int :=
  let count := Number.twoTo (8 * n)
  (unsigned? n s).map fun k => if 2 * k < count then (k : Int) else (k : Int) - count

/-- What the bytes at the start of an object give: a whole item, or a container of so many items. -/
inductive Head where
  | item (i : Item)
  | array (count : Nat)
  | map (count : Nat)

/-- Bytes whose number is written in the first `n` bytes, with the number of bytes that they take
together. -/
def counted? (n : Nat) (s : Text) : Option (Text × Nat) := do
  let count ← unsigned? n s
  let taken ← take? count (s.drop n)
  return (taken, n + count)

def momentType : UInt8 := 0xff

/-- A moment so many seconds and nanoseconds after the start of 1970. -/
def momentAfter (seconds : Int) (nanos : Nat) : Moment :=
  let m : Moment := ⟨seconds + nanos / 1000000000, nanos % 1000000000, .here⟩
  if m.isZero then { m with zone := .utc } else m

def moment? (s : Text) : Option Moment :=
  match s.length with
  | 4 => some (momentAfter (bigEndian s) 0)
  | 8 =>
    let packed := bigEndian s
    some (momentAfter (packed % Number.twoTo 34 : Nat) (packed / Number.twoTo 34))
  | 12 => (signed? 8 (s.drop 4)).map fun seconds => momentAfter seconds (bigEndian (s.take 4))
  | _ => none

/-- An object of `n` bytes that starts with its type, and how many bytes it takes in all. Of the
application types only moments are known. -/
def extended? (n : Nat) (s : Text) : Option (Item × Nat) :=
  match s with
  | type :: rest =>
    if type = momentType then do
      let m ← moment? (← take? n rest)
      return (.moment m, n + 1)
    else none
  | [] => none

/-- The head of the object that starts with the byte `b`, and how many of the bytes after `b` belong
to it. -/
def head? (b : UInt8) (rest : Text) : Option (Head × Nat) :=
  let code := b.toNat
  let string (n : Nat) := (counted? n rest).map fun (s, used) => (Head.item (.str s), used)
  let binary (n : Nat) := (counted? n rest).map fun (s, used) => (Head.item (.bin s), used)
  let unsigned (width : Width) (n : Nat) :=
    (unsigned? n rest).map fun k => (Head.item (.uint width k), n)
  let signed (width : Width) (n : Nat) :=
    (signed? n rest).map fun k => (Head.item (.int width k), n)
  let extended (n : Nat) := (extended? n rest).map fun (i, used) => (Head.item i, used)
  let sized (n : Nat) := do
    let count ← unsigned? n rest
    let (i, used) ← extended? count (rest.drop n)
    return (Head.item i, n + used)
  if code < 0x80 then some (.item (.int .bits8 code), 0)
  else if code < 0x90 then some (.map (code - 0x80), 0)
  else if code < 0xa0 then some (.array (code - 0x90), 0)
  else if code < 0xc0 then (take? (code - 0xa0) rest).map fun s => (.item (.str s), code - 0xa0)
  else if code = 0xc0 then some (.item .null, 0)
  else if code = 0xc2 then some (.item (.bool false), 0)
  else if code = 0xc3 then some (.item (.bool true), 0)
  else if code = 0xc4 then binary 1
  else if code = 0xc5 then binary 2
  else if code = 0xc6 then binary 4
  else if code = 0xc7 then sized 1
  else if code = 0xc8 then sized 2
  else if code = 0xc9 then sized 4
  else if code = 0xca then (unsigned? 4 rest).map fun k => (.item (.float32 k.toUInt32), 4)
  else if code = 0xcb then (unsigned? 8 rest).map fun k => (.item (.float64 k.toUInt64), 8)
  else if code = 0xcc then unsigned .bits8 1
  else if code = 0xcd then unsigned .bits16 2
  else if code = 0xce then unsigned .bits32 4
  else if code = 0xcf then unsigned .bits64 8
  else if code = 0xd0 then signed .bits8 1
  else if code = 0xd1 then signed .bits16 2
  else if code = 0xd2 then signed .bits32 4
  else if code = 0xd3 then signed .bits64 8
  else if code = 0xd4 then extended 1
  else if code = 0xd5 then extended 2
  else if code = 0xd6 then extended 4
  else if code = 0xd7 then extended 8
  else if code = 0xd8 then extended 16
  else if code = 0xd9 then string 1
  else if code = 0xda then string 2
  else if code = 0xdb then string 4
  else if code = 0xdc then (unsigned? 2 rest).map fun k => (.array k, 2)
  else if code = 0xdd then (unsigned? 4 rest).map fun k => (.array k, 4)
  else if code = 0xde then (unsigned? 2 rest).map fun k => (.map k, 2)
  else if code = 0xdf then (unsigned? 4 rest).map fun k => (.map k, 4)
  else if 0xe0 ≤ code then some (.item (.int .bits8 ((code : Int) - 256)), 0)
  else none

/-- An open container: how many items or entries it lacks, and those it holds, the latest first. -/
inductive Frame where
  | array (missing : Nat) (items : List Item)
  /-- A map at the start of an entry. -/
  | key (missing : Nat) (entries : List (Item × Item))
  /-- A map inside the entry of `key`. -/
  | entry (missing : Nat) (entries : List (Item × Item)) (key : Item)

inductive Progress where
  | whole (i : Item)
  | within (frames : List Frame)

/-- Puts an item into the innermost container, and closes the containers that this fills. -/
def settle (i : Item) : List Frame → Option Progress
  | [] => some (.whole i)
  | .array missing items :: outer =>
    if missing ≤ 1 then settle (.array (i :: items).reverse) outer
    else some (.within (.array (missing - 1) (i :: items) :: outer))
  | .key missing entries :: outer =>
    if i.text?.isSome then some (.within (.entry missing entries i :: outer)) else none
  | .entry missing entries key :: outer =>
    if missing ≤ 1 then settle (.map ((key, i) :: entries).reverse) outer
    else some (.within (.key (missing - 1) ((key, i) :: entries) :: outer))

def enter (frames : List Frame) : Head → Option Progress
  | .item i => settle i frames
  | .array count =>
    if count = 0 then settle (.array []) frames else some (.within (.array count [] :: frames))
  | .map count =>
    if count = 0 then settle (.map []) frames else some (.within (.key count [] :: frames))

/-- Reads on after the next `skip` bytes, until the first object is whole; the rest follows it. -/
def readAfter : Nat → List Frame → Text → Option (Item × Text)
  | _, _, [] => none
  | skip + 1, frames, _ :: rest => readAfter skip frames rest
  | 0, frames, b :: rest =>
    match head? b rest with
    | none => none
    | some (head, used) =>
      match enter frames head with
      | none => none
      | some (.whole i) => some (i, rest.drop used)
      | some (.within inner) => readAfter used inner rest

def read? (s : Text) : Option (Item × Text) := readAfter 0 [] s

end TraceLint.MessagePack
