import TraceLint.Yaml.Token

/-! YAML documents as trees. An alias holds the node that it names. -/
namespace TraceLint.Yaml

structure Scalar where
  tag : Option Text := none
  /-- Neither quoted nor a block. -/
  plain : Bool := true
  value : Text := []

inductive Node where
  | scalar (s : Scalar)
  | sequence (tag : Option Text) (items : List Node)
  | mapping (tag : Option Text) (entries : List (Node × Node))
  | alias (name : Text) (target : Node)
  /-- An alias of a node that it stands in. -/
  | loop (name : Text)
deriving Inhabited

namespace Node

def empty : Node := .scalar {}

end Node

/-- A name for a node; there is no node yet while it is being read. -/
structure Anchor where
  name : Text
  node : Option Node := none

/-- What is left of a text, and what was said about names and tags. -/
structure Stream where
  lexer : Lexer
  /-- The anchors so far, the latest first. -/
  anchors : List Anchor := []
  /-- What the handles of tags stand for. -/
  handles : List (Text × Text) := []

abbrev Parse := StateT Stream Option

/-- What the tags of the language itself begin with. -/
def languageTags : Text := text "tag:yaml.org,2002:"

/-- A tag of the language in its short form; any other tag as it is. -/
def shortTag (tag : Text) : Text :=
  if languageTags.isPrefixOf tag then text "!!" ++ tag.drop languageTags.length else tag

namespace Parse

def onLexer {α : Type} (lex : Lex α) : Parse α := fun s =>
  (lex.run s.lexer).map fun (x, lexer) => (x, { s with lexer })

def peek : Parse Token := onLexer Lex.peek

def advance : Parse Unit := onLexer Lex.advance

def comes (tokens : List Token) : Parse Bool := do return tokens.contains (← peek)

/-- The tag of a node from its two parts, unless it says nothing. A handle must be known. -/
def tagOf (handle suffix : Text) : Parse (Option Text) := do
  let whole ← if handle = [] then pure suffix
    else match (← get).handles.lookup handle with
      | some meaning => pure (meaning ++ suffix)
      | none => failure
  if whole = [] then failure
  return if whole = [byte '!'] then none else some (shortTag whole)

/-- What stands before a node: an anchor and a tag, in either order. -/
structure Properties where
  anchor : Option Text := none
  tag : Option (Text × Text) := none

def properties : Parse Properties := do
  match ← peek with
  | .anchor a =>
    advance
    match ← peek with
    | .tag handle suffix =>
      advance
      let _ ← peek
      return { anchor := some a, tag := some (handle, suffix) }
    | _ => return { anchor := some a }
  | .tag handle suffix =>
    advance
    match ← peek with
    | .anchor a =>
      advance
      let _ ← peek
      return { anchor := some a, tag := some (handle, suffix) }
    | _ => return { tag := some (handle, suffix) }
  | _ => return {}

/-- Notes a name, and gives the place of its anchor, counted from the first. -/
def declare (name : Text) : Parse Nat := do
  let s ← get
  set { s with anchors := { name } :: s.anchors }
  return s.anchors.length

def define (place : Nat) (n : Node) : Parse Unit :=
  modify fun s =>
    { s with anchors :=
        s.anchors.modify (s.anchors.length - 1 - place) ({ · with node := some n }) }

/-- The node that an alias stands for: the last one of that name so far. -/
def refer (name : Text) : Parse Node := do
  match (← get).anchors.find? (·.name = name) with
  | none => failure
  | some ⟨_, none⟩ => return .loop name
  | some ⟨_, some n⟩ => return .alias name n

mutual

/-- A node; `block` allows indented collections, `bare` a sequence at the indentation of its key. -/
def node : Nat → (block bare : Bool) → Parse Node
  | 0, _, _ => failure
  | n + 1, block, bare => do
    match ← peek with
    | .alias name =>
      advance
      refer name
    | _ =>
      let given ← properties
      let tag ← match given.tag with
        | some (handle, suffix) => tagOf handle suffix
        | none => pure none
      let place ← match given.anchor with
        | some name => some <$> declare name
        | none => pure none
      let found ← content n block bare tag (given.anchor.isSome || given.tag.isSome)
      match place with
      | some place => define place found
      | none => pure ()
      return found

/-- What stands after the properties of a node. If there are any, it may be nothing. -/
def content : Nat → (block bare : Bool) → Option Text → (given : Bool) → Parse Node
  | 0, _, _, _, _ => failure
  | n + 1, block, bare, tag, given => do
    let nothing : Parse Node := if given then return .scalar { tag } else failure
    match ← peek with
    | .entry => if bare then .sequence tag <$> bareItems n else nothing
    | .scalar plain value =>
      advance
      return .scalar ⟨tag, plain, value⟩
    | .openSequence =>
      advance
      .sequence tag <$> flowItems n true
    | .openMapping =>
      advance
      .mapping tag <$> flowEntries n true
    | .sequenceStart =>
      if block then
        advance
        .sequence tag <$> blockItems n
      else nothing
    | .mappingStart =>
      if block then
        advance
        .mapping tag <$> blockEntries n
      else nothing
    | _ => nothing

/-- A node, unless one of the given tokens shows that none is written. -/
def nodeUnless : Nat → List Token → (block bare : Bool) → Parse Node
  | 0, _, _, _ => failure
  | n + 1, ends, block, bare => do
    if ← comes ends then return Node.empty
    node n block bare

def blockItems : Nat → Parse (List Node)
  | 0 => failure
  | n + 1 => do
    match ← peek with
    | .entry =>
      advance
      let item ← nodeUnless n [.entry, .blockEnd] true false
      return item :: (← blockItems n)
    | .blockEnd =>
      advance
      return []
    | _ => failure

/-- The items of a sequence at the indentation of its key. -/
def bareItems : Nat → Parse (List Node)
  | 0 => failure
  | n + 1 => do
    match ← peek with
    | .entry =>
      advance
      let item ← nodeUnless n [.entry, .key, .value, .blockEnd] true false
      return item :: (← bareItems n)
    | _ => return []

def blockEntries : Nat → Parse (List (Node × Node))
  | 0 => failure
  | n + 1 => do
    match ← peek with
    | .blockEnd =>
      advance
      return []
    | .key =>
      advance
      let key ← nodeUnless n [.key, .value, .blockEnd] true true
      let value ← blockValue n
      return (key, value) :: (← blockEntries n)
    | _ => failure

def blockValue : Nat → Parse Node
  | 0 => failure
  | n + 1 => do
    match ← peek with
    | .value =>
      advance
      nodeUnless n [.key, .value, .blockEnd] true true
    | _ => return Node.empty

/-- The items of a sequence in brackets. An item may be a single entry of a mapping. -/
def flowItems : Nat → (first : Bool) → Parse (List Node)
  | 0, _ => failure
  | n + 1, first => do
    let next ← peek
    if next ≠ .closeSequence && !first then
      if next ≠ .separator then failure
      advance
    match ← peek with
    | .closeSequence =>
      advance
      return []
    | .key =>
      advance
      let entry ← soleEntry n
      return entry :: (← flowItems n false)
    | _ =>
      let item ← node n false false
      return item :: (← flowItems n false)

/-- A mapping of one entry, after the mark of its key. Where no key is written, the token that shows
this is taken. -/
def soleEntry : Nat → Parse Node
  | 0 => failure
  | n + 1 => do
    let key ← if ← comes [.value, .separator, .closeSequence] then do
        advance
        pure Node.empty
      else node n false false
    let value ← flowValue n .closeSequence
    let _ ← peek
    return .mapping none [(key, value)]

def flowValue : Nat → Token → Parse Node
  | 0, _ => failure
  | n + 1, close => do
    match ← peek with
    | .value =>
      advance
      nodeUnless n [.separator, close] false false
    | _ => return Node.empty

def flowEntries : Nat → (first : Bool) → Parse (List (Node × Node))
  | 0, _ => failure
  | n + 1, first => do
    let next ← peek
    if next ≠ .closeMapping && !first then
      if next ≠ .separator then failure
      advance
    match ← peek with
    | .closeMapping =>
      advance
      return []
    | .key =>
      advance
      let key ← nodeUnless n [.value, .separator, .closeMapping] false false
      let value ← flowValue n .closeMapping
      return (key, value) :: (← flowEntries n false)
    | _ =>
      let key ← node n false false
      let _ ← peek
      return (key, Node.empty) :: (← flowEntries n false)

end

/-- The directives before a document. There may be one for the version, which must be the known one,
and one for each handle. -/
def directives : Nat → (versioned : Bool) → Parse Unit
  | 0, _ => failure
  | n + 1, versioned => do
    match ← peek with
    | .version major minor =>
      if versioned || major ≠ 1 || minor ≠ 1 then failure
      advance
      directives n true
    | .tagHandle handle meaning =>
      if ((← get).handles.lookup handle).isSome then failure
      modify fun s => { s with handles := s.handles ++ [(handle, meaning)] }
      advance
      directives n versioned
    | _ =>
      let usual := [([byte '!'], [byte '!']), (text "!!", languageTags)]
      modify fun s => { s with handles := s.handles ++ usual }

/-- The first document; nothing if the text has none. -/
def document (fuel : Nat) : Parse (Option Node) := do
  let _ ← peek
  advance
  let found ← match ← peek with
    | .streamEnd => return none
    | .version .. => explicit
    | .tagHandle .. => explicit
    | .documentStart => explicit
    | _ =>
      directives fuel false
      some <$> node fuel true false
  let _ ← peek
  return found
where
  explicit : Parse (Option Node) := do
    directives fuel false
    if (← peek) ≠ .documentStart then failure
    advance
    match ← peek with
    | .version .. => return some Node.empty
    | .tagHandle .. => return some Node.empty
    | .documentStart => return some Node.empty
    | .documentEnd => return some Node.empty
    | .streamEnd => return some Node.empty
    | _ => some <$> node fuel true false

end Parse

/-- The first document of a text: no text, no document. What comes after it is not looked at, but
for the tokens that are read ahead. -/
def Node.parse? (s : Text) : Option (Option Node) := do
  let lexer ← Lex.start s
  let (found, _) ← (Parse.document (8 * s.length + 16)).run { lexer }
  return found

end TraceLint.Yaml
