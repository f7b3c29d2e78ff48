import TraceLint.Moment.Parser
import TraceLint.Number.Integer
import TraceLint.Text.Base64
import TraceLint.Value
import TraceLint.Yaml.Node

/-! What scalars denote. A plain scalar is null, a truth value, an integer, a floating-point number
or a moment if it is written like one, and a text otherwise. -/
namespace TraceLint.Yaml

def isWord (words : List String) (s : Text) : Bool := words.any fun w => text w = s

def notANumber : UInt64 := 0x7ff8000000000001

def positiveInfinity : UInt64 := 0x7ff0000000000000

def negativeInfinity : UInt64 := 0xfff0000000000000

def word? (s : Text) : Option Value :=
  if isWord ["", "~", "null", "Null", "NULL"] s then some .null
  else if isWord ["true", "True", "TRUE"] s then some (.bool true)
  else if isWord ["false", "False", "FALSE"] s then some (.bool false)
  else if isWord [".nan", ".NaN", ".NAN"] s then some (.float64 notANumber)
  else if isWord [".inf", ".Inf", ".INF", "+.inf", "+.Inf", "+.INF"] s then
    some (.float64 positiveInfinity)
  else if isWord ["-.inf", "-.Inf", "-.INF"] s then some (.float64 negativeInfinity)
  else none

/-- Digits, if any, up to the first other byte. -/
def spanDigits (s : Text) : Text × Text := s.span Text.isDigit

def isExponent : Text → Bool
  | [] => true
  | e :: rest =>
    let (_, digits) := Number.signed rest
    (e = byte 'e' || e = byte 'E') && digits ≠ [] && digits.all Text.isDigit

/-- Whether a text is a decimal number: digits before a point, after it or both, and an exponent. -/
def isDecimal (s : Text) : Bool :=
  let (whole, s) := spanDigits (Number.signed s).2
  match s with
  | [] => whole ≠ []
  | b :: rest =>
    if b = byte '.' then
      let (fraction, s) := spanDigits rest
      (whole ≠ [] || fraction ≠ []) && isExponent s
    else whole ≠ [] && isExponent s

/-- The floating-point number of a decimal that is not too large for one. -/
def decimal? (s : Text) : Option Value :=
  if isDecimal s then (Number.float64? (Number.Literal.ofText s)).map .float64 else none

/-- The number that starts with a point. Underscores may stand between digits. -/
def fraction? (s : Text) : Option Value :=
  if s.contains (byte '_') && !Number.underscoresSeparate false false s then none
  else decimal? (s.filter (· ≠ byte '_'))

/-- An integer of 64 bits, with or without a sign bit. -/
def word64? (n : Int) : Option Value :=
  if Number.fits64 n then some (.ofInt n) else none

/-- The number that starts with a digit or a sign. Underscores do not count. -/
def number? (s : Text) : Option Value :=
  let s := s.filter (· ≠ byte '_')
  let small := (Number.integer? s).bind word64?
  let large := (Number.magnitude? s).bind fun n =>
    if n < Number.twoTo 64 then some (Value.uint .bits64 n) else none
  let marked (mark : String) (base : Nat) :=
    if (text mark).isPrefixOf s then (Number.integerIn? base (s.drop 2)).bind word64? else none
  small <|> large <|> decimal? s <|> marked "0b" 2 <|> marked "0o" 8

def plainValue (s : Text) : Value :=
  let found := match word? s, s with
    | some v, _ => some v
    | none, b :: _ =>
      if b = byte '.' then fraction? s
      else if Text.isDigit b || b = byte '+' || b = byte '-' then
        (Moment.parse? s).map Value.moment <|> number? s
      else none
    | none, [] => none
  found.getD (.text s)

def tagOf : Value → Text
  | .null => text "!!null"
  | .bool _ => text "!!bool"
  | .int .. => text "!!int"
  | .uint .. => text "!!int"
  | .float64 _ => text "!!float"
  | .float32 _ => text "!!float"
  | .moment _ => text "!!timestamp"
  | .list _ => text "!!seq"
  | .map _ => text "!!map"
  | .keyed _ => text "!!map"
  | _ => text "!!str"

def kindTags : List String := ["!!bool", "!!float", "!!int", "!!null", "!!timestamp"]

/-- What a scalar denotes. A tag may ask for bytes in base64, for a floating-point number where an
integer is written, or for what is written anyway; with any other tag the scalar is a text. -/
def Scalar.value? (s : Scalar) : Option Value :=
  match s.tag with
  | none => some (if s.plain then plainValue s.value else .text s.value)
  | some tag =>
    if tag = text "!!binary" then (Text.ofBase64? s.value).map .text
    else if !isWord kindTags tag then some (.text s.value)
    else
      let v := plainValue s.value
      match v with
      | .int _ n =>
        if tag = text "!!float" then
          (Number.float64? (Number.Literal.ofText (Text.ofInt n))).map .float64
        else if tag = text "!!int" then some v
        else none
      | _ => if tag = tagOf v then some v else none

/-- A plain `<<`, which as a key merges its value into the mapping. -/
def Scalar.isMerge (s : Scalar) : Bool :=
  s.value = text "<<" && match s.tag with
    | none => s.plain
    | some tag => tag = text "!!merge"

def Scalar.kind (s : Scalar) : Text :=
  match s.tag with
  | some tag => tag
  | none =>
    if !s.plain then text "!!str"
    else if s.isMerge then text "!!merge"
    else tagOf (plainValue s.value)

namespace Node

/-- The node that a node stands for. -/
def target : Node → Node
  | .alias _ n => n.target
  | n => n

def kind : Node → Text
  | .scalar s => s.kind
  | .sequence tag _ => tag.getD (text "!!seq")
  | .mapping tag _ => tag.getD (text "!!map")
  | .alias _ n => n.kind
  | .loop _ => []

def isMerge : Node → Bool
  | .scalar s => s.isMerge
  | _ => false

def isNull (n : Node) : Bool :=
  match n.target with
  | .scalar s =>
    match s.value? with
    | some .null => true
    | _ => false
  | _ => false

/-- What tells the keys of one mapping apart. -/
def keyText : Node → Nat × Text
  | .scalar s => (0, s.value)
  | .sequence .. => (1, [])
  | .mapping .. => (2, [])
  | .alias name _ => (3, name)
  | .loop name => (3, name)

def distinctKeys (entries : List (Node × Node)) : Bool :=
  ((entries.map (keyText ·.1)).eraseDups).length = entries.length

def textKeys (entries : List (Node × Node)) : Bool :=
  entries.all fun (key, _) => key.kind = text "!!str" || key.kind = text "!!merge"

/-- The text of a scalar: what it denotes, if that is a text, and else as it is written. Null has
none. -/
def text? (n : Node) : Option (Option Text) :=
  match n.target with
  | .scalar s => s.value?.map fun
    | .null => none
    | .text t => some t
    | _ => some s.value
  | _ => none

end Node

end TraceLint.Yaml
