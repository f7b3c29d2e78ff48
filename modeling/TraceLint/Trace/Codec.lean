import TraceLint.Trace.Format
import TraceLint.Trace.JsonCodec
import TraceLint.Trace.MessagePackCodec
import TraceLint.Trace.YamlCodec

/-! Reading and writing traces in any of their encodings. -/
namespace TraceLint.Trace

inductive CodecFault where
  /-- The data is no trace in this encoding. -/
  | malformed (format : Format)
  | unsupportedFormat (format : Format)
  /-- A constant that JSON cannot express. -/
  | unsupportedValue (value : Unsupported)
  /-- Data that breaks its reader. -/
  | broken (message : Text)
deriving DecidableEq

def CodecFault.message : CodecFault → Text
  | .malformed format => text "decoding " ++ format.shown
  | .unsupportedFormat format => text "unsupported trace format " ++ format.shown
  | .unsupportedValue value => value.message
  | .broken message => message

/-- What is said of an attempt to write over a constant. -/
def overwritingMessage (attempt : String) : Text :=
  if attempt = "Addr" then text "reflect.Value.Addr of unaddressable value"
  else text "reflect: reflect.Value." ++ text attempt ++ text " using unaddressable value"

/-- Reads the first document of the data. -/
def decode (format : Format) (data : Text) : Except CodecFault File :=
  let given (found : Option File) := match found with
    | some f => .ok f
    | none => .error (.malformed format)
  match format with
  | .yaml => given (decodeYaml? data)
  | .json => given (decodeJson? data)
  | .messagePack =>
    match decodeMessagePack data with
    | .ok f => .ok f
    | .error .malformed => .error (.malformed format)
    | .error (.overwriting attempt) => .error (.broken (overwritingMessage attempt))
  | .unknown _ => .error (.unsupportedFormat format)

def encode (format : Format) (f : File) : Except CodecFault Text :=
  match format with
  | .yaml => .ok (encodeYaml f)
  | .json => (encodeJson f).mapError .unsupportedValue
  | .messagePack => .ok (encodeMessagePack f)
  | .unknown _ => .error (.unsupportedFormat format)

end TraceLint.Trace
