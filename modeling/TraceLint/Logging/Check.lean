import TraceLint.Finding
import TraceLint.Logging.Arguments
import TraceLint.Logging.Placeholder

/-! The check of one logging call: does its format fit its arguments? -/
namespace TraceLint.Logging

open Descriptor (MethodType)

/-- One invocation, with the operand stack before it. -/
structure CallSite where
  pos : Bytecode.Position
  owner : Text
  name : Text
  desc : Text
  stack : Option Stack.Snapshot

namespace Category

def mismatch : Text := text "SLF4J_PLACE_HOLDER_MISMATCH"

def unknownArray : Text := text "SLF4J_UNKNOWN_ARRAY"

def notConstant : Text := text "SLF4J_FORMAT_SHOULD_BE_CONST"

def signOnly : Text := text "SLF4J_SIGN_ONLY_FORMAT"

end Category

def loggerClass : Text := text "org/slf4j/Logger"

def logMethods : List Text := ["trace", "debug", "info", "warn", "error"].map text

/-- The descriptors of logging methods that print their message as it is. -/
def withoutFormat : List Text :=
  ["(Ljava/lang/String;)V", "(Ljava/lang/String;Ljava/lang/Throwable;)V",
    "(Lorg/slf4j/Marker;Ljava/lang/String;Ljava/lang/Throwable;)V"].map text

namespace CallSite

def isLogging (site : CallSite) : Bool := site.owner = loggerClass && logMethods.contains site.name

def called (site : CallSite) : Text := Bytecode.called site.owner site.name site.desc

def finding (site : CallSite) (category : Text) (severity : Severity) (payload : Payload)
    (message : Text) : Finding :=
  ⟨site.pos, category, severity, message, site.called, payload⟩

def notConstant (site : CallSite) : Finding :=
  site.finding Category.notConstant .high .none
    (text "format string should be a compile-time constant")

def signOnly (site : CallSite) (format : Text) : Finding :=
  site.finding Category.signOnly .normal (.signOnly format)
    (text "format string " ++ Text.quoted format ++ text " contains no letters")

def unknownArray (site : CallSite) : Finding :=
  site.finding Category.unknownArray .high .none
    (text "arguments are passed in an array of unknown length; cannot check the format")

def mismatch (site : CallSite) (placeholders arguments : Int) : Finding :=
  site.finding Category.mismatch .high (.mismatch placeholders arguments)
    (text "count of placeholders (" ++ Text.ofInt placeholders ++
      text ") does not match count of arguments (" ++ Text.ofInt arguments ++ text ")")

/-- What the counts of a constant format and of its arguments give. -/
def countFindings (site : CallSite) (sig : MethodType) (hierarchy : Hierarchy) (format : Text) :
    List Finding :=
  match countArguments sig site.stack hierarchy with
  | .error .array => [site.unknownArray]
  | .ok arguments =>
    let placeholders : Int := countPlaceholders format
    if placeholders ≠ arguments then [site.mismatch placeholders arguments] else []

end CallSite

/-- The findings at one call site. Calls that are no logging calls, or take no format, have none; so
have calls where the stack is shallower than the parameters. A malformed descriptor is the only
error. -/
def check (site : CallSite) (hierarchy : Hierarchy) (reportSignOnly : Bool) :
    Except Descriptor.Invalid (List Finding) :=
  if !site.isLogging || withoutFormat.contains site.desc then .ok []
  else match Descriptor.parse site.desc with
    | .error e => .error e
    | .ok sig =>
      if Stack.depth site.stack < sig.params.length then .ok []
      else match formatSlot sig site.stack with
        | none => .ok []
        | some slot =>
          match constantFormat (some slot) with
          | none => .ok [site.notConstant]
          | some format =>
            let advice := if reportSignOnly && isSignOnly format then [site.signOnly format] else []
            .ok (advice ++ site.countFindings sig hierarchy format)

end TraceLint.Logging
