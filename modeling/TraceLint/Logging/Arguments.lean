import TraceLint.Hierarchy

/-! The format and the arguments of a logging call, found on the operand stack. -/
namespace TraceLint.Logging

open Descriptor (FieldType MethodType)

/-- The slot of the format: that of the first string parameter in declaration order. -/
def formatSlot (sig : MethodType) (stack : Option Stack.Snapshot) : Option Stack.Slot :=
  (sig.depthOf? FieldType.string).bind fun i => Stack.slot? stack i

/-- The compile-time value of the format, as text whatever its type. -/
def constantFormat : Option Stack.Slot → Option Text
  | none => none
  | some slot => if slot.isConstant then some slot.constant.shown else none

/-- The arguments came in an array that was not built in place. -/
inductive Unresolved where
  | array
deriving DecidableEq

def Unresolved.message : Unresolved → Text
  | .array => text "argument array was not built in place"

/-- The number of arguments that a call substitutes for placeholders. A throwable on top is printed
as a stack trace and a marker in front only tags the event, so neither counts. -/
def countArguments (sig : MethodType) (stack : Option Stack.Snapshot) (hierarchy : Hierarchy) :
    Except Unresolved Int :=
  let top := Stack.slot? stack 0
  if sig.last = FieldType.objectArray then
    match top.bind Stack.Slot.array with
    | none => .error .array
    | some tag =>
      if tag.size < 0 then .error .array
      else .ok (tag.size.toInt - if tag.throwableAtLast then 1 else 0)
  else
    .ok ((sig.params.length : Int) - 1 - (if sig.param 0 = FieldType.marker then 1 else 0) -
      if hierarchy.isThrowable top then 1 else 0)

end TraceLint.Logging
