import TraceLint.Json.Token

/-! Reading JSON: a stack of open containers, and what may come next. Only the first value of a text
is read; what follows it is not looked at. -/
namespace TraceLint.Json

/-- An open container with what it holds so far, the latest first. -/
inductive Frame where
  | array (items : List Json)
  /-- The name is that of the member whose value comes next or came last. -/
  | object (members : List (Text × Json)) (name : Text)

/-- What may come next. -/
inductive Expected where
  | value
  /-- A value, or the end of an array that holds nothing yet. -/
  | firstItem
  /-- A member's name, or the end of an object that holds nothing yet. -/
  | firstName
  | name
  | colon
  /-- A comma or the end of the innermost container. -/
  | separator

def Frame.push (j : Json) : Frame → Frame
  | .array items => .array (j :: items)
  | .object members name => .object ((name, j) :: members) name

def greatestDepth : Nat := 10000

/-- Reads on after a whole value: it is the result, or goes into the innermost container. -/
def resume (read : Expected → List Frame → Option Json) (j : Json) : List Frame → Option Json
  | [] => some j
  | frame :: frames => read .separator (frame.push j :: frames)

/-- Reads tokens into the open containers until the first value is whole. -/
def read : List Token → Expected → List Frame → Option Json
  | [], _, _ => none
  | token :: tokens, expected, frames =>
    let start : Option Json :=
      match token with
      | .scalar j => resume (read tokens) j frames
      | .string s => resume (read tokens) (.string s) frames
      | .openArray =>
        if frames.length < greatestDepth then read tokens .firstItem (.array [] :: frames) else none
      | .openObject =>
        if frames.length < greatestDepth then
          read tokens .firstName (.object [] [] :: frames)
        else none
      | _ => none
    match expected with
    | .value => start
    | .firstItem =>
      match token, frames with
      | .closeArray, _ :: outer => resume (read tokens) (.array []) outer
      | _, _ => start
    | .firstName =>
      match token, frames with
      | .closeObject, _ :: outer => resume (read tokens) (.object []) outer
      | .string name, .object members _ :: outer =>
        read tokens .colon (.object members name :: outer)
      | _, _ => none
    | .name =>
      match token, frames with
      | .string name, .object members _ :: outer =>
        read tokens .colon (.object members name :: outer)
      | _, _ => none
    | .colon =>
      match token with
      | .colon => read tokens .value frames
      | _ => none
    | .separator =>
      match token, frames with
      | .comma, .array items :: outer => read tokens .value (.array items :: outer)
      | .comma, .object members name :: outer => read tokens .name (.object members name :: outer)
      | .closeArray, .array items :: outer => resume (read tokens) (.array items.reverse) outer
      | .closeObject, .object members _ :: outer =>
        resume (read tokens) (.object members.reverse) outer
      | _, _ => none

def parse? (s : Text) : Option Json := read (tokens s) .value []

end TraceLint.Json
