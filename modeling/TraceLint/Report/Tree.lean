import TraceLint.Json.Printer
import TraceLint.Report.Plain
import TraceLint.Trace.JsonCodec

/-! Reports as JSON: a tree from class to analysis to findings and error. -/
namespace TraceLint.Report

/-- The findings of one analysis on one class, and the text of its error, which is empty without
one. -/
structure Leaf where
  findings : List Finding := []
  error : Text := []

/-- Classes, then analyses, each in ascending order. -/
abbrev Tree := List (Text × List (Text × Leaf))

/-- Changes the entry of a key, which is made if it is absent. -/
def alter {α : Type} (zero : α) (change : α → α) (key : Text) : List (Text × α) → List (Text × α)
  | [] => [(key, change zero)]
  | (k, x) :: rest =>
    if k = key then (k, change x) :: rest
    else if Text.lt key k then (key, change zero) :: (k, x) :: rest
    else (k, x) :: alter zero change key rest

def Tree.update (tree : Tree) (cls name : Text) (change : Leaf → Leaf) : Tree :=
  alter [] (alter {} change name) cls tree

/-- The tree of a report. A finding goes to the class of its position. -/
def tree (sections : List Section) (failures : List Failed) : Tree :=
  let found := sections.foldl (fun tree s =>
    s.sink.findings.foldl (fun (tree : Tree) f =>
      tree.update f.pos.cls s.name fun leaf =>
        { leaf with findings := leaf.findings ++ [f] }) tree) []
  failures.foldl (fun (tree : Tree) f =>
    tree.update f.cls f.name fun leaf => { leaf with error := f.failure.message }) found

def payload? : Payload → Except Trace.Unsupported (Option Json)
  | .none => .ok none
  | .value v =>
    ((Trace.ToJson.value v).json [] 0).map fun (j, _) => if v.isNull then none else some j
  | .mismatch placeholders arguments =>
    .ok (some (.object
      [(text "placeholders", .ofInt placeholders), (text "arguments", .ofInt arguments)]))
  | .signOnly format => .ok (some (.object [(text "format", .string format)]))

/-- A member that is left out when its text is empty. -/
def textMember (name : String) (s : Text) : List (Text × Json) :=
  if s = [] then [] else [(text name, .string s)]

/-- A finding as JSON. Severities without a name have no form. -/
def findingJson? (f : Finding) : Option Json :=
  match f.severity.name?, payload? f.payload with
  | some severity, .ok payload =>
    let data := match payload with
      | some j => [(text "payload", j)]
      | none => []
    some (.object (textMember "category" f.category ++ [(text "severity", .string severity),
      (text "posn", .string f.pos.shown), (text "message", .string f.message)] ++
      textMember "called" f.called ++ data))
  | _, _ => none

def leafJson? (leaf : Leaf) : Option Json := do
  let findings ← leaf.findings.mapM findingJson?
  let found := if findings.isEmpty then [] else [(text "findings", .array findings)]
  return .object (textMember "error" leaf.error ++ found)

def Tree.json? (tree : Tree) : Option Json := do
  let classes ← tree.mapM fun (cls, leaves) => do
    let leaves ← leaves.mapM fun (name, leaf) => do return (name, ← leafJson? leaf)
    return (cls, Json.object leaves)
  return .object classes

/-- The report as JSON text; `none` if a finding has no JSON form. -/
def json? (sections : List Section) (failures : List Failed) : Option Printed :=
  (tree sections failures).json?.map fun j => { stdout := j.render 0 ++ [byte '\n'] }

end TraceLint.Report
