import TraceLint.Analysis.Basic
import TraceLint.Unicode.Digit
import TraceLint.Unicode.Letter

/-! Which analyses may be run together: all that are reached through requirements exist, have a name
of their own, a documentation and something to run, and none requires itself, directly or not. -/
namespace TraceLint.Analysis

inductive Flaw where
  | missing
  | invalidName (name : Text)
  | duplicateName (name : Text)
  | undocumented (name : Text)
  | nothingToRun (name : Text)
  | cycle (name : Text)
  /-- A flaw of the requirement with this index. -/
  | requirement (name : Text) (index : Nat) (flaw : Flaw)
deriving DecidableEq

def Flaw.message : Flaw → Text
  | .missing => text "nil *Analysis"
  | .invalidName name => text "invalid analysis name " ++ Text.quoted name
  | .duplicateName name => text "duplicate analysis name " ++ Text.quoted name
  | .undocumented name => text "analysis " ++ Text.quoted name ++ text " is undocumented"
  | .nothingToRun name => text "analysis " ++ Text.quoted name ++ text " has nil Run"
  | .cycle name => text "cycle detected involving " ++ name
  | .requirement name index flaw =>
    name ++ text ".Requires[" ++ Text.ofNat index ++ text "]: " ++ flaw.message

/-- Letters, underscores and, not at the start, digits. -/
def isIdentifier (name : Text) : Bool :=
  let starts (c : Char) := c = '_' || Unicode.isLetter c
  match Utf8.chars name with
  | [] => false
  | c :: rest => starts c && rest.all fun c => starts c || Unicode.isDigit c

/-- The flaw of an analysis by itself, given the names already taken. -/
def ownFlaw (a : Analysis) (names : List Text) : Option Flaw :=
  if !isIdentifier a.name then some (.invalidName a.name)
  else if names.contains a.name then some (.duplicateName a.name)
  else if a.doc = [] then some (.undocumented a.name)
  else if a.run.isNone then some (.nothingToRun a.name)
  else none

/-- How far a search through the requirements has come. -/
structure Survey where
  /-- The analyses whose requirements are being searched. -/
  entered : List Id := []
  /-- The analyses that are done with. -/
  cleared : List Id := []
  names : List Text := []

/-- Searches from one analysis, depth first and at most `fuel` deep. -/
def survey (catalog : Catalog) : (fuel : Nat) → Survey → Option Id → Except Flaw Survey
  | 0, s, _ => .ok s
  | _ + 1, _, none => .error .missing
  | fuel + 1, s, some id =>
    match catalog[id]? with
    | none => .error .missing
    | some a =>
      if s.cleared.contains id then .ok s
      else if s.entered.contains id then .error (.cycle a.name)
      else match ownFlaw a s.names with
        | some flaw => .error flaw
        | none =>
          let inside := { s with entered := id :: s.entered, names := a.name :: s.names }
          let searched : Except Flaw Survey := a.requires.zipIdx.foldlM (fun s (r, index) =>
            (survey catalog fuel s r).mapError (Flaw.requirement a.name index)) inside
          searched.map fun s =>
            { s with entered := s.entered.erase id, cleared := id :: s.cleared }

/-- Refuses the first flaw that is met from the roots. No search goes deeper than there are
analyses. -/
def validate (catalog : Catalog) (roots : List (Option Id)) : Except Flaw Unit :=
  (roots.foldlM (survey catalog (catalog.length + 1)) {}).map fun _ => ()

end TraceLint.Analysis
