import TraceLint.Yaml.Resolve

/-! A limit for aliases: they may make a document much larger than its text, but not beyond
measure. -/
namespace TraceLint.Yaml

/-- How many nodes were visited, and how many of them inside the nodes that aliases stand for. -/
structure Visits where
  all : Nat := 0
  aliased : Nat := 0

namespace Visits

/-- Whether too large a part of the visits is due to aliases. In small documents that is 99 of 100,
and in large ones 10 of 100, with a steady fall between 400000 and 4000000 visits. -/
def excessive (v : Visits) : Bool :=
  100 < v.aliased && 1000 < v.all &&
    if v.all ≤ 400000 then 99 * v.all < 100 * v.aliased
    else if 4000000 ≤ v.all then v.all < 10 * v.aliased
    else v.all * (99 * 3600000 - 89 * (v.all - 400000)) < v.aliased * 360000000

/-- Counts a node, if that is not one too many. -/
def add (v : Visits) (inAlias : Bool) : Option Visits :=
  let v : Visits := ⟨v.all + 1, if inAlias then v.aliased + 1 else v.aliased⟩
  if v.excessive then none else some v

end Visits

namespace Node

mutual

def visit (inAlias : Bool) (v : Visits) : Node → Option Visits
  | .scalar _ => v.add inAlias
  | .loop _ => v.add inAlias
  | .alias _ n => do visit true (← v.add inAlias) n
  | .sequence _ items => do visitItems inAlias (← v.add inAlias) items
  | .mapping _ entries => do
    let v ← visitEntries inAlias (← v.add inAlias) entries
    let keys := if entries.any fun (key, _) => key.isMerge then entries.length else 0
    let v ← (List.replicate keys ()).foldlM (fun v _ => v.add inAlias) v
    visitMerged inAlias v entries

def visitItems (inAlias : Bool) (v : Visits) : List Node → Option Visits
  | [] => some v
  | n :: rest => do visitItems inAlias (← visit inAlias v n) rest

/-- Visits the entries that are not merged. -/
def visitEntries (inAlias : Bool) (v : Visits) : List (Node × Node) → Option Visits
  | [] => some v
  | (key, n) :: rest =>
    if key.isMerge then visitEntries inAlias v rest
    else do
      let v ← visit inAlias v key
      let v ← visit inAlias v n
      visitEntries inAlias v rest

def visitMerged (inAlias : Bool) (v : Visits) : List (Node × Node) → Option Visits
  | [] => some v
  | (key, n) :: rest =>
    if key.isMerge then
      match n with
      | .sequence _ items => visitItems inAlias v items
      | n => visit inAlias v n
    else visitMerged inAlias v rest

end

/-- Whether a document stays within the limit; the document itself counts as a node. -/
def withinLimit (n : Node) : Bool := (n.visit false { all := 1 }).isSome

end Node

end TraceLint.Yaml
