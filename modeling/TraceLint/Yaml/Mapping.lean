import TraceLint.Yaml.Resolve

/-! What nodes denote, and what mappings hold. The value of a merge key is a mapping, or a list of
them, whose entries count as entries of the mapping around it; an entry of the mapping itself comes
before one that is merged, and an earlier one of a list before a later one. -/
namespace TraceLint.Yaml.Node

/-- A text as a key. A null key has no entry. -/
def textKey? (n : Node) : Option (Option Key) := n.text?.map (·.map .text)

def anyKey? (v : Option Value) : Option (Option Key) := v.bind fun v => v.key?.map some

mutual

/-- What a node denotes. A mapping has texts for keys if all of its own are written as texts. -/
def value? : Node → Option Value
  | .scalar s => s.value?
  | .alias _ n => value? n
  | .loop _ => none
  | .sequence _ items => (values? items).map .list
  | .mapping _ entries =>
    if distinctKeys entries then do
      let texts := textKeys entries
      let own ← bindings? texts none entries
      let merged ← merged? texts (own.map Prod.fst) entries
      let first := own.foldl (fun all (key, v) => Value.insertKey key v all) []
      let all := merged.foldl (fun all (key, v) => Value.insertKey key v all) first
      if texts then
        return .map (all.filterMap fun
          | (.text name, v) => some (name, v)
          | _ => none)
      else return .keyed all
    else none

def values? : List Node → Option (List Value)
  | [] => some []
  | item :: rest => do
    let v ← value? item
    let vs ← values? rest
    return v :: vs

/-- The entries that are not merged, but for those of the keys `seen`. If keys are watched, none is
taken twice. -/
def bindings? (texts : Bool) (seen : Option (List Key)) :
    List (Node × Node) → Option (List (Key × Value))
  | [] => some []
  | (k, n) :: rest =>
    if k.isMerge then bindings? texts seen rest
    else do
      match ← if texts then textKey? k else anyKey? (value? k) with
      | none => bindings? texts seen rest
      | some key =>
        if (seen.getD []).any (·.same key) then bindings? texts seen rest
        else
          let v ← value? n
          let more ← bindings? texts (seen.map (key :: ·)) rest
          return (key, v) :: more

/-- The entries that are merged into a mapping with these entries and the keys `seen`. -/
def merged? (texts : Bool) (seen : List Key) : List (Node × Node) → Option (List (Key × Value))
  | [] => some []
  | (k, n) :: rest =>
    if k.isMerge then source? texts true seen n else merged? texts seen rest

/-- The entries of what is merged: a mapping, or where `list` allows it a list of mappings. -/
def source? (texts list : Bool) (seen : List Key) : Node → Option (List (Key × Value))
  | .mapping _ entries =>
    if distinctKeys entries then do
      let own ← bindings? texts (some seen) entries
      let more ← merged? texts (own.map Prod.fst ++ seen) entries
      return own ++ more
    else none
  | .alias _ n => source? texts false seen n
  | .sequence _ items => if list then sources? texts seen items else none
  | _ => none

def sources? (texts : Bool) (seen : List Key) : List Node → Option (List (Key × Value))
  | [] => some []
  | n :: rest => do
    let found ← source? texts false seen n
    let more ← sources? texts (found.map Prod.fst ++ seen) rest
    return found ++ more

end

/-- The entries with a name that are not merged, but for those of the names `seen`. If names are
watched, none is taken twice. -/
def namedEntries? (seen : Option (List Text)) : List (Node × Node) → Option (List (Text × Node))
  | [] => some []
  | (k, n) :: rest =>
    if k.isMerge then namedEntries? seen rest
    else do
      match ← k.text? with
      | none => namedEntries? seen rest
      | some name =>
        if (seen.getD []).contains name then namedEntries? seen rest
        else return (name, n) :: (← namedEntries? (seen.map (name :: ·)) rest)

mutual

/-- The entries by name that are merged into a mapping with these entries and the names `seen`. -/
def mergedEntries? (seen : List Text) : List (Node × Node) → Option (List (Text × Node))
  | [] => some []
  | (k, n) :: rest => if k.isMerge then sourceEntries? true seen n else mergedEntries? seen rest

def sourceEntries? (list : Bool) (seen : List Text) : Node → Option (List (Text × Node))
  | .mapping _ entries =>
    if distinctKeys entries then do
      let own ← namedEntries? (some seen) entries
      let more ← mergedEntries? (own.map Prod.fst ++ seen) entries
      return own ++ more
    else none
  | .alias _ n => sourceEntries? false seen n
  | .sequence _ items => if list then sourcesEntries? seen items else none
  | _ => none

def sourcesEntries? (seen : List Text) : List Node → Option (List (Text × Node))
  | [] => some []
  | n :: rest => do
    let found ← sourceEntries? false seen n
    let more ← sourcesEntries? (found.map Prod.fst ++ seen) rest
    return found ++ more

end

/-- The entries of a mapping by name, those that are merged included. No name may come twice among
its own entries. -/
def entries? : Node → Option (List (Text × Node))
  | .mapping _ entries =>
    if distinctKeys entries then do
      let own ← namedEntries? none entries
      let names := own.map Prod.fst
      if names.eraseDups.length ≠ names.length then none
      let merged ← mergedEntries? names entries
      return own ++ merged
    else none
  | _ => none

end TraceLint.Yaml.Node
