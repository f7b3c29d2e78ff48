import TraceLint.Text.Basic

/-! Paths as texts. -/
namespace TraceLint.Path

/-- The elements of a path without empty ones and single dots, each pair of dots taken with the
element before it. -/
def shorten (rooted : Bool) (done : List Text) : List Text → List Text
  | [] => done.reverse
  | element :: rest =>
    if element = [] || element = text "." then shorten rooted done rest
    else if element = text ".." then
      match done with
      | last :: before =>
        if last = text ".." then shorten rooted (element :: done) rest
        else shorten rooted before rest
      | [] => shorten rooted (if rooted then [] else [element]) rest
    else shorten rooted (element :: done) rest

/-- The shortest path to the same place. -/
def clean (path : Text) : Text :=
  let rooted := path.head? = some (byte '/')
  let short := Text.join [byte '/'] (shorten rooted [] (Text.splitOn (byte '/') path))
  if rooted then byte '/' :: short else if short = [] then text "." else short

/-- Elements joined to one path; empty ones do not count. -/
def join (elements : List Text) : Text :=
  match elements.filter (· ≠ []) with
  | [] => []
  | elements => clean (Text.join [byte '/'] elements)

end TraceLint.Path
