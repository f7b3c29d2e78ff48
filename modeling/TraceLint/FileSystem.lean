import TraceLint.Text.Basic

/-! Files and directories, and paths to them. -/
namespace TraceLint

inductive FileSystem.Entry where
  | file (data : Text)
  | directory

/-- Entries by place, as path elements from the root, the latest first: it hides those of the same
place. The directories above an entry exist with it. -/
structure FileSystem where
  entries : List (List Text × FileSystem.Entry) := []
  /-- The place where relative paths start. -/
  workingDirectory : List Text := []

namespace FileSystem

inductive Refusal where
  | absent
  | notDirectory
  | isDirectory
  | tooLong
  /-- The path holds a zero byte. -/
  | malformed
deriving DecidableEq

def Refusal.message : Refusal → Text
  | .absent => text "no such file or directory"
  | .notDirectory => text "not a directory"
  | .isDirectory => text "is a directory"
  | .tooLong => text "file name too long"
  | .malformed => text "invalid argument"

structure Fault where
  operation : String
  path : Text
  refusal : Refusal
deriving DecidableEq

def Fault.message (f : Fault) : Text :=
  text f.operation ++ byte ' ' :: f.path ++ text ": " ++ f.refusal.message

/-- Entries given by their relative paths; a later one hides an earlier one. -/
def ofList (workingDirectory : List Text) (entries : List (Text × Entry)) : FileSystem where
  entries := (workingDirectory, .directory) :: entries.reverse.map fun (path, entry) =>
    (workingDirectory ++ Text.splitOn (byte '/') path, entry)
  workingDirectory := workingDirectory

def at? (fs : FileSystem) (place : List Text) : Option Entry :=
  if place.isEmpty then some .directory
  else match fs.entries.lookup place with
    | some entry => some entry
    | none => if fs.entries.any fun e => place.isPrefixOf e.1 then some .directory else none

def greatestElement : Nat := 255

/-- The length that no path may reach, in bytes. -/
def pathLimit : Nat := 4096

/-- Follows the elements of a path from a place; all but the last must be directories. -/
def follow (fs : FileSystem) (place : List Text) : List Text → Except Refusal (List Text)
  | [] => .ok place
  | element :: rest =>
    match fs.at? place with
    | none => .error .absent
    | some (.file _) => .error .notDirectory
    | some .directory =>
      if element = [] || element = text "." then fs.follow place rest
      else if element = text ".." then fs.follow place.dropLast rest
      else if greatestElement < element.length then .error .tooLong
      else fs.follow (place ++ [element]) rest

/-- The place of a path. The root is the directory above itself. -/
def resolve (fs : FileSystem) (path : Text) : Except Refusal (List Text) :=
  if path.contains 0 then .error .malformed
  else if path = [] then .error .absent
  else if pathLimit ≤ path.length then .error .tooLong
  else
    let start := if path.head? = some (byte '/') then [] else fs.workingDirectory
    fs.follow start (Text.splitOn (byte '/') path)

def read (fs : FileSystem) (path : Text) : Except Fault Text :=
  match fs.resolve path with
  | .error refusal => .error ⟨"open", path, refusal⟩
  | .ok place =>
    match fs.at? place with
    | none => .error ⟨"open", path, .absent⟩
    | some .directory => .error ⟨"read", path, .isDirectory⟩
    | some (.file data) => .ok data

/-- The place where a new file would be made. A path that ends in a slash can only be a
directory. -/
def resolveNew (fs : FileSystem) (path : Text) : Except Refusal (List Text) :=
  let trimmed := (path.reverse.dropWhile (· = byte '/')).reverse
  if trimmed = path || trimmed = [] || path.contains 0 || pathLimit ≤ path.length then
    fs.resolve path
  else
    let parent := (trimmed.reverse.dropWhile (· ≠ byte '/')).reverse
    match fs.resolve (if parent = [] then text "." else parent) with
    | .error refusal => .error refusal
    | .ok place =>
      match fs.at? place with
      | some .directory => .error .isDirectory
      | some (.file _) => .error .notDirectory
      | none => .error .absent

/-- Makes an empty file, or empties the one that is there. -/
def create (fs : FileSystem) (path : Text) : Except Fault FileSystem :=
  match fs.resolveNew path with
  | .error refusal => .error ⟨"open", path, refusal⟩
  | .ok place =>
    match fs.at? place with
    | some .directory => .error ⟨"open", path, .isDirectory⟩
    | some (.file _) => .ok { fs with entries := (place, .file []) :: fs.entries }
    | none =>
      match fs.at? place.dropLast with
      | some .directory => .ok { fs with entries := (place, .file []) :: fs.entries }
      | _ => .error ⟨"open", path, .absent⟩

/-- The names in a directory, in ascending order. -/
def list (fs : FileSystem) (path : Text) : Except Fault (List Text) :=
  match fs.resolve path with
  | .error refusal => .error ⟨"open", path, refusal⟩
  | .ok place =>
    match fs.at? place with
    | none => .error ⟨"open", path, .absent⟩
    | some (.file _) => .error ⟨"readdirent", path, .notDirectory⟩
    | some .directory =>
      let names := fs.entries.filterMap fun (p, _) =>
        if place.isPrefixOf p then (p.drop place.length).head? else none
      .ok (Text.sort names.eraseDups)

def isDirectory (fs : FileSystem) (path : Text) : Bool :=
  match fs.resolve path with
  | .error _ => false
  | .ok place =>
    match fs.at? place with
    | some .directory => true
    | _ => false

end FileSystem

end TraceLint
