import TraceLint.FileSystem
import TraceLint.Trace.Build
import TraceLint.Trace.Codec

/-! From trace files to a program. -/
namespace TraceLint.Load

inductive Fault where
  | noFiles
  | extension (filename : Text)
  | file (fault : FileSystem.Fault)
  | codec (filename : Text) (fault : Trace.CodecFault)
  | build (filename : Text) (fault : Trace.BuildFault)
  /-- A class name that occurs twice, with the files of its first and of its repeated definition. -/
  | duplicate (cls first again : Text)
deriving DecidableEq

def Fault.message : Fault → Text
  | .noFiles => text "no trace files given"
  | .extension filename => Trace.Format.unrecognized filename
  | .file fault => fault.message
  | .codec filename fault => filename ++ text ": " ++ fault.message
  | .build filename fault => filename ++ text ": " ++ fault.message
  | .duplicate cls first again =>
    text "class " ++ cls ++ text " defined in both " ++ first ++ text " and " ++ again

/-- What is said when loading does not only fail but breaks the loader. -/
def Fault.breakdown? : Fault → Option Text
  | .codec _ (.broken message) => some message
  | _ => none

/-- The trace in a file, in the encoding that its name implies. -/
def traceFile (fs : FileSystem) (filename : Text) : Except Fault Trace.File :=
  match Trace.Format.ofFilename? filename with
  | none => .error (.extension filename)
  | some format =>
    match fs.read filename with
    | .error fault => .error (.file fault)
    | .ok data => (Trace.decode format data).mapError (Fault.codec filename)

def classesOf (fs : FileSystem) (filename : Text) : Except Fault (List Bytecode.Class) :=
  match traceFile fs filename with
  | .error fault => .error fault
  | .ok file => file.build.mapError (Fault.build filename)

/-- The classes of all files with the name of their file, in argument order; the first file that
fails decides the error. -/
def filed (fs : FileSystem) : List Text → Except Fault (List (Text × Bytecode.Class))
  | [] => .ok []
  | filename :: rest =>
    match classesOf fs filename with
    | .error fault => .error fault
    | .ok classes => (filed fs rest).map fun later => classes.map (fun c => (filename, c)) ++ later

/-- The first class whose name was defined before; `seen` gives the files of the names before. -/
def firstDuplicate (seen : List (Text × Text)) : List (Text × Bytecode.Class) → Option Fault
  | [] => none
  | (filename, c) :: rest =>
    match seen.lookup c.name with
    | some first => some (.duplicate c.name first filename)
    | none => firstDuplicate ((c.name, filename) :: seen) rest

/-- The program of some files. No class may be defined twice. -/
def program (fs : FileSystem) (filenames : List Text) : Except Fault Bytecode.Program :=
  if filenames.isEmpty then .error .noFiles
  else match filed fs filenames with
    | .error fault => .error fault
    | .ok classes =>
      match firstDuplicate [] classes with
      | some fault => .error fault
      | none => .ok (.ofClasses (classes.map Prod.snd))

end TraceLint.Load
