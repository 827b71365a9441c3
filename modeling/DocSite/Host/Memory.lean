import DocSite.Host
import DocSite.Table

/-!
# A machine in memory

A volume is a tree of files and directories in a value, so that what a run does to it can be looked
at. Its answers, down to the numbers of refusals, are those of a machine with the usual file system
calls.

* `Volume` : files and directories.
* `Volume.walk`, `Volume.makeDirectory`, `Volume.writeText` : what can be done with a volume.
* `Machine` : a volume with what has been printed on it.
* `Machine.host` : the host that a machine is.
-/

namespace DocSite

/-- What stands at a place of a volume. -/
inductive Volume.Node where
  | directory
  /-- A file with its text, if its bytes are one. -/
  | file (text? : Option Text)
  deriving DecidableEq, Repr

/-- Files and directories by the names on the way from the root to them. -/
abbrev Volume := List (List Text × Volume.Node)

namespace Volume

variable (v : Volume)

/-- What stands at a place. The root is always there. -/
def at? (place : List Text) : Option Node :=
  if place = [] then some .directory else List.lookup place v

/-- How many bytes a name may have. -/
def maxNameBytes : Nat := 255

/-- How many bytes a path may have. -/
def maxPathBytes : Nat := 4095

/-- The place that a name leads to from another place, which must be a directory. -/
def step (place : List Text) (name : Text) : Except FileError (List Text) :=
  match v.at? place with
  | none => .error .missing
  | some (.file _) => .error .notDirectory
  | some .directory =>
    if name = [] ∨ name = ['.'] then .ok place
    else if name = ['.', '.'] then .ok place.dropLast
    else if maxNameBytes < name.byteCount then .error .tooLong
    else .ok (place ++ [name])

/-- The names that a path has. -/
def names (p : Path) : List Text := (p.splitOn '/').drop (if p.isAbsolute then 1 else 0)

/-- The place that a path leads to from a directory. The last name on it need not be there. -/
def walk (start : List Text) (p : Path) : Except FileError (List Text) :=
  if p.any (· = '\x00') then .error .invalidPath
  else if p = [] then .error .missing
  else if maxPathBytes < p.byteCount then .error .tooLong
  else (names p).foldlM (step v) (if p.isAbsolute then [] else start)

/-- What a path leads to from a directory. -/
def find? (start : List Text) (p : Path) : Except FileError Node := do
  match v.at? (← walk v start p) with
  | some node => .ok node
  | none => .error .missing

/-- Whether there is something at a path. -/
def pathExists (start : List Text) (p : Path) : Bool := (find? v start p).toBool

/-- Whether there is a directory at a path. -/
def isDirectory (start : List Text) (p : Path) : Bool :=
  (find? v start p).toOption = some .directory

/-- The text of the file at a path. -/
def readText (start : List Text) (p : Path) : Except FileError Text := do
  match ← find? v start p with
  | .directory => .error .isDirectory
  | .file none => .error .notText
  | .file (some s) => .ok s

/-- The volume with something put at a place. -/
def put (place : List Text) (node : Node) : Volume :=
  (place, node) :: v.filter fun (p, _) => p ≠ place

/-- The volume with a text in the file at a path. -/
def writeText (start : List Text) (p : Path) (s : Text) : Except FileError Volume := do
  let place ← walk v start p
  match v.at? place with
  | some .directory => .error .isDirectory
  | _ => .ok (put v place (.file (some s)))

/-- The volume with a directory at a path where there was nothing. Slashes at the end of the path
say nothing. -/
def makeDirectory (start : List Text) (p : Path) : Except FileError Volume := do
  let place ← walk v start (Text.dropEndWhile (· = '/') p)
  match v.at? place with
  | some _ => .error .taken
  | none => .ok (put v place .directory)

end Volume

/-- A volume with what has been printed on the machine that it belongs to. -/
structure Machine where
  volume : Volume
  /-- The results that have been printed. -/
  printed : Text := []
  /-- The messages that have been printed. -/
  told : Text := []

namespace Machine

/-- A change of the volume, unless it is refused. -/
def change (f : Volume → Except FileError Volume) : StateM Machine (Except FileError Unit) := do
  match f (← get).volume with
  | .ok volume =>
    modify fun machine => { machine with volume }
    return .ok ()
  | .error e => return .error e

/-- The host that a machine is for a run that starts in a directory, in an environment, at an
instant. -/
def host (workingDirectory : Path) (environment : Environment) (clock : Instant) :
    Host (StateM Machine) where
  workingDirectory
  valueOf? := environment.valueOf?
  pathExists p := return (← get).volume.pathExists (Volume.names workingDirectory) p
  readText p := return (← get).volume.readText (Volume.names workingDirectory) p
  isDirectory p := return (← get).volume.isDirectory (Volume.names workingDirectory) p
  makeDirectory p := change fun v => v.makeDirectory (Volume.names workingDirectory) p
  writeText p s := change fun v => v.writeText (Volume.names workingDirectory) p s
  print s := modify fun machine => { machine with printed := machine.printed ++ s }
  tell s := modify fun machine => { machine with told := machine.told ++ s }
  now := return clock

end Machine

end DocSite
