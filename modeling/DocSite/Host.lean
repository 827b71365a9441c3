import DocSite.Path
import DocSite.Time.Instant

/-!
# Hosts

A run asks the machine it runs on for files and variables, and hands it what it writes. What the
answers are is left to a monad: with `Id` a run is a function of what the machine holds.

* `FileError` : why a file cannot be read or written.
* `Environment` : variables and their values.
* `Surroundings` : what a run can ask.
* `Host` : what a run can ask and do.
* `Host.makeDirectories` : a directory made with those above it.
-/

namespace DocSite

/-- Why a file cannot be read or written. -/
inductive FileError where
  /-- The machine refuses, in its own words and with its own number. -/
  | refused (description : Text) (number : Nat)
  /-- The bytes of the file are no text. -/
  | notText
  /-- The path holds a character that no path can hold. -/
  | invalidPath
  deriving DecidableEq, Repr

namespace FileError

/-- There is nothing at the path. -/
def missing : FileError := .refused "No such file or directory".toList 2

/-- There is something at the path. -/
def taken : FileError := .refused "File exists".toList 17

/-- A file is not a directory. -/
def notDirectory : FileError := .refused "Not a directory".toList 20

/-- A directory is not a file. -/
def isDirectory : FileError := .refused "Is a directory".toList 21

/-- A name, or all of a path, is longer than any there can be. -/
def tooLong : FileError := .refused "File name too long".toList 36

end FileError

/-- Why a file cannot be read or written, in words. -/
def FileError.message : FileError → Text
  | refused description number =>
    description ++ " (os error ".toList ++ Text.ofNat number ++ [')']
  | notText => "stream did not contain valid UTF-8".toList
  | invalidPath => "file name contained an unexpected NUL byte".toList

/-- The variables that are set, each as its name, an equals sign and its value. -/
abbrev Environment := List Text

/-- The value of a variable: what follows the first name and equals sign that fit. The empty name
has none. -/
def Environment.valueOf? (e : Environment) (name : Text) : Option Text :=
  if name = [] then none else e.findSome? fun row => (name ++ ['=']).isPrefixOf? row

/-- What a run can ask the machine it runs on. -/
structure Surroundings (m : Type → Type) where
  /-- The directory that relative paths start from. -/
  workingDirectory : Path
  /-- The variables of the environment. -/
  valueOf? : Text → Option Text
  /-- Whether there is a file or a directory at a path. -/
  pathExists : Path → m Bool
  /-- The text of a file. -/
  readText : Path → m (Except FileError Text)

/-- What a run can ask the machine it runs on, and do there. -/
structure Host (m : Type → Type) extends Surroundings m where
  /-- Whether there is a directory at a path. -/
  isDirectory : Path → m Bool
  /-- Makes a directory where there was nothing. -/
  makeDirectory : Path → m (Except FileError Unit)
  /-- Writes a file over what was there. -/
  writeText : Path → Text → m (Except FileError Unit)
  /-- Prints a result. -/
  print : Text → m Unit
  /-- Prints a message for the person at the terminal. -/
  tell : Text → m Unit
  /-- The time. -/
  now : m Instant

namespace Host

variable {m : Type → Type} [Monad m] (host : Host m)

/-- Makes a directory, unless there is one. -/
def ensureDirectory (p : Path) : m (Except FileError Unit) := do
  match ← host.makeDirectory p with
  | .ok _ => return .ok ()
  | .error e => if ← host.isDirectory p then return .ok () else return .error e

/-- Makes a directory and those above it, unless they are there. -/
def makeDirectories (p : Path) : m (Except FileError Unit) := do
  if p = [] then return .ok ()
  match ← host.ensureDirectory p with
  | .ok _ => return .ok ()
  | .error e =>
    match h : Path.parent? p with
    | none => return .error e
    | some q =>
      have := Path.length_parent? h
      if e ≠ .missing then return .error e
      match ← makeDirectories q with
      | .ok _ => host.ensureDirectory p
      | .error e => return .error e
termination_by p.length

end Host

end DocSite
