import DocSite.Settings.File

/-!
# Loading settings

* `Settings.discover?` : the nearest settings file.
* `Settings.load` : the settings for a run.
-/

namespace DocSite

namespace Settings

variable {m : Type → Type} [Monad m]

/-- The name of settings files. -/
def fileName : Text := "folio.toml".toList

/-- Where settings files are looked for: in a directory and in those above it. -/
def candidates (start : Path) : List Path := (Path.ancestors start).map (Path.join · fileName)

/-- The first settings file there is, from the working directory upwards. -/
def discover? (s : Surroundings m) : m (Option Path) :=
  (candidates s.workingDirectory).findM? s.pathExists

/-- The settings in the file at a path. -/
def loadFile (s : Surroundings m) (path : Path) : m (Except SettingsError Settings) := do
  match ← s.readText path with
  | .error cause => return .error (.file cause)
  | .ok contents =>
    match File.read? contents with
    | none => return .error .malformed
    | some f => return f.settings s.valueOf? path

/-- The settings where there is no file. -/
def withoutFile (s : Surroundings m) : Settings :=
  { outputDirectory := Path.below s.workingDirectory ["build".toList, "site".toList] }

/-- The settings without those given with a command: from the file at a path, or else from the
nearest file, or else from none. -/
def loadBase (s : Surroundings m) (path? : Option Path) : m (Except SettingsError Settings) := do
  match path? with
  | some path =>
    if ← s.pathExists path then loadFile s path else return .error (.notFound path)
  | none =>
    match ← discover? s with
    | some path => loadFile s path
    | none => return .ok (withoutFile s)

/-- The settings with those given with a command in their place, if these are allowed. -/
def finish (s : Settings) (overrides? : Option Overrides) : Except SettingsError Settings :=
  match overrides? with
  | none => .ok s
  | some o => do
    (s.override o).check
    return s.override o

/-- The settings for a run, from the file at a path or from the nearest one, with those given with a
command in their place. -/
def load (s : Surroundings m) (path? : Option Path) (overrides? : Option Overrides) :
    m (Except SettingsError Settings) := do
  return (← loadBase s path?).bind (finish · overrides?)

end Settings

end DocSite
