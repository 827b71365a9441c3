import DocSite.Catalog.Snapshot
import DocSite.Command.Arguments
import DocSite.Json.Printer
import DocSite.PageIndex
import DocSite.Pipeline.Configuration
import DocSite.Settings.Load
import DocSite.Site.Expansion

/-!
# Running commands

* `CommandError` : why a command fails.
* `Command.artifactPath` : where a generated file is written.
* `Command.run` : a command on a host.
* `Command.start` : a command line on a host.
-/

namespace DocSite

/-- Why a command fails. -/
inductive CommandError where
  /-- There are no settings. -/
  | settings (cause : SettingsError)
  /-- A file cannot be read or written. -/
  | file (cause : FileError)
  /-- A file is not the JSON that it should be. -/
  | notJson
  /-- The settings name no catalog. -/
  | noCatalog
  /-- The catalog has no document with an id. -/
  | unknownDocument (id : Text)
  /-- A macro of the document fails. -/
  | expansion (document : Text) (failure : Failure NewsError)
  /-- A file breaks the rules of its schema, a number of times. -/
  | violations (file : Path) (count : Nat)
  deriving DecidableEq, Repr

/-- Why a command fails, in words. -/
def CommandError.message : CommandError → Text
  | settings cause => cause.message
  | file cause => cause.message
  | notJson => "Invalid JSON: the file does not have the expected form".toList
  | noCatalog =>
    "catalog snapshot required: pass --catalog or set build.catalog in folio.toml".toList
  | unknownDocument id => "document not found in catalog: ".toList ++ id
  | expansion document failure => failure.message document failure.cause.message
  | violations path count =>
    path ++ " has ".toList ++ Text.ofNat count ++ " schema violation(s)".toList

namespace Command

variable {m : Type → Type} [Monad m]

/-- A part of a command. -/
abbrev Action (m : Type → Type) (α : Type) := ExceptT CommandError m α

/-- Prints a message on a line of its own. -/
def tellLine (host : Host m) (s : Text) : Action m Unit := host.tell (s ++ ['\n'])

/-- Prints a result with a line end after it, unless it has one. -/
def printResult (host : Host m) (s : Text) : Action m Unit :=
  host.print (if s.endsWithNewline then s else s ++ ['\n'])

/-- What a file operation answers. -/
def onFile {α : Type} (answer : m (Except FileError α)) : Action m α :=
  ExceptT.mk do return (← answer).mapError .file

/-- A value that a file should hold. -/
def decoded {α : Type} (v? : Option α) : Action m α :=
  match v? with
  | some v => return v
  | none => throw .notJson

/-! ### Expanding a document -/

/-- The directory of a family in a module of the site. -/
def familyDirectory : Family → Text
  | .attachment => "_attachments".toList
  | .image => "_images".toList
  | family => family.name

/-- Where a generated file is written. -/
def artifactPath (outputDirectory : Path) (l : Location) : Path :=
  Path.below outputDirectory
    [l.component, l.version, l.module, familyDirectory l.family, l.relative]

/-- Writes a generated file. -/
def writeArtifact (host : Host m) (outputDirectory : Path) (e : Entry) : Action m Unit := do
  let path := artifactPath outputDirectory e.location
  if let some parent := Path.parent? path then onFile (host.makeDirectories parent)
  onFile (host.writeText path e.contents)
  tellLine host ("Wrote ".toList ++ path ++ " (".toList ++ e.location.id ++ [')'])

/-- The settings, with those given with the command in their place. -/
def loadSettings (host : Host m) (settings? : Option Path) (overrides : Settings.Overrides) :
    Action m Settings :=
  ExceptT.mk do
    return (← Settings.load host.toSurroundings settings? (some overrides)).mapError .settings

/-- The catalog that the settings name. -/
def readCatalog (host : Host m) (s : Settings) : Action m Catalog := do
  match s.catalog? with
  | none => throw .noCatalog
  | some path => decoded (Catalog.read? (← onFile (host.readText path)))

/-- Prints a document with its macros expanded, and writes the files that they registered. -/
def runExpand (host : Host m) (document : Text) (overrides : Settings.Overrides)
    (settings? : Option Path) : Action m Unit := do
  let settings ← loadSettings host settings? overrides
  let catalog ← readCatalog host settings
  match catalog.ofId? document with
  | none => throw (.unknownDocument document)
  | some file =>
    let scope : Scope :=
      { file, attributes := settings.documentAttributes, buildDate := ← host.now }
    match Site.expand scope catalog with
    | (.error failure, _) => throw (.expansion file.source.displayPath failure)
    | (.ok result, after) =>
      printResult host result
      for e in after.added do writeArtifact host settings.outputDirectory e

/-! ### Other commands -/

/-- Prints the index of the pages in a file that lie below a path. -/
def runIndex (host : Host m) (pages : Path) (root : Text) : Action m Unit := do
  let pages ← decoded (PageIndex.read? (← onFile (host.readText pages)))
  let found := PageIndex.build pages root
  if found = [] then tellLine host ("No pages below ".toList ++ root ++ ['/'])
  printResult host (PageIndex.toJson found).pretty

/-- Says whether a file is a configuration of pipelines. -/
def runValidate (host : Host m) (file : Path) : Action m Unit := do
  match Pipeline.Configuration.read (← onFile (host.readText file)) with
  | .ok c =>
    tellLine host (file ++ " is valid".toList)
    let blocks := c.distinctBlocks
    if blocks ≠ [] then tellLine host ("Transform blocks: ".toList ++ Text.ofNat blocks.length)
  | .error .notJson => throw .notJson
  | .error (.invalid found) =>
    for v in found do tellLine host (' ' :: ' ' :: v.message)
    throw (.violations file found.length)

/-- Runs a command. -/
def run (host : Host m) : Command → Action m Unit
  | .expand document overrides settings? => runExpand host document overrides settings?
  | .index pages root => runIndex host pages root
  | .validate file => runValidate host file
  | .url source target hash => printResult host (Url.relative source target hash)

/-! ### Command lines -/

/-- How the program is used, in a line. -/
def usageText : Text := "Usage: folio [OPTIONS] <expand|index|pipeline validate|url>\n".toList

/-- The name and the release of the program, in a line. -/
def versionText : Text := "folio 0.1.0\n".toList

/-- Runs a command, tells why it fails if it does, and gives the exit code. -/
def execute (host : Host m) (c : Command) : m Nat := do
  match ← (run host c).run with
  | .ok _ => return 0
  | .error e =>
    host.tell ("Error: ".toList ++ e.message ++ ['\n'])
    return 1

/-- Runs what a command line asks for, and gives the exit code. -/
def start (host : Host m) (words : List Text) : m Nat := do
  match parse host.valueOf? words with
  | .ok c => execute host c
  | .error .help =>
    host.print usageText
    return 0
  | .error .version =>
    host.print versionText
    return 0
  | .error .refused =>
    host.tell usageText
    return 2

end Command

end DocSite
