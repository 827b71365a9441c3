import DocSite.Settings.Basic

/-!
# Command lines

A command line names a command and gives it words and switches. A switch is a word that starts with
a hyphen; after the word `--` there are none.

* `Command` : what a command line can ask for.
* `Command.Switch` : the switches there are.
* `Command.scan` : the switches and the words of a command line.
* `Command.parse` : what a command line asks for.
-/

namespace DocSite

/-- What a command line can ask for. -/
inductive Command where
  /-- A document of the catalog with its macros expanded. -/
  | expand (document : Text) (overrides : Settings.Overrides) (settings? : Option Path)
  /-- The index of the pages in a file that lie below a path. -/
  | index (pages : Path) (root : Text)
  /-- Whether a file is a configuration of pipelines. -/
  | validate (file : Path)
  /-- The relative URL from a page to another one. -/
  | url (source target hash : Text)
  deriving DecidableEq, Repr

/-- Why a command line asks for nothing. -/
inductive Command.Usage where
  /-- It asks how it is used. -/
  | help
  /-- It asks which release this is. -/
  | version
  /-- It makes no sense. -/
  | refused
  deriving DecidableEq, Repr

namespace Command

/-! ### Switches -/

/-- What a switch is for. -/
inductive Switch.Kind where
  | flag
  /-- It takes a text. -/
  | text
  /-- It takes a path, which is not empty. -/
  | path
  /-- It asks how the program is used. -/
  | help
  /-- It asks which release this is. -/
  | version
  deriving DecidableEq, Repr

/-- A switch: `--name`, or `-letter`. -/
structure Switch where
  name : Text
  letter? : Option Char := none
  kind : Switch.Kind
  deriving DecidableEq, Repr

namespace Switch

/-- Whether a switch takes a value. -/
def takesValue (s : Switch) : Bool := s.kind = .text || s.kind = .path

/-- More messages. -/
def verbose : Switch := ⟨"verbose".toList, some 'v', .flag⟩

/-- How the program is used. -/
def help : Switch := ⟨"help".toList, some 'h', .help⟩

/-- Which release this is. -/
def version : Switch := ⟨"version".toList, some 'V', .version⟩

/-- The catalog. -/
def catalog : Switch := ⟨"catalog".toList, none, .path⟩

/-- The directory for generated files. -/
def outDir : Switch := ⟨"out-dir".toList, some 'o', .path⟩

/-- The URL of the site. -/
def siteUrl : Switch := ⟨"site-url".toList, none, .text⟩

/-- The settings file. -/
def config : Switch := ⟨"config".toList, some 'c', .path⟩

/-- The path that listed pages lie below. -/
def below : Switch := ⟨"prefix".toList, some 'p', .text⟩

end Switch

/-! ### Scanning -/

/-- What has been found in a command line. -/
structure Line where
  /-- The switches with their values, which are empty for flags. -/
  switches : List (Switch × Text) := []
  /-- The words that are no switches. -/
  words : List Text := []
  /-- The command that a word names, and what follows it. -/
  command? : Option (Text × List Text) := none
  deriving DecidableEq, Repr

namespace Line

/-- The value of a switch. -/
def value? (l : Line) (s : Switch) : Option Text := List.lookup s l.switches

/-- A line with one more switch. None is given twice. -/
def set (l : Line) (s : Switch) (value : Text) : Except Usage Line :=
  match s.kind with
  | .help => .error .help
  | .version => .error .version
  | kind =>
    if (l.value? s).isSome || (kind = .path && value = []) then .error .refused
    else .ok { l with switches := l.switches ++ [(s, value)] }

end Line

/-- What a word of a command line is. -/
inductive Form where
  /-- The end of the switches. -/
  | finish
  /-- A switch with its name, and a value after an equals sign. -/
  | named (name : Text) (value? : Option Text)
  /-- Switches with their letters. -/
  | letters (s : Text)
  /-- Any other word. -/
  | word
  deriving DecidableEq, Repr

/-- What a word of a command line is. A single hyphen is no switch. -/
def form : Text → Form
  | ['-', '-'] => .finish
  | '-' :: '-' :: rest =>
    match Text.splitFirst? '=' rest with
    | some (name, value) => .named name (some value)
    | none => .named rest none
  | '-' :: c :: rest => .letters (c :: rest)
  | _ => .word

/-- A line with the switches whose letters stand in a word, and the last of them if it still lacks
its value, which may follow it in the word. -/
def setLetters (switches : List Switch) (l : Line) : Text → Except Usage (Line × Option Switch)
  | [] => .ok (l, none)
  | c :: rest =>
    match switches.find? (·.letter? = some c) with
    | none => .error .refused
    | some s =>
      if s.takesValue then
        match rest with
        | [] => .ok (l, some s)
        | '=' :: value => (l.set s value).map (·, none)
        | value => (l.set s value).map (·, none)
      else do setLetters switches (← l.set s []) rest

/-- A line with the switch that has a name, and the switch if it still lacks its value. -/
def setNamed (switches : List Switch) (l : Line) (name : Text) (value? : Option Text) :
    Except Usage (Line × Option Switch) :=
  match switches.find? (·.name = name) with
  | none => .error .refused
  | some s =>
    match s.takesValue, value? with
    | true, none => .ok (l, some s)
    | true, some value => (l.set s value).map (·, none)
    | false, none => (l.set s []).map (·, none)
    | false, some _ => .error .refused

/-- A line with what the words of a command line add to it, where `pending?` is a switch that still
lacks its value. If there are commands to choose from, the first word has to name one. -/
def scan (switches : List Switch) (commands : List Text) (l : Line) (pending? : Option Switch) :
    List Text → Except Usage Line
  | [] => if pending?.isSome then .error .refused else .ok l
  | w :: rest =>
    match pending?, form w with
    | some s, .word => do scan switches commands (← l.set s w) none rest
    | some _, _ => .error .refused
    | none, .finish =>
      if commands = [] then .ok { l with words := l.words ++ rest } else .error .refused
    | none, .named name value? => do
      let (l, pending?) ← setNamed switches l name value?
      scan switches commands l pending? rest
    | none, .letters s => do
      let (l, pending?) ← setLetters switches l s
      scan switches commands l pending? rest
    | none, .word =>
      if commands = [] then scan switches commands { l with words := l.words ++ [w] } none rest
      else if commands.contains w then .ok { l with command? := some (w, rest) }
      else .error .refused

/-- The words of a command with its own switches. -/
def line (switches : List Switch) (words : List Text) : Except Usage Line :=
  scan (switches ++ [.verbose, .help]) [] {} none words

/-- The word that asks how a command is used. -/
def helpWord : Text := "help".toList

/-- The names that can follow the name of a command, or start a line if there is none. -/
def names (command? : Option Text) : List Text :=
  match command? with
  | none => ["expand".toList, "index".toList, "pipeline".toList, "url".toList, helpWord]
  | some name => if name = "pipeline".toList then ["validate".toList, helpWord] else []

/-- Whether the words after `help` name commands, each one of the command before. -/
def isTopic (command? : Option Text) : List Text → Bool
  | [] => true
  | w :: rest => (names command?).contains w && isTopic (some w) rest

/-- The command that the first word names, and what follows it. -/
def choose (switches : List Switch) (command? : Option Text) (words : List Text) :
    Except Usage (Text × List Text) := do
  let l ← scan (switches ++ [.verbose, .help]) (names command?) {} none words
  match l.command? with
  | none => .error .refused
  | some (name, rest) =>
    if name ≠ helpWord then .ok (name, rest)
    else if isTopic command? rest then .error .help
    else .error .refused

/-! ### Commands -/

/-- The variable that holds the URL of the site if no switch does. -/
def siteUrlVariable : Text := "FOLIO_SITE_URL".toList

/-- What the words after `expand` ask for. -/
def parseExpand (valueOf? : Text → Option Text) (words : List Text) : Except Usage Command := do
  let l ← line [.catalog, .outDir, .siteUrl, .config] words
  let [document] := l.words | .error .refused
  let overrides : Settings.Overrides :=
    { url? := (l.value? .siteUrl).or (valueOf? siteUrlVariable), catalog? := l.value? .catalog
      outputDirectory? := l.value? .outDir }
  return .expand document overrides (l.value? .config)

/-- What the words after `index` ask for. -/
def parseIndex (words : List Text) : Except Usage Command := do
  let l ← line [.below] words
  match l.words, l.value? .below with
  | [c :: pages], some root => .ok (.index (c :: pages) root)
  | _, _ => .error .refused

/-- What the words after `pipeline` ask for. -/
def parsePipeline (words : List Text) : Except Usage Command := do
  let (_, rest) ← choose [] (some "pipeline".toList) words
  match (← line [] rest).words with
  | [c :: file] => .ok (.validate (c :: file))
  | _ => .error .refused

/-- What the words after `url` ask for. -/
def parseUrl (words : List Text) : Except Usage Command := do
  match (← line [] words).words with
  | [source, target] => .ok (.url source target [])
  | [source, target, hash] => .ok (.url source target hash)
  | _ => .error .refused

/-- What a command line asks for, where `valueOf?` holds the variables of the environment. -/
def parse (valueOf? : Text → Option Text) (words : List Text) : Except Usage Command := do
  let (name, rest) ← choose [.version] none words
  if name = "expand".toList then parseExpand valueOf? rest
  else if name = "index".toList then parseIndex rest
  else if name = "pipeline".toList then parsePipeline rest
  else parseUrl rest

end Command

end DocSite
