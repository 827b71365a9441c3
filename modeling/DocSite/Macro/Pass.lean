import DocSite.Macro.Invocation
import DocSite.Macro.Outline

/-!
# Passes

A pass expands the macros of a document, line by line. What a macro becomes is up to its handler,
which may keep a state: text stands in the place of the macro as it is, markup is expanded in turn,
one level deeper.

* `Call`, `Output` : what a handler is given, and what it makes of a macro.
* `Processor` : the handlers of a pass, and how deep markup is expanded.
* `Processor.expandLine`, `Processor.expandText` : a pass over a line and over a text.
* `Processor.process` : the pass over a document.
-/

namespace DocSite

/-- What a handler is given of a macro and its place. -/
structure Call where
  target : Text
  attributes : Attributes
  /-- The number of the line. -/
  line : Nat
  /-- The level of the section. -/
  level : Nat
  /-- How many times the text of the macro was returned by a handler: none in the document. -/
  depth : Nat
  deriving DecidableEq, Repr

/-- What a handler makes of a macro. -/
inductive Output where
  /-- Text that takes the place of the macro. -/
  | text (s : Text)
  /-- Markup that takes the place of the macro once its own macros are expanded. -/
  | markup (s : Text)
  /-- The macro stays. -/
  | skip
  deriving DecidableEq, Repr

/-- A handler of inline macros. It cannot fail. -/
structure InlineHandler (σ : Type) where
  /-- The name of the macros. -/
  name : Text
  /-- What a macro becomes. -/
  run : Call → StateM σ Output

/-- A handler of block macros. It may fail, and the pass with it. -/
structure BlockHandler (σ ε : Type) where
  /-- The name of the macros. -/
  name : Text
  /-- What a macro becomes. -/
  run : Call → ExceptT ε (StateM σ) Output

/-- Why a pass fails: a block macro, its line, and the error of its handler. -/
structure Failure (ε : Type) where
  name : Text
  line : Nat
  cause : ε
  deriving DecidableEq, Repr

/-- A failure in the document that messages call `document`, in words. -/
def Failure.message {ε : Type} (f : Failure ε) (document cause : Text) : Text :=
  f.name ++ ":: macro failed in ".toList ++ document ++ " at line ".toList ++ Text.ofNat f.line ++
    ':' :: ' ' :: cause

/-- A part of a pass: it may change the state of the handlers, and may fail. -/
abbrev Pass (σ ε α : Type) := ExceptT (Failure ε) (StateM σ) α

/-- The handlers of a pass, the first of a name before others. -/
structure Processor (σ ε : Type) where
  inline : List (InlineHandler σ) := []
  block : List (BlockHandler σ ε) := []
  /-- How many times markup within markup is expanded. -/
  maxDepth : Nat := 10

namespace Processor

variable {σ ε : Type} (p : Processor σ ε)

/-- The names of inline macros. -/
def inlineNames : List Text := p.inline.map (·.name)

/-- The handler of block macros with a name. -/
def blockHandler? (name : Text) : Option (BlockHandler σ ε) :=
  p.block.find? fun h => h.name = name

/-- What the first handler of inline macros with a name makes of a macro. -/
def runInline (name : Text) (call : Call) : StateM σ Output :=
  match p.inline.find? fun h => h.name = name with
  | some h => h.run call
  | none => pure .skip

/-- The call for a macro in a line of a text at `depth`. -/
def callAt (depth : Nat) (line : SourceLine) (i : Invocation) : Call :=
  { target := i.target, attributes := i.attributes
    line := line.number, level := line.level, depth }

/-- Expanded markup as it stands in a line: without the line feeds at its end. -/
def fit (s : Text) : Text := s.dropEndWhile (· = '\n')

/-- What takes the place of a macro whose source is `source`, where `deeper` expands markup. -/
def replacement (deeper : Text → Pass σ ε Text) (source : Text) : Output → Pass σ ε Text
  | .text s => pure s
  | .markup s => return fit (← deeper s)
  | .skip => pure source

/-- The pass over an inline macro. -/
def expandSite (deeper : Text → Pass σ ε Text) (depth : Nat) (line : SourceLine)
    (site : Invocation.Site) : Pass σ ε Text := do
  let output ← p.runInline site.invocation.name (callAt depth line site.invocation)
  replacement deeper site.source output

/-- The pass over the inline macros of a line, from left to right. -/
def expandInline (deeper : Text → Pass σ ε Text) (depth : Nat) (line : SourceLine) :
    Pass σ ε Text := do
  let cut := Invocation.cut p.inlineNames line.text
  let parts ← cut.sites.mapM fun (site, after) => do
    return (← p.expandSite deeper depth line site) ++ after
  return cut.lead ++ parts.flatten

/-- The pass over a block macro with its handler. -/
def expandBlock (deeper : Text → Pass σ ε Text) (depth : Nat) (line : SourceLine)
    (i : Invocation) (h : BlockHandler σ ε) : Pass σ ε Text := do
  let output ← (h.run (callAt depth line i)).adapt fun cause => ⟨i.name, line.number, cause⟩
  replacement deeper line.text output

/-- The pass over a line, where `deeper` expands markup in a section of a level. A line that is a
block macro without a handler is a line like any other. -/
def expandLine (deeper : Nat → Text → Pass σ ε Text) (depth : Nat) (line : SourceLine) :
    Pass σ ε Text :=
  if line.verbatim then pure line.text
  else
    match Invocation.ofLine? line.text with
    | some i =>
      match p.blockHandler? i.name with
      | some h => expandBlock (deeper line.level) depth line i h
      | none => p.expandInline (deeper line.level) depth line
    | none => p.expandInline (deeper line.level) depth line

/-- The pass over a text at `depth` in a section of a level. With no levels left, it stays. -/
def expandText : (levels depth level : Nat) → Text → Pass σ ε Text
  | 0, _, _, s => pure s
  | levels + 1, depth, level, s => do
    let done ← (outline level s).mapM (p.expandLine (expandText levels (depth + 1)) depth)
    return Text.unlines s.endsWithNewline done

/-- The pass over a document. -/
def process (s : Text) : Pass σ ε Text := p.expandText (p.maxDepth + 1) 0 0 s

end Processor

end DocSite
