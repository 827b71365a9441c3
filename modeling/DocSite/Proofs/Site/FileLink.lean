import DocSite.Proofs.Catalog.Lookup
import DocSite.Proofs.Macro.Outline
import DocSite.Proofs.Macro.Written
import DocSite.Proofs.News.Registration
import DocSite.Proofs.Text.Lines
import DocSite.Proofs.Url.Relative
import Mathlib.Data.Bool.AllAny

/-!
# File links lead to their files

A link to a file is written as the macro `fref:`, the cross reference to the file, a fragment, and
the text of the link in brackets (`FileLink.written`). What each stage of the expansion cuts off is
what was written, since the parts hold none of the characters that end them.

* `Processor.outcome_process_macro` : a line that is one macro becomes what its handler returns.
* `FileLink.url?_xrefFrom` : the target of the macro leads to the URL of the file.
* `FileLink.link_leads_to_file` : the link that takes the place of the macro leads to the file.
-/

namespace DocSite

/-! ### Lines that are one macro -/

theorem isVerbatim_of_isLetter {c : Char} {s : Text} (hc : Text.isLetter c = true)
    (htrim : Text.trim (c :: s) = c :: s) : isVerbatim none (c :: s) = false := by
  have hne : ∀ d, Text.isLetter d = false → c ≠ d := by
    rintro d hd rfl
    rw [hc] at hd
    cases hd
  have hbacktick : c ≠ Delimiter.backtick := hne _ (by decide)
  have hblock : c ∉ Delimiter.blockChars := by
    simp [Delimiter.blockChars, hne '-' (by decide), hne '.' (by decide), hne '+' (by decide),
      hne '/' (by decide)]
  have hopening : Delimiter.opening? (c :: s) = none :=
    Delimiter.opening?_cons hbacktick hblock s
  have hblank : Text.isBlankChar c = false :=
    Text.isBlankChar_of_isAlphanumeric (Text.isAlphanumeric_of_isLetter hc)
  have hstart : Text.trimStart (c :: s) = c :: s := Text.trimStart_eq_self (by simpa using hblank)
  have hcomment : isCommentLine (c :: s) = false := by
    simp [isCommentLine, hstart, List.isPrefixOf, (hne '/' (by decide)).symm]
  simp [isVerbatim, Fence.next, htrim, hopening, hcomment]

namespace Processor

variable {σ ε : Type} {p : Processor σ ε} {i : Invocation} {source s : Text} {st st' : σ}

/-- A line that consists of one inline macro becomes the text that the handler returns for it. -/
theorem outcome_expandLine_macro (deeper : Nat → Text → Pass σ ε Text) (depth : Nat)
    (line : SourceLine) (hverbatim : line.verbatim = false)
    (hspells : Invocation.Spells i.name i line.text) (hname : Invocation.isName i.name = true)
    (htrim : line.text.trim = line.text) (hmem : i.name ∈ p.inlineNames)
    (hcolon : ∀ name ∈ p.inlineNames, ':' ∉ name)
    (hrun : (p.runInline i.name (callAt depth line i)).run st = (.text s, st')) :
    outcome (p.expandLine deeper depth line) st = (.ok s, st') := by
  have hfind := Invocation.find?_of_spells hspells hmem hcolon []
  rw [List.append_nil] at hfind
  have hcut : Invocation.cut p.inlineNames line.text = ⟨[], [(⟨i, line.text⟩, [])]⟩ := by
    rw [Invocation.cut_of_some hfind, Invocation.cut_of_none rfl]
  have hsites : p.sites line = ⟨[], [⟨.inline i, line.text, []⟩]⟩ := by
    simp [sites, hverbatim, Invocation.ofLine?_of_spells hspells hname htrim, hcut,
      CallSites.ofCut]
  have hanswer : outcome (p.answer depth line (.inline i)) st = (.ok (.text s), st') :=
    congrArg (fun r => (Except.ok r.1, r.2)) hrun
  have hat : outcome (p.expandAt (deeper line.level) depth line
      ⟨.inline i, line.text, []⟩) st = (.ok (s ++ []), st') := by
    rw [expandAt, outcome_bind, hanswer]
    rfl
  rw [expandLine_eq, hsites, outcome_map, List.mapM_cons, outcome_bind, hat]
  simp [CallSites.fill, outcome_pure, Except.map]

/-- A document that consists of one inline macro becomes the text that the handler returns for it.
-/
theorem outcome_process_macro (hspells : Invocation.Spells i.name i source)
    (hname : Invocation.isName i.name = true) (htrim : source.trim = source)
    (hnewline : '\n' ∉ source) (hmem : i.name ∈ p.inlineNames)
    (hcolon : ∀ name ∈ p.inlineNames, ':' ∉ name)
    (hrun : ∀ level, (p.runInline i.name ⟨i.target, i.attributes, 1, level, 0⟩).run st =
      (.text s, st')) :
    outcome (p.process source) st = (.ok s, st') := by
  have hlines : source.lines = [source] := Text.lines_eq_singleton hspells.ne_nil hnewline
  have hverbatim : isVerbatim none source = false := by
    obtain ⟨rest, hrest⟩ := hspells.exists_append
    cases hcons : i.name with
    | nil =>
      rw [hcons] at hname
      cases hname
    | cons c name =>
      rw [hcons, Invocation.isName, Bool.and_eq_true] at hname
      rw [hrest, hcons, List.cons_append] at htrim ⊢
      exact isVerbatim_of_isLetter hname.1 htrim
  have hend : source.endsWithNewline = false := by
    simp [Text.endsWithNewline, hspells.getLast?_eq]
  have hline := outcome_expandLine_macro (p.expandText p.maxDepth 1) 0
    ⟨1, levelAt none 0 source, isVerbatim none source, source⟩ hverbatim hspells hname htrim hmem
    hcolon (hrun _)
  rw [process, expandText, outline_eq, hlines, outlineFrom_cons, outlineFrom_nil, List.mapM_cons,
    List.mapM_nil, hend]
  simp only [bind_assoc, pure_bind]
  rw [outcome_bind, hline]
  simp [outcome_pure, Text.unlines_singleton]

end Processor

/-! ### Links, written -/

namespace Url

theorem splitFragment_append {path hash : Text} (hpath : '#' ∉ path)
    (hhash : hash = [] ∨ hash.head? = some '#') : splitFragment (path ++ hash) = (path, hash) := by
  have hpos : ∀ c ∈ path, decide (c ≠ '#') = true := by
    intro c hc
    exact decide_eq_true fun heq => hpath (heq ▸ hc)
  rw [splitFragment, List.takeWhile_append_of_pos hpos, List.dropWhile_append_of_pos hpos]
  rcases hhash with rfl | hhead
  · rw [List.takeWhile_nil, List.dropWhile_nil, List.append_nil]
  · obtain ⟨rest, rfl⟩ := List.head?_eq_some_iff.1 hhead
    rw [List.takeWhile_cons_of_neg (by simp), List.dropWhile_cons_of_neg (by simp),
      List.append_nil]

end Url

namespace FileLink

open Reference (Spellable)

/-- A character that can stand in the target of a link before the fragment. -/
def isPathChar (c : Char) : Bool := Invocation.isTargetChar c && c ≠ '#'

/-- A part of a location that can stand in a link: it can be spelled out, and nothing in it ends the
target of a macro or starts a fragment. -/
structure IsPart (s : Text) : Prop where
  spellable : Spellable s
  isPathChar : ∀ c ∈ s, isPathChar c = true

-- `List.all`, as a `∀` over characters would be decided by going through all of them
instance (s : Text) : Decidable (IsPart s) :=
  decidable_of_iff (Spellable s ∧ s.all isPathChar = true)
    ⟨fun ⟨hs, hc⟩ => ⟨hs, List.all_eq_true.1 hc⟩,
      fun h => ⟨h.spellable, List.all_eq_true.2 h.isPathChar⟩⟩

/-- Every part of a location can stand in a link. -/
structure Linkable (l : Location) : Prop where
  component : IsPart l.component
  version : IsPart l.version
  module : IsPart l.module
  relative : IsPart l.relative

instance (l : Location) : Decidable (Linkable l) :=
  decidable_of_iff (IsPart l.component ∧ IsPart l.version ∧ IsPart l.module ∧ IsPart l.relative)
    ⟨fun ⟨hc, hv, hm, hr⟩ => ⟨hc, hv, hm, hr⟩,
      fun h => ⟨h.component, h.version, h.module, h.relative⟩⟩

/-- A fragment: nothing, or a number sign and what can stand in the target of a macro. -/
structure IsFragment (hash : Text) : Prop where
  head : hash = [] ∨ hash.head? = some '#'
  isTargetChar : ∀ c ∈ hash, Invocation.isTargetChar c = true

/-- A text in which nothing has a meaning within the brackets of a macro or in a list. -/
structure IsContent (text : Text) : Prop where
  ne_nil : text ≠ []
  trim : text.trim = text
  newline_not_mem : '\n' ∉ text
  equals_not_mem : '=' ∉ text
  list : ∀ c ∈ text, c ≠ ',' ∧ Attribute.isQuote c = false
  brackets : ∀ c ∈ text, c ≠ '\\' ∧ c ≠ ']'

/-- The name of the macro. -/
def name : Text := "fref".toList

/-- A link to a file. -/
def link (reference hash text : Text) : Invocation :=
  ⟨name, reference ++ hash, [⟨.slot 1, some text⟩]⟩

/-- A link to a file as it is written in a document. -/
def written (reference hash text : Text) : Text :=
  name ++ ':' :: (reference ++ hash ++ '[' :: (text ++ [']']))

variable {l context : Location} {hash text : Text}

theorem Linkable.addressable (h : Linkable l) : l.Addressable :=
  ⟨h.component.spellable, h.version.spellable, h.module.spellable, h.relative.spellable⟩

theorem mem_xrefFrom {c : Char} (h : c ∈ l.xrefFrom context) :
    c ∈ l.version ∨ c ∈ l.component ∨ c ∈ l.module ∨ c ∈ l.family.name ∨ c ∈ l.relative ∨
      c ∈ ['@', ':', '$'] := by
  unfold Location.xrefFrom at h
  simp only [List.mem_append] at h
  simp only [List.mem_cons, List.not_mem_nil, or_false]
  rcases h with ((hversion | hplace) | hfamily) | hrelative
  · split_ifs at hversion
    · simp at hversion
      tauto
    · cases hversion
  · split_ifs at hplace
    · simp at hplace
      tauto
    · simp at hplace
      tauto
    · cases hplace
  · split_ifs at hfamily
    · simp at hfamily
      tauto
    · cases hfamily
  · tauto

theorem Linkable.isPathChar_of_mem (h : Linkable l) {c : Char} (hc : c ∈ l.xrefFrom context) :
    isPathChar c = true := by
  have hfamily : ∀ c ∈ l.family.name, isPathChar c = true :=
    List.all_eq_true.1 (by cases l.family <;> decide)
  rcases mem_xrefFrom hc with hc | hc | hc | hc | hc | hc
  · exact h.version.isPathChar c hc
  · exact h.component.isPathChar c hc
  · exact h.module.isPathChar c hc
  · exact hfamily c hc
  · exact h.relative.isPathChar c hc
  · have hseparators : ∀ c ∈ ['@', ':', '$'], isPathChar c = true :=
      List.all_eq_true.1 (by decide)
    exact hseparators c hc

theorem Linkable.isTarget (h : Linkable l) (context : Location) (hhash : IsFragment hash) :
    Invocation.IsTarget (l.xrefFrom context ++ hash) := by
  obtain ⟨part, hpart, hprefix⟩ :=
    (h.addressable.expressible context).wellFormed.exists_first_part
  rw [← Location.xrefFrom_eq_render] at hprefix
  have hne : l.xrefFrom context ≠ [] := hprefix.ne_nil hpart.1
  refine ⟨List.append_ne_nil_of_left_ne_nil hne _, fun c hc => ?_, ?_⟩
  · rcases List.mem_append.1 hc with hc | hc
    · exact (Bool.and_eq_true_iff.1 (h.isPathChar_of_mem hc)).1
    · exact hhash.isTargetChar c hc
  · obtain ⟨rest, hrest⟩ := hprefix
    rw [← hrest, List.append_assoc, List.head?_append_of_ne_nil _ hpart.1]
    exact fun hhead => hpart.2.2.1 (List.mem_of_mem_head? hhead)

theorem spells_written (h : Linkable l) (context : Location) (hhash : IsFragment hash)
    (htext : IsContent text) :
    Invocation.Spells name (link (l.xrefFrom context) hash text)
      (written (l.xrefFrom context) hash text) := by
  have hwrites : Bracket.Writes text text := by
    have hescape := Bracket.writes_escape_of_forall htext.brackets
    rwa [Bracket.escape_of_not_mem fun hmem => (htext.brackets _ hmem).2 rfl] at hescape
  rw [link, ← Attributes.read_plain htext.ne_nil htext.trim htext.list htext.equals_not_mem]
  exact .intro (h.isTarget context hhash) hwrites

theorem trim_written (reference hash text : Text) :
    (written reference hash text).trim = written reference hash text := by
  have hlast : (written reference hash text).getLast? = some ']' := by
    simp [written, List.getLast?_append, List.getLast?_cons]
  refine Text.trim_eq_self (fun c hc => ?_) fun c hc => ?_
  · obtain rfl := Option.some.inj hc
    decide
  · rw [hlast] at hc
    obtain rfl := Option.some.inj hc
    decide

theorem newline_not_mem_written (h : Linkable l) (context : Location) (hhash : IsFragment hash)
    (htext : IsContent text) : '\n' ∉ written (l.xrefFrom context) hash text := by
  have hname : '\n' ∉ name := by decide
  have htarget : '\n' ∉ l.xrefFrom context ++ hash := fun hmem =>
    absurd ((h.isTarget context hhash).isTargetChar _ hmem) (by decide)
  rw [List.mem_append, not_or] at htarget
  simp [written, hname, htarget, htext.newline_not_mem]

/-! ### Links, followed -/

variable {c : Catalog} {e : Entry} {scope : Scope} {target own : Publication}

/-- **The target of a written link leads to the URL of the file.** -/
theorem url?_xrefFrom (hc : c.Distinct) (he : e ∈ c.files) (hlink : Linkable e.location)
    (hpub : e.publication? = some target) (hown : scope.file.publication? = some own)
    (hhash : IsFragment hash) :
    url? scope c (e.location.xrefFrom scope.location ++ hash) =
      some (Url.relative own.url target.url hash) := by
  have hpath : '#' ∉ e.location.xrefFrom scope.location := fun hmem =>
    absurd (hlink.isPathChar_of_mem hmem) (by decide)
  have hfile : c.resolve? (e.location.xrefFrom scope.location) scope.location .page = some e :=
    Catalog.resolvePage?_xrefFrom hc he hlink.addressable scope.location
  rw [url?, Url.splitFragment_append hpath hhash.head]
  simp only [hfile, Option.bind_eq_bind, Option.bind_some, hpub, hown]

theorem markup_content {call : Call} {url : Text} (h : url? scope c call.target = some url)
    (hattributes : call.attributes = [⟨.slot 1, some text⟩]) :
    markup scope c call = "<a href=\"".toList ++ url ++ "\">".toList ++ text ++ "</a>".toList := by
  rw [markup, h, hattributes, List.append_assoc _ _ text]
  rfl

/-- In a document of the site the handler of links makes a link of the macro. -/
theorem run_link {maxDepth : Nat} {call : Call} {url : Text}
    (h : url? scope c call.target = some url)
    (hattributes : call.attributes = [⟨.slot 1, some text⟩]) :
    ((Site.processorTo maxDepth scope).runInline name call).run c =
      (.text ("<a href=\"".toList ++ url ++ "\">".toList ++ text ++ "</a>".toList), c) :=
  congrArg (fun s => (Output.text s, c)) (markup_content h hattributes)

/-- **A link leads to its file.** In a catalog in which no two files share a location, let a file be
published at a root-relative URL, and its location consist of parts that can stand in a link. Then a
line of a published document that is the link to the file, with a fragment and a text, becomes a
link with that text. It goes to a path with the fragment after it. The path is empty if the URLs of
both are one and there is a fragment, and otherwise leads to the file. -/
theorem link_leads_to_file (hc : c.Distinct) (he : e ∈ c.files) (hlink : Linkable e.location)
    (hpub : e.publication? = some target) (hroot : target.url.head? = some '/')
    (hown : scope.file.publication? = some own) (hhash : IsFragment hash)
    (htext : IsContent text) :
    ∃ path,
      (∀ maxDepth, outcome ((Site.processorTo maxDepth scope).process
        (written (e.location.xrefFrom scope.location) hash text)) c =
          (.ok ("<a href=\"".toList ++ (path ++ hash) ++ "\">".toList ++ text ++ "</a>".toList),
            c)) ∧
      (∀ maxDepth deeper depth number level,
        outcome ((Site.processorTo maxDepth scope).expandLine deeper depth ⟨number, level, false,
          written (e.location.xrefFrom scope.location) hash text⟩) c =
            (.ok ("<a href=\"".toList ++ (path ++ hash) ++ "\">".toList ++ text ++ "</a>".toList),
              c)) ∧
      (path = [] ↔ target.url = own.url ∧ hash ≠ []) ∧
      (path ≠ [] → Url.LeadsTo own.url path target.url) := by
  obtain ⟨path, hpath, hnil, hleads⟩ := Url.exists_path_of_relative own.url hroot hash
  have hurl := url?_xrefFrom hc he hlink hpub hown hhash
  rw [hpath] at hurl
  have hspells := spells_written hlink scope.location hhash htext
  have htrim := trim_written (e.location.xrefFrom scope.location) hash text
  have hnewline := newline_not_mem_written hlink scope.location hhash htext
  have hname : Invocation.isName name = true := by decide
  have hmem (maxDepth : Nat) : name ∈ (Site.processorTo maxDepth scope).inlineNames :=
    List.mem_cons_of_mem _ List.mem_cons_self
  have hcolon (maxDepth : Nat) :
      ∀ name ∈ (Site.processorTo maxDepth scope).inlineNames, ':' ∉ name := by
    have hnames : ∀ name ∈ ["component".toList, "fref".toList, "news".toList], ':' ∉ name := by
      decide
    exact hnames
  refine ⟨path, fun maxDepth => ?_, fun maxDepth deeper depth number level => ?_, hnil, hleads⟩
  · exact Processor.outcome_process_macro (i := link _ _ _) hspells hname htrim hnewline
      (hmem _) (hcolon _) fun level => run_link hurl rfl
  · exact Processor.outcome_expandLine_macro (i := link _ _ _) deeper depth _ rfl hspells hname
      htrim (hmem _) (hcolon _) (run_link hurl rfl)

/-- A page that is published as a directory. -/
def guidePage : Entry where
  source := { component := "docs".toList, version := "1.0".toList, module := "ROOT".toList
              family := .page, relative := "guide/index.adoc".toList }
  publication? := some { url := "/docs/guide/".toList, moduleRoot := "..".toList }

/-- An attachment of another product. -/
def reportFile : Entry where
  source := { component := "java".toList, version := "2.0".toList, module := "api".toList
              family := .attachment, relative := "a]b/report.json".toList }
  publication? := some { url := "/java/_attachments/report.json".toList, moduleRoot := "..".toList }

/-- The page links to the attachment, with a fragment that holds what separates the parts of a
reference. -/
theorem link_leads_to_file_report :
    let c : Catalog := { files := [guidePage, reportFile] }
    let scope : Scope := { file := guidePage, buildDate := ⟨0, 0⟩ }
    let hash := "#a::b$c#d]".toList
    let text := "the [report".toList
    written (reportFile.location.xrefFrom scope.location) hash text =
        "fref:2.0@java:api:attachment$a]b/report.json#a::b$c#d][the [report]".toList ∧
      c.Distinct ∧ Linkable reportFile.location ∧ IsFragment hash ∧ IsContent text ∧
      ∃ path,
        outcome ((Site.processorTo 10 scope).process
          (written (reportFile.location.xrefFrom scope.location) hash text)) c =
            (.ok ("<a href=\"".toList ++ (path ++ hash) ++ "\">".toList ++ text ++ "</a>".toList),
              c) ∧
        Url.LeadsTo "/docs/guide/".toList path "/java/_attachments/report.json".toList := by
  intro c scope hash text
  have hc : c.Distinct := by decide +kernel
  have hlink : Linkable reportFile.location := by decide +kernel
  have hhash : IsFragment hash := ⟨by decide, List.all_eq_true.1 (by decide)⟩
  have htext : IsContent text :=
    ⟨by decide, by decide, by decide, by decide, List.all_iff_forall_prop.1 (by decide),
      List.all_iff_forall_prop.1 (by decide)⟩
  refine ⟨by decide, hc, hlink, hhash, htext, ?_⟩
  have hown : scope.file.publication? = guidePage.publication? := rfl
  obtain ⟨path, hprocess, -, hnil, hleads⟩ := link_leads_to_file hc
    (List.mem_cons_of_mem _ List.mem_cons_self) hlink rfl (by decide) hown hhash htext
  have hne : path ≠ [] := fun h => absurd (hnil.1 h).1 (by decide)
  exact ⟨path, hprocess 10, hleads hne⟩

end FileLink

end DocSite
