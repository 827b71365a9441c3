import DocSite.Proofs.Command.Deeds
import DocSite.Proofs.News.Registration
import DocSite.Proofs.Path

/-!
# What expanding a document writes

A document registers the feed of its module, or no file (`Site.Publishes`): a second listing finds
the location of the feed taken, and the pass fails there. The command expands first, and only then
prints and writes. So it does nothing if the pass fails, and otherwise prints the result and writes
the one feed, if there is one.

* `Site.Publishes` : what a pass may do to the catalog, down to the file.
* `Command.readDocument` : what the command reads.
* `Command.does_writeDocument_of_nothing`, `Command.does_writeDocument_of_feed` : what it does with
  the result.
* `Command.expand_writes_at_most_one_file` : what it prints and writes.
-/

namespace DocSite

namespace Site

variable {scope : Scope} {c between c' : Catalog}

/-- The catalog has one file more, the feed of articles that a glob selects in it, or it is the same
as before. -/
inductive Publishes (scope : Scope) (c : Catalog) : Catalog → Prop
  | nothing : Publishes scope c c
  | feed {glob : Text} {summaries : List Summary}
      (hlist : Summary.list (c.select glob scope.location) scope.location = .ok summaries)
      (hfree : c.at? (News.feedLocation scope.location) = none) :
      Publishes scope c (c.extend [News.feedEntry scope (News.feed scope c summaries)])

theorem Publishes.trans (h : Publishes scope c between) (h' : Publishes scope between c') :
    Publishes scope c c' := by
  cases h with
  | nothing => exact h'
  | @feed glob summaries hlist hfree =>
    cases h' with
    | nothing => exact .feed hlist hfree
    | feed _ htaken =>
      -- the first feed stands where the second one would
      have hfirst := (Catalog.at?_extend_eq_none_iff.1 htaken).2 _ List.mem_cons_self
      exact absurd rfl hfirst

theorem publishes_blockHandler (scope : Scope) (call : Call) (c : Catalog) :
    Publishes scope c (((News.blockHandler scope).run call).run.run c).2 := by
  cases hglob : News.glob? call with
  | none =>
    rw [News.run_blockHandler_of_none hglob]
    exact .nothing
  | some glob =>
    cases hgenerate : News.generate scope c glob call.level with
    | error e =>
      rw [News.run_blockHandler_of_error hglob hgenerate]
      exact .nothing
    | ok result =>
      rw [News.run_blockHandler_of_ok hglob hgenerate]
      obtain ⟨summaries, hlist, hadd, -⟩ := News.generate_eq_ok hgenerate
      obtain ⟨-, hfree, heq⟩ := Catalog.add_eq_ok_iff.1 hadd
      dsimp only
      rw [heq]
      exact .feed hlist hfree

/-- **A document** publishes one feed at most, whatever its text and its macros. -/
theorem publishes_expand (scope : Scope) (c : Catalog) :
    Publishes scope c (expand scope c).2 := by
  have hmoves : (processor scope).MovesBy (Publishes scope) := by
    refine ⟨fun _ => .nothing, Publishes.trans, ?_, ?_⟩
    · intro h hh call c
      simp only [processor, List.mem_cons, List.not_mem_nil, or_false] at hh
      rcases hh with rfl | rfl | rfl <;> exact .nothing
    · intro h hh call c
      obtain rfl := List.mem_singleton.1 hh
      exact publishes_blockHandler scope call c
  exact hmoves.process scope.file.contents c

end Site

theorem Catalog.added_of_read? {s : Text} {c : Catalog} (h : read? s = some c) : c.added = [] := by
  obtain ⟨r, -, h⟩ := Option.bind_eq_some_iff.1 h
  obtain ⟨fields, -, h⟩ := Option.bind_eq_some_iff.1 h
  split at h
  · obtain ⟨components, -, h⟩ := Option.bind_eq_some_iff.1 h
    obtain ⟨files, -, h⟩ := Option.bind_eq_some_iff.1 h
    rw [← Option.some.inj h]
  · cases h

namespace Command

section

variable {m : Type → Type} [Monad m]

/-- What the command reads before it expands a document: the settings, the catalog, and the document
with what its macros see. -/
def readDocument (host : Host m) (document : Text) (overrides : Settings.Overrides)
    (settings? : Option Path) : Action m (Settings × Catalog × Scope) := do
  let settings ← loadSettings host settings? overrides
  let catalog ← readCatalog host settings
  match catalog.ofId? document with
  | none => throw (.unknownDocument document)
  | some file =>
    let buildDate ← host.now
    return (settings, catalog, { file, attributes := settings.documentAttributes, buildDate })

/-- What the command does with a document that it has read. -/
def writeDocument (host : Host m) (settings : Settings) (catalog : Catalog) (scope : Scope) :
    Action m Unit :=
  match Site.expand scope catalog with
  | (.error failure, _) => throw (.expansion scope.file.source.displayPath failure)
  | (.ok result, after) => do
    printResult host result
    for e in after.added do writeArtifact host settings.outputDirectory e

theorem runExpand_eq [LawfulMonad m] (host : Host m) (document : Text)
    (overrides : Settings.Overrides) (settings? : Option Path) :
    runExpand host document overrides settings? =
      readDocument host document overrides settings? >>= fun read =>
        writeDocument host read.1 read.2.1 read.2.2 := by
  unfold runExpand readDocument
  simp only [bind_assoc]
  congr 1
  funext settings
  congr 1
  funext catalog
  cases hfile : catalog.ofId? document with
  | none =>
    refine ExceptT.ext ?_
    simp
  | some file =>
    simp only [bind_assoc, pure_bind]
    rfl

theorem writeDocument_of_nothing [LawfulMonad m] {host : Host m} {settings : Settings}
    {c after : Catalog} {scope : Scope} {text : Text} (h : Site.expand scope c = (.ok text, after))
    (hadded : after.added = []) :
    writeDocument host settings c scope = printResult host text >>= fun _ => pure () := by
  simp [writeDocument, h, hadded]

theorem writeDocument_of_feed [LawfulMonad m] {host : Host m} {settings : Settings}
    {c after : Catalog} {scope : Scope} {text : Text} {feed : Entry}
    (h : Site.expand scope c = (.ok text, after)) (hadded : after.added = [feed]) :
    writeDocument host settings c scope = printResult host text >>= fun _ =>
      writeArtifact host settings.outputDirectory feed := by
  simp [writeDocument, h, hadded]

/-- Makes the directory of a file, if it has one. -/
def makeParent (host : Host m) (path : Path) : Action m Unit :=
  match Path.parent? path with
  | some parent => onFile (host.makeDirectories parent)
  | none => pure ()

theorem writeArtifact_eq [LawfulMonad m] (host : Host m) (outputDirectory : Path) (e : Entry) :
    writeArtifact host outputDirectory e =
      makeParent host (artifactPath outputDirectory e.location) >>= fun _ =>
      onFile (host.writeText (artifactPath outputDirectory e.location) e.contents) >>= fun _ =>
      tellLine host ("Wrote ".toList ++ artifactPath outputDirectory e.location ++ " (".toList ++
        e.location.id ++ [')']) := by
  unfold writeArtifact makeParent
  cases hparent : Path.parent? (artifactPath outputDirectory e.location) <;>
    simp only [hparent, pure_bind]

end

variable {σ : Type}

theorem notes_makeParent (host : Host (StateM σ)) (path : Path) :
    Notes Host.IsMaking (makeParent host.noting path).run (makeParent host path).run := by
  unfold makeParent
  cases Path.parent? path with
  | none => exact .pure _
  | some parent => exact notes_onFile (host.notes_makeDirectories parent)

theorem makeParent_of_writes {host : Host (StateM σ)} (h : host.Writes) (path : Path) (st : σ) :
    (outcome (makeParent host path) st).1 = .ok () := by
  unfold makeParent
  cases Path.parent? path with
  | none => rfl
  | some parent =>
    dsimp only
    rw [outcome_onFile, h.makes parent st]
    rfl

theorem does_writeArtifact (host : Host (StateM σ)) (outputDirectory : Path) (e : Entry) (st : σ)
    (log : List Deed) :
    ∃ making : List Deed, (∀ d ∈ making, Host.IsMaking d) ∧
      Does host
        (log ++ making ++
          [.write (artifactPath outputDirectory e.location) e.contents,
           .tell ("Wrote ".toList ++ artifactPath outputDirectory e.location ++ " (".toList ++
             e.location.id ++ [')'] ++ ['\n'])])
        (outcome (writeArtifact host.noting outputDirectory e) (st, log)) := by
  rw [writeArtifact_eq]
  generalize artifactPath outputDirectory e.location = path
  obtain ⟨making, hmaking, hmade⟩ := notes_makeParent host path st log
  have hparent : outcome (makeParent host.noting path) (st, log) =
      ((outcome (makeParent host path) st).1, (outcome (makeParent host path) st).2,
        log ++ making) := hmade
  refine ⟨making, hmaking, Does.bind ?_ ?_ fun _ => Does.bind ?_ ?_ fun _ => ?_⟩
  · rw [hparent]
    exact List.prefix_append _ _
  · intro h
    rw [hparent]
    exact ⟨(), makeParent_of_writes h path st⟩
  · rw [hparent]
    exact ⟨[_], List.append_assoc _ _ _⟩
  · intro h
    rw [hparent, outcome_onFile]
    refine ⟨(), ?_⟩
    have hwrites := h.writes path e.contents (outcome (makeParent host path) st).2
    exact congrArg (Except.mapError CommandError.file) hwrites
  · have hall (a b : Deed) : log ++ making ++ [a, b] = log ++ making ++ [a] ++ [b] :=
      (List.append_assoc _ [a] [b]).symm
    rw [hparent, hall]
    exact ⟨List.prefix_rfl, fun _ => ⟨rfl, rfl⟩⟩

section

variable {c after : Catalog} {scope : Scope} {text : Text}

/-- Without a feed the result is printed, and nothing else is done. -/
theorem does_writeDocument_of_nothing (host : Host (StateM σ)) (settings : Settings)
    (h : Site.expand scope c = (.ok text, after)) (hadded : after.added = []) (st : σ) :
    Does host [.print (printed text)]
      (outcome (writeDocument host.noting settings c scope) (st, [])) := by
  rw [writeDocument_of_nothing h hadded]
  exact ⟨List.prefix_rfl, fun _ => ⟨rfl, rfl⟩⟩

/-- The feed is written after the result is printed. -/
theorem does_writeDocument_of_feed (host : Host (StateM σ)) (settings : Settings) {feed : Entry}
    (h : Site.expand scope c = (.ok text, after)) (hadded : after.added = [feed]) (st : σ) :
    ∃ making : List Deed, (∀ d ∈ making, Host.IsMaking d) ∧
      Does host
        ([.print (printed text)] ++ making ++
          [.write (artifactPath settings.outputDirectory feed.location) feed.contents,
           .tell ("Wrote ".toList ++ artifactPath settings.outputDirectory feed.location ++
             " (".toList ++ feed.location.id ++ [')'] ++ ['\n'])])
        (outcome (writeDocument host.noting settings c scope) (st, [])) := by
  obtain ⟨making, hmaking, hdoes⟩ := does_writeArtifact host settings.outputDirectory feed
    (outcome (printResult host text) st).2 [.print (printed text)]
  refine ⟨making, hmaking, ?_⟩
  rw [writeDocument_of_feed h hadded]
  refine Does.bind ?_ (fun _ => ⟨(), rfl⟩) fun _ => hdoes
  rw [List.append_assoc]
  exact List.prefix_append _ _

end

theorem silent_readDocument (host : Host (StateM σ)) (document : Text)
    (overrides : Settings.Overrides) (settings? : Option Path) :
    Silent (readDocument host.noting document overrides settings?).run
      (readDocument host document overrides settings?).run := by
  refine notes_bind (silent_loadSettings host settings? overrides) fun settings => ?_
  refine notes_bind (silent_readCatalog host settings) fun catalog => ?_
  cases catalog.ofId? document with
  | none => exact .pure _
  | some file => exact notes_bind ((Notes.asking _).bind fun _ => .pure _) fun _ => .pure _

/-- Nothing is noted until a document is read. -/
theorem outcome_runExpand (host : Host (StateM σ)) (document : Text)
    (overrides : Settings.Overrides) (settings? : Option Path) (st : σ) :
    outcome (runExpand host.noting document overrides settings?) (st, []) =
      match outcome (readDocument host document overrides settings?) st with
      | (.ok read, st') => outcome (writeDocument host.noting read.1 read.2.1 read.2.2) (st', [])
      | (.error e, st') => (.error e, st', []) := by
  have hread : outcome (readDocument host.noting document overrides settings?) (st, []) =
      ((outcome (readDocument host document overrides settings?) st).1,
        (outcome (readDocument host document overrides settings?) st).2, []) :=
    (silent_readDocument host document overrides settings?).run_eq st []
  rw [runExpand_eq, outcome_bind, hread]
  obtain ⟨result, st'⟩ := outcome (readDocument host document overrides settings?) st
  cases result <;> rfl

theorem added_of_readCatalog {host : Host (StateM σ)} {s : Settings} {st st' : σ} {c : Catalog}
    (h : outcome (readCatalog host s) st = (.ok c, st')) : c.added = [] := by
  unfold readCatalog at h
  cases hpath : s.catalog? with
  | none =>
    rw [hpath] at h
    cases h
  | some path =>
    rw [hpath] at h
    obtain ⟨text, between, -, h⟩ := outcome_bind_eq_ok.1 h
    cases hread : Catalog.read? text with
    | none =>
      rw [hread] at h
      cases h
    | some c' =>
      rw [hread] at h
      cases h
      exact Catalog.added_of_read? hread

theorem added_of_readDocument {host : Host (StateM σ)} {document : Text}
    {overrides : Settings.Overrides} {settings? : Option Path} {st st' : σ}
    {read : Settings × Catalog × Scope}
    (h : outcome (readDocument host document overrides settings?) st = (.ok read, st')) :
    read.2.1.added = [] := by
  obtain ⟨settings, _, -, h⟩ := outcome_bind_eq_ok.1 h
  obtain ⟨c, _, hcatalog, h⟩ := outcome_bind_eq_ok.1 h
  have hadded := added_of_readCatalog hcatalog
  split at h
  · cases h
  · obtain ⟨now, _, -, h⟩ := outcome_bind_eq_ok.1 h
    cases h
    exact hadded

/-- **One file is written at most.** If nothing can be expanded, or the pass over the document
fails, the command fails and does nothing. Otherwise it prints the result. It registers no file and
writes none; or it registers one, the feed of the articles that some glob selects, and writes this
file alone, as the attachment `news.atom` of the module of the document, once the directories for it
are made. -/
theorem expand_writes_at_most_one_file (host : Host (StateM σ)) (document : Text)
    (overrides : Settings.Overrides) (settings? : Option Path) (st : σ) :
    let run := outcome (runExpand host.noting document overrides settings?) (st, [])
    match outcome (readDocument host document overrides settings?) st with
    | (.error e, st') => run = (.error e, st', [])
    | (.ok (settings, c, scope), st') =>
      match Site.expand scope c with
      | (.error failure, _) =>
        ∃ name, scope.file.source.IsCalled name ∧ run = (.error (.expansion name failure), st', [])
      | (.ok text, after) =>
        (after.added = [] ∧ Does host [.print (printed text)] run) ∨
        ∃ glob summaries path,
          Summary.list (c.select glob scope.location) scope.location = .ok summaries ∧
            Path.IsBelow settings.outputDirectory
              [scope.file.source.component, scope.file.source.version, scope.file.source.module,
               "_attachments".toList, "news.atom".toList] path ∧
            let feed := News.feedEntry scope (News.feed scope c summaries)
            after.added = [feed] ∧
            ∃ making : List Deed, (∀ d ∈ making, ∃ directory, d = .make directory) ∧
              Does host
                ([.print (printed text)] ++ making ++
                  [.write path feed.contents,
                   .tell ("Wrote ".toList ++ path ++ " (".toList ++ feed.location.id ++ [')'] ++
                     ['\n'])])
                run := by
  intro run
  have hrun : run = _ := outcome_runExpand host document overrides settings? st
  cases hread : outcome (readDocument host document overrides settings?) st with
  | mk result st' =>
  rw [hread] at hrun
  cases result with
  | error e => exact hrun
  | ok read =>
    obtain ⟨settings, c, scope⟩ := read
    have hadded : c.added = [] := added_of_readDocument hread
    have hpublishes := Site.publishes_expand scope c
    dsimp only at hrun ⊢
    rw [hrun]
    cases hexpand : Site.expand scope c with
    | mk result after =>
    rw [hexpand] at hpublishes
    cases result with
    | error failure =>
      refine ⟨_, scope.file.source.isCalled_displayPath, ?_⟩
      rw [writeDocument, hexpand]
      rfl
    | ok text =>
      cases hpublishes with
      | nothing =>
        exact .inl ⟨hadded, does_writeDocument_of_nothing host settings hexpand hadded st'⟩
      | @feed glob summaries hlist hfree =>
        have hfeed : (c.extend [News.feedEntry scope (News.feed scope c summaries)]).added =
            [News.feedEntry scope (News.feed scope c summaries)] := by
          rw [Catalog.extend, hadded, List.nil_append]
        exact .inr ⟨glob, summaries, _, hlist, Path.isBelow_iff.2 rfl, hfeed,
          does_writeDocument_of_feed host settings hexpand hfeed st'⟩

/-- A document with one listing, of no articles, has one file written. -/
example :
    let host : Host (StateM Unit) :=
      { workingDirectory := "/docs".toList
        valueOf? := fun _ => none
        pathExists := fun _ => pure true
        readText := fun p => pure <| .ok <|
          if p = "/docs/folio.toml".toList then "[build]\ncatalog = 'site.json'".toList
          else "[[], [[[\"docs\", \"1.0\", \"ROOT\", \"page\", \"a.adoc\"],
            \"news::generate[refs=*.txt]\"]]]".toList
        isDirectory := fun _ => pure true
        makeDirectory := fun _ => pure (.ok ())
        writeText := fun _ _ => pure (.ok ())
        print := fun _ => pure ()
        tell := fun _ => pure ()
        now := pure ⟨0, 0⟩ }
    let run := outcome (runExpand host.noting "1.0@docs:ROOT:page$a.adoc".toList {}
      (some "/docs/folio.toml".toList)) ((), [])
    run.2.2.filterMap (fun | .write p _ => some p | _ => none) =
      ["/docs/build/site/docs/1.0/ROOT/_attachments/news.atom".toList] := by
  decide +kernel

end Command

end DocSite
