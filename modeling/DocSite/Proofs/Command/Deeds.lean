import DocSite.Command.Run
import DocSite.Proofs.Outcome

/-!
# What a command does to its machine

A command asks its machine for things, and has it do things. A host that notes what it is asked to
do (`Host.noting`) does everything else as before, so that what a command does can be read off its
notes, whatever the machine holds and answers.

* `Deed`, `Host.noting` : what is noted, and where.
* `Silent`, `Notes` : a part of a run notes nothing, or only notes of a kind.
* `Command.silent_loadSettings`, `Command.silent_readCatalog` : settings and catalogs are read
  without a note.
* `Host.notes_makeDirectories` : making directories notes directories and nothing else.
* `Command.Does` : how far a run does what it has to do.

Parts of a run that note are compared with the same parts on the host that does not note: they have
the same results and leave the same state, and `bind` keeps that.
-/

namespace DocSite

/-- What a machine is asked to do. -/
inductive Deed where
  | make (directory : Path)
  | write (p : Path) (contents : Text)
  | print (s : Text)
  | tell (s : Text)
  deriving DecidableEq, Repr

variable {σ α β : Type}

/-- A part of a run that is noted. -/
def doing (d : Deed) (x : StateM σ α) : StateM (σ × List Deed) α := fun s =>
  ((x.run s.1).1, (x.run s.1).2, s.2 ++ [d])

/-- A part of a run that is not noted. -/
def asking (x : StateM σ α) : StateM (σ × List Deed) α := fun s =>
  ((x.run s.1).1, (x.run s.1).2, s.2)

/-- The host that notes what it is asked to do, in order, whether it can be done or not. -/
def Host.noting (host : Host (StateM σ)) : Host (StateM (σ × List Deed)) where
  workingDirectory := host.workingDirectory
  valueOf? := host.valueOf?
  pathExists p := asking (host.pathExists p)
  readText p := asking (host.readText p)
  isDirectory p := asking (host.isDirectory p)
  makeDirectory p := doing (.make p) (host.makeDirectory p)
  writeText p s := doing (.write p s) (host.writeText p s)
  print s := doing (.print s) (host.print s)
  tell s := doing (.tell s) (host.tell s)
  now := asking host.now

/-! ### What is noted -/

/-- In every state, a part of a run with notes does what it does without, and notes only what `P`
holds of. -/
def Notes (P : Deed → Prop) (noted : StateM (σ × List Deed) α) (x : StateM σ α) : Prop :=
  ∀ st log, ∃ deeds : List Deed, (∀ d ∈ deeds, P d) ∧
    noted.run (st, log) = ((x.run st).1, (x.run st).2, log ++ deeds)

/-- In every state, a part of a run with notes does what it does without, and notes nothing. -/
abbrev Silent (noted : StateM (σ × List Deed) α) (x : StateM σ α) : Prop :=
  Notes (fun _ => False) noted x

namespace Notes

variable {P : Deed → Prop} {noted : StateM (σ × List Deed) α} {x : StateM σ α}

theorem pure (a : α) :
    Notes P (Pure.pure a : StateM (σ × List Deed) α) (Pure.pure a : StateM σ α) := by
  intro st log
  refine ⟨[], nofun, ?_⟩
  rw [List.append_nil]
  rfl

theorem asking (x : StateM σ α) : Notes P (asking x) x := by
  intro st log
  refine ⟨[], nofun, ?_⟩
  rw [List.append_nil]
  rfl

theorem doing {d : Deed} (h : P d) (x : StateM σ α) : Notes P (doing d x) x :=
  fun _ _ => ⟨[d], List.forall_mem_singleton.2 h, rfl⟩

theorem bind {f' : α → StateM (σ × List Deed) β} {f : α → StateM σ β} (hx : Notes P noted x)
    (hf : ∀ a, Notes P (f' a) (f a)) : Notes P (noted >>= f') (x >>= f) := by
  intro st log
  obtain ⟨first, hfirst, hrun⟩ := hx st log
  obtain ⟨second, hsecond, hrest⟩ := hf (x.run st).1 (x.run st).2 (log ++ first)
  refine ⟨first ++ second, List.forall_mem_append.2 ⟨hfirst, hsecond⟩, ?_⟩
  rw [StateT.run_bind, hrun, ← List.append_assoc]
  exact hrest

theorem findM? {p' : α → StateM (σ × List Deed) Bool} {p : α → StateM σ Bool}
    (h : ∀ a, Notes P (p' a) (p a)) (xs : List α) : Notes P (xs.findM? p') (xs.findM? p) := by
  induction xs with
  | nil => exact pure none
  | cons a xs ih =>
    rw [List.findM?, List.findM?]
    refine (h a).bind fun found => ?_
    cases found with
    | true => exact pure (some a)
    | false => exact ih

end Notes

theorem Silent.run_eq {noted : StateM (σ × List Deed) α} {x : StateM σ α} (h : Silent noted x)
    (st : σ) (log : List Deed) : noted.run (st, log) = ((x.run st).1, (x.run st).2, log) := by
  obtain ⟨deeds, hdeeds, hrun⟩ := h st log
  obtain rfl : deeds = [] := List.eq_nil_iff_forall_not_mem.2 hdeeds
  rw [hrun, List.append_nil]

/-! ### Directories -/

namespace Host

/-- Whether what a machine is asked to do is to make a directory. -/
def IsMaking (d : Deed) : Prop := ∃ directory, d = .make directory

theorem notes_ensureDirectory (host : Host (StateM σ)) (p : Path) :
    Notes IsMaking (host.noting.ensureDirectory p) (host.ensureDirectory p) := by
  refine (Notes.doing ⟨p, rfl⟩ _).bind fun answer => ?_
  cases answer with
  | ok _ => exact .pure _
  | error e =>
    refine (Notes.asking _).bind fun there => ?_
    cases there <;> exact .pure _

/-- Making directories notes directories, and nothing else. -/
theorem notes_makeDirectories (host : Host (StateM σ)) (p : Path) :
    Notes IsMaking (host.noting.makeDirectories p) (host.makeDirectories p) := by
  -- one level for each path above the first, which is shorter
  induction hlength : p.length using Nat.strongRecOn generalizing p with
  | _ n ih =>
    subst hlength
    rw [makeDirectories, makeDirectories]
    by_cases hp : p = []
    · rw [if_pos hp, if_pos hp]
      exact .pure _
    · rw [if_neg hp, if_neg hp]
      refine (host.notes_ensureDirectory p).bind fun answer => ?_
      cases answer with
      | ok _ => exact .pure _
      | error e =>
        dsimp only
        split
        · exact .pure _
        · rename_i q hq
          by_cases he : e ≠ .missing
          · rw [if_pos he, if_pos he]
            exact .pure _
          · rw [if_neg he, if_neg he]
            refine (ih _ (Path.length_parent? hq) q rfl).bind fun answer => ?_
            cases answer with
            | ok _ => exact host.notes_ensureDirectory p
            | error e => exact .pure _

end Host

/-! ### Parts of a command -/

/-- The machine makes every directory, with those above it, and writes every file. -/
structure Host.Writes (host : Host (StateM σ)) : Prop where
  makes : ∀ p st, ((host.makeDirectories p).run st).1 = .ok ()
  writes : ∀ p s st, ((host.writeText p s).run st).1 = .ok ()

namespace Command

/-- A text as it is printed: with a line end after it, unless it has one. -/
def printed (s : Text) : Text := if s.endsWithNewline then s else s ++ ['\n']

theorem outcome_onFile (answer : StateM σ (Except FileError α)) (st : σ) :
    outcome (onFile answer) st =
      ((answer.run st).1.mapError CommandError.file, (answer.run st).2) := rfl

/-- A run does `deeds` in order: it does nothing else, and all of them on a machine that makes
directories and writes files. -/
structure Does (host : Host (StateM σ)) (deeds : List Deed)
    (last : Except CommandError Unit × σ × List Deed) : Prop where
  noMore : last.2.2 <+: deeds
  all : host.Writes → last.1 = .ok () ∧ last.2.2 = deeds

/-- A step that a machine can do if it writes, with what is done by then, and the steps after it. -/
theorem Does.bind {host : Host (StateM σ)} {deeds : List Deed}
    {x : Action (StateM (σ × List Deed)) α} {f : α → Action (StateM (σ × List Deed)) Unit}
    {s : σ × List Deed} (hnoMore : (outcome x s).2.2 <+: deeds)
    (hcan : host.Writes → ∃ a, (outcome x s).1 = .ok a)
    (hrest : ∀ a, Does host deeds (outcome (f a) (outcome x s).2)) :
    Does host deeds (outcome (x >>= f) s) := by
  rw [outcome_bind]
  cases hx : outcome x s with
  | mk result last =>
    rw [hx] at hnoMore hcan hrest
    cases result with
    | error e =>
      refine ⟨hnoMore, fun h => ?_⟩
      obtain ⟨a, ha⟩ := hcan h
      cases ha
    | ok a => exact hrest a

variable (host : Host (StateM σ))

theorem silent_loadFile (path : Path) :
    Silent (Settings.loadFile host.noting.toSurroundings path)
      (Settings.loadFile host.toSurroundings path) := by
  refine (Notes.asking _).bind fun answer => ?_
  cases answer with
  | error cause => exact .pure _
  | ok contents =>
    dsimp only
    cases Settings.File.read? contents <;> exact .pure _

theorem silent_loadBase (path? : Option Path) :
    Silent (Settings.loadBase host.noting.toSurroundings path?)
      (Settings.loadBase host.toSurroundings path?) := by
  cases path? with
  | some path =>
    refine (Notes.asking _).bind fun there => ?_
    cases there with
    | true => exact silent_loadFile host path
    | false => exact .pure _
  | none =>
    refine (Notes.findM? (fun p => .asking _) _).bind fun found? => ?_
    cases found? with
    | some path => exact silent_loadFile host path
    | none => exact .pure _

theorem silent_loadSettings (settings? : Option Path) (overrides : Settings.Overrides) :
    Silent (loadSettings host.noting settings? overrides).run
      (loadSettings host settings? overrides).run :=
  ((silent_loadBase host settings?).bind fun _ => .pure _).bind fun _ => .pure _

theorem notes_bind {P : Deed → Prop} {noted : Action (StateM (σ × List Deed)) α}
    {x : Action (StateM σ) α} {f' : α → Action (StateM (σ × List Deed)) β}
    {f : α → Action (StateM σ) β} (hx : Notes P noted.run x.run)
    (hf : ∀ a, Notes P (f' a).run (f a).run) : Notes P (noted >>= f').run (x >>= f).run := by
  rw [ExceptT.run_bind, ExceptT.run_bind]
  refine hx.bind fun result => ?_
  cases result with
  | error e => exact .pure _
  | ok a => exact hf a

theorem notes_onFile {P : Deed → Prop} {noted : StateM (σ × List Deed) (Except FileError α)}
    {x : StateM σ (Except FileError α)} (h : Notes P noted x) :
    Notes P (onFile noted).run (onFile x).run :=
  h.bind fun _ => .pure _

theorem silent_decoded (v? : Option α) :
    Silent (decoded v? : Action (StateM (σ × List Deed)) α).run
      (decoded v? : Action (StateM σ) α).run := by
  cases v? <;> exact .pure _

theorem silent_readCatalog (s : Settings) :
    Silent (readCatalog host.noting s).run (readCatalog host s).run := by
  unfold readCatalog
  cases s.catalog? with
  | none => exact .pure _
  | some path => exact notes_bind (notes_onFile (.asking _)) fun _ => silent_decoded _

end Command

end DocSite
