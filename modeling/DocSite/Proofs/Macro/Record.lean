import DocSite.Proofs.Macro.Sites
import DocSite.Proofs.Outcome

/-!
# The calls of a pass

A pass does not say which handlers it has called. Handlers that note their calls beside their state
do say so (`Processor.noting`), and the pass is otherwise the same: it gives the same text or
failure, leaves the same state, and adds notes that do not depend on what is noted already
(`Processor.process_noting`). So what is recorded is what the pass calls (`Processor.calls`), and
with the answers of the handlers it is the trace of the pass (`Processor.trace`).

* `Carries` : what a part of a pass does to a state, another one does to the image of the state.
* `Processor.carries_process` : passes do so if their handlers do.
* `Processor.calls_eq_map_trace` : the calls of a pass are those of its trace.

Every fact about notes is a map between states that handlers respect: forgetting the notes, adding
notes before them, and changing what is noted.
-/

namespace DocSite

variable {σ ε α β : Type}

/-! ### Passes over the image of a state -/

section

variable {τ : Type} {g : τ → σ}

/-- What a part of a pass does in a state, another one does in the image of the state: it has the
same result, and leaves the image of the state that is left. -/
def Carries (g : τ → σ) (m : Pass τ ε α) (m' : Pass σ ε α) : Prop :=
  ∀ st, outcome m' (g st) = ((outcome m st).1, g (outcome m st).2)

theorem Carries.congruence :
    Pass.Congruence fun α (m : Pass τ ε α) (m' : Pass σ ε α) => Carries g m m' where
  pure _ _ := rfl
  bind {α β m m' f f'} hm hf st := by
    have hst := hm st
    rw [outcome_bind, outcome_bind, hst]
    cases outcome m st with
    | mk result between =>
      cases result with
      | error e => rfl
      | ok a => exact hf a between

/-- The handlers of a pass do in a state what those of another do in the image of the state. -/
structure Processor.CarriesTo (g : τ → σ) (p : Processor τ ε) (p' : Processor σ ε) : Prop where
  sites : ∀ line, p.sites line = p'.sites line
  answer : ∀ depth line occasion, Carries g (p.answer depth line occasion)
    (p'.answer depth line occasion)
  maxDepth : p.maxDepth = p'.maxDepth

namespace Processor

variable {p : Processor τ ε} {p' : Processor σ ε}

theorem carries_expandText (h : p.CarriesTo g p') (levels depth level : Nat) (s : Text) :
    Carries g (p.expandText levels depth level s) (p'.expandText levels depth level s) :=
  Carries.congruence.expandText h.sites h.answer levels depth level s

/-- **A pass does in the image of a state what it does in the state, if its handlers do.** -/
theorem carries_process (h : p.CarriesTo g p') (s : Text) :
    Carries g (p.process s) (p'.process s) := by
  unfold process
  rw [h.maxDepth]
  exact carries_expandText h _ _ _ s

end Processor

end

/-! ### Recording -/

/-- Which handler is called, and what it is given. -/
inductive HandlerCall where
  | inline (name : Text) (call : Call)
  | block (name : Text) (call : Call)
  deriving DecidableEq, Repr

/-- The call for a macro in a line of a text at `depth`. -/
def Occasion.handlerCall (depth : Nat) (line : SourceLine) : Occasion → HandlerCall
  | .inline i => .inline i.name (Processor.callAt depth line i)
  | .block i => .block i.name (Processor.callAt depth line i)

/-- The handler that records its calls. -/
def InlineHandler.recording (h : InlineHandler σ) : InlineHandler (σ × List HandlerCall) where
  name := h.name
  run call := fun (st, record) =>
    let (output, st) := (h.run call).run st
    (output, st, record ++ [.inline h.name call])

/-- The handler that records its calls, whether it fails or not. -/
def BlockHandler.recording (h : BlockHandler σ ε) : BlockHandler (σ × List HandlerCall) ε where
  name := h.name
  run call := fun (st, record) =>
    let (output, st) := (h.run call).run.run st
    (output, st, record ++ [.block h.name call])

namespace Processor

/-- The handlers of a pass, recording their calls. -/
def recording (p : Processor σ ε) : Processor (σ × List HandlerCall) ε where
  inline := p.inline.map InlineHandler.recording
  block := p.block.map BlockHandler.recording
  maxDepth := p.maxDepth

/-- The calls of the pass over a document, in their order. -/
def calls (p : Processor σ ε) (s : Text) (st : σ) : List HandlerCall :=
  (outcome (p.recording.process s) (st, [])).2.2

end Processor

/-! ### Notes -/

/-- A call of a handler and its answer: none if the handler fails. -/
structure Exchange where
  call : HandlerCall
  answer? : Option Output
  deriving DecidableEq, Repr

/-- Whether there is a handler for a macro. -/
def Processor.handles (p : Processor σ ε) : Occasion → Bool
  | .inline i => (p.inline.find? fun h => h.name = i.name).isSome
  | .block i => (p.blockHandler? i.name).isSome

/-- **Who answers a macro**: nobody, and then it stays, or a handler of its name. -/
theorem Processor.outcome_answer_cases (p : Processor σ ε) (depth : Nat) (line : SourceLine)
    (occasion : Occasion) :
    (p.handles occasion = false ∧
        ∀ st, outcome (p.answer depth line occasion) st = (.ok .skip, st)) ∨
      (∃ i, occasion = .inline i ∧ p.handles (.inline i) = true ∧
        ∃ h ∈ p.inline, h.name = i.name ∧
          ∀ st, outcome (p.answer depth line (.inline i)) st =
            (.ok ((h.run (callAt depth line i)).run st).1,
              ((h.run (callAt depth line i)).run st).2)) ∨
      ∃ i, occasion = .block i ∧ p.handles (.block i) = true ∧
        ∃ h ∈ p.block, h.name = i.name ∧
          ∀ st, outcome (p.answer depth line (.block i)) st =
            (((h.run (callAt depth line i)).run.run st).1.mapError fun cause =>
              ⟨i.name, line.number, cause⟩, ((h.run (callAt depth line i)).run.run st).2) := by
  cases occasion with
  | inline i =>
    dsimp only [answer, runInline, handles]
    cases hfind : p.inline.find? fun h => h.name = i.name with
    | none => exact .inl ⟨rfl, fun _ => rfl⟩
    | some h =>
      have hname : h.name = i.name := by simpa using List.find?_some hfind
      refine .inr (.inl ⟨i, rfl, by rw [hfind]; rfl, h, List.mem_of_find?_eq_some hfind, hname, ?_⟩)
      exact fun st => by rw [hfind]; rfl
  | block i =>
    dsimp only [answer, handles]
    cases hfind : p.blockHandler? i.name with
    | none => exact .inl ⟨rfl, fun _ => rfl⟩
    | some h =>
      have hname : h.name = i.name := by simpa [blockHandler?] using List.find?_some hfind
      refine .inr (.inr ⟨i, rfl, by rw [hfind]; rfl, h, List.mem_of_find?_eq_some hfind, hname, ?_⟩)
      exact fun st => by rw [hfind]; exact outcome_adapt _ _ st

section

variable {ω ω' : Type}

/-- The handler that notes something of each call and its answer. -/
def InlineHandler.noting (note : HandlerCall → Option Output → ω) (h : InlineHandler σ) :
    InlineHandler (σ × List ω) where
  name := h.name
  run call := fun (st, notes) =>
    let (output, st) := (h.run call).run st
    (output, st, notes ++ [note (.inline h.name call) (some output)])

/-- The handler that notes something of each call and its answer: none if it fails. -/
def BlockHandler.noting (note : HandlerCall → Option Output → ω) (h : BlockHandler σ ε) :
    BlockHandler (σ × List ω) ε where
  name := h.name
  run call := fun (st, notes) =>
    let (output, st) := (h.run call).run.run st
    (output, st, notes ++ [note (.block h.name call) output.toOption])

namespace Processor

/-- The handlers of a pass, noting something of each call and its answer. -/
def noting (note : HandlerCall → Option Output → ω) (p : Processor σ ε) :
    Processor (σ × List ω) ε :=
  p.mapHandlers (InlineHandler.noting note) (BlockHandler.noting note)

theorem recording_eq (p : Processor σ ε) : p.recording = p.noting fun call _ => call := rfl

variable {note : HandlerCall → Option Output → ω} {p : Processor σ ε} {depth : Nat}
  {line : SourceLine}

theorem inlineNames_noting : (p.noting note).inlineNames = p.inlineNames :=
  inlineNames_mapHandlers (InlineHandler.noting note) (BlockHandler.noting note) fun _ => rfl

theorem sites_noting (line : SourceLine) : (p.noting note).sites line = p.sites line :=
  sites_mapHandlers (InlineHandler.noting note) (BlockHandler.noting note) (fun _ => rfl)
    (fun _ => rfl) line

theorem inlineHandler?_noting (name : Text) :
    ((p.noting note).inline.find? fun h => h.name = name) =
      (p.inline.find? fun h => h.name = name).map (InlineHandler.noting note) :=
  inlineHandler?_mapHandlers (InlineHandler.noting note) (BlockHandler.noting note) (fun _ => rfl)
    name

theorem blockHandler?_noting (name : Text) :
    (p.noting note).blockHandler? name = (p.blockHandler? name).map (BlockHandler.noting note) :=
  blockHandler?_mapHandlers (InlineHandler.noting note) (BlockHandler.noting note) (fun _ => rfl)
    name

/-- What is noted of a macro: its call and the answer, if there is a handler. -/
def notesOf (note : HandlerCall → Option Output → ω) (p : Processor σ ε) (depth : Nat)
    (line : SourceLine) (occasion : Occasion) (answer : Option Output) : List ω :=
  if p.handles occasion then [note (occasion.handlerCall depth line) answer] else []

/-- **A handler that takes notes** answers what it would without, and leaves the same state. -/
theorem outcome_answer_noting (occasion : Occasion) (st : σ) (notes : List ω) :
    outcome ((p.noting note).answer depth line occasion) (st, notes) =
      ((outcome (p.answer depth line occasion) st).1,
        (outcome (p.answer depth line occasion) st).2,
        notes ++ notesOf note p depth line occasion
          (outcome (p.answer depth line occasion) st).1.toOption) := by
  cases occasion with
  | inline i =>
    dsimp only [answer, runInline, notesOf]
    rw [inlineHandler?_noting]
    cases hfind : p.inline.find? fun h => h.name = i.name with
    | none =>
      have hhandles : p.handles (.inline i) = false := by rw [handles, hfind]; rfl
      rw [hhandles]
      simp only [Bool.false_eq_true, if_false, List.append_nil]
      rfl
    | some h =>
      have hhandles : p.handles (.inline i) = true := by rw [handles, hfind]; rfl
      have hname : h.name = i.name := by simpa using List.find?_some hfind
      rw [if_pos hhandles, Occasion.handlerCall, ← hname]
      rfl
  | block i =>
    dsimp only [answer, notesOf]
    rw [blockHandler?_noting]
    cases hfind : p.blockHandler? i.name with
    | none =>
      have hhandles : p.handles (.block i) = false := by rw [handles, hfind]; rfl
      rw [hhandles]
      simp only [Bool.false_eq_true, if_false, List.append_nil]
      rfl
    | some h =>
      have hhandles : p.handles (.block i) = true := by rw [handles, hfind]; rfl
      have hname : h.name = i.name := by simpa [blockHandler?] using List.find?_some hfind
      rw [if_pos hhandles, Occasion.handlerCall, ← hname]
      simp only [Option.map_some, outcome_adapt]
      unfold BlockHandler.noting outcome
      dsimp only [ExceptT.run, StateT.run]
      generalize h.run (callAt depth line i) st = r
      obtain ⟨result, st⟩ := r
      cases result <;> rfl

theorem carriesTo_of_noting (note : HandlerCall → Option Output → ω) (p : Processor σ ε) :
    (p.noting note).CarriesTo Prod.fst p where
  sites := sites_noting
  answer depth line occasion := fun (st, notes) => by rw [outcome_answer_noting]
  maxDepth := rfl

theorem carriesTo_noting (note : HandlerCall → Option Output → ω) (p : Processor σ ε)
    (earlier : List ω') (f : ω → ω') :
    (p.noting note).CarriesTo (fun (st, notes) => (st, earlier ++ notes.map f))
      (p.noting fun call answer => f (note call answer)) where
  sites line := by rw [sites_noting, sites_noting]
  answer depth line occasion := fun (st, notes) => by
    rw [outcome_answer_noting, outcome_answer_noting, notesOf, notesOf]
    cases p.handles occasion <;> simp
  maxDepth := rfl

/-- What a pass over a document notes, in order. -/
def notes (note : HandlerCall → Option Output → ω) (p : Processor σ ε) (s : Text) (st : σ) :
    List ω :=
  (outcome ((p.noting note).process s) (st, [])).2.2

/-- **A pass that takes notes** does what the pass without does, and its notes are added to what is
noted already. -/
theorem process_noting (s : Text) (st : σ) (earlier : List ω) :
    outcome ((p.noting note).process s) (st, earlier) =
      ((outcome (p.process s) st).1, (outcome (p.process s) st).2,
        earlier ++ p.notes note s st) := by
  have hforget := carries_process (carriesTo_of_noting note p) s (st, [])
  have hadd := carries_process (carriesTo_noting note p earlier id) s (st, [])
  dsimp only at hforget hadd
  rw [List.map_nil, List.append_nil] at hadd
  rw [hforget, notes]
  simpa using hadd

theorem notes_map (f : ω → ω') (s : Text) (st : σ) :
    p.notes (fun call answer => f (note call answer)) s st = (p.notes note s st).map f := by
  have hmap := carries_process (carriesTo_noting note p [] f) s (st, [])
  exact congrArg (fun r => r.2.2) hmap

theorem calls_eq_notes (s : Text) (st : σ) :
    p.calls s st = p.notes (fun call _ => call) s st := by
  rw [calls, recording_eq, notes]

/-- **A pass with a record.** It does what the pass without does, and its calls are added to what is
recorded already. -/
theorem process_recording (s : Text) (st : σ) (record : List HandlerCall) :
    outcome (p.recording.process s) (st, record) =
      ((outcome (p.process s) st).1, (outcome (p.process s) st).2,
        record ++ p.calls s st) := by
  rw [calls_eq_notes, recording_eq, process_noting]

/-! ### Traces -/

/-- The trace of the pass over a document: the calls in their order, each with its answer. -/
def trace (p : Processor σ ε) (s : Text) (st : σ) : List Exchange := p.notes Exchange.mk s st

/-- **The calls of a pass are those of its trace.** -/
theorem calls_eq_map_trace (s : Text) (st : σ) :
    p.calls s st = (p.trace s st).map (·.call) := by
  rw [calls_eq_notes, trace, ← notes_map]

end Processor

end

end DocSite
