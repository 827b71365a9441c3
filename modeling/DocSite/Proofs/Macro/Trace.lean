import DocSite.Proofs.Macro.Record
import DocSite.Proofs.Macro.Scan

/-!
# The trace of a part of a pass

What is said of the trace of a pass is said of its parts first, and of a part by what it adds to a
trace, whatever stands in it already (`Adds`), and by whether it fails (`Recounts`).

* `Processor.callsAt` : the calls that come from a text itself, and not from what is put into it.
* `Processor.handles_of_mem_sites` : every place in a line has its handler.
* `Processor.recounts_expandAt` : a place adds its call, and then what the expansion of its markup
  adds.
* `Processor.depth_of_expandText` : the calls from a text are as deep as the text or deeper, and not
  deeper than its levels allow.
* `Processor.expandText_tracing` : what the pass over a text does, and what it adds.
-/

namespace DocSite

variable {σ ε α β ω : Type}

/-- What a handler is given. -/
def HandlerCall.call : HandlerCall → Call
  | .inline _ call => call
  | .block _ call => call

/-- How deep the text is that a handler is called from. -/
def Exchange.depth (e : Exchange) : Nat := e.call.call.depth

/-- The calls in a trace that come from a text at `depth`, and not from one that is put into it. -/
def Processor.callsAt (depth : Nat) (trace : List Exchange) : List HandlerCall :=
  (trace.filter fun e => e.depth = depth).map (·.call)

namespace Processor

theorem callsAt_append (depth : Nat) (new later : List Exchange) :
    callsAt depth (new ++ later) = callsAt depth new ++ callsAt depth later := by
  simp [callsAt]

theorem callsAt_cons {depth : Nat} {e : Exchange} {trace : List Exchange} (h : e.depth = depth) :
    callsAt depth (e :: trace) = e.call :: callsAt depth trace := by
  rw [callsAt, List.filter_cons_of_pos (by simp [h]), List.map_cons, callsAt]

theorem callsAt_of_deeper {depth : Nat} {trace : List Exchange}
    (h : ∀ e ∈ trace, depth + 1 ≤ e.depth) : callsAt depth trace = [] := by
  have hnone : (trace.filter fun e => e.depth = depth) = [] := by
    rw [List.filter_eq_nil_iff]
    intro e he
    have hdeeper := h e he
    simp only [decide_eq_true_eq]
    omega
  rw [callsAt, hnone, List.map_nil]

end Processor

/-! ### What is added to a trace -/

namespace Pass

/-- The failure that a part of a pass ends with, if it fails. -/
def failure? : Except (Failure ε) α → Option (Failure ε)
  | .ok _ => none
  | .error f => some f

theorem failure?_map (f : α → β) (result : Except (Failure ε) α) :
    failure? (result.map f) = failure? result := by
  cases result <;> rfl

end Pass

/-- Whatever is noted already, a part of a pass adds notes and has a failure, or none, with the
property `Q`. -/
def Recounts (m : Pass (σ × List ω) ε α) (Q : List ω → Option (Failure ε) → Prop) : Prop :=
  ∀ st notes, ∃ new, (outcome m (st, notes)).2.2 = notes ++ new ∧
    Q new (Pass.failure? (outcome m (st, notes)).1)

namespace Recounts

variable {Q Q₁ Q₂ : List ω → Option (Failure ε) → Prop}

theorem pure {a : α} (h : Q [] none) : Recounts (Pure.pure a : Pass (σ × List ω) ε α) Q :=
  fun _ notes => ⟨[], (List.append_nil notes).symm, h⟩

theorem bind {m : Pass (σ × List ω) ε α} {f : α → Pass (σ × List ω) ε β} (hm : Recounts m Q₁)
    (hf : ∀ a, Recounts (f a) Q₂) (hfail : ∀ new e, Q₁ new (some e) → Q new (some e))
    (h : ∀ new later failure?, Q₁ new none → Q₂ later failure? → Q (new ++ later) failure?) :
    Recounts (m >>= f) Q := by
  intro st notes
  obtain ⟨new, hnew, hQ⟩ := hm st notes
  rw [outcome_bind]
  cases houtcome : outcome m (st, notes) with
  | mk result between =>
    rw [houtcome] at hnew hQ
    obtain ⟨st', notes'⟩ := between
    dsimp only at hnew
    subst hnew
    cases result with
    | error e => exact ⟨new, rfl, hfail new e hQ⟩
    | ok a =>
      obtain ⟨later, hlater, hQ'⟩ := hf a st' (notes ++ new)
      exact ⟨new ++ later, by rw [← List.append_assoc]; exact hlater, h new later _ hQ hQ'⟩

theorem map {m : Pass (σ × List ω) ε α} (hm : Recounts m Q) (f : α → β) :
    Recounts (f <$> m) Q := by
  intro st notes
  rw [outcome_map, Pass.failure?_map]
  exact hm st notes

theorem mapM {f : α → Pass (σ × List ω) ε β} {R : α → List ω → Option (Failure ε) → Prop}
    {Q : List α → List ω → Option (Failure ε) → Prop} (hnil : Q [] [] none)
    (hfail : ∀ x xs new e, R x new (some e) → Q (x :: xs) new (some e))
    (hcons : ∀ x xs new later failure?, R x new none → Q xs later failure? →
      Q (x :: xs) (new ++ later) failure?) {xs : List α} (h : ∀ x ∈ xs, Recounts (f x) (R x)) :
    Recounts (xs.mapM f) (Q xs) := by
  induction xs with
  | nil => exact pure hnil
  | cons x xs ih =>
    obtain ⟨hx, hxs⟩ := List.forall_mem_cons.1 h
    rw [List.mapM_cons]
    exact hx.bind (fun y => (ih hxs).map fun ys => y :: ys) (hfail x xs) (hcons x xs)

end Recounts

/-- Whatever is noted already, a part of a pass adds notes with the property `Q`. -/
def Adds (m : Pass (σ × List ω) ε α) (Q : List ω → Prop) : Prop :=
  ∀ st notes, ∃ new, (outcome m (st, notes)).2.2 = notes ++ new ∧ Q new

theorem adds_iff_recounts {m : Pass (σ × List ω) ε α} {Q : List ω → Prop} :
    Adds m Q ↔ Recounts m fun new _ => Q new := Iff.rfl

namespace Adds

variable {Q : List ω → Prop}

theorem pure {a : α} (h : Q []) : Adds (Pure.pure a : Pass (σ × List ω) ε α) Q :=
  adds_iff_recounts.2 (Recounts.pure h)

theorem map {m : Pass (σ × List ω) ε α} (hm : Adds m Q) (f : α → β) : Adds (f <$> m) Q :=
  adds_iff_recounts.2 ((adds_iff_recounts.1 hm).map f)

theorem mapM {f : α → Pass (σ × List ω) ε β} {R : α → List ω → Prop}
    {Q : List α → List ω → Prop} (hnil : ∀ xs, Q xs [])
    (hcons : ∀ x xs new later, R x new → Q xs later → Q (x :: xs) (new ++ later)) {xs : List α}
    (h : ∀ x ∈ xs, Adds (f x) (R x)) : Adds (xs.mapM f) (Q xs) := by
  refine adds_iff_recounts.2 (Recounts.mapM (Q := fun xs new _ => Q xs new) (hnil [])
    (fun x xs new _ hnew => ?_) (fun x xs new later _ => hcons x xs new later)
    fun x hx => adds_iff_recounts.1 (h x hx))
  rw [← List.append_nil new]
  exact hcons x xs new [] hnew (hnil xs)

theorem mapM_forall {f : α → Pass (σ × List ω) ε β} {P : ω → Prop} {xs : List α}
    (h : ∀ x ∈ xs, Adds (f x) fun new => ∀ n ∈ new, P n) :
    Adds (xs.mapM f) fun new => ∀ n ∈ new, P n :=
  mapM (Q := fun _ new => ∀ n ∈ new, P n) (fun _ => List.forall_mem_nil _)
    (fun _ _ _ _ hnew hlater => List.forall_mem_append.2 ⟨hnew, hlater⟩) h

end Adds

namespace Processor

variable {p : Processor σ ε} {depth : Nat} {line : SourceLine}

/-! ### Places in a line -/

theorem handles_inline_iff {i : Invocation} :
    p.handles (.inline i) = true ↔ i.name ∈ p.inlineNames := by
  rw [handles, List.find?_isSome, inlineNames, List.mem_map]
  simp

/-- Every place in a line has its handler. -/
theorem handles_of_mem_sites {site : CallSite} (h : site ∈ (p.sites line).sites) :
    p.handles site.occasion = true := by
  have hcut : ∀ site ∈ (CallSites.ofCut (Invocation.cut p.inlineNames line.text)).sites,
      p.handles site.occasion = true := by
    intro site hsite
    obtain ⟨⟨found, after⟩, hfound, rfl⟩ := List.mem_map.1 hsite
    exact handles_inline_iff.2 (Invocation.name_mem_of_mem_cut hfound)
  unfold sites at h
  split at h
  · cases h
  · split at h
    · split at h
      · rename_i hhandler
        rw [List.mem_singleton.1 h]
        exact hhandler
      · exact hcut site h
    · exact hcut site h

/-! ### Traces -/

/-- The handlers of a pass, noting their calls with their answers. -/
def tracing (p : Processor σ ε) : Processor (σ × List Exchange) ε := p.noting Exchange.mk

/-- The call at a place adds itself, with the answer that the handler gives. -/
theorem outcome_answer_tracing {occasion : Occasion} (h : p.handles occasion = true) (st : σ)
    (notes : List Exchange) :
    outcome (p.tracing.answer depth line occasion) (st, notes) =
      ((outcome (p.answer depth line occasion) st).1,
        (outcome (p.answer depth line occasion) st).2,
        notes ++ [⟨occasion.handlerCall depth line,
          (outcome (p.answer depth line occasion) st).1.toOption⟩]) := by
  rw [tracing, outcome_answer_noting, notesOf, if_pos h]

/-- Only a block macro fails, and the failure names it and its line. -/
theorem exists_block_of_answer {occasion : Occasion} {st st' : σ} {f : Failure ε}
    (h : outcome (p.answer depth line occasion) st = (.error f, st')) :
    ∃ i cause, occasion = .block i ∧ f = ⟨i.name, line.number, cause⟩ := by
  rcases p.outcome_answer_cases depth line occasion with ⟨-, hanswer⟩ |
    ⟨i, rfl, -, handler, -, -, hanswer⟩ | ⟨i, rfl, -, handler, -, -, hanswer⟩
  · rw [hanswer] at h
    cases h
  · rw [hanswer] at h
    cases h
  · rw [hanswer] at h
    cases hrun : ((handler.run (callAt depth line i)).run.run st).1 with
    | ok output => rw [hrun] at h; cases h
    | error cause =>
      rw [hrun] at h
      cases h
      exact ⟨i, cause, rfl, rfl⟩

/-- **A place adds its call, and then what the expansion of its markup adds.** -/
theorem recounts_expandAt {deeper : Text → Pass (σ × List Exchange) ε Text} {site : CallSite}
    {D : Text → List Exchange → Option (Failure ε) → Prop}
    {Q : List Exchange → Option (Failure ε) → Prop} (hsite : p.handles site.occasion = true)
    (hdeeper : ∀ t, Recounts (deeper t) (D t))
    (hfails : ∀ i cause, site.occasion = .block i →
      Q [⟨site.occasion.handlerCall depth line, none⟩] (some ⟨i.name, line.number, cause⟩))
    (hpasses : ∀ output, (∀ t, output ≠ .markup t) →
      Q [⟨site.occasion.handlerCall depth line, some output⟩] none)
    (hmarkup : ∀ t new failure?, D t new failure? →
      Q (⟨site.occasion.handlerCall depth line, some (.markup t)⟩ :: new) failure?) :
    Recounts (p.tracing.expandAt deeper depth line site) Q := by
  intro st notes
  unfold expandAt
  rw [outcome_bind, outcome_answer_tracing hsite]
  cases houtcome : outcome (p.answer depth line site.occasion) st with
  | mk result called =>
    cases result with
    | error e =>
      obtain ⟨i, cause, hblock, rfl⟩ := exists_block_of_answer houtcome
      exact ⟨_, rfl, hfails i cause hblock⟩
    | ok output =>
      dsimp only
      cases output with
      | text s => exact ⟨_, rfl, hpasses _ nofun⟩
      | skip => exact ⟨_, rfl, hpasses _ nofun⟩
      | markup t =>
        have hrest : Recounts (deeper t >>= fun s => pure (fit s ++ site.after)) (D t) := by
          rw [← map_eq_pure_bind]
          exact (hdeeper t).map _
        obtain ⟨new, hnew, hD⟩ := hrest called
          (notes ++ [⟨site.occasion.handlerCall depth line, some (.markup t)⟩])
        rw [replacement, bind_assoc]
        simp only [pure_bind]
        refine ⟨_ :: new, ?_, hmarkup t new _ hD⟩
        rw [List.append_assoc, List.singleton_append] at hnew
        exact hnew

theorem adds_expandAt {deeper : Text → Pass (σ × List Exchange) ε Text} {site : CallSite}
    {D : Text → List Exchange → Prop} {Q : List Exchange → Prop}
    (hsite : p.handles site.occasion = true) (hdeeper : ∀ t, Adds (deeper t) (D t))
    (hcall : ∀ answer?, Q [⟨site.occasion.handlerCall depth line, answer?⟩])
    (hmarkup : ∀ t new, D t new →
      Q (⟨site.occasion.handlerCall depth line, some (.markup t)⟩ :: new)) :
    Adds (p.tracing.expandAt deeper depth line site) Q :=
  adds_iff_recounts.2 (recounts_expandAt hsite (fun t => adds_iff_recounts.1 (hdeeper t))
    (fun _ _ _ => hcall none) (fun output _ => hcall (some output))
    fun t new _ => hmarkup t new)

theorem depth_handlerCall (occasion : Occasion) (answer? : Option Output) :
    Exchange.depth ⟨occasion.handlerCall depth line, answer?⟩ = depth := by
  cases occasion <;> rfl

/-- **The calls from a text** are as deep as the text or deeper, and not deeper than the levels that
are left allow. -/
theorem depth_of_expandText (levels depth level : Nat) (s : Text) :
    Adds (p.tracing.expandText levels depth level s)
      fun new => ∀ e ∈ new, depth ≤ e.depth ∧ e.depth < depth + levels := by
  induction levels generalizing depth level s with
  | zero => exact Adds.pure (List.forall_mem_nil _)
  | succ levels ih =>
    rw [expandText, ← map_eq_pure_bind]
    refine Adds.map (Adds.mapM_forall fun line _ => ?_) _
    rw [expandLine_eq, tracing, sites_noting]
    refine Adds.map (Adds.mapM_forall fun site hsite => ?_) _
    have hcall : ∀ answer?, depth ≤ Exchange.depth ⟨site.occasion.handlerCall depth line, answer?⟩ ∧
        Exchange.depth ⟨site.occasion.handlerCall depth line, answer?⟩ < depth + (levels + 1) := by
      intro answer?
      rw [depth_handlerCall]
      omega
    refine adds_expandAt (handles_of_mem_sites hsite) (fun t => ih (depth + 1) line.level t)
      (fun answer? => ?_) fun t new hnew => ?_
    · rintro e (_ | ⟨_, ⟨⟩⟩)
      exact hcall answer?
    · rintro e (_ | ⟨_, he⟩)
      · exact hcall _
      · have := hnew e he
        omega

/-- **A text with its trace.** The pass over a text does in a state what it does beside a trace, to
which it adds calls of the depths that are left. -/
theorem expandText_tracing (levels depth level : Nat) (s : Text) (st : σ) (notes : List Exchange) :
    ∃ result st' new,
      outcome (p.expandText levels depth level s) st = (result, st') ∧
      outcome (p.tracing.expandText levels depth level s) (st, notes) =
        (result, (st', notes ++ new)) ∧
      ∀ e ∈ new, depth ≤ e.depth ∧ e.depth < depth + levels := by
  obtain ⟨new, hnew, hdepth⟩ := depth_of_expandText (p := p) levels depth level s st notes
  have hcarries := carries_expandText (carriesTo_of_noting Exchange.mk p) levels depth level s
    (st, notes)
  rw [← tracing] at hcarries
  cases houtcome : outcome (p.tracing.expandText levels depth level s) (st, notes) with
  | mk result last =>
    obtain ⟨st', notes'⟩ := last
    rw [houtcome] at hnew hcarries
    dsimp only at hnew
    subst hnew
    exact ⟨result, st', new, hcarries, rfl, hdepth⟩

end Processor

end DocSite
