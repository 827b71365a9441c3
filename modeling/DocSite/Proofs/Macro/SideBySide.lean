import DocSite.Proofs.Macro.Record

/-!
# Passes side by side

One document is expanded in two states of the handlers. If a relation between states is such that
related states make a handler answer alike and leave related states (`Processor.Respects`), both
passes give the same text or failure, make the same calls and leave related states. Handlers need to
respect the relation only in the calls that one of the two passes makes.

* `Alike` : equal results, and states that are related.
* `Follows` : what a part of a pass does in a state, it does in the states related to it.
* `Processor.Respects.process` : both passes are alike.
-/

namespace DocSite

variable {σ ε α β : Type}

/-- Equal results, and states that `R` relates. -/
structure Alike (R : σ → σ → Prop) (x y : α × σ) : Prop where
  result_eq : y.1 = x.1
  related : R x.2 y.2

/-- In states that `R` relates, handlers answer alike and leave related states, in the calls of
which `P` holds. -/
structure Processor.Respects (R : σ → σ → Prop) (P : HandlerCall → Prop) (p : Processor σ ε) :
    Prop where
  inline : ∀ h ∈ p.inline, ∀ call, P (.inline h.name call) → ∀ st st', R st st' →
    Alike R ((h.run call).run st) ((h.run call).run st')
  block : ∀ h ∈ p.block, ∀ call, P (.block h.name call) → ∀ st st', R st st' →
    Alike R ((h.run call).run.run st) ((h.run call).run.run st')

/-- States that `R` relates, with one record beside both. -/
def WithRecord (R : σ → σ → Prop) (x y : σ × List HandlerCall) : Prop := R x.1 y.1 ∧ y.2 = x.2

/-- What a part of a pass does in a state, it does in the states that `R` relates to it, if `P`
holds of the calls that it adds to the record. -/
def Follows (R : σ → σ → Prop) (P : HandlerCall → Prop) (m : Pass (σ × List HandlerCall) ε α) :
    Prop :=
  ∀ st record, ∃ new, (outcome m (st, record)).2.2 = record ++ new ∧
    ((∀ call ∈ new, P call) → ∀ st', R st st' →
      Alike (WithRecord R) (outcome m (st, record)) (outcome m (st', record)))

variable {R : σ → σ → Prop} {P : HandlerCall → Prop}

theorem Follows.congruence :
    Pass.Congruence fun α (m _ : Pass (σ × List HandlerCall) ε α) => Follows R P m where
  pure _ _ record := ⟨[], (List.append_nil record).symm, fun _ _ hR => ⟨rfl, hR, rfl⟩⟩
  bind {α β m _ f _} hm hf st record := by
    obtain ⟨new, hnew, halike⟩ := hm st record
    rw [outcome_bind]
    rcases hfirst : outcome m (st, record) with ⟨result, between, notes⟩
    rw [hfirst] at hnew halike
    obtain rfl : notes = record ++ new := hnew
    cases result with
    | error e =>
      refine ⟨new, rfl, fun hP st' hR => ?_⟩
      have hsecond := halike hP st' hR
      rw [outcome_bind]
      rcases hsame : outcome m (st', record) with ⟨result', between', notes'⟩
      rw [hsame] at hsecond
      obtain rfl : result' = .error e := hsecond.result_eq
      exact ⟨rfl, hsecond.related⟩
    | ok a =>
      obtain ⟨later, hlater, hnext⟩ := hf a between (record ++ new)
      refine ⟨new ++ later, by rw [hlater, List.append_assoc], fun hP st' hR => ?_⟩
      obtain ⟨hPnew, hPlater⟩ := List.forall_mem_append.1 hP
      have hsecond := halike hPnew st' hR
      rw [outcome_bind]
      rcases hsame : outcome m (st', record) with ⟨result', between', notes'⟩
      rw [hsame] at hsecond
      obtain rfl : result' = .ok a := hsecond.result_eq
      obtain rfl : notes' = record ++ new := hsecond.related.2
      exact hnext hPlater between' hsecond.related.1

namespace Processor.Respects

variable {p : Processor σ ε}

theorem alike_answer (hp : p.Respects R P) (depth : Nat) (line : SourceLine) (occasion : Occasion)
    (hP : p.handles occasion = true → P (occasion.handlerCall depth line)) {st st' : σ}
    (hR : R st st') : Alike R (outcome (p.answer depth line occasion) st)
      (outcome (p.answer depth line occasion) st') := by
  rcases p.outcome_answer_cases depth line occasion with ⟨-, hanswer⟩ |
    ⟨i, rfl, hhandles, h, hmem, hname, hanswer⟩ | ⟨i, rfl, hhandles, h, hmem, hname, hanswer⟩
  · rw [hanswer, hanswer]
    exact ⟨rfl, hR⟩
  · have hcall : P (.inline h.name (callAt depth line i)) := hname ▸ hP hhandles
    obtain ⟨hresult, hrelated⟩ := hp.inline h hmem _ hcall st st' hR
    rw [hanswer, hanswer]
    exact ⟨congrArg Except.ok hresult, hrelated⟩
  · have hcall : P (.block h.name (callAt depth line i)) := hname ▸ hP hhandles
    obtain ⟨hresult, hrelated⟩ := hp.block h hmem _ hcall st st' hR
    rw [hanswer, hanswer, hresult]
    exact ⟨rfl, hrelated⟩

theorem follows_answer (hp : p.Respects R P) (depth : Nat) (line : SourceLine)
    (occasion : Occasion) : Follows R P (p.recording.answer depth line occasion) := by
  intro st record
  rw [recording_eq, outcome_answer_noting]
  refine ⟨_, rfl, fun hP st' hR => ?_⟩
  have halike := hp.alike_answer depth line occasion
    (fun hhandles => hP _ (by rw [notesOf, if_pos hhandles]; exact List.mem_singleton_self _)) hR
  rw [outcome_answer_noting, halike.result_eq]
  exact ⟨rfl, halike.related, rfl⟩

/-- **Passes in related states are alike**: they have the same result, make the same calls and leave
related states. -/
theorem process (hp : p.Respects R P) {s : Text} {st st' : σ} (hR : R st st')
    (hP : ∀ call ∈ p.calls s st, P call) :
    Alike R (outcome (p.process s) st) (outcome (p.process s) st') ∧
      p.calls s st' = p.calls s st := by
  obtain ⟨new, hnew, halike⟩ := Follows.congruence.expandText (fun _ => rfl)
    hp.follows_answer (p.maxDepth + 1) 0 0 s st []
  have hprocess : p.recording.expandText (p.maxDepth + 1) 0 0 s = p.recording.process s := rfl
  rw [hprocess] at hnew halike
  rw [List.nil_append] at hnew
  obtain rfl : p.calls s st = new := hnew
  have hboth := halike hP st' hR
  rw [process_recording, process_recording] at hboth
  exact ⟨⟨hboth.result_eq, hboth.related.1⟩, hboth.related.2⟩

end Processor.Respects

end DocSite
