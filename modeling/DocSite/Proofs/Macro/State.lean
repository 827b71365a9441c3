import DocSite.Proofs.Macro.Record

/-!
# What a pass does to the state

A pass changes the state of its handlers only through them. If a relation between states is
reflexive and transitive, and every call of a handler leaves a state that it relates to the one
before, so does the pass, whether it fails or not.

* `Moves` : a part of a pass leaves a related state.
* `Processor.MovesBy.process` : a pass leaves a state that its handlers can lead to.
-/

namespace DocSite

variable {σ ε α β : Type} {R : σ → σ → Prop}

/-- Whatever the state, a part of a pass leaves one that `R` relates to it. -/
def Moves (R : σ → σ → Prop) (m : Pass σ ε α) : Prop := ∀ st, R st (outcome m st).2

/-- Every handler leaves a state that `R` relates to the one before its call, and so do calls one
after another. -/
structure Processor.MovesBy (R : σ → σ → Prop) (p : Processor σ ε) : Prop where
  refl : ∀ st, R st st
  trans : ∀ {st between st'}, R st between → R between st' → R st st'
  inline : ∀ h ∈ p.inline, ∀ call st, R st ((h.run call).run st).2
  block : ∀ h ∈ p.block, ∀ call st, R st ((h.run call).run.run st).2

namespace Processor.MovesBy

variable {p : Processor σ ε}

theorem congruence (hp : p.MovesBy R) :
    Pass.Congruence fun α (m _ : Pass σ ε α) => Moves R m where
  pure _ := hp.refl
  bind {α β m _ f _} hm hf st := by
    have hst := hm st
    rw [outcome_bind]
    cases houtcome : outcome m st with
    | mk result between =>
      rw [houtcome] at hst
      cases result with
      | error e => exact hst
      | ok a => exact hp.trans hst (hf a between)

theorem answer (hp : p.MovesBy R) (depth : Nat) (line : SourceLine) (occasion : Occasion) :
    Moves R (p.answer depth line occasion) := by
  intro st
  rcases p.outcome_answer_cases depth line occasion with ⟨-, hanswer⟩ |
    ⟨i, rfl, -, h, hmem, -, hanswer⟩ | ⟨i, rfl, -, h, hmem, -, hanswer⟩
  · rw [hanswer]
    exact hp.refl st
  · rw [hanswer]
    exact hp.inline h hmem _ st
  · rw [hanswer]
    exact hp.block h hmem _ st

/-- **A pass leaves a state that its handlers can lead to**, whether it fails or not. -/
theorem process (hp : p.MovesBy R) (s : Text) : Moves R (p.process s) :=
  hp.congruence.expandText (fun _ => rfl) hp.answer _ 0 0 s

end Processor.MovesBy

end DocSite
