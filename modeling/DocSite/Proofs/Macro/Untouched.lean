import DocSite.Proofs.Macro.Outline
import DocSite.Proofs.Macro.Record
import DocSite.Proofs.Macro.Scan
import DocSite.Proofs.Text.Lines

/-!
# What a pass leaves alone

A pass takes a document apart: into lines, a line into the text around its macros, a macro into its
name, its target and its attributes. If no handler puts anything in, all of it comes together again.

* `Processor.fill_sites` : a line is the text around its places with the macros in them.
* `Processor.only_macros_change` : a pass in which every handler leaves its macros as they are gives
  the document with its line endings normalized.

The handlers may still change their state, so what is carried through the pass is its result alone
(`Gives`).
-/

namespace DocSite

variable {σ ε α β : Type}

/-! ### Results in any state -/

/-- A part of a pass has the result `a`, whatever the state. -/
def Gives (m : Pass σ ε α) (a : α) : Prop := ∀ st, (outcome m st).1 = .ok a

namespace Gives

theorem pure (a : α) : Gives (Pure.pure a : Pass σ ε α) a := fun _ => rfl

theorem bind {m : Pass σ ε α} {f : α → Pass σ ε β} {a : α} {b : β} (hm : Gives m a)
    (hf : Gives (f a) b) : Gives (m >>= f) b := by
  intro st
  have hst := hm st
  rw [outcome_bind]
  cases houtcome : outcome m st with
  | mk result between =>
    rw [houtcome] at hst
    dsimp only at hst
    subst hst
    exact hf between

theorem map {m : Pass σ ε α} {a : α} (hm : Gives m a) (f : α → β) : Gives (f <$> m) (f a) := by
  rw [map_eq_pure_bind]
  exact hm.bind (pure (f a))

theorem mapM {f : α → Pass σ ε β} {g : α → β} {xs : List α} (h : ∀ x ∈ xs, Gives (f x) (g x)) :
    Gives (xs.mapM f) (xs.map g) := by
  induction xs with
  | nil => exact pure []
  | cons x xs ih =>
    obtain ⟨hx, hxs⟩ := List.forall_mem_cons.1 h
    rw [List.mapM_cons, List.map_cons]
    exact hx.bind ((ih hxs).bind (pure _))

end Gives

namespace Processor

/-! ### Lines -/

theorem fill_ofCut (names : List Text) (line : Text) :
    (CallSites.ofCut (Invocation.cut names line)).fill
      ((CallSites.ofCut (Invocation.cut names line)).sites.map fun s => s.source ++ s.after) =
        line := by
  conv_rhs => rw [← Invocation.source_cut names line, Invocation.Cut.source]
  simp [CallSites.fill, CallSites.ofCut, List.flatMap_def, Function.comp_def]

/-- **A line is the text around its places with the macros in them.** -/
theorem fill_sites (p : Processor σ ε) (line : SourceLine) :
    (p.sites line).fill ((p.sites line).sites.map fun s => s.source ++ s.after) = line.text := by
  unfold sites
  split
  · simp [CallSites.fill]
  · split
    · split
      · simp [CallSites.fill]
      · exact fill_ofCut _ _
    · exact fill_ofCut _ _

/-! ### Passes -/

/-- Every handler leaves its macros as they are. It may change its state. -/
structure SkipsAll (p : Processor σ ε) : Prop where
  inline : ∀ h ∈ p.inline, ∀ call st, ((h.run call).run st).1 = .skip
  block : ∀ h ∈ p.block, ∀ call st, ((h.run call).run.run st).1 = .ok .skip

variable {p : Processor σ ε}

theorem SkipsAll.gives_answer (hp : p.SkipsAll) (depth : Nat) (line : SourceLine)
    (occasion : Occasion) : Gives (p.answer depth line occasion) .skip := by
  intro st
  rcases p.outcome_answer_cases depth line occasion with ⟨-, hanswer⟩ |
    ⟨i, rfl, -, h, hmem, -, hanswer⟩ | ⟨i, rfl, -, h, hmem, -, hanswer⟩
  · rw [hanswer]
  · rw [hanswer, hp.inline h hmem]
  · rw [hanswer, hp.block h hmem]
    rfl

theorem SkipsAll.gives_expandText (hp : p.SkipsAll) (levels depth level : Nat) (s : Text) :
    Gives (p.expandText (levels + 1) depth level s) (Text.normalizeNewlines s) := by
  have hline : ∀ line ∈ outline level s,
      Gives (p.expandLine (p.expandText levels (depth + 1)) depth line) line.text := by
    intro line _
    have hsites := fill_sites p line
    rw [expandLine_eq]
    conv => rhs; rw [← hsites]
    refine (Gives.mapM fun site _ => ?_).map _
    exact (hp.gives_answer depth line site.occasion).bind ((Gives.pure site.source).bind (.pure _))
  have hlines : (outline level s).map (·.text) = s.lines := by
    rw [outline_eq, map_text_outlineFrom]
  rw [← Text.unlines_lines, ← hlines]
  exact (Gives.mapM hline).bind (.pure _)

/-- **Nothing but macros is changed.** If every handler leaves its macros as they are, a pass
succeeds to any depth, and gives the document with its line endings normalized: only carriage
returns are lost, the order stays, and so does a line feed at the end. -/
theorem only_macros_change (hp : p.SkipsAll) (s : Text) (st : σ) :
    (outcome (p.process s) st).1 = .ok (Text.normalizeNewlines s) ∧
      (Text.normalizeNewlines s).filter (· ≠ '\r') = s.filter (· ≠ '\r') ∧
      Text.endsWithNewline (Text.normalizeNewlines s) = s.endsWithNewline :=
  ⟨hp.gives_expandText p.maxDepth 0 0 s st, Text.filter_normalizeNewlines s,
    Text.endsWithNewline_normalizeNewlines s⟩

/-- A heading, a listing, macros that are skipped, and one that is not closed before a carriage
return that ends no line. -/
theorem only_macros_change_mixed :
    let key : InlineHandler Nat := ⟨"key".toList, fun _ count => (.skip, count + 1)⟩
    let toc : BlockHandler Nat Text := ⟨"toc".toList, fun _ => pure .skip⟩
    let p : Processor Nat Text := ⟨[key], [toc], 3⟩
    let s := "= A\r\ntoc::[]\n----\r\nkey:b[c]\r\n----\n(key:d[e\\]f] key:g[\r".toList
    p.SkipsAll ∧
      (outcome (p.process s) 0).1 =
        .ok "= A\ntoc::[]\n----\nkey:b[c]\n----\n(key:d[e\\]f] key:g[\r".toList := by
  intro key toc p s
  have hp : p.SkipsAll := by
    refine ⟨fun h hh call st => ?_, fun h hh call st => ?_⟩ <;> rw [List.mem_singleton.1 hh] <;> rfl
  exact ⟨hp, (only_macros_change hp s 0).1⟩

end Processor

end DocSite
