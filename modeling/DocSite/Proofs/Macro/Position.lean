import DocSite.Proofs.Macro.Section
import DocSite.Proofs.Macro.Visits

/-!
# The position of a macro

A handler is told where its macro stands: in which line, and in a section of which level. For a
macro of the document both are those of the document, whatever was put in before it; for a macro in
returned markup they are those of the markup, which starts in the section of the macro that it was
returned for.

* `Processor.exists_line_of_mem_places` : a place has the number of its line and the section of the
  last heading at or before it.
* `Processor.handlers_see_their_position` : the calls of a pass with their positions.

The places of a text are known before any handler is called, and a pass calls the handlers for them
in order. So nothing of an expansion gets into the position of what follows it.
-/

namespace DocSite

namespace Processor

variable {σ ε : Type} {p : Processor σ ε}

/-- The call for a place has the number of its line and the level of its section. -/
theorem exists_line_of_mem_places {depth outer : Nat} {s : Text} {x : Place}
    (h : x ∈ p.places depth outer s) :
    ∃ i, s.lines[i]? = some x.line.text ∧ (x.call depth).call.line = i + 1 ∧
      SectionAfter outer s.lines (i + 1) (x.call depth).call.level := by
  unfold places at h
  split at h
  · obtain ⟨line, hline, hx⟩ := List.mem_flatMap.1 h
    obtain ⟨site, -, rfl⟩ := List.mem_map.1 hx
    obtain ⟨i, hi⟩ := List.mem_iff_getElem?.1 hline
    obtain ⟨htext, hnumber, -, hsection⟩ := getElem?_outline hi
    refine ⟨i, htext, ?_, ?_⟩
    · rw [line_call, hnumber]
    · rw [level_call, ← hnumber]
      exact hsection
  · cases h

/-- **Handlers see the position of their macro.** The handlers are called for the places of the
document in order, for all of them or up to a failure; a call has the number of its line, and the
level of the section of the last heading at or before it. It is the same for the markup that a
handler returns, which starts in the section that the handler was called in. -/
theorem handlers_see_their_position (p : Processor σ ε) (s : Text) (st : σ) :
    (∀ depth outer t, ∀ x ∈ p.places depth outer t, ∃ i,
        t.lines[i]? = some x.line.text ∧ (x.call depth).call.line = i + 1 ∧
        SectionAfter outer t.lines (i + 1) (x.call depth).call.level) ∧
      (∃ rest, (p.places 0 0 s).map (Place.call 0) = callsAt 0 (p.trace s st) ++ rest ∧
        ((outcome (p.process s) st).1.isOk = true → rest = [])) ∧
      ∀ before e after t, p.trace s st = before ++ e :: after → e.answer? = some (.markup t) →
        callsAt (e.depth + 1) (e.inner after) <+:
          (p.places (e.depth + 1) e.call.call.level t).map (Place.call (e.depth + 1)) := by
  have hvisits := p.visits_trace s st
  refine ⟨fun depth outer t x hx => exists_line_of_mem_places hx, ?_, ?_⟩
  · obtain ⟨rest, hcalls, hrest⟩ := hvisits.exists_rest
    refine ⟨rest, hcalls, fun hok => hrest ?_⟩
    cases hresult : (outcome (p.process s) st).1 with
    | ok output => rfl
    | error f =>
      rw [hresult] at hok
      cases hok
  · intro before e after t htrace ht
    obtain ⟨ended?, hinner⟩ := hvisits.inner htrace ht
    obtain ⟨rest, hcalls, -⟩ := hinner.exists_rest
    exact ⟨rest, hcalls.symm⟩

/-- A section that is put in has its own lines and headings, and leaves those of the document. -/
example :
    let add : BlockHandler Unit Empty :=
      ⟨"add".toList, fun call => pure (.markup ("=== Added\n\n\nkey:".toList ++ call.target ++
        "[]\n".toList))⟩
    let key : InlineHandler Unit := ⟨"key".toList, fun _ => pure .skip⟩
    let p : Processor Unit Empty := { inline := [key], block := [add] }
    (p.calls "= A\n\n== B\nadd::x[]\nkey:y[]\n".toList ()).map
      (fun c => (c.call.depth, c.call.line, c.call.level)) =
        [(0, 4, 1), (1, 4, 2), (0, 5, 1)] := by
  decide +kernel

end Processor

end DocSite
