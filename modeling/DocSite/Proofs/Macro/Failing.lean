import DocSite.Proofs.Macro.Position

/-!
# Where a failure comes from

A failure names a block macro and a line. The line is one of the text that carries the macro: of the
document, if the macro stands there, and otherwise of markup that a handler returned. The calls of
the pass tell how the document led to that text.

* `Processor.openCalls` : the calls that a trace ends in, each in the markup of the one before.
* `Processor.LeadsTo` : the calls that lead from a text to the macro that fails.
* `Processor.failure_has_line_of_its_text` : a failing pass ends in the calls that lead to the macro
  of the failure, and the last of them is in its line.
* `Processor.failure_line_beyond_document` : the line may be none of the document.

So the line of a failure is to be looked for in the document only if no call leads to the last one.
-/

namespace DocSite

namespace Processor

variable {σ ε : Type}

/-! ### The calls that lead to a failure -/

/-- The calls that a trace ends in: those that all later ones are deeper than. -/
def openCalls : List Exchange → List Exchange
  | [] => []
  | e :: later =>
    if ∀ x ∈ later, e.depth < x.depth then e :: openCalls later else openCalls later

/-- A call is closed when its text goes on, or the one around it. -/
theorem openCalls_cons_of_head {e x : Exchange} {later : List Exchange}
    (hx : later.head? = some x) (h : x.depth ≤ e.depth) :
    openCalls (e :: later) = openCalls later := by
  have hmem : x ∈ later := List.mem_of_mem_head? hx
  rw [openCalls, if_neg fun hall => by have := hall x hmem; omega]

theorem openCalls_append_of_head {x : Exchange} {inner later : List Exchange}
    (hx : later.head? = some x) (h : ∀ e ∈ inner, x.depth ≤ e.depth) :
    openCalls (inner ++ later) = openCalls later := by
  induction inner with
  | nil => rfl
  | cons e inner ih =>
    obtain ⟨he, hinner⟩ := List.forall_mem_cons.1 h
    have hmem : x ∈ inner ++ later := List.mem_append_right _ (List.mem_of_mem_head? hx)
    rw [List.cons_append, openCalls, if_neg fun hall => by have := hall x hmem; omega, ih hinner]

/-- From places of a text at `depth` the calls `callers` lead to the call `last`, which fails with
`f`: each of them returned markup, and the next is for a macro in it. -/
inductive LeadsTo (p : Processor σ ε) :
    (depth : Nat) → List Place → (callers : List Exchange) → (last : Exchange) → Failure ε → Prop
  | fails {depth : Nat} {places : List Place} {x : Place} {i : Invocation} (cause : ε)
      (hx : x ∈ places) (h : x.site.occasion = .block i) :
      LeadsTo p depth places [] ⟨x.call depth, none⟩ ⟨i.name, x.line.number, cause⟩
  | enters {depth : Nat} {places : List Place} {x : Place} {t : Text} {callers : List Exchange}
      {last : Exchange} {f : Failure ε} (hx : x ∈ places)
      (h : LeadsTo p (depth + 1) (p.places (depth + 1) x.line.level t) callers last f) :
      LeadsTo p depth places (⟨x.call depth, some (.markup t)⟩ :: callers) last f

variable {p : Processor σ ε} {depth : Nat} {places places' : List Place}
  {callers new : List Exchange} {last : Exchange} {f : Failure ε}

theorem LeadsTo.mono (h : p.LeadsTo depth places callers last f) (hsub : places ⊆ places') :
    p.LeadsTo depth places' callers last f := by
  cases h with
  | fails cause hx hblock => exact .fails cause (hsub hx) hblock
  | enters hx h => exact .enters (hsub hx) h

theorem LeadsTo.line_eq (h : p.LeadsTo depth places callers last f) :
    last.answer? = none ∧ last.call.call.line = f.line := by
  induction h with
  | fails => exact ⟨rfl, line_call _⟩
  | enters _ _ ih => exact ih

theorem LeadsTo.exists_first (h : p.LeadsTo depth places callers last f) :
    ∃ x ∈ places, ((callers ++ [last]).head?.map (·.call)) = some (x.call depth) := by
  cases h with
  | fails cause hx hblock => exact ⟨_, hx, rfl⟩
  | enters hx h => exact ⟨_, hx, rfl⟩

theorem LeadsTo.exists_block (h : p.LeadsTo depth places [] last f) :
    ∃ x ∈ places, x.line.number = f.line ∧ ∃ i, x.site.occasion = .block i ∧ i.name = f.name := by
  cases h with
  | fails cause hx hblock => exact ⟨_, hx, rfl, _, hblock, rfl⟩

/-- A visit that fails has made a call, the first of them for its text. -/
theorem Visits.exists_head (h : p.Visits depth places new (some f)) :
    ∃ x, new.head? = some x ∧ x.depth = depth := by
  cases hnew : new with
  | nil => subst hnew; cases h
  | cons x new => exact ⟨x, rfl, h.depth_head x (by rw [hnew]; rfl)⟩

/-- **A visit that fails** ends in the calls that lead to the failure. -/
theorem Visits.exists_leadsTo (h : p.Visits depth places new (some f)) :
    ∃ callers last, openCalls new = callers ++ [last] ∧ new.getLast? = some last ∧
      p.LeadsTo depth places callers last f := by
  generalize hsome : some f = ended at h
  induction h with
  | done => cases hsome
  | fails cause hblock =>
    obtain rfl := Option.some.inj hsome
    exact ⟨[], _, rfl, rfl, .fails cause List.mem_cons_self hblock⟩
  | @passes depth x places output new ended _ hrest ih =>
    -- a call for the same text follows, so the one for `x` is closed
    obtain ⟨callers, last, hopen, hlast, hleads⟩ := ih hsome
    subst hsome
    obtain ⟨y, hy, hdepth⟩ := hrest.exists_head
    refine ⟨callers, last, ?_, ?_, hleads.mono (List.subset_cons_self _ _)⟩
    · rw [openCalls_cons_of_head hy (by rw [hdepth, depth_call]), hopen]
    · rw [List.getLast?_cons, hlast]
      rfl
  | @enters depth x places t inner new ended hinner hrest _ ih =>
    -- a call for the same text follows, so all those from the markup are closed too
    obtain ⟨callers, last, hopen, hlast, hleads⟩ := ih hsome
    subst hsome
    obtain ⟨y, hy, hdepth⟩ := hrest.exists_head
    have hcall : ∀ e ∈ (⟨x.call depth, some (.markup t)⟩ :: inner : List Exchange),
        y.depth ≤ e.depth := by
      rw [List.forall_mem_cons, depth_call, hdepth]
      exact ⟨Nat.le_refl _, fun e he => Nat.le_of_succ_le (hinner.depth_le e he)⟩
    refine ⟨callers, last, ?_, ?_, hleads.mono (List.subset_cons_self _ _)⟩
    · rw [← List.cons_append, openCalls_append_of_head hy hcall, hopen]
    · rw [← List.cons_append, List.getLast?_append, hlast]
      rfl
  | @failsWithin depth x places t inner f' hinner ih =>
    -- only calls from the markup follow, so the one for `x` stays open
    obtain ⟨callers, last, hopen, hlast, hleads⟩ := ih hsome
    obtain rfl := Option.some.inj hsome
    refine ⟨⟨x.call depth, some (.markup t)⟩ :: callers, last, ?_, ?_,
      .enters List.mem_cons_self hleads⟩
    · rw [openCalls, if_pos hinner.deeper, hopen, List.cons_append]
    · rw [List.getLast?_cons, hlast]
      rfl

theorem ofLine?_of_mem_sites {line : SourceLine} {site : CallSite} {i : Invocation}
    (hsite : site ∈ (p.sites line).sites) (hblock : site.occasion = .block i) :
    Invocation.ofLine? line.text = some i := by
  have hcut : ∀ site ∈ (CallSites.ofCut (Invocation.cut p.inlineNames line.text)).sites,
      site.occasion ≠ .block i := by
    intro site hsite
    obtain ⟨found, -, rfl⟩ := List.mem_map.1 hsite
    exact fun h => by cases h
  unfold sites at hsite
  split at hsite
  · cases hsite
  · split at hsite
    · rename_i m hline
      split at hsite
      · obtain rfl := List.mem_singleton.1 hsite
        rw [hline, Occasion.block.inj hblock]
      · exact absurd hblock (hcut site hsite)
    · exact absurd hblock (hcut site hsite)

/-! ### The line of a failure -/

/-- **The line of a failure.** A failing pass ends with the call for the block macro that the
failure names, in the line that it names. Either the macro stands in the document, and the line is
one of the document; or calls lead to it, the first for a macro in a line of the document, and the
line is one of the markup that the last of them returned. -/
theorem failure_has_line_of_its_text {s : Text} {st : σ}
    (h : (outcome (p.process s) st).1 = .error f) :
    ∃ callers last, openCalls (p.trace s st) = callers ++ [last] ∧
      (p.trace s st).getLast? = some last ∧ last.answer? = none ∧ last.call.call.line = f.line ∧
      p.LeadsTo 0 (p.places 0 0 s) callers last f ∧
      (∃ first i, (callers ++ [last]).head? = some first ∧ i < s.lines.length ∧
        first.call.call.line = i + 1) ∧
      (callers = [] → ∃ i line m, f.line = i + 1 ∧ s.lines[i]? = some line ∧
        Invocation.ofLine? line = some m ∧ m.name = f.name) := by
  have hvisits := p.visits_trace s st
  rw [h] at hvisits
  obtain ⟨callers, last, hopen, hlast, hleads⟩ := hvisits.exists_leadsTo
  obtain ⟨hanswer, hline⟩ := hleads.line_eq
  refine ⟨callers, last, hopen, hlast, hanswer, hline, hleads, ?_, ?_⟩
  · obtain ⟨x, hx, hfirst⟩ := hleads.exists_first
    obtain ⟨first, hhead, hcall⟩ := Option.map_eq_some_iff.1 hfirst
    obtain ⟨i, htext, hnumber, -⟩ := exists_line_of_mem_places hx
    refine ⟨first, i, hhead, (List.getElem?_eq_some_iff.1 htext).1, ?_⟩
    rw [hcall, hnumber]
  · rintro rfl
    obtain ⟨x, hx, hnumber, m, hblock, hname⟩ := hleads.exists_block
    obtain ⟨i, htext, hcall, -⟩ := exists_line_of_mem_places hx
    refine ⟨i, x.line.text, m, ?_, htext, ofLine?_of_mem_sites (site_mem_of_mem_places hx) hblock,
      hname⟩
    rw [← hnumber, ← hcall, line_call]

/-- The macro `list::` returns markup in which the macro `fail::` stands in the third line. -/
def listing : Processor Unit Text where
  block :=
    [⟨"list".toList, fun _ => pure (.markup "First.\n\nfail::x[]\n".toList)⟩,
     ⟨"fail".toList, fun _ => throw "no".toList⟩]

/-- The document has one line, and one call leads to the failure. -/
theorem failure_has_line_of_its_text_listing :
    ∃ f, (outcome (listing.process "list::x[]\n".toList) ()).1 = .error f ∧ f.line = 3 ∧
      ∃ callers last, openCalls (listing.trace "list::x[]\n".toList ()) = callers ++ [last] ∧
        callers.length = 1 ∧ last.call.call.line = f.line ∧
        listing.LeadsTo 0 (listing.places 0 0 "list::x[]\n".toList) callers last f := by
  have hfails : (outcome (listing.process "list::x[]\n".toList) ()).1 =
      .error ⟨"fail".toList, 3, "no".toList⟩ := by decide +kernel
  have hopen : (openCalls (listing.trace "list::x[]\n".toList ())).length = 2 := by decide +kernel
  obtain ⟨callers, last, hcallers, -, -, hline, hleads, -⟩ := failure_has_line_of_its_text hfails
  refine ⟨_, hfails, rfl, callers, last, hcallers, ?_, hline, hleads⟩
  rw [hcallers, List.length_append] at hopen
  exact Nat.succ.inj hopen

/-- **A failure may have a line that the document does not have**, though it is told of the
document. -/
theorem failure_line_beyond_document :
    ∃ f, (outcome (listing.process "list::x[]\n".toList) ()).1 = .error f ∧
      ¬ (1 ≤ f.line ∧ f.line ≤ (Text.lines "list::x[]\n".toList).length) :=
  ⟨⟨"fail".toList, 3, "no".toList⟩, by decide +kernel, by decide +kernel⟩

end Processor

end DocSite
