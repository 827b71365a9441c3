import DocSite.Proofs.Macro.Trace
import DocSite.Proofs.Text.Ends

/-!
# Inline expansion

A pass takes the inline macros of a line one after another, and looks for the next in what follows
the last. Its result is that of a single scan of the line: the line is cut once, at its leftmost
macros, and texts are put in the places of the macros. The cut is known before any handler is
called.

* `Processor.Replaces` : what takes the place of a macro, and what its handler does to the state.
* `Processor.FailsAt` : the markup for a macro cannot be expanded.
* `Processor.expandMacros_tracing` : the macros of a cut are replaced in their order, each by one
  call.
* `Processor.inline_expansion_is_one_scan` : the pass over a line as one scan.

Which calls are made is read from the trace. Among them are those for the macros in returned markup;
they are told from the calls for the line itself by being deeper.
-/

namespace DocSite

variable {σ ε : Type}

/-! ### Texts in the places of macros -/

namespace Invocation.Cut

/-- The macros of a line. -/
def macros (c : Cut) : List Site := c.sites.map (·.1)

/-- The line with texts in the places of its macros. -/
def fill (c : Cut) (parts : List Text) : Text :=
  c.lead ++ (List.zipWith (· ++ ·) parts (c.sites.map (·.2))).flatten

end Invocation.Cut

namespace Processor

/-- What the handler of an inline macro makes of it in a state, and the state that it leaves. -/
def inlineAnswer (p : Processor σ ε) (depth : Nat) (line : SourceLine) (site : Invocation.Site)
    (st : σ) : Output × σ :=
  (p.runInline site.invocation.name (callAt depth line site.invocation)).run st

/-- In the state `st` the text `part` takes the place of an inline macro, and the state is `st'`
after it: returned text stands as it is, markup as it is expanded, without the line feeds at its
end, and a macro that is skipped stays. There are `levels` levels left for markup. -/
inductive Replaces (p : Processor σ ε) (levels depth : Nat) (line : SourceLine)
    (site : Invocation.Site) : (st : σ) → (part : Text) → (st' : σ) → Prop
  | text {st st' : σ} {s : Text} (h : p.inlineAnswer depth line site st = (.text s, st')) :
      Replaces p levels depth line site st s st'
  | markup {st called st' : σ} {t s part : Text}
      (h : p.inlineAnswer depth line site st = (.markup t, called))
      (hdeeper : outcome (p.expandText levels (depth + 1) line.level t) called =
        (.ok s, st'))
      (hpart : Text.WithoutEnding '\n' s part) :
      Replaces p levels depth line site st part st'
  | skip {st st' : σ} (h : p.inlineAnswer depth line site st = (.skip, st')) :
      Replaces p levels depth line site st site.source st'

/-- The handler of an inline macro returns markup that cannot be expanded. -/
def FailsAt (p : Processor σ ε) (levels depth : Nat) (line : SourceLine) (site : Invocation.Site)
    (st : σ) (e : Failure ε) (st' : σ) : Prop :=
  ∃ t called, p.inlineAnswer depth line site st = (.markup t, called) ∧
    outcome (p.expandText levels (depth + 1) line.level t) called = (.error e, st')

/-- Texts take the places of macros, from left to right. -/
inductive ReplacesAll (p : Processor σ ε) (levels depth : Nat) (line : SourceLine) :
    List Invocation.Site → (st : σ) → List Text → (st' : σ) → Prop
  | nil (st : σ) : ReplacesAll p levels depth line [] st [] st
  | cons {site : Invocation.Site} {sites : List Invocation.Site} {st between st' : σ} {part : Text}
      {parts : List Text} (h : Replaces p levels depth line site st part between)
      (hsites : ReplacesAll p levels depth line sites between parts st') :
      ReplacesAll p levels depth line (site :: sites) st (part :: parts) st'

/-! ### The calls for a line -/

/-- The call for an inline macro. -/
def inlineCall (depth : Nat) (line : SourceLine) (site : Invocation.Site) : HandlerCall :=
  .inline site.invocation.name (callAt depth line site.invocation)

theorem callsAt_cons_inline (depth : Nat) (line : SourceLine) (site : Invocation.Site)
    (answer? : Option Output) (trace : List Exchange) :
    callsAt depth (⟨inlineCall depth line site, answer?⟩ :: trace) =
      inlineCall depth line site :: callsAt depth trace :=
  callsAt_cons rfl

variable {p : Processor σ ε}

/-- The calls that the pass over the inline macros of a line makes for the line itself. -/
def inlineCalls (p : Processor σ ε) (levels depth : Nat) (line : SourceLine) (st : σ) :
    List HandlerCall :=
  callsAt depth (outcome (p.tracing.expandInline
    (p.tracing.expandText levels (depth + 1) line.level) depth line) (st, [])).2.2

theorem carries_expandInline {τ : Type} {g : τ → σ} {q : Processor τ ε} (h : q.CarriesTo g p)
    (hnames : q.inlineNames = p.inlineNames) (levels depth : Nat) (line : SourceLine) :
    Carries g (q.expandInline (q.expandText levels (depth + 1) line.level) depth line)
      (p.expandInline (p.expandText levels (depth + 1) line.level) depth line) := by
  have hdeeper := carries_expandText h levels (depth + 1) line.level
  rw [expandInline_eq, expandInline_eq, hnames]
  have hparts := Carries.congruence.mapM (Carries.congruence.expandAt h.answer hdeeper depth line)
  exact Carries.congruence.map (hparts _) _

/-! ### The macros of a line -/

/-- The place of an inline macro in its line. -/
def placeOf : Invocation.Site × Text → CallSite
  | (site, after) => ⟨.inline site.invocation, site.source, after⟩

/-- **One macro** is replaced by one call, beside which there are only deeper ones. -/
theorem expandAt_tracing (levels depth : Nat) (line : SourceLine) {site : Invocation.Site}
    (hsite : site.invocation.name ∈ p.inlineNames) (after : Text) (st : σ) (notes : List Exchange) :
    ∃ result st' new,
      outcome (p.tracing.expandAt (p.tracing.expandText levels (depth + 1) line.level) depth
        line (placeOf (site, after))) (st, notes) = (result, (st', notes ++ new)) ∧
      callsAt depth new = [inlineCall depth line site] ∧
      ((∃ part, result = .ok (part ++ after) ∧ p.Replaces levels depth line site st part st') ∨
        ∃ e, result = .error e ∧ p.FailsAt levels depth line site st e st') := by
  have hanswer : outcome (p.answer depth line (.inline site.invocation)) st =
      (.ok (p.inlineAnswer depth line site st).1, (p.inlineAnswer depth line site st).2) := rfl
  have hone : ∀ answer?, callsAt depth [⟨inlineCall depth line site, answer?⟩] =
      [inlineCall depth line site] := fun answer? => callsAt_cons_inline _ _ _ _ _
  unfold expandAt placeOf
  rw [outcome_bind, outcome_answer_tracing (handles_inline_iff.2 hsite), hanswer]
  cases houtput : p.inlineAnswer depth line site st with
  | mk output called =>
    cases output with
    | text s => exact ⟨_, called, _, rfl, hone _, .inl ⟨s, rfl, .text houtput⟩⟩
    | skip => exact ⟨_, called, _, rfl, hone _, .inl ⟨site.source, rfl, .skip houtput⟩⟩
    | markup t =>
      let exchange : Exchange := ⟨inlineCall depth line site, some (.markup t)⟩
      obtain ⟨result, st', new, hplain, htraced, hdepth⟩ := expandText_tracing (p := p) levels
        (depth + 1) line.level t called (notes ++ [exchange])
      have hcalls : callsAt depth (exchange :: new) = [inlineCall depth line site] := by
        rw [callsAt_cons_inline, callsAt_of_deeper fun e he => (hdepth e he).1]
      have hrest : outcome (replacement (p.tracing.expandText levels (depth + 1) line.level)
          site.source (.markup t) >>= fun s => pure (s ++ after)) (called, notes ++ [exchange]) =
            (result.map fun s => fit s ++ after, (st', notes ++ exchange :: new)) := by
        rw [replacement, bind_assoc, outcome_bind, htraced, List.append_assoc,
          List.singleton_append]
        cases result <;> rfl
      refine ⟨_, st', exchange :: new, hrest, hcalls, ?_⟩
      cases result with
      | error e => exact .inr ⟨e, rfl, t, called, houtput, hplain⟩
      | ok s =>
        have hpart : Text.WithoutEnding '\n' s (fit s) := Text.withoutEnding_dropEndWhile '\n' s
        exact .inl ⟨fit s, rfl, .markup houtput hplain hpart⟩

/-- **The macros of a line** are replaced in their order, each by one call, until markup cannot be
expanded. -/
theorem expandMacros_tracing (levels depth : Nat) (line : SourceLine)
    {sites : List (Invocation.Site × Text)}
    (hsites : ∀ site ∈ sites, site.1.invocation.name ∈ p.inlineNames) (st : σ)
    (notes : List Exchange) :
    ∃ result st' new,
      outcome ((sites.map placeOf).mapM (p.tracing.expandAt
        (p.tracing.expandText levels (depth + 1) line.level) depth line)) (st, notes) =
          (result, (st', notes ++ new)) ∧
      ((∃ parts, result = .ok (List.zipWith (· ++ ·) parts (sites.map (·.2))) ∧
          p.ReplacesAll levels depth line (sites.map (·.1)) st parts st' ∧
          callsAt depth new = sites.map fun site => inlineCall depth line site.1) ∨
        ∃ done site rest parts between e, result = .error e ∧
          sites.map (·.1) = done ++ site :: rest ∧
          p.ReplacesAll levels depth line done st parts between ∧
          p.FailsAt levels depth line site between e st' ∧
          callsAt depth new = (done ++ [site]).map (inlineCall depth line)) := by
  induction sites generalizing st notes with
  | nil => exact ⟨_, st, [], by rw [List.append_nil]; rfl, .inl ⟨[], rfl, .nil st, rfl⟩⟩
  | cons head sites ih =>
    obtain ⟨site, after⟩ := head
    obtain ⟨hhead, htail⟩ := List.forall_mem_cons.1 hsites
    obtain ⟨result, between, new, hfirst, hcall, hresult⟩ :=
      expandAt_tracing levels depth line hhead after st notes
    rw [List.map_cons, List.mapM_cons, outcome_bind, hfirst]
    -- either the rest of the macros follow, or this one ends the calls
    rcases hresult with ⟨part, rfl, hpart⟩ | ⟨e, rfl, hfails⟩
    · obtain ⟨result, st', later, hrest, hresult⟩ := ih htail between (notes ++ new)
      dsimp only
      rw [outcome_bind, hrest, List.append_assoc]
      rcases hresult with ⟨parts, rfl, hparts, hcalls⟩ |
        ⟨done, last, rest, parts, before, e, rfl, heq, hparts, hfails, hcalls⟩
      · refine ⟨_, st', new ++ later, rfl, .inl ⟨part :: parts, rfl, .cons hpart hparts, ?_⟩⟩
        rw [callsAt_append, hcall, hcalls]
        rfl
      · refine ⟨_, st', new ++ later, rfl, .inr ⟨site :: done, last, rest, part :: parts, before, e,
          rfl, ?_, .cons hpart hparts, hfails, ?_⟩⟩
        · rw [List.map_cons, heq, List.cons_append]
        · rw [callsAt_append, hcall, hcalls]
          rfl
    · exact ⟨_, between, new, rfl, .inr ⟨[], site, sites.map (·.1), [], st, e, rfl, rfl, .nil st,
        hfails, hcall⟩⟩

/-- **Inline expansion is one scan.** A line has one cut at its leftmost macros that do not overlap,
known from the names of the handlers. One handler is called for each of them, in order, and what
comes of the calls takes their places; or markup for one of them cannot be expanded, the calls end
there, and the expansion fails. -/
theorem inline_expansion_is_one_scan (p : Processor σ ε) (levels depth : Nat) (line : SourceLine)
    (st : σ) :
    let c := Invocation.cut p.inlineNames line.text
    let expansion := outcome
      (p.expandInline (p.expandText levels (depth + 1) line.level) depth line) st
    (∀ c', Invocation.Leftmost p.inlineNames line.text c' ↔ c' = c) ∧
      ((∃ parts st', p.ReplacesAll levels depth line c.macros st parts st' ∧
          expansion = (.ok (c.fill parts), st') ∧
          p.inlineCalls levels depth line st = c.macros.map (inlineCall depth line)) ∨
        ∃ done site rest parts between e st', c.macros = done ++ site :: rest ∧
          p.ReplacesAll levels depth line done st parts between ∧
          p.FailsAt levels depth line site between e st' ∧
          expansion = (.error e, st') ∧
          p.inlineCalls levels depth line st = (done ++ [site]).map (inlineCall depth line)) := by
  intro c expansion
  refine ⟨fun c' => Invocation.leftmost_iff, ?_⟩
  have hcarries := carries_expandInline (carriesTo_of_noting Exchange.mk p) inlineNames_noting
    levels depth line (st, [])
  have hnames : ∀ site ∈ c.sites, site.1.invocation.name ∈ p.inlineNames := fun site hsite =>
    Invocation.name_mem_of_mem_cut hsite
  obtain ⟨result, st', new, houtcome, hresult⟩ :=
    expandMacros_tracing levels depth line hnames st []
  have htraced : outcome (p.tracing.expandInline
      (p.tracing.expandText levels (depth + 1) line.level) depth line) (st, []) =
        (result.map (CallSites.ofCut c).fill, (st', new)) := by
    rw [expandInline_eq, tracing, inlineNames_noting, outcome_map]
    exact congrArg (fun r => (r.1.map (CallSites.ofCut c).fill, r.2)) houtcome
  have hcalls : p.inlineCalls levels depth line st = callsAt depth new := by
    rw [inlineCalls, htraced]
  have hexpansion : expansion = (result.map (CallSites.ofCut c).fill, st') := by
    rw [← tracing, htraced] at hcarries
    exact hcarries
  -- what was found with a trace holds without one, since the trace does not change the pass
  rw [hcalls, hexpansion]
  rcases hresult with ⟨parts, rfl, hparts, hnew⟩ |
    ⟨done, site, rest, parts, between, e, rfl, heq, hparts, hfails, hnew⟩
  · refine .inl ⟨parts, st', hparts, rfl, ?_⟩
    rw [hnew, Invocation.Cut.macros, List.map_map]
    rfl
  · exact .inr ⟨done, site, rest, parts, between, e, st', heq, hparts, hfails, rfl, hnew⟩

end Processor

end DocSite
