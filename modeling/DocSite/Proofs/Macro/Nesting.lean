import DocSite.Proofs.Macro.Outline
import DocSite.Proofs.Macro.Trace
import DocSite.Proofs.Macro.Untouched
import DocSite.Proofs.Text.Ends
import Mathlib.Algebra.BigOperators.Ring.List
import Mathlib.Algebra.Field.GeomSum

/-!
# Nested expansion

Handlers may return markup with macros in it, their own among them, and may keep a state. A pass
ends nevertheless, since markup is expanded to a depth only, and the number of its calls is bounded
by what the texts in play would call if nothing were ever put in (`Processor.callCount`).

* `Processor.callCount_eq` : that number is the number of places in the lines of the text.
* `Processor.count_of_expandText` : a text with `n` places adds at most `n * (1 + k + ... + k ^ l)`
  calls, if its markup has at most `k` places, with `l` the levels that are left below it.
* `Processor.process_plainAt` : markup that is returned where no level is left stands as it is.
* `Processor.nested_expansion_is_bounded` : the bound for a document.

The count of places does not depend on what handlers return, and the bound is proved by induction on
the levels that are left: of the calls for one place one is its own, and the others are those from
the markup that it returned.
-/

namespace DocSite

variable {σ ε : Type}

/-! ### Calls without expansion -/

/-- The handler that leaves its macros as they are, and keeps no state. -/
def InlineHandler.skipping (h : InlineHandler σ) : InlineHandler Unit :=
  ⟨h.name, fun _ => pure .skip⟩

/-- The handler that leaves its macros as they are, and keeps no state. -/
def BlockHandler.skipping (h : BlockHandler σ ε) : BlockHandler Unit ε :=
  ⟨h.name, fun _ => pure .skip⟩

/-- The handlers of a pass, leaving their macros as they are. -/
def Processor.skipping (p : Processor σ ε) : Processor Unit ε :=
  p.mapHandlers InlineHandler.skipping BlockHandler.skipping

/-- How many calls a pass over a text makes if every handler leaves its macros as they are. -/
def Processor.callCount (p : Processor σ ε) (s : Text) : Nat := (p.skipping.calls s ()).length

/-- A part of a pass that keeps no state succeeds, and adds `new` to a trace. -/
def Logs {α : Type} (m : Pass (Unit × List Exchange) ε α) (new : List Exchange) : Prop :=
  ∀ notes, ∃ a, outcome m ((), notes) = (.ok a, ((), notes ++ new))

namespace Logs

variable {α β : Type}

theorem pure (a : α) : Logs (Pure.pure a : Pass (Unit × List Exchange) ε α) [] :=
  fun notes => ⟨a, by rw [outcome_pure, List.append_nil]⟩

theorem bind {m : Pass (Unit × List Exchange) ε α} {f : α → Pass (Unit × List Exchange) ε β}
    {new later : List Exchange} (hm : Logs m new) (hf : ∀ a, Logs (f a) later) :
    Logs (m >>= f) (new ++ later) := by
  intro notes
  obtain ⟨a, ha⟩ := hm notes
  obtain ⟨b, hb⟩ := hf a (notes ++ new)
  exact ⟨b, by rw [outcome_bind, ha, ← List.append_assoc]; exact hb⟩

theorem map {m : Pass (Unit × List Exchange) ε α} {new : List Exchange} (hm : Logs m new)
    (f : α → β) : Logs (f <$> m) new := by
  rw [map_eq_pure_bind, ← List.append_nil new]
  exact hm.bind fun a => pure (f a)

theorem mapM {f : α → Pass (Unit × List Exchange) ε β} {g : α → List Exchange} {xs : List α}
    (h : ∀ x ∈ xs, Logs (f x) (g x)) : Logs (xs.mapM f) (xs.flatMap g) := by
  induction xs with
  | nil => exact pure []
  | cons x xs ih =>
    obtain ⟨hx, hxs⟩ := List.forall_mem_cons.1 h
    rw [List.mapM_cons, List.flatMap_cons]
    exact hx.bind fun y => (ih hxs).map fun ys => y :: ys

end Logs

namespace Processor

variable {p : Processor σ ε}

theorem skipsAll_skipping (p : Processor σ ε) : p.skipping.SkipsAll where
  inline h hmem call st := by
    obtain ⟨_, -, rfl⟩ := List.mem_map.1 hmem
    rfl
  block h hmem call st := by
    obtain ⟨_, -, rfl⟩ := List.mem_map.1 hmem
    rfl

theorem sites_skipping (line : SourceLine) : p.skipping.sites line = p.sites line := by
  unfold skipping
  refine sites_mapHandlers _ _ (fun h => ?_) (fun h => ?_) line
  · rfl
  · rfl

/-- How many places the lines of a text have. -/
def siteCount (p : Processor σ ε) (level : Nat) (s : Text) : Nat :=
  ((outline level s).map fun line => (p.sites line).sites.length).sum

theorem siteCount_level (p : Processor σ ε) (level level' : Nat) (s : Text) :
    p.siteCount level s = p.siteCount level' s := by
  have hlines : ∀ (lines : List Text) (fence : Fence) (level level' number : Nat),
      (outlineFrom fence level number lines).map (fun line => (p.sites line).sites.length) =
        (outlineFrom fence level' number lines).map fun line => (p.sites line).sites.length := by
    intro lines
    induction lines with
    | nil => intros; rfl
    | cons text lines ih =>
      intro fence level level' number
      rw [outlineFrom_cons, outlineFrom_cons, List.map_cons, List.map_cons,
        ih (fence.next text) _ (levelAt fence level' text)]
      rfl
  rw [siteCount, siteCount, outline_eq, outline_eq, hlines]

theorem logs_expandText_skipping (p : Processor σ ε) (levels depth level : Nat) (s : Text) :
    Logs (p.skipping.tracing.expandText (levels + 1) depth level s)
      ((outline level s).flatMap fun line => (p.sites line).sites.map fun site =>
        ⟨site.occasion.handlerCall depth line, some .skip⟩) := by
  rw [expandText, ← map_eq_pure_bind]
  refine (Logs.mapM fun line _ => ?_).map _
  rw [expandLine_eq, tracing, sites_noting, sites_skipping, List.map_eq_flatMap]
  refine (Logs.mapM fun site hsite => ?_).map _
  rw [← sites_skipping] at hsite
  have hskip := (skipsAll_skipping p).gives_answer depth line site.occasion ()
  intro notes
  refine ⟨site.source ++ site.after, ?_⟩
  rw [expandAt, outcome_bind, ← tracing, outcome_answer_tracing (handles_of_mem_sites hsite),
    hskip]
  rfl

/-- **Calls without expansion** are as many as there are places in the lines. -/
theorem callCount_eq (p : Processor σ ε) (level : Nat) (s : Text) :
    p.callCount s = p.siteCount level s := by
  obtain ⟨text, htext⟩ := logs_expandText_skipping p p.maxDepth 0 0 s []
  have htrace : p.skipping.trace s () = (outline 0 s).flatMap fun line =>
      (p.sites line).sites.map fun site =>
        ⟨site.occasion.handlerCall 0 line, some .skip⟩ := by
    have hnotes : p.skipping.trace s () =
        (outcome (p.skipping.tracing.expandText (p.maxDepth + 1) 0 0 s) ((), [])).2.2 := rfl
    rw [hnotes, htext]
    rfl
  rw [callCount, calls_eq_map_trace, htrace, siteCount_level p level 0, siteCount,
    List.length_map, List.length_flatMap]
  simp

/-! ### The bound -/

/-- The markup that handlers return in the pass over a document. -/
def returned (p : Processor σ ε) (s : Text) (st : σ) : List Text :=
  (p.trace s st).filterMap fun e =>
    match e.answer? with
    | some (.markup t) => some t
    | _ => none

/-- The trace has at most `n` calls, if the markup in it makes at most `k` calls each. -/
def AtMost (p : Processor σ ε) (k n : Nat) (new : List Exchange) : Prop :=
  (∀ e ∈ new, ∀ t, e.answer? = some (.markup t) → p.callCount t ≤ k) → new.length ≤ n

theorem atMost_nil (k n : Nat) : p.AtMost k n [] := fun _ => Nat.zero_le n

theorem AtMost.append {k n m : Nat} {new later : List Exchange} (hnew : p.AtMost k n new)
    (hlater : p.AtMost k m later) : p.AtMost k (n + m) (new ++ later) := by
  intro h
  obtain ⟨hleft, hright⟩ := List.forall_mem_append.1 h
  have hn := hnew hleft
  have hm := hlater hright
  rw [List.length_append]
  omega

theorem AtMost.cons {k n : Nat} {t : Text} {call : HandlerCall} {new : List Exchange}
    (h : p.AtMost k (p.callCount t * n) new) :
    p.AtMost k (1 + k * n) (⟨call, some (.markup t)⟩ :: new) := by
  intro hmarkup
  obtain ⟨hfirst, hrest⟩ := List.forall_mem_cons.1 hmarkup
  have hlength : new.length ≤ p.callCount t * n := h hrest
  have hle : p.callCount t * n ≤ k * n := Nat.mul_le_mul_right n (hfirst t rfl)
  rw [List.length_cons]
  omega

theorem adds_mapM_atMost {α β : Type} {f : α → Pass (σ × List Exchange) ε β} {k : Nat}
    {n : α → Nat} {xs : List α} (h : ∀ x ∈ xs, Adds (f x) (p.AtMost k (n x))) :
    Adds (xs.mapM f) (p.AtMost k (xs.map n).sum) :=
  Adds.mapM (Q := fun xs => p.AtMost k (xs.map n).sum) (fun _ => atMost_nil _ _)
    (fun _ _ _ _ hnew hlater => by
      rw [List.map_cons, List.sum_cons]
      exact hnew.append hlater) h

/-- **The calls from a text.** -/
theorem count_of_expandText (p : Processor σ ε) (k levels depth level : Nat) (s : Text) :
    Adds (p.tracing.expandText levels depth level s)
      (p.AtMost k (p.callCount s * ∑ j ∈ Finset.range levels, k ^ j)) := by
  induction levels generalizing depth level s with
  | zero => exact Adds.pure (atMost_nil _ _)
  | succ levels ih =>
    -- a place costs its own call and those from its markup, which has at most `k` places
    have hsum : ∑ j ∈ Finset.range (levels + 1), k ^ j =
        1 + k * ∑ j ∈ Finset.range levels, k ^ j := by
      rw [geom_sum_succ, Nat.add_comm]
    generalize hlower : ∑ j ∈ Finset.range levels, k ^ j = lower at ih hsum
    rw [hsum, callCount_eq p level, siteCount, ← List.sum_map_mul_right, expandText,
      ← map_eq_pure_bind]
    refine Adds.map (adds_mapM_atMost fun line _ => ?_) _
    -- the cost of the line is that of its places, whatever they are
    have hline : (p.sites line).sites.length * (1 + k * lower) =
        ((p.sites line).sites.map fun _ => 1 + k * lower).sum := by
      rw [List.map_const', List.sum_replicate_nat]
    rw [hline, expandLine_eq, tracing, sites_noting]
    refine Adds.map (adds_mapM_atMost fun site hsite => ?_) _
    refine adds_expandAt (handles_of_mem_sites hsite) (fun t => ih (depth + 1) line.level t)
      (fun _ _ => ?_) fun t new hnew => hnew.cons
    exact Nat.le_add_right 1 _

/-! ### Markup at the bottom -/

section

variable (trim : Text → Text)

/-- What a handler returns, with the text that `trim` makes of markup in place of the markup. -/
def plain : Output → Output
  | .markup s => .text (trim s)
  | output => output

/-- The handler that returns for macros in a text at `bottom` no markup, but a text. -/
def plainInline (bottom : Nat) (h : InlineHandler σ) : InlineHandler σ :=
  ⟨h.name, fun call => if call.depth = bottom then plain trim <$> h.run call else h.run call⟩

/-- The handler that returns for macros in a text at `bottom` no markup, but a text. -/
def plainBlock (bottom : Nat) (h : BlockHandler σ ε) : BlockHandler σ ε :=
  ⟨h.name, fun call => if call.depth = bottom then plain trim <$> h.run call else h.run call⟩

/-- The handlers of a pass, returning text in place of markup for macros in a text at `bottom`. -/
def plainAt (bottom : Nat) (p : Processor σ ε) : Processor σ ε :=
  p.mapHandlers (plainInline trim bottom) (plainBlock trim bottom)

end

variable {trim : Text → Text}

theorem sites_plainAt (bottom : Nat) (line : SourceLine) :
    (p.plainAt trim bottom).sites line = p.sites line :=
  sites_mapHandlers (plainInline trim bottom) (plainBlock trim bottom) (fun _ => rfl)
    (fun _ => rfl) line

theorem adapt_map {α β : Type} (m : ExceptT ε (StateM σ) α) (f : α → β) (e : ε → Failure ε) :
    (f <$> m).adapt e = f <$> m.adapt e := by
  refine outcome_ext fun st => ?_
  rw [outcome_map, outcome_adapt, outcome_adapt, outcome_map]
  cases (outcome m st).1 <;> rfl

/-- At the bottom the handlers answer the same, but with markup as text. Above it they answer what
they did. -/
theorem answer_plainAt (bottom depth : Nat) (line : SourceLine) (occasion : Occasion) :
    (p.plainAt trim bottom).answer depth line occasion =
      if depth = bottom then plain trim <$> p.answer depth line occasion
      else p.answer depth line occasion := by
  cases occasion with
  | inline i =>
    dsimp only [answer, runInline]
    rw [plainAt, inlineHandler?_mapHandlers (plainInline trim _) (plainBlock trim _) fun _ => rfl]
    cases p.inline.find? fun h => h.name = i.name with
    | none => exact (ite_self _).symm
    | some handler =>
      by_cases h : depth = bottom
      · simp only [Option.map_some, plainInline, callAt, h, if_true]
        rfl
      · simp only [Option.map_some, plainInline, callAt, h, if_false]
  | block i =>
    dsimp only [answer]
    rw [plainAt, blockHandler?_mapHandlers (plainInline trim _) (plainBlock trim _) fun _ => rfl]
    cases p.blockHandler? i.name with
    | none => exact (ite_self _).symm
    | some handler =>
      by_cases h : depth = bottom
      · simp only [Option.map_some, plainBlock, callAt, h, if_true]
        exact adapt_map _ _ _
      · simp only [Option.map_some, plainBlock, callAt, h, if_false]

theorem replacement_plain (source : Text) (output : Output) :
    replacement (σ := σ) (ε := ε) pure source (plain fit output) =
      replacement pure source output := by
  cases output with
  | text s => rfl
  | markup s => rfl
  | skip => rfl

theorem expandAt_plainAt (depth : Nat) (line : SourceLine) (site : CallSite) :
    (p.plainAt fit depth).expandAt pure depth line site = p.expandAt pure depth line site := by
  unfold expandAt
  rw [answer_plainAt, if_pos rfl, bind_map_left]
  simp only [replacement_plain]

/-- What is `levels` levels above the bottom does not see what becomes of markup there. -/
theorem expandText_plainAt {bottom levels depth : Nat} (h : depth + levels = bottom + 1)
    (level : Nat) (s : Text) :
    (p.plainAt fit bottom).expandText levels depth level s =
      p.expandText levels depth level s := by
  induction levels generalizing depth level s with
  | zero => rfl
  | succ levels ih =>
    have hsite : ∀ line site,
        (p.plainAt fit bottom).expandAt
            ((p.plainAt fit bottom).expandText levels (depth + 1) line.level) depth line site =
          p.expandAt (p.expandText levels (depth + 1) line.level) depth line site := by
      intro line site
      -- at the bottom no level is left for markup, and above it the handlers are the same
      by_cases hbottom : depth = bottom
      · obtain rfl : levels = 0 := by omega
        rw [hbottom]
        exact expandAt_plainAt bottom line site
      · have hdeeper : (p.plainAt fit bottom).expandText levels (depth + 1) line.level =
            p.expandText levels (depth + 1) line.level :=
          funext fun t => ih (by omega) line.level t
        unfold expandAt
        rw [answer_plainAt, if_neg hbottom, hdeeper]
    have hline : ∀ line,
        (p.plainAt fit bottom).expandLine ((p.plainAt fit bottom).expandText levels (depth + 1))
            depth line =
          p.expandLine (p.expandText levels (depth + 1)) depth line := by
      intro line
      rw [expandLine_eq, expandLine_eq, sites_plainAt, funext (hsite line)]
    rw [expandText, expandText, funext hline]

/-- **Markup at the bottom** stands as it is, without the line feeds at its end. -/
theorem process_plainAt (p : Processor σ ε) (s : Text) :
    ∃ trim : Text → Text, (∀ t, Text.WithoutEnding '\n' t (trim t)) ∧
      p.process s = (p.plainAt trim p.maxDepth).process s :=
  ⟨fit, Text.withoutEnding_dropEndWhile '\n', (expandText_plainAt (Nat.zero_add _) 0 s).symm⟩

/-! ### The bound for a document -/

theorem trace_eq (p : Processor σ ε) (s : Text) (st : σ) :
    p.trace s st =
      (outcome (p.tracing.expandText (p.maxDepth + 1) 0 0 s) (st, [])).2.2 := rfl

theorem length_calls_le {s : Text} {st : σ} {k : Nat}
    (hk : ∀ t ∈ p.returned s st, p.callCount t ≤ k) :
    (p.calls s st).length ≤ p.callCount s * ∑ j ∈ Finset.range (p.maxDepth + 1), k ^ j := by
  obtain ⟨new, hnew, hcount⟩ := p.count_of_expandText k (p.maxDepth + 1) 0 0 s st []
  rw [List.nil_append, ← trace_eq] at hnew
  subst hnew
  rw [calls_eq_map_trace, List.length_map]
  refine hcount fun e he t ht => hk t ?_
  exact List.mem_filterMap.2 ⟨e, he, by rw [ht]⟩

theorem depth_le_of_mem_calls {s : Text} {st : σ} {c : HandlerCall} (h : c ∈ p.calls s st) :
    c.call.depth ≤ p.maxDepth := by
  obtain ⟨new, hnew, hdepth⟩ := depth_of_expandText (p := p) (p.maxDepth + 1) 0 0 s st []
  rw [List.nil_append, ← trace_eq] at hnew
  subst hnew
  rw [calls_eq_map_trace] at h
  obtain ⟨e, he, rfl⟩ := List.mem_map.1 h
  have hlt := (hdepth e he).2
  rw [Nat.zero_add] at hlt
  exact Nat.le_of_lt_succ hlt

/-- **Nested expansion is bounded.** If no markup that handlers return in a pass would call more
than `k` handlers, the pass calls at most `n * (1 + k + ... + k ^ D)`, where `n` is what the
document would call and `D` how deep markup is expanded. No call is deeper than `D`, and markup that
is returned there stands in its place as a text would that is the markup without the line feeds at
its end. -/
theorem nested_expansion_is_bounded (p : Processor σ ε) (s : Text) (st : σ) (k : Nat)
    (hk : ∀ t ∈ p.returned s st, p.callCount t ≤ k) :
    (p.calls s st).length ≤ p.callCount s * ∑ j ∈ Finset.range (p.maxDepth + 1), k ^ j ∧
      (∀ c ∈ p.calls s st, c.call.depth ≤ p.maxDepth) ∧
      ∃ trim : Text → Text, (∀ t, Text.WithoutEnding '\n' t (trim t)) ∧
        p.process s = (p.plainAt trim p.maxDepth).process s :=
  ⟨length_calls_le hk, fun _ h => depth_le_of_mem_calls h, process_plainAt p s⟩

/-- Handlers that count their calls and put two macros in for each, their own among them. -/
def doubling : Processor Nat Empty where
  inline := [⟨"pair".toList, fun _ n => (.markup "pair:a[] pair:b[]".toList, n + 1)⟩]
  block := [⟨"dup".toList, fun _ n => (.ok (.markup "dup::a[]\npair:b[]\n".toList), n + 1)⟩]
  maxDepth := 2

/-- With two levels below the document, the bound of `1 * (1 + 2 + 4)` calls is reached. -/
theorem nested_expansion_is_bounded_doubling :
    let s := "= T\n\ndup::x[]\n".toList
    (∀ t ∈ doubling.returned s 0, doubling.callCount t ≤ 2) ∧
      (doubling.calls s 0).length = 7 ∧
      doubling.callCount s * ∑ j ∈ Finset.range (doubling.maxDepth + 1), 2 ^ j = 7 ∧
      (∀ c ∈ doubling.calls s 0, c.call.depth ≤ doubling.maxDepth) ∧
      ∃ trim : Text → Text, (∀ t, Text.WithoutEnding '\n' t (trim t)) ∧
        doubling.process s = (doubling.plainAt trim doubling.maxDepth).process s := by
  intro s
  have hreturned : ∀ t ∈ doubling.returned s 0, doubling.callCount t ≤ 2 := by decide +kernel
  have hcount : (doubling.calls s 0).length = 7 := by decide +kernel
  obtain ⟨hbound, hdepth, hbottom⟩ := nested_expansion_is_bounded doubling s 0 2 hreturned
  have hlargest : doubling.callCount s * ∑ j ∈ Finset.range (doubling.maxDepth + 1), 2 ^ j ≤ 7 := by
    decide +kernel
  exact ⟨hreturned, hcount, by omega, hdepth, hbottom⟩

end Processor

end DocSite
