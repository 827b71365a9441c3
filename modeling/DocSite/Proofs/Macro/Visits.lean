import DocSite.Proofs.Macro.Trace
import Mathlib.Data.List.TakeWhile

/-!
# The way of a pass

A pass goes through the places of a text in their order. Where a handler returns markup it goes
through the places of that first, and then on. `Processor.Visits` says so of a trace: what the calls
are, which of them comes from which text, and which one a failure is the end of.

* `Processor.places` : the places of a text where handlers are called.
* `Processor.visits_trace` : the trace of a pass visits the places of the document.
* `Processor.Visits.exists_rest` : the calls from a text are those of its places, in order, up to a
  failure.
* `Processor.Visits.inner` : what follows a call that returned markup, as far as it is deeper,
  visits the places of that markup.

A visit is what a part of a pass recounts (`Recounts`): places one after another from those of each
line, and a text from its lines.
-/

namespace DocSite

variable {σ ε α β : Type}

/-! ### Places -/

/-- A place in a text where a handler is called. -/
structure Place where
  line : SourceLine
  site : CallSite
  deriving DecidableEq, Repr

/-- The call for a place in a text at `depth`. -/
def Place.call (depth : Nat) (x : Place) : HandlerCall := x.site.occasion.handlerCall depth x.line

/-- The places of a text at `depth` in a section of a level: none where markup is not expanded. -/
def Processor.places (p : Processor σ ε) (depth level : Nat) (s : Text) : List Place :=
  if depth ≤ p.maxDepth then
    (outline level s).flatMap fun line => (p.sites line).sites.map (Place.mk line)
  else []

/-- The pass through places of a text at `depth` has a trace, and fails if a failure is given. -/
inductive Processor.Visits (p : Processor σ ε) :
    (depth : Nat) → List Place → List Exchange → Option (Failure ε) → Prop
  /-- No place is left. -/
  | done {depth : Nat} : Visits p depth [] [] none
  /-- A handler of block macros fails, and the pass with it. -/
  | fails {depth : Nat} {x : Place} {places : List Place} {i : Invocation} (cause : ε)
      (h : x.site.occasion = .block i) :
      Visits p depth (x :: places) [⟨x.call depth, none⟩] (some ⟨i.name, x.line.number, cause⟩)
  /-- A handler returns text, or leaves its macro. -/
  | passes {depth : Nat} {x : Place} {places : List Place} {output : Output} {new : List Exchange}
      {failure? : Option (Failure ε)} (h : ∀ t, output ≠ .markup t)
      (hrest : Visits p depth places new failure?) :
      Visits p depth (x :: places) (⟨x.call depth, some output⟩ :: new) failure?
  /-- A handler returns markup, whose places come before those that are left. -/
  | enters {depth : Nat} {x : Place} {places : List Place} {t : Text} {inner new : List Exchange}
      {failure? : Option (Failure ε)}
      (hinner : Visits p (depth + 1) (p.places (depth + 1) x.line.level t) inner none)
      (hrest : Visits p depth places new failure?) :
      Visits p depth (x :: places) (⟨x.call depth, some (.markup t)⟩ :: (inner ++ new)) failure?
  /-- A handler returns markup, and the pass fails there. -/
  | failsWithin {depth : Nat} {x : Place} {places : List Place} {t : Text} {inner : List Exchange}
      {f : Failure ε}
      (hinner : Visits p (depth + 1) (p.places (depth + 1) x.line.level t) inner (some f)) :
      Visits p depth (x :: places) (⟨x.call depth, some (.markup t)⟩ :: inner) (some f)

/-! ### The calls from returned markup -/

namespace Exchange

/-- The calls that come from the markup that a handler returned, out of those after its own: the
next ones, as far as they are deeper. -/
def inner (e : Exchange) (after : List Exchange) : List Exchange :=
  after.takeWhile fun x => e.depth < x.depth

variable {e : Exchange} {deeper rest : List Exchange}

theorem inner_eq_self (h : ∀ x ∈ deeper, e.depth < x.depth) : e.inner deeper = deeper :=
  List.takeWhile_eq_self_iff.2 fun x hx => decide_eq_true (h x hx)

theorem inner_eq_nil (h : ∀ x ∈ rest.head?, x.depth ≤ e.depth) : e.inner rest = [] := by
  cases rest with
  | nil => rfl
  | cons x rest =>
    have hx := h x rfl
    exact List.takeWhile_cons_of_neg (by simpa using hx)

theorem inner_append (h : ∀ x ∈ rest.head?, x.depth ≤ e.depth) :
    e.inner (deeper ++ rest) = e.inner deeper := by
  have hrest := inner_eq_nil h
  unfold Exchange.inner at hrest ⊢
  rw [List.takeWhile_append, hrest]
  split
  · rename_i hall
    rw [(List.takeWhile_prefix _).eq_of_length hall, List.append_nil]
  · rfl

end Exchange

/-! ### Visits -/

namespace Processor

variable {p : Processor σ ε} {depth : Nat} {places later : List Place} {new : List Exchange}
  {failure? : Option (Failure ε)} {f : Failure ε}

theorem Visits.append {rest : List Exchange} (h : p.Visits depth places new none)
    (hlater : p.Visits depth later rest failure?) :
    p.Visits depth (places ++ later) (new ++ rest) failure? := by
  generalize hnone : (none : Option (Failure ε)) = ended at h
  induction h with
  | done => exact hlater
  | fails => cases hnone
  | passes houtput _ ih => exact .passes houtput (ih hlater hnone)
  | enters hinner _ _ ih =>
    rw [List.cons_append, List.cons_append, List.append_assoc]
    exact .enters hinner (ih hlater hnone)
  | failsWithin => cases hnone

theorem Visits.append_of_fails (h : p.Visits depth places new (some f)) :
    p.Visits depth (places ++ later) new (some f) := by
  generalize hsome : some f = ended at h
  induction h with
  | done => cases hsome
  | fails cause hblock => exact .fails cause hblock
  | passes houtput _ ih => exact .passes houtput (ih hsome)
  | enters hinner _ _ ih => exact .enters hinner (ih hsome)
  | failsWithin hinner => exact .failsWithin hinner

theorem Visits.of_markup {x : Place} {t : Text}
    (h : p.Visits (depth + 1) (p.places (depth + 1) x.line.level t) new failure?) :
    p.Visits depth [x] (⟨x.call depth, some (.markup t)⟩ :: new) failure? := by
  cases failure? with
  | some f => exact .failsWithin h
  | none =>
    rw [← List.append_nil new]
    exact .enters h .done

theorem recounts_mapM {f : α → Pass (σ × List Exchange) ε β} {g : α → List Place} {xs : List α}
    (h : ∀ x ∈ xs, Recounts (f x) (p.Visits depth (g x))) :
    Recounts (xs.mapM f) (p.Visits depth (xs.flatMap g)) := by
  refine Recounts.mapM (Q := fun xs => p.Visits depth (xs.flatMap g)) .done ?_ ?_ h
  · intro x xs new f hnew
    rw [List.flatMap_cons]
    exact hnew.append_of_fails
  · intro x xs new later failure? hnew hlater
    rw [List.flatMap_cons]
    exact hnew.append hlater

/-- A place is visited, and then those of the markup that is returned for it. -/
theorem recounts_place {deeper : Text → Pass (σ × List Exchange) ε Text} {x : Place}
    (hsite : p.handles x.site.occasion = true)
    (hdeeper : ∀ t, Recounts (deeper t)
      (p.Visits (depth + 1) (p.places (depth + 1) x.line.level t))) :
    Recounts (p.tracing.expandAt deeper depth x.line x.site) (p.Visits depth [x]) :=
  recounts_expandAt hsite hdeeper (fun _ cause hblock => .fails cause hblock)
    (fun _ houtput => .passes houtput .done) fun _ _ _ => Visits.of_markup

/-- **A text is visited** place by place, as deep as markup is expanded. -/
theorem recounts_expandText {levels : Nat} (h : depth + levels = p.maxDepth + 1) (level : Nat)
    (s : Text) :
    Recounts (p.tracing.expandText levels depth level s)
      (p.Visits depth (p.places depth level s)) := by
  induction levels generalizing depth level s with
  | zero =>
    have hdepth : ¬ depth ≤ p.maxDepth := by omega
    rw [places, if_neg hdepth]
    exact Recounts.pure .done
  | succ levels ih =>
    have hdepth : depth ≤ p.maxDepth := by omega
    rw [places, if_pos hdepth, expandText, ← map_eq_pure_bind]
    refine Recounts.map (recounts_mapM fun line _ => ?_) _
    rw [expandLine_eq, tracing, sites_noting, List.map_eq_flatMap]
    refine Recounts.map (recounts_mapM fun site hsite => ?_) _
    exact recounts_place (x := ⟨line, site⟩) (handles_of_mem_sites hsite) fun t =>
      ih (by omega) line.level t

/-- **The trace of a pass** visits the places of the document, and the failure of the pass is the
one that it ends with. -/
theorem visits_trace (p : Processor σ ε) (s : Text) (st : σ) :
    p.Visits 0 (p.places 0 0 s) (p.trace s st)
      (Pass.failure? (outcome (p.process s) st).1) := by
  obtain ⟨new, hnew, hvisits⟩ :=
    recounts_expandText (p := p) (Nat.zero_add (p.maxDepth + 1)) 0 s st []
  have hprocess : outcome (p.tracing.expandText (p.maxDepth + 1) 0 0 s) (st, []) =
      ((outcome (p.process s) st).1, (outcome (p.process s) st).2, [] ++ p.trace s st) :=
    process_noting s st []
  rw [hprocess, List.nil_append, List.nil_append] at hnew
  rw [hprocess] at hvisits
  subst hnew
  exact hvisits

/-! ### What is visited -/

theorem depth_call (x : Place) (answer? : Option Output) :
    Exchange.depth ⟨x.call depth, answer?⟩ = depth :=
  depth_handlerCall _ _

theorem site_mem_of_mem_places {outer : Nat} {s : Text} {x : Place}
    (h : x ∈ p.places depth outer s) : x.site ∈ (p.sites x.line).sites := by
  unfold places at h
  split at h
  · obtain ⟨line, -, hx⟩ := List.mem_flatMap.1 h
    obtain ⟨site, hsite, rfl⟩ := List.mem_map.1 hx
    exact hsite
  · cases h

theorem line_call (x : Place) : (x.call depth).call.line = x.line.number := by
  unfold Place.call
  cases x.site.occasion <;> rfl

theorem level_call (x : Place) : (x.call depth).call.level = x.line.level := by
  unfold Place.call
  cases x.site.occasion <;> rfl

theorem Visits.depth_le (h : p.Visits depth places new failure?) : ∀ e ∈ new, depth ≤ e.depth := by
  induction h with
  | done => exact List.forall_mem_nil _
  | fails => rw [List.forall_mem_singleton, depth_call]
  | passes _ _ ih =>
    rw [List.forall_mem_cons, depth_call]
    exact ⟨Nat.le_refl _, ih⟩
  | enters _ _ ihinner ih =>
    rw [List.forall_mem_cons, depth_call, List.forall_mem_append]
    exact ⟨Nat.le_refl _, fun e he => Nat.le_of_succ_le (ihinner e he), ih⟩
  | failsWithin _ ihinner =>
    rw [List.forall_mem_cons, depth_call]
    exact ⟨Nat.le_refl _, fun e he => Nat.le_of_succ_le (ihinner e he)⟩

theorem Visits.deeper {x : Place} {answer? : Option Output}
    (h : p.Visits (depth + 1) places new failure?) :
    ∀ e ∈ new, Exchange.depth ⟨x.call depth, answer?⟩ < e.depth := by
  intro e he
  rw [depth_call]
  exact h.depth_le e he

theorem Visits.depth_head (h : p.Visits depth places new failure?) :
    ∀ e ∈ new.head?, e.depth = depth := by
  intro e he
  cases h with
  | done => cases he
  | fails | passes | enters | failsWithin =>
    obtain rfl := Option.some.inj he
    exact depth_call _ _

/-- **The calls from a text** are those of its places in order: of all of them, or up to the one
that the pass fails at. -/
theorem Visits.exists_rest (h : p.Visits depth places new failure?) :
    ∃ rest, places.map (Place.call depth) = callsAt depth new ++ rest ∧
      (failure? = none → rest = []) := by
  induction h with
  | done => exact ⟨[], rfl, fun _ => rfl⟩
  | @fails depth x places i cause hblock =>
    refine ⟨places.map (Place.call depth), ?_, fun h => by cases h⟩
    rw [List.map_cons, callsAt_cons (depth_call x none)]
    rfl
  | @passes depth x places output new failure? houtput hrest ih =>
    obtain ⟨rest, hcalls, hnone⟩ := ih
    refine ⟨rest, ?_, hnone⟩
    rw [List.map_cons, hcalls, callsAt_cons (depth_call x _), List.cons_append]
  | @enters depth x places t inner new failure? hinner hrest _ ih =>
    obtain ⟨rest, hcalls, hnone⟩ := ih
    refine ⟨rest, ?_, hnone⟩
    rw [List.map_cons, hcalls, callsAt_cons (depth_call x _), callsAt_append,
      callsAt_of_deeper hinner.depth_le, List.nil_append, List.cons_append]
  | @failsWithin depth x places t inner f hinner _ =>
    refine ⟨places.map (Place.call depth), ?_, fun h => by cases h⟩
    rw [List.map_cons, callsAt_cons (depth_call x _), callsAt_of_deeper hinner.depth_le]
    rfl

/-- **After a call that returned markup** come the calls of a visit to the places of the markup, in
the section that the call was made in. -/
theorem Visits.inner (h : p.Visits depth places new failure?) {before after : List Exchange}
    {e : Exchange} {t : Text} (hnew : new = before ++ e :: after)
    (ht : e.answer? = some (.markup t)) :
    ∃ ended?, p.Visits (e.depth + 1) (p.places (e.depth + 1) e.call.call.level t) (e.inner after)
      ended? := by
  induction h generalizing before after with
  | done => cases before <;> cases hnew
  | fails cause hblock =>
    cases before with
    | nil =>
      obtain ⟨rfl, rfl⟩ := List.cons.inj hnew
      cases ht
    | cons _ before => cases before <;> cases (List.cons.inj hnew).2
  | passes houtput _ ih =>
    cases before with
    | nil =>
      obtain ⟨rfl, rfl⟩ := List.cons.inj hnew
      exact absurd (Option.some.inj ht) (houtput t)
    | cons _ before => exact ih (List.cons.inj hnew).2
  | @enters depth x places t' inner new failure? hinner hrest ihinner ih =>
    cases before with
    | nil =>
      obtain ⟨rfl, rfl⟩ := List.cons.inj hnew
      obtain rfl : t' = t := by simpa using ht
      have hhead : ∀ y ∈ new.head?, y.depth ≤ Exchange.depth ⟨x.call depth, some (.markup t')⟩ :=
        fun y hy => by rw [depth_call, hrest.depth_head y hy]
      rw [Exchange.inner_append hhead, Exchange.inner_eq_self hinner.deeper, depth_call, level_call]
      exact ⟨none, hinner⟩
    | cons _ before =>
      -- the call is one of those from the markup, or one of those after them
      rcases List.append_eq_append_iff.1 (List.cons.inj hnew).2 with
        ⟨between, rfl, hlater⟩ | ⟨following, rfl, hlater⟩
      · exact ih hlater
      · cases following with
        | nil =>
          have hfirst : new = [] ++ e :: after := hlater.symm
          exact ih hfirst
        | cons _ following =>
          obtain ⟨rfl, hafter⟩ := List.cons.inj hlater
          have hdeeper : depth + 1 ≤ e.depth := hinner.depth_le e (by simp)
          have hhead : ∀ y ∈ new.head?, y.depth ≤ e.depth := fun y hy => by
            rw [hrest.depth_head y hy]
            omega
          obtain rfl : after = following ++ new := hafter
          rw [Exchange.inner_append hhead]
          exact ihinner rfl
  | @failsWithin depth x places t' inner f hinner ihinner =>
    cases before with
    | nil =>
      obtain ⟨rfl, rfl⟩ := List.cons.inj hnew
      obtain rfl : t' = t := by simpa using ht
      rw [Exchange.inner_eq_self hinner.deeper, depth_call, level_call]
      exact ⟨some f, hinner⟩
    | cons _ before => exact ihinner (List.cons.inj hnew).2

end Processor

end DocSite
