import DocSite.Macro.Pass

/-!
# Where handlers are called

A line is a block macro with a handler, or a text with inline macros in it, or left as it is. For
all that is said of a pass as a whole the difference does not matter: a line is a text with places
in it where a handler is called (`Processor.sites`), and each place is filled with what the handler
makes of its macro (`Processor.expandAt`).

* `Processor.expandLine_eq` : the pass over a line fills its places, from left to right.
* `Processor.sites_congr` : the places of a line depend on the names of the handlers alone.
* `Processor.mapHandlers` : other handlers with the same names. They are called at the same places
  (`Processor.sites_mapHandlers`).
* `Pass.Congruence.expandText` : a relation between parts of passes that is kept where parts follow
  one another holds between the passes over a text, if it holds between the calls of their handlers.
-/

namespace DocSite

/-- A macro that a handler is called for. -/
inductive Occasion where
  | inline (i : Invocation)
  | block (i : Invocation)
  deriving DecidableEq, Repr

/-- A place in a line where a handler is called. -/
structure CallSite where
  occasion : Occasion
  /-- The text of the macro. -/
  source : Text
  /-- What follows the macro up to the next place. -/
  after : Text
  deriving DecidableEq, Repr

/-- A line cut at the places where a handler is called. -/
structure CallSites where
  /-- What stands before the first place. -/
  lead : Text
  sites : List CallSite
  deriving DecidableEq, Repr

namespace CallSites

/-- The line with texts in the places. -/
def fill (c : CallSites) (parts : List Text) : Text := c.lead ++ parts.flatten

/-- The places at the inline macros of a line. -/
def ofCut (c : Invocation.Cut) : CallSites :=
  ⟨c.lead, c.sites.map fun (site, after) => ⟨.inline site.invocation, site.source, after⟩⟩

end CallSites

namespace Processor

variable {σ ε : Type} (p : Processor σ ε)

/-- The places in a line where a handler is called. -/
def sites (line : SourceLine) : CallSites :=
  if line.verbatim then ⟨line.text, []⟩
  else
    match Invocation.ofLine? line.text with
    | some i =>
      if (p.blockHandler? i.name).isSome then ⟨[], [⟨.block i, line.text, []⟩]⟩
      else .ofCut (Invocation.cut p.inlineNames line.text)
    | none => .ofCut (Invocation.cut p.inlineNames line.text)

/-- What the handlers make of a macro. -/
def answer (depth : Nat) (line : SourceLine) : Occasion → Pass σ ε Output
  | .inline i => liftM (p.runInline i.name (callAt depth line i))
  | .block i =>
    match p.blockHandler? i.name with
    | some h => (h.run (callAt depth line i)).adapt fun cause => ⟨i.name, line.number, cause⟩
    | none => pure .skip

/-- What takes the place of a macro, with what follows it. -/
def expandAt (deeper : Text → Pass σ ε Text) (depth : Nat) (line : SourceLine) (site : CallSite) :
    Pass σ ε Text := do
  let output ← p.answer depth line site.occasion
  return (← replacement deeper site.source output) ++ site.after

variable {p}

theorem expandInline_eq (deeper : Text → Pass σ ε Text) (depth : Nat) (line : SourceLine) :
    p.expandInline deeper depth line =
      (CallSites.ofCut (Invocation.cut p.inlineNames line.text)).fill <$>
        (CallSites.ofCut (Invocation.cut p.inlineNames line.text)).sites.mapM
          (p.expandAt deeper depth line) := by
  unfold expandInline CallSites.ofCut CallSites.fill
  rw [List.mapM_map, map_eq_pure_bind]
  -- a handler of inline macros cannot fail, so its call is one step in either form
  rfl

/-- **The pass over a line fills the places in it.** -/
theorem expandLine_eq (deeper : Nat → Text → Pass σ ε Text) (depth : Nat) (line : SourceLine) :
    p.expandLine deeper depth line =
      (p.sites line).fill <$>
        (p.sites line).sites.mapM (p.expandAt (deeper line.level) depth line) := by
  unfold expandLine sites
  cases line.verbatim with
  | true => simp [CallSites.fill]
  | false =>
    simp only [Bool.false_eq_true, if_false]
    cases Invocation.ofLine? line.text with
    | none => exact expandInline_eq _ _ _
    | some i =>
      cases hhandler : p.blockHandler? i.name with
      | none => simpa [hhandler] using expandInline_eq (deeper line.level) depth line
      | some h => simp [CallSites.fill, expandAt, expandBlock, answer, hhandler]

/-- The places of a line depend on the names of the handlers alone. -/
theorem sites_congr {σ' ε' : Type} {p' : Processor σ' ε'} (hinline : p.inlineNames = p'.inlineNames)
    (hblock : ∀ name, (p.blockHandler? name).isSome = (p'.blockHandler? name).isSome)
    (line : SourceLine) : p.sites line = p'.sites line := by
  unfold sites
  simp only [hinline, hblock]

/-! ### Other handlers -/

section

variable {σ' ε' : Type}

/-- A pass whose handlers are made from those of another. -/
def mapHandlers (f : InlineHandler σ → InlineHandler σ')
    (g : BlockHandler σ ε → BlockHandler σ' ε') (p : Processor σ ε) : Processor σ' ε' where
  inline := p.inline.map f
  block := p.block.map g
  maxDepth := p.maxDepth

variable (f : InlineHandler σ → InlineHandler σ') (g : BlockHandler σ ε → BlockHandler σ' ε')

theorem inlineHandler?_mapHandlers (hf : ∀ h, (f h).name = h.name) (name : Text) :
    ((p.mapHandlers f g).inline.find? fun h => h.name = name) =
      (p.inline.find? fun h => h.name = name).map f := by
  unfold mapHandlers
  rw [List.find?_map]
  simp only [Function.comp_def, hf]

theorem blockHandler?_mapHandlers (hg : ∀ h, (g h).name = h.name) (name : Text) :
    (p.mapHandlers f g).blockHandler? name = (p.blockHandler? name).map g := by
  unfold blockHandler? mapHandlers
  rw [List.find?_map]
  simp only [Function.comp_def, hg]

theorem inlineNames_mapHandlers (hf : ∀ h, (f h).name = h.name) :
    (p.mapHandlers f g).inlineNames = p.inlineNames := by
  unfold inlineNames mapHandlers
  rw [List.map_map]
  exact List.map_congr_left fun h _ => hf h

/-- Handlers with the same names are called at the same places. -/
theorem sites_mapHandlers (hf : ∀ h, (f h).name = h.name) (hg : ∀ h, (g h).name = h.name)
    (line : SourceLine) : (p.mapHandlers f g).sites line = p.sites line := by
  refine sites_congr (inlineNames_mapHandlers f g hf) (fun name => ?_) line
  rw [blockHandler?_mapHandlers f g hg, Option.isSome_map]

end

end Processor

/-! ### Passes made of related parts -/

namespace Pass

variable {σ τ ε α β : Type} {rel : ∀ α, Pass τ ε α → Pass σ ε α → Prop}

/-- A relation between parts of two passes that is kept where parts follow one another. -/
structure Congruence (rel : ∀ α, Pass τ ε α → Pass σ ε α → Prop) : Prop where
  pure : ∀ {α : Type} (a : α), rel α (Pure.pure a) (Pure.pure a)
  bind : ∀ {α β : Type} {m : Pass τ ε α} {m' : Pass σ ε α} {f : α → Pass τ ε β}
    {f' : α → Pass σ ε β}, rel α m m' → (∀ a, rel β (f a) (f' a)) → rel β (m >>= f) (m' >>= f')

namespace Congruence

theorem map (h : Congruence rel) {m : Pass τ ε α} {m' : Pass σ ε α} (hm : rel α m m') (f : α → β) :
    rel β (f <$> m) (f <$> m') := by
  rw [map_eq_pure_bind, map_eq_pure_bind]
  exact h.bind hm fun a => h.pure (f a)

theorem mapM (h : Congruence rel) {f : α → Pass τ ε β} {f' : α → Pass σ ε β}
    (hf : ∀ a, rel β (f a) (f' a)) (xs : List α) : rel (List β) (xs.mapM f) (xs.mapM f') := by
  induction xs with
  | nil => exact h.pure []
  | cons x xs ih =>
    rw [List.mapM_cons, List.mapM_cons]
    exact h.bind (hf x) fun y => h.bind ih fun ys => h.pure (y :: ys)

variable {p : Processor τ ε} {p' : Processor σ ε}

theorem expandAt (h : Congruence rel)
    (hanswer : ∀ depth line occasion,
      rel Output (p.answer depth line occasion) (p'.answer depth line occasion))
    {deeper : Text → Pass τ ε Text} {deeper' : Text → Pass σ ε Text}
    (hdeeper : ∀ s, rel Text (deeper s) (deeper' s)) (depth : Nat) (line : SourceLine)
    (site : CallSite) :
    rel Text (p.expandAt deeper depth line site) (p'.expandAt deeper' depth line site) := by
  refine h.bind (hanswer depth line site.occasion) fun output => ?_
  refine h.bind ?_ fun text => h.pure (text ++ site.after)
  cases output with
  | text s => exact h.pure s
  | markup s => exact h.bind (hdeeper s) fun t => h.pure (Processor.fit t)
  | skip => exact h.pure site.source

/-- **Passes over a text are related if the calls of their handlers are.** -/
theorem expandText (h : Congruence rel) (hsites : ∀ line, p.sites line = p'.sites line)
    (hanswer : ∀ depth line occasion,
      rel Output (p.answer depth line occasion) (p'.answer depth line occasion))
    (levels depth level : Nat) (s : Text) :
    rel Text (p.expandText levels depth level s) (p'.expandText levels depth level s) := by
  induction levels generalizing depth level s with
  | zero => exact h.pure s
  | succ levels ih =>
    refine h.bind (h.mapM (fun line => ?_) _) fun done => h.pure _
    rw [Processor.expandLine_eq, Processor.expandLine_eq, hsites]
    exact h.map (h.mapM (h.expandAt hanswer (ih (depth + 1) line.level) depth line) _) _

end Congruence

end Pass

end DocSite
