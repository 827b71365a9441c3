import DocSite.Proofs.Macro.SideBySide
import DocSite.Proofs.News.Registration

/-!
# Documents of different modules

A document reads the catalog that other documents have registered feeds in. Of the feed of another
module it sees nothing, unless a listing asks for the attachments of that module: the feed is not
published, so that links and articles do not lead to it, and it does not stand where the document
registers its own feed. So documents of different modules may be expanded in either order.

* `Catalog.Beside` : two catalogs with the same files registered, of which one had one more before.
* `News.alike_generate` : a listing does not see that file.
* `Site.process_after_feed` : nor does a document.
* `Site.documents_commute` : documents of different modules are expanded in either order.
-/

namespace DocSite

namespace Catalog

variable {c c₁ c₂ : Catalog} {e f : Entry} {l : Location} {es es' : List Entry}

theorem extend_injective (h : c.extend es = c.extend es') : es = es' :=
  List.append_cancel_left (congrArg Catalog.files h)

/-- The same files are registered over `c`, and over `c` with the file `e`, whose location is free
without it. -/
inductive Beside (c : Catalog) (e : Entry) : Catalog → Catalog → Prop
  | intro (es : List Entry) (hfree : (c.extend es).at? e.location = none) :
    Beside c e (c.extend es) ((c.extend [e]).extend es)

theorem Beside.eq_extend (h : Beside c e (c.extend es) c₂) : c₂ = c.extend ([e] ++ es) := by
  generalize hes : c.extend es = c₁ at h
  cases h with
  | intro es' hfree =>
    rw [extend_injective hes, extend_extend]

theorem Beside.component?_eq (h : Beside c e c₁ c₂) (name : Text) :
    c₂.component? name = c₁.component? name := by
  cases h with
  | intro es hfree => rfl

theorem Beside.at?_eq_of_ne (h : Beside c e c₁ c₂) (hne : e.location ≠ l) :
    c₂.at? l = c₁.at? l := by
  cases h with
  | intro es hfree => simp [at?, extend, List.find?_append, hne]

theorem Beside.publication?_eq (h : Beside c e c₁ c₂) (he : e.publication? = none) (l : Location) :
    (c₂.at? l).bind Entry.publication? = (c₁.at? l).bind Entry.publication? := by
  by_cases hne : e.location = l
  · subst hne
    cases h with
    | intro es hfree =>
      obtain ⟨hc, -⟩ := at?_extend_eq_none_iff.1 hfree
      have hfound : (c.extend [e]).at? e.location = some e := by
        rw [at?_extend, hc, Option.none_or, if_pos rfl]
      rw [hfree, at?_extend_of_some hfound, Option.bind_some, he, Option.bind_none]
  · rw [h.at?_eq_of_ne hne]

theorem Beside.bind_publication? {α : Type} (h : Beside c e c₁ c₂) (he : e.publication? = none)
    (reference : Text) (context : Location) (family : Family) (f : Publication → Option α) :
    ((c₂.resolve? reference context family).bind fun file => file.publication?.bind f) =
      (c₁.resolve? reference context family).bind fun file => file.publication?.bind f := by
  unfold resolve?
  cases Location.ofReference? reference context family with
  | none => rfl
  | some l =>
    rw [Option.bind_some, Option.bind_some, ← Option.bind_assoc, ← Option.bind_assoc,
      h.publication?_eq he]

theorem Beside.select_eq (h : Beside c e c₁ c₂) {glob : Text} {context : Location}
    (hglob : ∀ k ∈ Location.ofReference? glob context context.family,
      Glob.describes k e.location = false) : c₂.select glob context = c₁.select glob context := by
  unfold select
  cases hk : Location.ofReference? glob context context.family with
  | none => rfl
  | some k =>
    cases h with
    | intro es hfree => simp [extend, List.filter_append, hglob k hk]

theorem Beside.refusal?_eq (h : Beside c e c₁ c₂) : c₂.refusal? = c₁.refusal? := by
  cases h with
  | intro es hfree => rfl

theorem Beside.extend (h : Beside c e c₁ c₂) (hne : f.location ≠ e.location) :
    Beside c e (c₁.extend [f]) (c₂.extend [f]) := by
  cases h with
  | intro es hfree =>
    rw [extend_extend, extend_extend]
    refine .intro _ ?_
    rw [← extend_extend, at?_extend_eq_none_iff]
    exact ⟨hfree, by simpa using hne⟩

theorem Beside.add (h : Beside c e c₁ c₂) (hne : f.location ≠ e.location) :
    (∃ cause, c₁.add f = .error cause ∧ c₂.add f = .error cause) ∨
      c₁.add f = .ok (c₁.extend [f]) ∧ c₂.add f = .ok (c₂.extend [f]) ∧
        Beside c e (c₁.extend [f]) (c₂.extend [f]) := by
  have hat := h.at?_eq_of_ne hne.symm
  have hrefusal := h.refusal?_eq
  cases hopen : c₁.refusal? with
  | some reason =>
    refine .inl ⟨.unavailable reason, ?_, ?_⟩ <;> unfold Catalog.add
    · rw [hopen]
    · rw [hrefusal, hopen]
  | none =>
    by_cases htaken : c₁.at? f.location = none
    · exact .inr ⟨add_eq_ok_iff.2 ⟨hopen, htaken, rfl⟩,
        add_eq_ok_iff.2 ⟨hrefusal.trans hopen, hat.trans htaken, rfl⟩, h.extend hne⟩
    · exact .inl ⟨_, add_eq_duplicate hopen htaken,
        add_eq_duplicate (hrefusal.trans hopen) (hat ▸ htaken)⟩

end Catalog

namespace News

open Catalog (Beside)

variable {scope : Scope} {c c₁ c₂ : Catalog} {e : Entry} {other : Location}

/-- The glob of a call that makes a listing. -/
def globOf? : HandlerCall → Option Text
  | .block handler call => if handler = name then glob? call else none
  | .inline _ _ => none

/-- A glob in a document at `context` asks for attachments of the module that `other` is in. -/
def Addresses (glob : Text) (context other : Location) : Prop :=
  ∃ k ∈ Location.ofReference? glob context context.family,
    k.family = .attachment ∧ k.sameModule other = true

instance (glob : Text) (context other : Location) : Decidable (Addresses glob context other) :=
  inferInstanceAs (Decidable (∃ k ∈ Location.ofReference? glob context context.family,
    k.family = .attachment ∧ k.sameModule other = true))

/-- The file `e` is a feed of the module that `other` is in, and no document of that module is at
`context`. -/
structure IsForeign (e : Entry) (other context : Location) : Prop where
  location : e.location = feedLocation other
  unpublished : e.publication? = none
  module : context.sameModule other = false

theorem sameModule_comm (a b : Location) : a.sameModule b = b.sameModule a := by
  simp only [Location.sameModule, eq_comm]

theorem IsForeign.feedLocation_ne (he : IsForeign e other scope.location) :
    feedLocation scope.location ≠ e.location := by
  intro heq
  have hsame : (feedLocation scope.location).sameModule (feedLocation other) = true := by
    rw [heq, he.location]
    simp [Location.sameModule]
  have hmodule : scope.location.sameModule other = true := hsame
  rw [he.module] at hmodule
  cases hmodule

/-- A glob that does not ask for attachments of a module does not describe the feed of it. -/
theorem IsForeign.not_describes (he : IsForeign e other scope.location) {glob : Text}
    (hglob : ¬ Addresses glob scope.location other) {k : Location}
    (hk : Location.ofReference? glob scope.location scope.location.family = some k) :
    Glob.describes k e.location = false := by
  rw [Bool.eq_false_iff, he.location]
  intro hdescribes
  simp only [Glob.describes, Bool.and_eq_true, decide_eq_true_eq] at hdescribes
  obtain ⟨⟨hmodule, hfamily⟩, -⟩ := hdescribes
  exact hglob ⟨k, hk, hfamily.symm, (sameModule_comm _ _).trans hmodule⟩

theorem item?_eq_of_beside (h : Beside c e c₁ c₂) (he : e.publication? = none) (s : Summary) :
    item? scope c₂ s = item? scope c₁ s :=
  h.bind_publication? he _ _ _ _

theorem feed_eq_of_beside (h : Beside c e c₁ c₂) (he : e.publication? = none)
    (summaries : List Summary) : feed scope c₂ summaries = feed scope c₁ summaries := by
  have hitem : item? scope c₂ = item? scope c₁ := funext (item?_eq_of_beside h he)
  rw [feed, feed, hitem]

/-- **A listing does not see the feed of another module**, unless it asks for the attachments of
that module. -/
theorem generate_of_beside (h : Beside c e c₁ c₂) (he : IsForeign e other scope.location)
    {glob : Text} (hglob : ¬ Addresses glob scope.location other) (level : Nat) :
    (∃ cause, generate scope c₁ glob level = .error cause ∧
        generate scope c₂ glob level = .error cause) ∨
      ∃ listing c₁' c₂', generate scope c₁ glob level = .ok (listing, c₁') ∧
        generate scope c₂ glob level = .ok (listing, c₂') ∧ Beside c e c₁' c₂' := by
  unfold generate
  rw [h.select_eq fun k hk => he.not_describes hglob hk]
  cases Summary.list (c₁.select glob scope.location) scope.location with
  | error cause => exact .inl ⟨cause, rfl, rfl⟩
  | ok summaries =>
    have hfeed : feed scope c₂ summaries = feed scope c₁ summaries :=
      feed_eq_of_beside h he.unpublished summaries
    rcases h.add (f := feedEntry scope (feed scope c₁ summaries)) he.feedLocation_ne with
      ⟨cause, hfirst, hsecond⟩ | ⟨hfirst, hsecond, hbeside⟩
    · refine .inl ⟨.catalog cause, ?_, ?_⟩
      · simp only [bind, Except.bind, hfirst]
      · simp only [bind, Except.bind, hfeed, hsecond]
    · refine .inr ⟨Listing.render level (listed scope summaries), _, _, ?_, ?_, hbeside⟩
      · simp only [bind, Except.bind, hfirst]
      · simp only [bind, Except.bind, hfeed, hsecond]

theorem alike_blockHandler (h : Beside c e c₁ c₂) (he : IsForeign e other scope.location)
    {call : Call} (hcall : ∀ glob ∈ glob? call, ¬ Addresses glob scope.location other) :
    Alike (Beside c e) (((blockHandler scope).run call).run.run c₁)
      (((blockHandler scope).run call).run.run c₂) := by
  cases hglob : glob? call with
  | none =>
    rw [run_blockHandler_of_none hglob, run_blockHandler_of_none hglob]
    exact ⟨rfl, h⟩
  | some glob =>
    rcases generate_of_beside h he (hcall glob hglob) call.level with
      ⟨cause, hfirst, hsecond⟩ | ⟨listing, c₁', c₂', hfirst, hsecond, hbeside⟩
    · rw [run_blockHandler_of_error hglob hfirst, run_blockHandler_of_error hglob hsecond]
      exact ⟨rfl, h⟩
    · rw [run_blockHandler_of_ok hglob hfirst, run_blockHandler_of_ok hglob hsecond]
      exact ⟨rfl, hbeside⟩

end News

theorem FileLink.markup_eq_of_beside {c c₁ c₂ : Catalog} {e : Entry} {scope : Scope}
    (h : c.Beside e c₁ c₂) (he : e.publication? = none) (call : Call) :
    markup scope c₂ call = markup scope c₁ call := by
  have hurl : url? scope c₂ call.target = url? scope c₁ call.target :=
    h.bind_publication? he _ _ _ _
  rw [markup, markup, hurl]

namespace Site

open Catalog (Beside)
open News (IsForeign)

variable {maxDepth : Nat} {scope : Scope} {c : Catalog} {e : Entry} {other : Location} {s : Text}

/-- The globs of the listings that are made while a text is expanded over a catalog. -/
def globs (maxDepth : Nat) (scope : Scope) (s : Text) (c : Catalog) : List Text :=
  ((processorTo maxDepth scope).calls s c).filterMap News.globOf?

/-- No listing that is made while a text is expanded asks for attachments of the module that `other`
is in. -/
def GlobsAvoid (maxDepth : Nat) (scope : Scope) (s : Text) (c : Catalog) (other : Location) :
    Prop :=
  ∀ glob ∈ globs maxDepth scope s c, ¬ News.Addresses glob scope.location other

instance (maxDepth : Nat) (scope : Scope) (s : Text) (c : Catalog) (other : Location) :
    Decidable (GlobsAvoid maxDepth scope s c other) :=
  inferInstanceAs (Decidable (∀ glob ∈ globs maxDepth scope s c, _))

/-- The macros of the site do not see the feed of another module. -/
theorem respects_beside (maxDepth : Nat) (he : IsForeign e other scope.location) :
    (processorTo maxDepth scope).Respects (Beside c e) fun call =>
      ∀ glob ∈ News.globOf? call, ¬ News.Addresses glob scope.location other := by
  constructor
  · intro h hh call _ c₁ c₂ hbeside
    simp only [processorTo, processor, List.mem_cons, List.not_mem_nil, or_false] at hh
    rcases hh with rfl | rfl | rfl
    · have hshow : ComponentField.show? c₂ call = ComponentField.show? c₁ call := by
        simp only [ComponentField.show?, hbeside.component?_eq]
      exact ⟨congrArg (fun s : Option Text => Output.text (s.getD [])) hshow, hbeside⟩
    · exact ⟨congrArg Output.text (FileLink.markup_eq_of_beside hbeside he.unpublished call),
        hbeside⟩
    · exact ⟨rfl, hbeside⟩
  · intro h hh call hcall c₁ c₂ hbeside
    obtain rfl := List.mem_singleton.1 hh
    exact News.alike_blockHandler hbeside he hcall

/-- **A document does not see the feed of another module**: with that feed in the catalog it gives
what it gives without, and registers the same files. -/
theorem process_after_feed {feed? : Option Entry} {es : List Entry}
    {result : Except (Failure NewsError) Text}
    (hfeed : ∀ e ∈ feed?, IsForeign e other scope.location ∧ c.at? e.location = none)
    (hglobs : GlobsAvoid maxDepth scope s c other)
    (h : outcome ((processorTo maxDepth scope).process s) c = (result, c.extend es)) :
    outcome ((processorTo maxDepth scope).process s) (c.extend feed?.toList) =
      (result, c.extend (feed?.toList ++ es)) := by
  cases feed? with
  | none =>
    rw [Option.toList_none, Catalog.extend_nil, List.nil_append]
    exact h
  | some e =>
    obtain ⟨he, hfree⟩ := hfeed e rfl
    have hstart : c.Beside e (c.extend []) ((c.extend [e]).extend []) :=
      .intro [] (by rw [Catalog.extend_nil]; exact hfree)
    rw [Catalog.extend_nil, Catalog.extend_nil] at hstart
    obtain ⟨⟨hresult, hrelated⟩, -⟩ := (respects_beside maxDepth he).process hstart
      fun call hcall glob hglob => hglobs glob (List.mem_filterMap.2 ⟨call, hcall, hglob⟩)
    rw [h] at hresult hrelated
    exact Prod.ext hresult hrelated.eq_extend

/-- **Documents of different modules may be expanded in either order.** If no listing that is made
while one of them is expanded asks for attachments of the module of the other, each document gives
the same text or failure and registers the same files, whether it goes first or second. -/
theorem documents_commute {a b : Scope} {t : Text}
    (hmodule : a.location.sameModule b.location = false)
    (ha : GlobsAvoid maxDepth a s c b.location) (hb : GlobsAvoid maxDepth b t c a.location) :
    ∃ ra rb fa fb,
      outcome ((processorTo maxDepth a).process s) c = (ra, c.extend fa) ∧
      outcome ((processorTo maxDepth b).process t) (c.extend fa) = (rb, c.extend (fa ++ fb)) ∧
      outcome ((processorTo maxDepth b).process t) c = (rb, c.extend fb) ∧
      outcome ((processorTo maxDepth a).process s) (c.extend fb) = (ra, c.extend (fb ++ fa)) := by
  obtain ⟨fa, hfa, hafeed⟩ := (gains_process maxDepth a s c).exists_feed
  obtain ⟨fb, hfb, hbfeed⟩ := (gains_process maxDepth b t c).exists_feed
  have haforeign : ∀ e ∈ fa, IsForeign e a.location b.location ∧ c.at? e.location = none := by
    intro e he
    obtain ⟨hlocation, hunpublished, hfree⟩ := hafeed e he
    exact ⟨⟨hlocation, hunpublished, (News.sameModule_comm _ _).trans hmodule⟩, hlocation ▸ hfree⟩
  have hbforeign : ∀ e ∈ fb, IsForeign e b.location a.location ∧ c.at? e.location = none := by
    intro e he
    obtain ⟨hlocation, hunpublished, hfree⟩ := hbfeed e he
    exact ⟨⟨hlocation, hunpublished, hmodule⟩, hlocation ▸ hfree⟩
  have hfirst : outcome ((processorTo maxDepth a).process s) c = (_, c.extend fa.toList) :=
    Prod.ext rfl hfa
  have hsecond : outcome ((processorTo maxDepth b).process t) c = (_, c.extend fb.toList) :=
    Prod.ext rfl hfb
  exact ⟨_, _, fa.toList, fb.toList, hfirst, process_after_feed haforeign hb hsecond, hsecond,
    process_after_feed hbforeign ha hfirst⟩

/-- A page of another module of the component. -/
def apiScope : Scope where
  file := { source :=
    { component := "docs".toList, version := "1.0".toList, module := "api".toList
      family := .page, relative := "index.adoc".toList } }
  buildDate := ⟨0, 0⟩

/-- Two pages ask for the same articles, of which there are none yet, so that each registers an
empty feed. The second page also links to the feed of the first. -/
theorem documents_commute_empty_feeds :
    let c := News.sampleCatalog
    let a := News.sampleScope
    let b := apiScope
    let s := "news::generate[refs=blog/*]\n".toList
    let t := "fref:ROOT:attachment$news.atom[Feed]\n\nnews::generate[refs=ROOT:blog/*]\n".toList
    a.location.sameModule b.location = false ∧ GlobsAvoid 10 a s c b.location ∧
      GlobsAvoid 10 b t c a.location ∧
      ∃ ra rb fa fb, fa ≠ [] ∧ fb ≠ [] ∧
        outcome ((processorTo 10 a).process s) c = (ra, c.extend fa) ∧
        outcome ((processorTo 10 b).process t) (c.extend fa) = (rb, c.extend (fa ++ fb)) ∧
        outcome ((processorTo 10 b).process t) c = (rb, c.extend fb) ∧
        outcome ((processorTo 10 a).process s) (c.extend fb) = (ra, c.extend (fb ++ fa)) := by
  intro c a b s t
  have hmodule : a.location.sameModule b.location = false := by decide +kernel
  have ha : GlobsAvoid 10 a s c b.location := by decide +kernel
  have hb : GlobsAvoid 10 b t c a.location := by decide +kernel
  have hafeed : (outcome ((processorTo 10 a).process s) c).2 ≠ c := by decide +kernel
  have hbfeed : (outcome ((processorTo 10 b).process t) c).2 ≠ c := by decide +kernel
  obtain ⟨ra, rb, fa, fb, hfirst, hboth, hsecond, hother⟩ := documents_commute hmodule ha hb
  refine ⟨hmodule, ha, hb, ra, rb, fa, fb, ?_, ?_, hfirst, hboth, hsecond, hother⟩
  · rintro rfl
    rw [hfirst] at hafeed
    exact hafeed Catalog.extend_nil
  · rintro rfl
    rw [hsecond] at hbfeed
    exact hbfeed Catalog.extend_nil

end Site

end DocSite
