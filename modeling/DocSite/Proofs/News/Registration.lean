import DocSite.Proofs.Macro.State
import DocSite.Proofs.News.Agreement
import DocSite.Site.Expansion
import Mathlib.Data.List.ReduceOption

/-!
# The feeds of a site

The macros of the site change the catalog in one way: a listing registers its feed. As a feed is
registered at one location of its module, which has to be free, a module gets one feed at most,
however many listings stand in its documents and wherever a document fails.

* `Catalog.Gains` : a catalog has at most one file more, not published, where there was none.
* `Site.gains_process` : what a document may add, whatever its text and its macros.
* `Site.each_module_gets_at_most_one_feed` : what documents add, one after another.
-/

namespace DocSite

namespace Catalog

variable {l : Location} {c between c' : Catalog}

/-- The catalog has at most one file more, which is not published, at the location `l`, where there
was none. -/
inductive Gains (l : Location) (c : Catalog) : Catalog → Prop
  | same : Gains l c c
  | one {e : Entry} (hlocation : e.location = l) (hunpublished : e.publication? = none)
      (hfree : c.at? l = none) : Gains l c (c.extend [e])

theorem Gains.trans (h : Gains l c between) (h' : Gains l between c') : Gains l c c' := by
  cases h with
  | same => exact h'
  | @one e hlocation hunpublished hfree =>
    cases h' with
    | same => exact .one hlocation hunpublished hfree
    | one _ _ htaken =>
      exact absurd hlocation ((at?_extend_eq_none_iff.1 htaken).2 e List.mem_cons_self)

theorem Gains.exists_feed (h : Gains l c c') :
    ∃ feed? : Option Entry, c' = c.extend feed?.toList ∧
      ∀ e ∈ feed?, e.location = l ∧ e.publication? = none ∧ c.at? l = none := by
  cases h with
  | same => exact ⟨none, extend_nil.symm, nofun⟩
  | @one e hlocation hunpublished hfree =>
    refine ⟨some e, rfl, fun e' he' => ?_⟩
    obtain rfl := Option.some.inj he'
    exact ⟨hlocation, hunpublished, hfree⟩

end Catalog

namespace News

open Catalog (Gains)

theorem feedLocation_eq_of_sameModule {l l' : Location}
    (h : (feedLocation l).sameModule (feedLocation l') = true) :
    feedLocation l = feedLocation l' := by
  simp only [Location.sameModule, feedLocation, Bool.and_eq_true] at h
  obtain ⟨⟨hcomponent, hversion⟩, hmodule⟩ := h
  simp only [feedLocation, of_decide_eq_true hcomponent, of_decide_eq_true hversion,
    of_decide_eq_true hmodule]

theorem gains_generate {scope : Scope} {c c' : Catalog} {glob listing : Text} {level : Nat}
    (h : generate scope c glob level = .ok (listing, c')) :
    Gains (feedLocation scope.location) c c' := by
  obtain ⟨summaries, -, hadd, -⟩ := generate_eq_ok h
  obtain ⟨-, hfree, rfl⟩ := Catalog.add_eq_ok_iff.1 hadd
  exact .one rfl rfl hfree

section

variable {scope : Scope} {call : Call} {c : Catalog} {glob : Text}

theorem run_blockHandler_of_none (h : glob? call = none) :
    ((blockHandler scope).run call).run.run c = (.ok (.text []), c) := by
  simp only [blockHandler, ExceptT.run_mk, StateT.run, h]

theorem run_blockHandler_of_ok {listing : Text} {c' : Catalog} (h : glob? call = some glob)
    (hgenerate : generate scope c glob call.level = .ok (listing, c')) :
    ((blockHandler scope).run call).run.run c = (.ok (.markup listing), c') := by
  simp only [blockHandler, ExceptT.run_mk, StateT.run, h, hgenerate]

theorem run_blockHandler_of_error {e : NewsError} (h : glob? call = some glob)
    (hgenerate : generate scope c glob call.level = .error e) :
    ((blockHandler scope).run call).run.run c = (.error e, c) := by
  simp only [blockHandler, ExceptT.run_mk, StateT.run, h, hgenerate]

end

/-- What the handler of listings does to the catalog: it registers a feed, or nothing; and nothing
if it fails. -/
theorem blockHandler_cases (scope : Scope) (call : Call) (c : Catalog) :
    (∃ output c', ((blockHandler scope).run call).run.run c = (.ok output, c') ∧
        Gains (feedLocation scope.location) c c') ∨
      ∃ e, ((blockHandler scope).run call).run.run c = (.error e, c) := by
  cases hglob : glob? call with
  | none => exact .inl ⟨_, c, run_blockHandler_of_none hglob, .same⟩
  | some glob =>
    cases hgenerate : generate scope c glob call.level with
    | error e => exact .inr ⟨e, run_blockHandler_of_error hglob hgenerate⟩
    | ok result =>
      exact .inl ⟨_, result.2, run_blockHandler_of_ok hglob hgenerate, gains_generate hgenerate⟩

end News

namespace Site

open Catalog (Gains)

/-- The macros of the site, where markup is expanded to a depth. -/
def processorTo (maxDepth : Nat) (scope : Scope) : Processor Catalog NewsError :=
  { processor scope with maxDepth }

/-- **A document** adds at most the feed of its module. -/
theorem gains_process (maxDepth : Nat) (scope : Scope) (s : Text) (c : Catalog) :
    Gains (News.feedLocation scope.location) c
      (outcome ((processorTo maxDepth scope).process s) c).2 := by
  have hmoves : (processorTo maxDepth scope).MovesBy
      (Gains (News.feedLocation scope.location)) := by
    refine ⟨fun _ => .same, Gains.trans, ?_, ?_⟩
    · intro h hh call c
      simp only [processorTo, processor, List.mem_cons, List.not_mem_nil, or_false] at hh
      rcases hh with rfl | rfl | rfl <;> exact .same
    · intro h hh call c
      obtain rfl := List.mem_singleton.1 hh
      rcases News.blockHandler_cases scope call c with ⟨output, c', hrun, hgains⟩ | ⟨e, hrun⟩
      · rw [hrun]
        exact hgains
      · rw [hrun]
        exact .same
  exact hmoves.process s c

/-! ### Documents one after another -/

/-- The catalog after texts are expanded over it one after another, each in the scope of its
document, whether that fails or not. -/
def after (maxDepth : Nat) (c : Catalog) (documents : List (Scope × Text)) : Catalog :=
  documents.foldl (fun c (scope, s) => (outcome ((processorTo maxDepth scope).process s) c).2) c

/-- `feeds` holds for each document the feed that it adds to a catalog, if it adds one. -/
structure Feeds (maxDepth : Nat) (c : Catalog) (documents : List (Scope × Text))
    (feeds : List (Option Entry)) : Prop where
  length_eq : feeds.length = documents.length
  after_eq : ∀ i, after maxDepth c (documents.take i) = c.extend (feeds.take i).reduceOption
  location_eq : ∀ (i : Nat) (scope : Scope) (s : Text) (e : Entry),
    documents[i]? = some (scope, s) → feeds[i]? = some (some e) →
      e.location = News.feedLocation scope.location
  free : ∀ e ∈ feeds.reduceOption, c.at? e.location = none
  distinct : feeds.reduceOption.Pairwise fun a b => a.location ≠ b.location

namespace Feeds

variable {maxDepth : Nat} {c : Catalog} {scope : Scope} {s : Text}
  {documents : List (Scope × Text)} {feeds : List (Option Entry)}

theorem nil : Feeds maxDepth c [] [] where
  length_eq := rfl
  after_eq i := by
    rw [List.take_nil, List.take_nil]
    exact Catalog.extend_nil.symm
  location_eq _ _ _ _ h := by cases h
  free := List.forall_mem_nil _
  distinct := List.Pairwise.nil

theorem reduceOption_cons (feed? : Option Entry) (feeds : List (Option Entry)) :
    (feed? :: feeds).reduceOption = feed?.toList ++ feeds.reduceOption := by
  cases feed? with
  | none => exact List.reduceOption_cons_of_none _
  | some e => exact List.reduceOption_cons_of_some _ _

theorem cons {feed? : Option Entry}
    (hnext : (outcome ((processorTo maxDepth scope).process s) c).2 = c.extend feed?.toList)
    (hfeed : ∀ e ∈ feed?, e.location = News.feedLocation scope.location ∧
      c.at? (News.feedLocation scope.location) = none)
    (h : Feeds maxDepth (c.extend feed?.toList) documents feeds) :
    Feeds maxDepth c ((scope, s) :: documents) (feed? :: feeds) where
  length_eq := congrArg (· + 1) h.length_eq
  after_eq i := by
    cases i with
    | zero => exact Catalog.extend_nil.symm
    | succ i =>
      have hstep : after maxDepth c (((scope, s) :: documents).take (i + 1)) =
          after maxDepth (outcome ((processorTo maxDepth scope).process s) c).2
            (documents.take i) := rfl
      rw [hstep, hnext, h.after_eq, Catalog.extend_extend, List.take_succ_cons, reduceOption_cons]
  location_eq i := by
    cases i with
    | zero =>
      intro scope' s' e hdocument hadded
      obtain ⟨rfl, rfl⟩ := Prod.mk.inj (Option.some.inj hdocument)
      exact (hfeed e (Option.some.inj hadded)).1
    | succ i => exact h.location_eq i
  free e he := by
    rw [reduceOption_cons, List.mem_append, Option.mem_toList] at he
    rcases he with he | he
    · obtain ⟨hlocation, hfree⟩ := hfeed e he
      rw [hlocation]
      exact hfree
    · exact (Catalog.at?_extend_eq_none_iff.1 (h.free e he)).1
  distinct := by
    rw [reduceOption_cons, List.pairwise_append]
    refine ⟨?_, h.distinct, fun e he e' he' => ?_⟩
    · cases feed? with
      | none => exact List.Pairwise.nil
      | some e => exact List.pairwise_singleton _ e
    · exact (Catalog.at?_extend_eq_none_iff.1 (h.free e' he')).2 e he

/-- A file that a document adds is the feed of some module. -/
theorem exists_location (h : Feeds maxDepth c documents feeds) {e : Entry}
    (he : e ∈ feeds.reduceOption) : ∃ l, e.location = News.feedLocation l := by
  obtain ⟨i, hi⟩ := List.mem_iff_getElem?.1 (List.reduceOption_mem_iff.1 he)
  have hlt : i < documents.length := h.length_eq ▸ (List.getElem?_eq_some_iff.1 hi).1
  exact ⟨_, h.location_eq i documents[i].1 documents[i].2 e (List.getElem?_eq_getElem hlt) hi⟩

end Feeds

/-- **Documents add feeds**, each at most the one of its module. -/
theorem exists_feeds (maxDepth : Nat) (c : Catalog) (documents : List (Scope × Text)) :
    ∃ feeds, Feeds maxDepth c documents feeds := by
  induction documents generalizing c with
  | nil => exact ⟨[], .nil⟩
  | cons document documents ih =>
    obtain ⟨scope, s⟩ := document
    obtain ⟨feed?, hnext, hfeed⟩ := (gains_process maxDepth scope s c).exists_feed
    obtain ⟨feeds, hfeeds⟩ := ih (c.extend feed?.toList)
    exact ⟨feed? :: feeds, hfeeds.cons hnext fun e he => ⟨(hfeed e he).1, (hfeed e he).2.2⟩⟩

/-- **Each module gets at most one feed.** When documents are expanded one after another, each of
them adds at most one file, whether it fails or not: the attachment `news.atom` of its module. No
two files that are added belong to the same module. A listing that fails leaves the catalog as it
was. -/
theorem each_module_gets_at_most_one_feed (maxDepth : Nat) (c : Catalog)
    (documents : List (Scope × Text)) :
    (∃ feeds : List (Option Entry), feeds.length = documents.length ∧
        (∀ i, (after maxDepth c (documents.take i)).files =
            c.files ++ (feeds.take i).reduceOption ∧
          (after maxDepth c (documents.take i)).added =
            c.added ++ (feeds.take i).reduceOption) ∧
        (∀ (i : Nat) (scope : Scope) (s : Text) (e : Entry),
          documents[i]? = some (scope, s) → feeds[i]? = some (some e) →
            e.location =
              { scope.location with family := .attachment, relative := "news.atom".toList }) ∧
        feeds.reduceOption.Pairwise fun a b => a.location.sameModule b.location = false) ∧
      ∀ (scope : Scope) (call : Call) (before later : Catalog) (e : NewsError),
        ((News.blockHandler scope).run call).run.run before = (.error e, later) →
          later = before := by
  constructor
  · obtain ⟨feeds, h⟩ := exists_feeds maxDepth c documents
    refine ⟨feeds, h.length_eq, fun i => ?_, h.location_eq, ?_⟩
    · rw [h.after_eq]
      exact ⟨rfl, rfl⟩
    · refine h.distinct.imp_of_mem fun {a b} ha hb hne => ?_
      obtain ⟨l, hl⟩ := h.exists_location ha
      obtain ⟨l', hl'⟩ := h.exists_location hb
      rw [hl, hl'] at hne ⊢
      exact Bool.eq_false_iff.2 fun hsame => hne (News.feedLocation_eq_of_sameModule hsame)
  · intro scope call before later e hfails
    rcases News.blockHandler_cases scope call before with ⟨output, c', hrun, -⟩ | ⟨e', hrun⟩
    · rw [hrun] at hfails
      cases hfails
    · rw [hrun] at hfails
      exact (Prod.mk.inj hfails).2.symm

end Site

end DocSite
