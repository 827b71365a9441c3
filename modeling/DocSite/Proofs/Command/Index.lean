import DocSite.Proofs.Command.Deeds
import DocSite.Proofs.Json.Records
import DocSite.Proofs.PageIndex

/-!
# The index of an index

What the index command prints is a list of pages whose positions fit, so that it is read back. An
index is its own index (`PageIndex.build_build`), so that the command prints the same text again for
what it has printed.

* `Command.prints_index` : what the command prints.
* `Command.records_survive_json` : records are read back from what is written for them, and so is
  an index, which is printed again as it is.
-/

namespace DocSite

/-! ### Indexes -/

namespace PageIndex

variable {pages : List Page} {dir : Text}

theorem fits_of_mem_build {t : Text} (h : read? t = some pages) :
    ∀ p ∈ build pages dir, p.Fits := by
  intro p hp
  obtain ⟨q, hq, -, rfl⟩ := mem_build_iff.1 hp
  obtain ⟨r, -, hpages⟩ := Option.bind_eq_some_iff.1 h
  cases r with
  | array items =>
    obtain ⟨item, -, hitem⟩ := exists_of_mem_mapM hpages hq
    -- a link leaves the position as it was
    have hfits : q.Fits := Page.fits_of_ofRaw? hitem
    exact hfits
  | _ => cases hpages

end PageIndex

namespace Command

open PageIndex (build)

variable {σ : Type}

/-- The results among what a command does. -/
def results (deeds : List Deed) : List Text :=
  deeds.filterMap fun
    | .print s => some s
    | _ => none

/-- An index that is printed. -/
def printIndex {m : Type → Type} [Monad m] (host : Host m) (root : Text) (index : List Page) :
    Action m Unit := do
  if index = [] then tellLine host ("No pages below ".toList ++ root ++ ['/'])
  printResult host (PageIndex.toJson index).pretty

theorem runIndex_eq {m : Type → Type} [Monad m] (host : Host m) (file : Path) (root : Text) :
    runIndex host file root =
      onFile (host.readText file) >>= fun t => decoded (PageIndex.read? t) >>= fun pages =>
        printIndex host root (build pages root) := rfl

theorem prints_printIndex (host : Host (StateM σ)) (root : Text) (index : List Page) (st : σ) :
    let run := outcome (printIndex host.noting root index) (st, [])
    run.1 = .ok () ∧ results run.2.2 = [printed (PageIndex.toJson index).pretty] := by
  unfold printIndex
  split <;> exact ⟨rfl, rfl⟩

/-- **What the index command prints** for a file that holds a list of pages. -/
theorem prints_index {host : Host (StateM σ)} {file : Path} {t : Text} {pages : List Page}
    {st : σ} (hfile : ((host.readText file).run st).1 = .ok t)
    (hpages : PageIndex.read? t = some pages) (root : Text) :
    let run := outcome (runIndex host.noting file root) (st, [])
    run.1 = .ok () ∧
      results run.2.2 = [printed (PageIndex.toJson (build pages root)).pretty] := by
  have hread : outcome (onFile (host.noting.readText file)) (st, []) =
      (.ok t, ((host.readText file).run st).2, []) := by
    have hasked : (host.noting.readText file).run (st, []) =
        (((host.readText file).run st).1, ((host.readText file).run st).2, []) := rfl
    rw [outcome_onFile, hasked, hfile]
    rfl
  rw [runIndex_eq, outcome_bind, hread]
  dsimp only
  rw [hpages]
  exact prints_printIndex host root (build pages root) _

theorem read?_printed {index : List Page} (h : ∀ p ∈ index, p.Fits) :
    PageIndex.read? (printed (PageIndex.toJson index).pretty) = some index := by
  have hreads := Json.reads_prettyAt (PageIndex.toJson index) 0
  have hread : Json.Raw.read? (printed (PageIndex.toJson index).pretty) =
      some (PageIndex.toJson index).toRaw := by
    unfold printed
    split
    · exact Json.read?_of_mem (by simp)
    · exact hreads.read? rfl
  rw [PageIndex.read?, hread, Option.bind_some, PageIndex.ofRaw?_toJson h]

/-- **Records survive JSON.** Files, components, pages whose positions fit 64 bits, and lists of
such pages are read back from what is written for them, on one line or on several. What the index
command prints for a list of pages is a list of pages, and what it prints for that list and the same
path is the same text. -/
theorem records_survive_json :
    (∀ e : Entry, ∀ s ∈ [e.toJson.compact, e.toJson.pretty],
        (Json.Raw.read? s).bind Entry.ofRaw? = some e) ∧
      (∀ c : Component, ∀ s ∈ [c.toJson.compact, c.toJson.pretty],
        (Json.Raw.read? s).bind Component.ofRaw? = some c) ∧
      (∀ p : Page, p.Fits → ∀ s ∈ [p.toJson.compact, p.toJson.pretty],
        (Json.Raw.read? s).bind Page.ofRaw? = some p) ∧
      (∀ pages : List Page, (∀ p ∈ pages, p.Fits) →
        ∀ s ∈ [(PageIndex.toJson pages).compact, (PageIndex.toJson pages).pretty],
          PageIndex.read? s = some pages) ∧
      ∀ (t : Text) (pages : List Page) (root : Text), PageIndex.read? t = some pages →
        ∃ s, PageIndex.read? s = some (build pages root) ∧
          ∀ (σ : Type) (host : Host (StateM σ)) (file : Path) (st : σ),
            ((host.readText file).run st).1 = .ok t ∨ ((host.readText file).run st).1 = .ok s →
              let run := outcome (runIndex host.noting file root) (st, [])
              run.1 = .ok () ∧ results run.2.2 = [s] := by
  refine ⟨fun e s hs => ?_, fun c s hs => ?_, fun p hp s hs => ?_, fun pages hpages s hs => ?_,
    fun t pages root ht => ?_⟩
  · rw [Json.read?_of_mem hs, Option.bind_some, Entry.ofRaw?_toJson]
  · rw [Json.read?_of_mem hs, Option.bind_some, Component.ofRaw?_toJson]
  · rw [Json.read?_of_mem hs, Option.bind_some, Page.ofRaw?_toJson hp]
  · rw [PageIndex.read?, Json.read?_of_mem hs, Option.bind_some, PageIndex.ofRaw?_toJson hpages]
  · have hindex : PageIndex.read? (printed (PageIndex.toJson (build pages root)).pretty) =
        some (build pages root) := read?_printed (PageIndex.fits_of_mem_build ht)
    refine ⟨_, hindex, fun σ host file st hfile => ?_⟩
    rcases hfile with hfile | hfile
    · exact prints_index hfile ht root
    · have hagain := prints_index hfile hindex root
      rwa [PageIndex.build_build] at hagain

/-- A page with a position and no link. -/
theorem records_survive_json_third_page :
    let p : Page :=
      { path := "guide/setup".toList, title := "Set-up \"α\"".toList, index? := some 3 }
    p.Fits ∧ ∀ s ∈ [p.toJson.compact, p.toJson.pretty],
      (Json.Raw.read? s).bind Page.ofRaw? = some p := by
  intro p
  have hfits : p.Fits := by
    intro i hi
    obtain rfl := Option.some.inj hi
    decide
  exact ⟨hfits, records_survive_json.2.2.1 p hfits⟩

end Command

end DocSite
