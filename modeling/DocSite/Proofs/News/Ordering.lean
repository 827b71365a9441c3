import DocSite.News.Summary
import DocSite.Proofs.Sorting
import DocSite.Proofs.Traversal

/-!
# The order of articles

Articles are listed from the newest to the oldest; articles of one date keep the order in which they
come. `NewestFirst` says so without an algorithm, and the sorted list of summaries has the property.

* `newestFirst_mergeSort` : sorting by date puts the newest first and keeps the order of ties.
* `Summary.exists_of_list` : a list of summaries comes from the files, each with its own summary.
-/

namespace DocSite

/-! ### The order of instants -/

namespace Instant

theorem notBefore_refl (a : Instant) : a.notBefore a = true := by
  simp [notBefore]

theorem notBefore_total (a b : Instant) : (a.notBefore b || b.notBefore a) = true := by
  simp only [notBefore, Bool.or_eq_true, Bool.and_eq_true, decide_eq_true_eq]
  omega

theorem notBefore_trans (a b c : Instant) (hab : a.notBefore b = true)
    (hbc : b.notBefore c = true) : a.notBefore c = true := by
  simp only [notBefore, Bool.or_eq_true, Bool.and_eq_true, decide_eq_true_eq] at hab hbc ⊢
  omega

end Instant

/-! ### Sorting -/

section

variable {α : Type} (date : α → Instant)

/-- Whether one element may stand before another: its date is not older. -/
def newerFirst (a b : α) : Bool := (date a).notBefore (date b)

/-- `sorted` holds what `all` holds, the newest first, and what has one date in the order in which
it stands in `all`. -/
structure NewestFirst (all sorted : List α) : Prop where
  perm : sorted.Perm all
  descending : sorted.Pairwise fun a b => (date a).notBefore (date b) = true
  ties : ∀ d, sorted.filter (fun a => date a = d) = all.filter fun a => date a = d

theorem newestFirst_mergeSort (all : List α) :
    NewestFirst date all (all.mergeSort (newerFirst date)) := by
  have htrans (a b c : α) : newerFirst date a b = true → newerFirst date b c = true →
      newerFirst date a c = true := Instant.notBefore_trans _ _ _
  have htotal (a b : α) : (newerFirst date a b || newerFirst date b a) = true :=
    Instant.notBefore_total _ _
  refine ⟨List.mergeSort_perm _ _, List.pairwise_mergeSort htrans htotal all, fun d => ?_⟩
  refine filter_mergeSort htrans htotal (fun a b ha hb => ?_) all
  rw [newerFirst, of_decide_eq_true ha, of_decide_eq_true hb]
  exact Instant.notBefore_refl d

variable {date} in
theorem NewestFirst.notBefore_of_take {all sorted : List α} (h : NewestFirst date all sorted)
    (n : Nat) {shown left : α} (hshown : shown ∈ sorted.take n) (hleft : left ∈ sorted.drop n) :
    (date shown).notBefore (date left) = true := by
  have hsorted := h.descending
  rw [← List.take_append_drop n sorted] at hsorted
  exact (List.pairwise_append.1 hsorted).2.2 shown hshown left hleft

end

/-! ### Summaries of files -/

namespace Summary

/-- The date of an article, a file with its summary. -/
def dateOf (a : Entry × Summary) : Instant := a.2.date

/-- **The summaries of files are those of each file, the newest first.** -/
theorem exists_of_list {files : List Entry} {context : Location} {summaries : List Summary}
    (h : list files context = .ok summaries) :
    ∃ all sorted : List (Entry × Summary), all.map Prod.fst = files ∧
      (∀ a ∈ all, ofEntry a.1 context = .ok a.2) ∧ NewestFirst dateOf all sorted ∧
      summaries = sorted.map Prod.snd := by
  unfold list at h
  cases hmap : files.mapM fun e => ofEntry e context with
  | error e => rw [hmap] at h; cases h
  | ok unsorted =>
    rw [hmap] at h
    obtain rfl : unsorted.mergeSort precedes = summaries := Except.ok.inj h
    obtain ⟨all, hfst, rfl, hall⟩ := exists_pairs_of_mapM hmap
    refine ⟨all, _, hfst, hall, newestFirst_mergeSort dateOf all, ?_⟩
    -- sorting summaries is sorting articles by their summaries
    exact (List.map_mergeSort (r := newerFirst dateOf) (s := precedes)
      fun _ _ _ _ => rfl).symm

end Summary

end DocSite
