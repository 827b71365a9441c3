import DocSite.Text.Basic
import Mathlib.Data.List.Basic

/-!
# Stable sorting

A stable sort is told by two things: its list is in order, and the elements of one rank stand in it
as they stood before. So a list is compared with the sorted one without a look at how it is sorted.

* `filter_mergeSort` : sorting leaves elements of one rank in the order they had.
* `eq_of_pairwise_of_filter` : a list in order is determined by its elements of each rank.
-/

namespace DocSite

variable {α : Type} {le : α → α → Bool}

/-- A stable sort leaves elements that stand in order with each other in the order they had. -/
theorem filter_mergeSort (htrans : ∀ a b c, le a b = true → le b c = true → le a c = true)
    (htotal : ∀ a b, (le a b || le b a) = true) {p : α → Bool}
    (hp : ∀ a b, p a = true → p b = true → le a b = true) (l : List α) :
    (l.mergeSort le).filter p = l.filter p := by
  have hsorted : (l.filter p).Pairwise fun a b => le a b = true :=
    List.pairwise_of_forall_mem_list fun a ha b hb =>
      hp a b (List.mem_filter.1 ha).2 (List.mem_filter.1 hb).2
  have hsub : (l.filter p).Sublist ((l.mergeSort le).filter p) := by
    have h := (List.sublist_mergeSort htrans htotal hsorted List.filter_sublist).filter p
    simpa only [List.filter_filter, Bool.and_self] using h
  -- a sublist of the same length is the whole list
  exact (hsub.eq_of_length ((List.mergeSort_perm l le).filter p).length_eq.symm).symm

/-- Lists in order that have the same elements of each rank start with one rank, since each of them
has the head of the other. -/
theorem rank_eq_of_pairwise_of_filter {κ : Type} [DecidableEq κ] {rank : α → κ}
    (hanti : ∀ a b, le a b = true → le b a = true → rank a = rank b) {a b : α} {l m : List α}
    (hl : (a :: l).Pairwise fun a b => le a b = true)
    (hm : (b :: m).Pairwise fun a b => le a b = true)
    (hrank : ∀ k, (a :: l).filter (fun c => rank c = k) = (b :: m).filter fun c => rank c = k) :
    rank a = rank b := by
  have hab : b ∈ (a :: l).filter fun c => rank c = rank b := by
    rw [hrank]
    simp
  have hba : a ∈ (b :: m).filter fun c => rank c = rank a := by
    rw [← hrank]
    simp
  rcases List.mem_cons.1 (List.mem_filter.1 hab).1 with rfl | hbl
  · rfl
  rcases List.mem_cons.1 (List.mem_filter.1 hba).1 with rfl | ham
  · rfl
  exact hanti a b ((List.pairwise_cons.1 hl).1 b hbl) ((List.pairwise_cons.1 hm).1 a ham)

/-- **A list in order is determined by its elements of each rank.** -/
theorem eq_of_pairwise_of_filter {κ : Type} [DecidableEq κ] {rank : α → κ}
    (hanti : ∀ a b, le a b = true → le b a = true → rank a = rank b) {l m : List α}
    (hl : l.Pairwise fun a b => le a b = true) (hm : m.Pairwise fun a b => le a b = true)
    (hrank : ∀ k, l.filter (fun a => rank a = k) = m.filter fun a => rank a = k) : l = m := by
  induction l generalizing m with
  | nil =>
    cases m with
    | nil => rfl
    | cons b m => exact absurd (hrank (rank b)) (by simp)
  | cons a l ih =>
    cases m with
    | nil => exact absurd (hrank (rank a)) (by simp)
    | cons b m =>
      -- the heads have one rank, and then both are the first of that rank
      have hsame : rank a = rank b := rank_eq_of_pairwise_of_filter hanti hl hm hrank
      have hheads := hrank (rank a)
      rw [List.filter_cons_of_pos (by simp), List.filter_cons_of_pos (by simp [hsame])] at hheads
      obtain ⟨rfl, -⟩ := List.cons.inj hheads
      have htails (k : κ) :
          l.filter (fun a => rank a = k) = m.filter fun a => rank a = k := by
        have hk := hrank k
        simp only [List.filter_cons] at hk
        split at hk
        · exact (List.cons.inj hk).2
        · exact hk
      rw [ih (List.pairwise_cons.1 hl).2 (List.pairwise_cons.1 hm).2 htails]

end DocSite
