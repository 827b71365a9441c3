import DocSite.Table
import Mathlib.Data.Char
import Mathlib.Data.List.Induction
import Mathlib.Data.List.Lex
import Mathlib.Data.List.Nodup
import Mathlib.Data.List.Perm.Basic
import Mathlib.Tactic.SplitIfs

/-!
# The rows of a table

A table is made by setting its rows one after another. The rows stay in ascending order, and a row
with a new name leaves the others as they are.

* `Table.ascending_ofList` : the rows of a table stand in ascending order of their names.
* `Table.perm_ofList` : the table of rows with distinct names has all of them, and no other.
* `Table.find?_insert_of_ne` : setting one row leaves the values of other names.
* `Table.rel_find?` : a table made from another one row by row has the values made from its values.
-/

namespace DocSite

namespace Table

variable {α : Type} {t : Table α} {name : Text} {value : α}

/-- The names of the rows stand in ascending order. -/
def Ascending (t : Table α) : Prop := (t.map Prod.fst).Pairwise (· < ·)

theorem Ascending.nodup (h : t.Ascending) : (t.map Prod.fst).Nodup := h.imp ne_of_lt

theorem mem_insert {row : Text × α} (h : row ∈ t.insert name value) :
    row = (name, value) ∨ row ∈ t := by
  induction t with
  | nil => exact .inl (List.mem_singleton.1 h)
  | cons first rest ih =>
    obtain ⟨n, v⟩ := first
    unfold insert at h
    split_ifs at h with heq hlt
    · rcases List.mem_cons.1 h with rfl | h
      · exact .inl (by rw [heq])
      · exact .inr (List.mem_cons_of_mem _ h)
    · exact List.mem_cons.1 h
    · rcases List.mem_cons.1 h with rfl | h
      · exact .inr List.mem_cons_self
      · exact (ih h).imp_right (List.mem_cons_of_mem _)

theorem Ascending.insert (h : t.Ascending) : (t.insert name value).Ascending := by
  induction t with
  | nil => exact List.pairwise_singleton _ _
  | cons first rest ih =>
    obtain ⟨n, v⟩ := first
    obtain ⟨hfirst, hrest⟩ := List.pairwise_cons.1 h
    unfold Table.insert
    split_ifs with heq hlt
    · exact h
    · -- the new name is below the first one, which is below the others
      refine List.pairwise_cons.2 ⟨fun m hm => ?_, h⟩
      rcases List.mem_cons.1 hm with rfl | hm
      · exact hlt
      · exact lt_trans hlt (hfirst m hm)
    · refine List.pairwise_cons.2 ⟨fun m hm => ?_, ih hrest⟩
      obtain ⟨row, hrow, rfl⟩ := List.mem_map.1 hm
      rcases mem_insert hrow with rfl | hrow
      · exact lt_of_le_of_ne (not_lt.1 hlt) (Ne.symm heq)
      · exact hfirst _ (List.mem_map_of_mem hrow)

/-- What a property that insertion keeps holds of, a table of rows does. -/
theorem ofList_induction {P : Table α → Prop} {rows : List (Text × α)} (hnil : P [])
    (hinsert : ∀ t, ∀ row ∈ rows, P t → P (t.insert row.1 row.2)) : P (ofList rows) := by
  unfold ofList
  generalize ([] : Table α) = t at hnil ⊢
  induction rows generalizing t with
  | nil => exact hnil
  | cons row rows ih =>
    exact ih (fun t r hr => hinsert t r (List.mem_cons_of_mem _ hr)) _
      (hinsert t row List.mem_cons_self hnil)

theorem ascending_ofList (rows : List (Text × α)) : (ofList rows).Ascending :=
  ofList_induction (P := Ascending) List.Pairwise.nil fun _ _ _ h => h.insert

theorem mem_of_mem_ofList {rows : List (Text × α)} {row : Text × α} (h : row ∈ ofList rows) :
    row ∈ rows := by
  have hsub : ∀ r ∈ ofList rows, r ∈ rows := by
    refine ofList_induction (P := fun t => ∀ r ∈ t, r ∈ rows) (List.forall_mem_nil _) ?_
    intro t row hrow ht r hr
    rcases mem_insert hr with rfl | hr
    · exact hrow
    · exact ht r hr
  exact hsub row h

theorem perm_insert (h : name ∉ t.map Prod.fst) :
    (t.insert name value).Perm ((name, value) :: t) := by
  induction t with
  | nil => exact .refl _
  | cons first rest ih =>
    obtain ⟨n, v⟩ := first
    rw [List.map_cons, List.mem_cons, not_or] at h
    rw [Table.insert, if_neg h.1]
    split_ifs with hlt
    · exact .refl _
    · exact ((ih h.2).cons (n, v)).trans (.swap _ _ rest)

/-- The table of rows with distinct names has all of them, and no other. -/
theorem perm_ofList {rows : List (Text × α)} (h : (rows.map Prod.fst).Nodup) :
    (ofList rows).Perm rows := by
  -- the rows are set in their order, so the last one is the one that is new to a table
  induction rows using List.reverseRecOn with
  | nil => exact .refl _
  | append_singleton rows row ih =>
    rw [List.map_append, List.nodup_append] at h
    obtain ⟨hrows, -, hnew⟩ := h
    have hperm := ih hrows
    have hname : row.1 ∉ (ofList rows).map Prod.fst := by
      rw [(hperm.map Prod.fst).mem_iff]
      exact fun hmem => hnew _ hmem _ (List.mem_singleton_self _) rfl
    have hstep : ofList (rows ++ [row]) = (ofList rows).insert row.1 row.2 := by
      rw [ofList, List.foldl_append]
      rfl
    rw [hstep]
    exact (perm_insert hname).trans
      ((hperm.cons row).trans (List.perm_append_singleton row rows).symm)

/-- Setting one row leaves the others. -/
theorem find?_insert_of_ne {other : Text} (h : other ≠ name) (t : Table α) (value : α) :
    (t.insert name value).find? other = t.find? other := by
  have hother : (other == name) = false := beq_false_of_ne h
  induction t with
  | nil => simp [insert, find?, List.lookup_cons, hother]
  | cons row rest ih =>
    obtain ⟨n, v⟩ := row
    unfold insert
    split_ifs with heq hlt
    · subst heq
      simp [find?, List.lookup_cons, hother]
    · simp [find?, List.lookup_cons, hother]
    · simp only [find?] at ih ⊢
      simp only [List.lookup_cons, ih]

theorem find?_insert_self (t : Table α) (name : Text) (value : α) :
    (t.insert name value).find? name = some value := by
  induction t with
  | nil => simp [insert, find?]
  | cons row rest ih =>
    obtain ⟨n, v⟩ := row
    unfold insert
    split_ifs with heq hlt
    · subst heq
      simp [find?]
    · simp [find?]
    · have hname : (name == n) = false := beq_false_of_ne heq
      simp only [find?] at ih ⊢
      rw [List.lookup_cons, hname, ih]

/-- Rows that are made one from another have values that are. -/
theorem rel_find? {β : Type} {r : α → β → Prop} {pairs : List ((Text × α) × (Text × β))}
    (h : ∀ p ∈ pairs, p.2.1 = p.1.1 ∧ r p.1.2 p.2.2) (name : Text) :
    Option.Rel r (find? (pairs.map Prod.fst) name) (find? (pairs.map Prod.snd) name) := by
  induction pairs with
  | nil => exact .none
  | cons pair pairs ih =>
    obtain ⟨⟨hname, hr⟩, hpairs⟩ := List.forall_mem_cons.1 h
    simp only [find?] at ih ⊢
    rw [List.map_cons, List.map_cons, List.lookup_cons, List.lookup_cons, hname]
    cases name == pair.1.1 with
    | true => exact .some hr
    | false => exact ih hpairs

end Table

end DocSite
