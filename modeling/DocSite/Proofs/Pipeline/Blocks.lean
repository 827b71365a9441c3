import DocSite.Proofs.Pipeline.Shape
import Mathlib.Data.List.Forall2
import Mathlib.Data.List.Induction
import Mathlib.Data.List.Nodup
import Mathlib.Data.List.Sort

/-!
# Distinct transform blocks

A configuration may list a transform block more than once. Which of them count is told by their
places: a place is the first of its block if nothing before it is the same block, and the distinct
blocks are what stands at such places, from left to right (`FirstOccurrences`). That leaves one
list only, so it is compared with what is computed by one induction on the blocks, from the end: a
block that is added after all others adds its own place, or none.

Blocks are the same if they list the same ids in the same order (`Pipeline.SameIds`), so that
neither a block in another order nor the beginning of a block is left out. In the value that a
configuration was read from, such blocks are equal arrays.

* `FirstOccurrences.unique` : there are no two lists of first occurrences.
* `firstOccurrences_eraseDups` : what is left without repetitions are the first occurrences.
* `Pipeline.distinct_blocks_are_first_occurrences` : the distinct blocks of a configuration, and of
  the value that it was read from.
-/

namespace DocSite

/-! ### First occurrences -/

section Occurrences

variable {α β : Type} {same : α → α → Prop} {l distinct distinct' : List α} {a : α} {i : Nat}

/-- A place of a list before which nothing is the same as what stands there. -/
def IsFirstPlace (same : α → α → Prop) (l : List α) (i : Nat) : Prop :=
  ∃ a, l[i]? = some a ∧ ∀ b ∈ l.take i, ¬ same b a

/-- `distinct` lists what stands at the first places of `l`, from left to right. -/
def FirstOccurrences (same : α → α → Prop) (l distinct : List α) : Prop :=
  ∃ places : List Nat, places.Pairwise (· < ·) ∧ (∀ i, i ∈ places ↔ IsFirstPlace same l i) ∧
    List.Forall₂ (fun a i => l[i]? = some a) distinct places

/-- **There are no two lists of first occurrences.** -/
theorem FirstOccurrences.unique (h : FirstOccurrences same l distinct)
    (h' : FirstOccurrences same l distinct') : distinct = distinct' := by
  obtain ⟨places, hrise, hfirst, hstand⟩ := h
  obtain ⟨places', hrise', hfirst', hstand'⟩ := h'
  obtain rfl : places = places' :=
    hrise.eq_of_mem_iff hrise' fun i => (hfirst i).trans (hfirst' i).symm
  refine List.left_unique_forall₂' (fun a b i ha hb => ?_) hstand hstand'
  exact Option.some.inj (ha.symm.trans hb)

theorem isFirstPlace_eq_iff :
    IsFirstPlace Eq l i ↔ ∃ a, l[i]? = some a ∧ a ∉ l.take i := by
  simp only [IsFirstPlace, List.forall_mem_ne']

theorem isFirstPlace_concat_iff :
    IsFirstPlace Eq (l ++ [a]) i ↔ IsFirstPlace Eq l i ∨ i = l.length ∧ a ∉ l := by
  simp only [isFirstPlace_eq_iff]
  rcases Nat.lt_trichotomy i l.length with hlt | rfl | hgt
  · rw [List.getElem?_append_left hlt, List.take_append_of_le_length hlt.le]
    simp [hlt.ne]
  · simp
  · have hnone : (l ++ [a])[i]? = none := by simp; omega
    simp [hnone, hgt.le, hgt.ne']

theorem getElem?_concat_of_eq_some {b : α} (h : l[i]? = some b) : (l ++ [a])[i]? = some b := by
  obtain ⟨hlt, -⟩ := List.getElem?_eq_some_iff.1 h
  rw [List.getElem?_append_left hlt, h]

theorem FirstOccurrences.concat_of_mem (h : FirstOccurrences Eq l distinct) (ha : a ∈ l) :
    FirstOccurrences Eq (l ++ [a]) distinct := by
  obtain ⟨places, hrise, hfirst, hstand⟩ := h
  refine ⟨places, hrise, fun i => ?_, hstand.imp fun _ _ => getElem?_concat_of_eq_some⟩
  rw [isFirstPlace_concat_iff, hfirst]
  simp [ha]

theorem FirstOccurrences.concat_of_notMem (h : FirstOccurrences Eq l distinct) (ha : a ∉ l) :
    FirstOccurrences Eq (l ++ [a]) (distinct ++ [a]) := by
  obtain ⟨places, hrise, hfirst, hstand⟩ := h
  have hlt : ∀ i ∈ places, i < l.length := by
    intro i hi
    obtain ⟨b, hb, -⟩ := (hfirst i).1 hi
    exact (List.getElem?_eq_some_iff.1 hb).1
  refine ⟨places ++ [l.length], ?_, fun i => ?_, ?_⟩
  · rw [List.pairwise_append]
    exact ⟨hrise, List.pairwise_singleton .., by simpa using hlt⟩
  · rw [isFirstPlace_concat_iff, ← hfirst]
    simp [ha]
  · have hlast : (l ++ [a])[l.length]? = some a := by simp
    exact List.rel_append (hstand.imp fun _ _ => getElem?_concat_of_eq_some) (.cons hlast .nil)

theorem FirstOccurrences.map {f : α → β} (hf : Function.Injective f)
    (h : FirstOccurrences Eq l distinct) : FirstOccurrences Eq (l.map f) (distinct.map f) := by
  obtain ⟨places, hrise, hfirst, hstand⟩ := h
  refine ⟨places, hrise, fun i => ?_, ?_⟩
  · simp only [hfirst, isFirstPlace_eq_iff, List.getElem?_map, ← List.map_take,
      Option.map_eq_some_iff]
    constructor
    · rintro ⟨a, ha, hnew⟩
      exact ⟨f a, ⟨a, ha, rfl⟩, mt (List.mem_map_of_injective hf).1 hnew⟩
    · rintro ⟨_, ⟨a, ha, rfl⟩, hnew⟩
      exact ⟨a, ha, mt List.mem_map_of_mem hnew⟩
  · rw [List.forall₂_map_left_iff]
    refine hstand.imp fun a i ha => ?_
    rw [List.getElem?_map, ha, Option.map_some]

variable [BEq α] [LawfulBEq α]

theorem eraseDups_concat (l : List α) (a : α) :
    (l ++ [a]).eraseDups = if a ∈ l then l.eraseDups else l.eraseDups ++ [a] := by
  rw [List.eraseDups_append]
  split
  · rename_i ha
    have hnone : [a].removeAll l = [] := by simp [List.removeAll, ha]
    rw [hnone, List.eraseDups_nil, List.append_nil]
  · rename_i ha
    have hone : [a].removeAll l = [a] := by simp [List.removeAll, ha]
    rw [hone]
    rfl

/-- What holds of no elements, and is kept by one more element whether it was seen before or is new,
holds of a list and what is left of it without repetitions. -/
theorem eraseDups_induction {motive : List α → List α → Prop} (nil : motive [] [])
    (seen : ∀ l a, a ∈ l → motive l l.eraseDups → motive (l ++ [a]) l.eraseDups)
    (new : ∀ l a, a ∉ l → motive l l.eraseDups → motive (l ++ [a]) (l.eraseDups ++ [a]))
    (l : List α) : motive l l.eraseDups := by
  induction l using List.reverseRecOn with
  | nil => exact nil
  | append_singleton l a ih =>
    rw [eraseDups_concat]
    split
    · exact seen l a ‹_› ih
    · exact new l a ‹_› ih

/-- **What is left without repetitions are the first occurrences.** -/
theorem firstOccurrences_eraseDups (l : List α) : FirstOccurrences Eq l l.eraseDups :=
  eraseDups_induction ⟨[], .nil, by simp [IsFirstPlace], .nil⟩
    (fun _ _ ha h => h.concat_of_mem ha) (fun _ _ ha h => h.concat_of_notMem ha) l

theorem eraseDups_sublist (l : List α) : l.eraseDups.Sublist l :=
  eraseDups_induction (motive := fun l distinct => distinct.Sublist l) .slnil
    (fun l a _ h => h.trans (List.sublist_append_left l [a]))
    (fun _ a _ h => h.append (.refl [a])) l

theorem nodup_eraseDups (l : List α) : l.eraseDups.Nodup := by
  refine eraseDups_induction (motive := fun _ distinct => distinct.Nodup) .nil
    (fun _ _ _ h => h) (fun l a ha h => ?_) l
  have hdisjoint : l.eraseDups.Disjoint [a] := by simpa using ha
  exact h.append (List.nodup_singleton a) hdisjoint

theorem eraseDups_of_nodup (h : l.Nodup) : l.eraseDups = l := by
  have hperm : l.eraseDups.Perm l :=
    (List.perm_ext_iff_of_nodup (nodup_eraseDups l) h).2 fun _ => List.mem_eraseDups
  exact (eraseDups_sublist l).eq_of_length hperm.length_eq

end Occurrences

/-! ### Blocks -/

namespace Pipeline

/-- Two blocks list the same ids in the same order. -/
def SameIds (block other : List Text) : Prop := ∀ i : Nat, block[i]? = other[i]?

theorem sameIds_eq : SameIds = Eq := by
  funext block other
  exact propext List.ext_getElem?_iff.symm

/-- The value of a transform block. -/
def blockValue (block : List Text) : Json := .array (block.map .string)

theorem blockValue_injective : Function.Injective blockValue := by
  intro block other h
  have hids : block.map Json.string = other.map Json.string := Json.array.inj h
  exact List.map_injective_iff.2 (fun _ _ => Json.string.inj) hids

/-- The values that are listed as transform blocks. -/
def listedBlocks (v : Json) : List Json :=
  ((v.field? "transformBlocks".toList).bind Json.items?).getD []

theorem ListsBlocks.getD_items {field : Option Json} {blocks : List (List Text)}
    (h : ListsBlocks field blocks) : (field.bind Json.items?).getD [] = blocks.map blockValue := by
  cases h <;> rfl

theorem listedBlocks_eq {v : Json} {c : Configuration} (h : Configuration.ofValue v = .ok c) :
    listedBlocks v = c.transformBlocks.map blockValue :=
  (describes_of_ofValue h).1.getD_items

/-- **The distinct blocks are the first occurrences.** They are the transform blocks before which
no block lists the same ids in the same order, from left to right, and no other list is. So they
are among the transform blocks in order, none of them repeats one before it, and every transform
block is among them; a configuration with just these blocks keeps them. Where a value was accepted,
they are the first occurrences of the arrays that it lists. -/
theorem distinct_blocks_are_first_occurrences :
    (∀ c : Configuration,
      c.distinctBlocks.Sublist c.transformBlocks ∧
        c.distinctBlocks.Pairwise (fun block other => ¬ SameIds block other) ∧
        (∀ block, block ∈ c.distinctBlocks ↔ block ∈ c.transformBlocks) ∧
        (∀ distinct, c.distinctBlocks = distinct ↔
          FirstOccurrences SameIds c.transformBlocks distinct) ∧
        { c with transformBlocks := c.distinctBlocks }.distinctBlocks = c.distinctBlocks) ∧
      ∀ v c, Configuration.ofValue v = .ok c →
        FirstOccurrences Eq (listedBlocks v) (c.distinctBlocks.map blockValue) := by
  refine ⟨fun c => ?_, fun v c h => ?_⟩
  · have hfirst : FirstOccurrences Eq c.transformBlocks c.distinctBlocks :=
      firstOccurrences_eraseDups _
    have hnodup : c.distinctBlocks.Nodup := nodup_eraseDups _
    rw [sameIds_eq]
    refine ⟨eraseDups_sublist _, hnodup, fun _ => List.mem_eraseDups, fun distinct => ?_,
      eraseDups_of_nodup hnodup⟩
    exact ⟨fun h => h ▸ hfirst, hfirst.unique⟩
  · rw [listedBlocks_eq h]
    exact (firstOccurrences_eraseDups _).map blockValue_injective

/-- A block in another order, the beginning of a block and an empty one are blocks of their own. -/
theorem distinct_blocks_are_first_occurrences_mixed :
    let ab : List Text := ["a".toList, "b".toList]
    let v : Json := .object [("transformBlocks".toList,
      .array ([ab, [], ab.reverse, ab, ["a".toList], []].map blockValue))]
    ∃ c, Configuration.ofValue v = .ok c ∧ c.distinctBlocks = [ab, [], ab.reverse, ["a".toList]] ∧
      FirstOccurrences Eq (listedBlocks v) (c.distinctBlocks.map blockValue) := by
  intro ab v
  have h : Configuration.ofValue v =
      .ok { transformBlocks := [ab, [], ab.reverse, ab, ["a".toList], []] } := by rfl
  exact ⟨_, h, by decide, distinct_blocks_are_first_occurrences.2 v _ h⟩

end Pipeline

end DocSite
