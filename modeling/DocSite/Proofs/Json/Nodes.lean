import DocSite.Json.Basic
import DocSite.Proofs.Text.Numerals
import Mathlib.Data.List.Basic

/-!
# The nodes of a value

A value is a tree of values. `Json.nodes` lists them, the value itself first, so that a walk through
a value can be counted: there are as many nodes as `Json.size` says. A pointer selects one of them,
and a part of a value is less deep than the value.

* `Json.length_nodes` : the number of nodes.
* `Json.mem_nodes_of_pointer?` : what a pointer selects is a node.
* `Json.pointer?_below` : a pointer that starts with the name of a part goes on in the part.

Names are escaped in a pointer. Reading undoes it (`Json.unescapeSegment_escapeSegment`), so that
different names are written differently, and what is written holds no slash.
-/

namespace DocSite

namespace Table

theorem mem_of_find? {α : Type} {t : Table α} {name : Text} {value : α}
    (h : t.find? name = some value) : (name, value) ∈ t := by
  obtain ⟨before, after, rfl, -⟩ := List.lookup_eq_some_iff.1 h
  simp

end Table

namespace Json

@[simp] theorem fields?_eq_some_iff {v : Json} {fields : Table Json} :
    v.fields? = some fields ↔ v = object fields := by
  cases v <;> simp [fields?]

@[simp] theorem items?_eq_some_iff {v : Json} {items : List Json} :
    v.items? = some items ↔ v = array items := by
  cases v <;> simp [items?]

@[simp] theorem text?_eq_some_iff {v : Json} {s : Text} : v.text? = some s ↔ v = string s := by
  cases v <;> simp [text?]

/-! ### Induction over the parts of a value -/

/-- What holds of a value if it holds of its parts holds of every value. -/
theorem induct {P : Json → Prop} (null : P null) (bool : ∀ b, P (bool b))
    (integer : ∀ n, P (integer n)) (real : ∀ m e, P (real m e)) (string : ∀ s, P (string s))
    (array : ∀ items, (∀ v ∈ items, P v) → P (array items))
    (object : ∀ fields : Table Json, (∀ f ∈ fields, P f.2) → P (object fields)) (v : Json) :
    P v :=
  @Json.rec P (fun items => ∀ v ∈ items, P v) (fun fields => ∀ f ∈ fields, P f.2)
    (fun f => P f.2) null bool integer real string array object
    (List.forall_mem_nil _) (fun _ _ hv hrest => List.forall_mem_cons.2 ⟨hv, hrest⟩)
    (List.forall_mem_nil _) (fun _ _ hf hrest => List.forall_mem_cons.2 ⟨hf, hrest⟩)
    (fun _ _ hv => hv) v

/-! ### Nodes -/

mutual

/-- The values in a value, itself first. -/
def nodes : Json → List Json
  | array items => array items :: nodesOfItems items
  | object fields => object fields :: nodesOfFields fields
  | v => [v]

/-- The values in the elements of an array. -/
def nodesOfItems : List Json → List Json
  | [] => []
  | v :: rest => nodes v ++ nodesOfItems rest

/-- The values in the fields of an object. -/
def nodesOfFields : List (Text × Json) → List Json
  | [] => []
  | (_, v) :: rest => nodes v ++ nodesOfFields rest

end

theorem nodesOfItems_eq (items : List Json) : nodesOfItems items = items.flatMap nodes := by
  induction items with
  | nil => rfl
  | cons v rest ih => rw [nodesOfItems, ih, List.flatMap_cons]

theorem nodesOfFields_eq (fields : Table Json) :
    nodesOfFields fields = fields.flatMap fun f => nodes f.2 := by
  induction fields with
  | nil => rfl
  | cons f rest ih => rw [nodesOfFields, ih, List.flatMap_cons]

theorem length_nodesOfItems {items : List Json} (h : ∀ v ∈ items, v.nodes.length = v.size) :
    (nodesOfItems items).length = sizeItems items := by
  induction items with
  | nil => rfl
  | cons v rest ih =>
    obtain ⟨hv, hrest⟩ := List.forall_mem_cons.1 h
    rw [nodesOfItems, sizeItems, List.length_append, hv, ih hrest]

theorem length_nodesOfFields {fields : Table Json} (h : ∀ f ∈ fields, f.2.nodes.length = f.2.size) :
    (nodesOfFields fields).length = sizeFields fields := by
  induction fields with
  | nil => rfl
  | cons f rest ih =>
    obtain ⟨hf, hrest⟩ := List.forall_mem_cons.1 h
    rw [nodesOfFields, sizeFields, List.length_append, hf, ih hrest]

/-- **There are as many nodes as the size says.** -/
theorem length_nodes (v : Json) : v.nodes.length = v.size := by
  induction v using induct with
  | null | bool | integer | real | string => rfl
  | array items ih => rw [nodes, size, List.length_cons, length_nodesOfItems ih]
  | object fields ih => rw [nodes, size, List.length_cons, length_nodesOfFields ih]

theorem self_mem_nodes (v : Json) : v ∈ v.nodes := by
  cases v <;> simp [nodes]

theorem mem_nodes_array {v : Json} {items : List Json} :
    v ∈ (array items).nodes ↔ v = array items ∨ ∃ item ∈ items, v ∈ item.nodes := by
  rw [nodes, List.mem_cons, nodesOfItems_eq, List.mem_flatMap]

theorem mem_nodes_object {v : Json} {fields : Table Json} :
    v ∈ (object fields).nodes ↔ v = object fields ∨ ∃ f ∈ fields, v ∈ f.2.nodes := by
  rw [nodes, List.mem_cons, nodesOfFields_eq, List.mem_flatMap]

theorem mem_nodes_trans {u v w : Json} (huv : u ∈ v.nodes) (hvw : v ∈ w.nodes) : u ∈ w.nodes := by
  induction w using induct with
  | null | bool | integer | real | string =>
    obtain rfl := List.mem_singleton.1 hvw
    exact huv
  | array items ih =>
    rcases mem_nodes_array.1 hvw with rfl | ⟨item, hitem, hv⟩
    · exact huv
    · exact mem_nodes_array.2 (.inr ⟨item, hitem, ih item hitem hv⟩)
  | object fields ih =>
    rcases mem_nodes_object.1 hvw with rfl | ⟨f, hf, hv⟩
    · exact huv
    · exact mem_nodes_object.2 (.inr ⟨f, hf, ih f hf hv⟩)

theorem mem_nodes_of_mem_items {v item : Json} {items : List Json} (hv : v.items? = some items)
    (h : item ∈ items) : item ∈ v.nodes := by
  cases v <;> cases hv
  exact mem_nodes_array.2 (.inr ⟨item, h, self_mem_nodes _⟩)

theorem mem_nodes_of_mem_fields {v : Json} {fields : Table Json} {f : Text × Json}
    (hv : v.fields? = some fields) (h : f ∈ fields) : f.2 ∈ v.nodes := by
  cases v <;> cases hv
  exact mem_nodes_object.2 (.inr ⟨f, h, self_mem_nodes _⟩)

/-! ### Depth -/

theorem depth_lt_of_mem_items {v item : Json} {items : List Json} (hv : v.items? = some items)
    (h : item ∈ items) : item.depth < v.depth := by
  cases v <;> cases hv
  rw [depth, Nat.lt_succ_iff]
  induction items with
  | nil => cases h
  | cons first rest ih =>
    rw [depthItems]
    rcases List.mem_cons.1 h with rfl | h
    · exact Nat.le_max_left _ _
    · exact Nat.le_trans (ih h) (Nat.le_max_right _ _)

theorem depth_lt_of_mem_fields {v : Json} {fields : Table Json} {f : Text × Json}
    (hv : v.fields? = some fields) (h : f ∈ fields) : f.2.depth < v.depth := by
  cases v <;> cases hv
  rw [depth, Nat.lt_succ_iff]
  induction fields with
  | nil => cases h
  | cons first rest ih =>
    rw [depthFields]
    rcases List.mem_cons.1 h with rfl | h
    · exact Nat.le_max_left _ _
    · exact Nat.le_trans (ih h) (Nat.le_max_right _ _)

/-! ### Pointers -/

theorem escapeSegment_cons (c : Char) (name : Text) :
    escapeSegment (c :: name) =
      (if c = '~' then ['~', '0'] else if c = '/' then ['~', '1'] else [c]) ++
        escapeSegment name := by
  unfold escapeSegment Text.replace
  rw [List.flatMap_cons, List.flatMap_append]
  split_ifs with htilde hslash
  · rfl
  · simp [hslash]
  · simp [hslash]

theorem unescapeSegment_cons {c : Char} (hc : c ≠ '~') (s : Text) :
    unescapeSegment (c :: s) = c :: unescapeSegment s := by
  rw [unescapeSegment]
  · exact fun _ h => absurd h hc
  · exact fun _ h => absurd h hc

theorem unescapeSegment_escapeSegment (name : Text) :
    unescapeSegment (escapeSegment name) = name := by
  induction name with
  | nil => rfl
  | cons c name ih =>
    rw [escapeSegment_cons]
    split_ifs with htilde hslash
    · rw [htilde]
      exact congrArg ('~' :: ·) ih
    · rw [hslash]
      exact congrArg ('/' :: ·) ih
    · rw [List.singleton_append, unescapeSegment_cons htilde, ih]

theorem escapeSegment_injective {a b : Text} (h : escapeSegment a = escapeSegment b) : a = b := by
  rw [← unescapeSegment_escapeSegment a, h, unescapeSegment_escapeSegment]

theorem slash_not_mem_escapeSegment (name : Text) : '/' ∉ escapeSegment name := by
  induction name with
  | nil => exact List.not_mem_nil
  | cons c name ih =>
    rw [escapeSegment_cons, List.mem_append, not_or]
    refine ⟨?_, ih⟩
    split_ifs with htilde hslash
    · decide
    · decide
    · exact fun h => hslash (List.mem_singleton.1 h).symm

theorem escapeSegment_ofNat (n : Nat) : escapeSegment (Text.ofNat n) = Text.ofNat n := by
  have key : ∀ s : Text, (∀ c ∈ s, c.isDigit = true) → escapeSegment s = s := by
    intro s
    induction s with
    | nil => exact fun _ => rfl
    | cons c s ih =>
      intro h
      obtain ⟨hc, hs⟩ := List.forall_mem_cons.1 h
      rw [escapeSegment_cons, ih hs, if_neg, if_neg]
      · rfl
      · rintro rfl; cases hc
      · rintro rfl; cases hc
  exact key _ fun _ => Text.isDigit_of_mem_ofNat

theorem arrayIndex?_ofNat (n : Nat) : arrayIndex? (Text.ofNat n) = some n := by
  rw [arrayIndex?, if_neg, Text.toNat?_ofNat]
  rintro ⟨hhead, hlength⟩
  rw [Text.ofNat_eq_zero_of_head? hhead] at hlength
  exact hlength rfl

theorem child?_of_find? {v part : Json} {fields : Table Json} {name : Text}
    (hv : v.fields? = some fields) (h : fields.find? name = some part) :
    v.child? (escapeSegment name) = some part := by
  cases v <;> cases hv
  rw [child?, unescapeSegment_escapeSegment]
  exact h

theorem child?_of_getElem? {v part : Json} {items : List Json} {i : Nat}
    (hv : v.items? = some items) (h : items[i]? = some part) :
    v.child? (escapeSegment (Text.ofNat i)) = some part := by
  cases v <;> cases hv
  rw [child?, escapeSegment_ofNat, arrayIndex?_ofNat]
  exact h

theorem mem_nodes_of_child? {v part : Json} {segment : Text} (h : v.child? segment = some part) :
    part ∈ v.nodes := by
  cases v with
  | object fields => exact mem_nodes_of_mem_fields rfl (Table.mem_of_find? h)
  | array items =>
    obtain ⟨i, -, hi⟩ := Option.bind_eq_some_iff.1 h
    exact mem_nodes_of_mem_items rfl (List.mem_of_getElem? hi)
  | _ => cases h

theorem mem_nodes_of_pointer? {v target : Json} {pointer : Text}
    (h : v.pointer? pointer = some target) : target ∈ v.nodes := by
  unfold pointer? at h
  split at h
  · obtain rfl := Option.some.inj h
    exact self_mem_nodes _
  · rename_i path
    generalize path.splitOn '/' = segments at h
    induction segments generalizing v with
    | nil =>
      obtain rfl := Option.some.inj h
      exact self_mem_nodes _
    | cons segment segments ih =>
      obtain ⟨part, hpart, hrest⟩ := Option.bind_eq_some_iff.1 h
      exact mem_nodes_trans (ih hrest) (mem_nodes_of_child? hpart)
  · cases h

/-- **A pointer that starts with the name of a part goes on in the part.** -/
theorem pointer?_below {v part target : Json} {name pointer : Text}
    (hpart : v.child? (escapeSegment name) = some part)
    (h : part.pointer? pointer = some target) :
    v.pointer? ('/' :: escapeSegment name ++ pointer) = some target := by
  have hname := slash_not_mem_escapeSegment name
  rw [List.cons_append, pointer?]
  unfold pointer? at h
  split at h
  · rw [List.append_nil, List.splitOn_eq_singleton hname, List.foldlM_cons, hpart]
    exact h
  · rw [List.splitOn_append_cons_self_of_not_mem hname, List.foldlM_cons, hpart]
    exact h
  · cases h

theorem pointer?_append {v part : Json} {pointer : Text} (h : v.pointer? pointer = some part)
    (path : Text) : v.pointer? (pointer ++ '/' :: path) = part.pointer? ('/' :: path) := by
  unfold pointer? at h
  split at h
  · rw [Option.some.inj h]
    rfl
  · rw [List.cons_append, pointer?, List.splitOn_append_cons_self, List.foldlM_append, h]
    rfl
  · cases h

end Json

end DocSite
