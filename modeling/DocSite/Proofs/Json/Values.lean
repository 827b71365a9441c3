import DocSite.Proofs.Json.Printed
import DocSite.Proofs.Table
import DocSite.Proofs.Traversal
import Mathlib.Algebra.Ring.Int.Defs

/-!
# Printed values are values again

A value is made of the structure of a text: numbers have a range, the fields of objects are put in
order, and arrays and objects nest only so deep. What is printed for a value that respects this
(`Json.Canonical`) is the text of that value again.

* `Json.toJsonWithin?_toRaw` : a canonical value is made of its structure.
* `Json.read?_printed` : it is read from its texts.
-/

namespace DocSite

/-! ### Tables in order -/

theorem Table.ofList_eq_self {α : Type} {rows : Table α} (h : rows.Ascending) :
    ofList rows = rows := by
  have hleft : (ofList rows).Pairwise (·.1 < ·.1) := List.pairwise_map.1 (ascending_ofList rows)
  have hright : rows.Pairwise (·.1 < ·.1) := List.pairwise_map.1 h
  exact (perm_ofList h.nodup).eq_of_pairwise
    (fun a b _ _ hab hba => absurd hba (lt_asymm hab)) hleft hright

/-! ### Numbers -/

namespace Json

theorem digits_numeral (n : Int) (exponent? : Option Int) :
    (numeral n exponent?).digits = n.natAbs := by
  simp [Numeral.digits, Numeral.fraction, numeral, Text.ofNat, Nat.ofDigitChars_ten_toDigits]

theorem negative_numeral {n : Int} {exponent? : Option Int} :
    (numeral n exponent?).negative = true ↔ n < 0 := decide_eq_true_iff

theorem mantissa_numeral (n : Int) (exponent? : Option Int) :
    (numeral n exponent?).mantissa = n := by
  have hsign : (if n < 0 then -(n.natAbs : Int) else n.natAbs) = n := by split <;> omega
  rw [Numeral.mantissa, digits_numeral]
  simp only [negative_numeral, hsign]

theorem integer?_numeral (n : Int) : (numeral n none).integer? = some n := by
  have hzero : ¬(n < 0 ∧ n.natAbs = 0) := by omega
  have hproper : ¬((numeral n none).fraction?.isSome ∨ (numeral n none).exponent?.isSome ∨
      (numeral n none).negative ∧ (numeral n none).digits = 0) := by
    rw [negative_numeral, digits_numeral]
    rintro (h | h | h)
    · cases h
    · cases h
    · exact hzero h
  rw [Numeral.integer?, if_neg hproper, mantissa_numeral]

/-! ### Values -/

/-- A value that can be read from text: its whole numbers fit 64 bits, with a sign or without, its
other numbers are in range, and the fields of its objects stand in ascending order. -/
inductive Canonical : Json → Prop
  | null : Canonical null
  | bool (b : Bool) : Canonical (bool b)
  | integer {n : Int} (hlow : -2 ^ 63 ≤ n) (hhigh : n < 2 ^ 64) : Canonical (integer n)
  | real {m e : Int} (h : (numeral m (some e)).isOutOfRange = false) : Canonical (real m e)
  | string (s : Text) : Canonical (string s)
  | array {items : List Json} (h : ∀ v ∈ items, Canonical v) : Canonical (array items)
  | object {fields : Table Json} (hnames : fields.Ascending) (h : ∀ f ∈ fields, Canonical f.2) :
      Canonical (object fields)

theorem toJsonWithin?_toRaw {v : Json} (h : v.Canonical) {depth : Nat} (hdepth : v.depth ≤ depth) :
    v.toRaw.toJsonWithin? depth = some v := by
  induction h generalizing depth with
  | null | bool => rw [toRaw, Raw.toJsonWithin?]
  | string => rw [toRaw, Raw.toJsonWithin?, Option.map_some]
  | @integer n hlow hhigh =>
    have hfits : -Int.pow 2 63 ≤ n ∧ n < Int.pow 2 64 := ⟨hlow, hhigh⟩
    have hfilter : (some n).filter (fun i => -Int.pow 2 63 ≤ i ∧ i < Int.pow 2 64) = some n :=
      Option.filter_some_pos (decide_eq_true hfits)
    rw [toRaw, Raw.toJsonWithin?, ofNumeral?, integer?_numeral, hfilter]
  | @real m e h =>
    have hnone : (numeral m (some e)).integer? = none := if_pos (.inr (.inl rfl))
    have hscale : (numeral m (some e)).scale = e := Int.sub_zero e
    rw [toRaw, Raw.toJsonWithin?, ofNumeral?, hnone, mantissa_numeral, hscale, h]
    rfl
  | @array items _ ih =>
    cases depth with
    | zero => exact absurd hdepth (Nat.not_succ_le_zero _)
    | succ depth =>
      have hitems : (items.map toRaw).mapM (Raw.toJsonWithin? depth) = some (items.map id) :=
        mapM_map_eq_some fun v hv => ih v hv
          (Nat.le_of_lt_succ ((depth_lt_of_mem_items rfl hv).trans_le hdepth))
      rw [toRaw, toRawItems_eq, Raw.toJsonWithin?, hitems, List.map_id, Option.map_some]
  | @object fields hnames _ ih =>
    cases depth with
    | zero => exact absurd hdepth (Nat.not_succ_le_zero _)
    | succ depth =>
      have hfield : ∀ f ∈ fields, f.2.toRaw.toJsonWithin? depth = some f.2 := fun f hf => ih f hf
        (Nat.le_of_lt_succ ((depth_lt_of_mem_fields rfl hf).trans_le hdepth))
      rw [toRaw, toRawFields_eq, Raw.toJsonWithin?, mapM_map_eq_some (k := id) fun f hf => by
        simp only [hfield f hf, Option.bind_eq_bind, Option.bind_some, id]]
      rw [List.map_id, Option.bind_eq_bind, Option.bind_some, Table.ofList_eq_self hnames]

/-- **What is printed for a value is the text of that value.** -/
theorem read?_printed {v : Json} (h : v.Canonical) (hdepth : v.depth ≤ 127) {s : Text}
    (hs : s ∈ [v.compact, v.pretty]) : read? s = some v := by
  rw [read?, read?_of_mem hs, Option.bind_some, Raw.toJson?]
  exact toJsonWithin?_toRaw h hdepth

end Json

end DocSite
