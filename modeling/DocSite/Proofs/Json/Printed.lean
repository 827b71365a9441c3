import DocSite.Proofs.Json.Nodes
import DocSite.Proofs.Json.Tokens

/-!
# Printed values are read back

A value is printed on one line or on several. Either way its text is read back as the structure of
the value, whatever follows it: the printers differ in the white space between the parts, which the
reader passes over.

* `Json.toRaw` : the structure of a value.
* `Json.Reads` : a text is read as a structure wherever it stands.
* `Json.reads_compact`, `Json.reads_prettyAt` : printed values are.
* `Json.read?_of_mem` : so they are read back.

The rules for `Reads` follow the grammar, one for each kind of value. The reader spends its fuel on
characters, two steps for each of them at most.
-/

namespace DocSite

namespace Json

/-! ### The structure of a value -/

/-- The numeral of an integer, with or without an exponent. -/
def numeral (n : Int) (exponent? : Option Int) : Numeral where
  negative := n < 0
  whole := Text.ofNat n.natAbs
  fraction? := none
  exponent? := exponent?

mutual

/-- The structure of a value as it is printed. -/
def toRaw : Json → Raw
  | null => .null
  | bool b => .bool b
  | integer n => .number (numeral n none)
  | real m e => .number (numeral m (some e))
  | string s => .string (some s)
  | array items => .array (toRawItems items)
  | object fields => .object (toRawFields fields)

/-- The structures of the elements of an array. -/
def toRawItems : List Json → List Raw
  | [] => []
  | v :: rest => toRaw v :: toRawItems rest

/-- The structures of the fields of an object. -/
def toRawFields : List (Text × Json) → List (Option Text × Raw)
  | [] => []
  | (name, v) :: rest => (some name, toRaw v) :: toRawFields rest

end

theorem toRawItems_eq (items : List Json) : toRawItems items = items.map toRaw := by
  induction items with
  | nil => rfl
  | cons v rest ih => rw [toRawItems, ih, List.map_cons]

theorem toRawFields_eq (fields : Table Json) :
    toRawFields fields = fields.map fun f => (some f.1, f.2.toRaw) := by
  induction fields with
  | nil => rfl
  | cons f rest ih => rw [toRawFields, ih, List.map_cons]

/-! ### White space -/

/-- Nothing but white space. -/
def IsGap (gap : Text) : Prop := gap.all isSpace = true

theorem isGap_nil : IsGap [] := rfl

theorem isGap_newline (level : Nat) : IsGap (newline level) := by
  simp [IsGap, newline, isSpace]

theorem skipSpace_append {gap : Text} (h : IsGap gap) (s : Text) :
    skipSpace (gap ++ s) = skipSpace s :=
  List.dropWhile_append_of_pos (List.all_eq_true.1 h)

theorem skipSpace_cons {c : Char} (h : isSpace c = false) (s : Text) :
    skipSpace (c :: s) = c :: s := by
  simp [skipSpace, h]

theorem rawValue?_gap {gap : Text} (h : IsGap gap) (fuel : Nat) (s : Text) :
    rawValue? fuel (gap ++ s) = rawValue? fuel s := by
  cases fuel with
  | zero => rfl
  | succ fuel => rw [rawValue?, rawValue?, skipSpace_append h]

theorem rawFields?_gap {gap : Text} (h : IsGap gap) (fuel : Nat) (s : Text) :
    rawFields? fuel (gap ++ s) = rawFields? fuel s := by
  cases fuel with
  | zero => rfl
  | succ fuel => rw [rawFields?, rawFields?, skipSpace_append h]

theorem skipSpace_gap {gap : Text} (h : IsGap gap) : skipSpace gap = [] := by
  have hskip := skipSpace_append h []
  rwa [List.append_nil] at hskip

theorem ends_gap_append {gap rest : Text} (h : IsGap gap) (hrest : Ends rest) :
    Ends (gap ++ rest) := by
  cases gap with
  | nil => exact hrest
  | cons c gap =>
    have hc : isSpace c = true := List.all_eq_true.1 h c List.mem_cons_self
    refine ends_cons ?_
    simp only [isSpace, Bool.or_eq_true, decide_eq_true_eq] at hc
    rcases hc with ((rfl | rfl) | rfl) | rfl <;> decide

/-! ### Reading -/

/-- Wherever a text stands before what can follow a number, it is read as a structure. -/
def Reads (s : Text) (r : Raw) : Prop :=
  ∀ fuel rest, 2 * s.length ≤ fuel → Ends rest → rawValue? fuel (s ++ rest) = some (r, rest)

/-- Before the end of an array, a text is read as its elements. -/
def ReadsItems (s : Text) (items : List Raw) : Prop :=
  ∀ fuel gap rest, 2 * s.length + 1 ≤ fuel → IsGap gap →
    rawItems? fuel (s ++ (gap ++ ']' :: rest)) = some (items, rest)

/-- Before the end of an object, a text is read as its fields. -/
def ReadsFields (s : Text) (fields : List (Option Text × Raw)) : Prop :=
  ∀ fuel gap rest, 2 * s.length + 1 ≤ fuel → IsGap gap →
    rawFields? fuel (s ++ (gap ++ '\x7d' :: rest)) = some (fields, rest)

/-! ### Where a value starts -/

section

variable (fuel : Nat) (s : Text)

theorem rawValue?_quote :
    rawValue? (fuel + 1) ('"' :: s) = (stringRest? s).map fun (s, rest) => (.string s, rest) := rfl

theorem rawValue?_bracket :
    rawValue? (fuel + 1) ('[' :: s) =
      match skipSpace s with
      | ']' :: rest => some (.array [], rest)
      | _ => (rawItems? fuel s).map fun (items, rest) => (.array items, rest) := rfl

theorem rawValue?_brace :
    rawValue? (fuel + 1) ('\x7b' :: s) =
      match skipSpace s with
      | '\x7d' :: rest => some (.object [], rest)
      | _ => (rawFields? fuel s).map fun (fields, rest) => (.object fields, rest) := rfl

theorem rawFields?_quote :
    rawFields? (fuel + 1) ('"' :: s) =
      (stringRest? s).bind fun (name, s) =>
        match skipSpace s with
        | ':' :: rest =>
          (rawValue? fuel rest).bind fun (value, s) =>
            match skipSpace s with
            | ',' :: rest =>
              (rawFields? fuel rest).map fun (fields, rest) => ((name, value) :: fields, rest)
            | '\x7d' :: rest => some ([(name, value)], rest)
            | _ => none
        | _ => none := rfl

theorem rawValue?_minus :
    rawValue? (fuel + 1) ('-' :: s) = (numeral? true s).map fun (n, rest) => (.number n, rest) :=
  rfl

theorem rawValue?_digit {c : Char} (hc : c.isDigit = true) :
    rawValue? (fuel + 1) (c :: s) =
      (numeral? false (c :: s)).map fun (n, rest) => (.number n, rest) := by
  have hne {d : Char} (hd : d.isDigit = false) : c ≠ d := by
    rintro rfl
    rw [hc] at hd
    cases hd
  have hspace : isSpace c = false := by
    simp [isSpace, hne (d := ' ') rfl, hne (d := '\n') rfl, hne (d := '\t') rfl,
      hne (d := '\r') rfl]
  rw [rawValue?, skipSpace_cons hspace]
  split
  case h_8 => rfl
  all_goals
    rename_i heq
    exact absurd (List.cons.inj heq).1 (hne rfl)

end

section

variable {s t : Text} {r : Raw} {items : List Raw} {fields : List (Option Text × Raw)}

theorem Reads.gap {gap : Text} (h : Reads s r) (hgap : IsGap gap) : Reads (gap ++ s) r := by
  intro fuel rest hfuel hrest
  rw [List.append_assoc, rawValue?_gap hgap]
  refine h fuel rest ?_ hrest
  rw [List.length_append] at hfuel
  omega

theorem reads_of_succ (hs : s ≠ [])
    (h : ∀ fuel rest, 2 * s.length ≤ fuel + 1 → Ends rest →
      rawValue? (fuel + 1) (s ++ rest) = some (r, rest)) : Reads s r := by
  intro fuel rest hfuel hrest
  have hpos := List.length_pos_of_ne_nil hs
  obtain ⟨fuel, rfl⟩ := Nat.exists_eq_add_of_le' (show 1 ≤ fuel by omega)
  exact h fuel rest hfuel hrest

theorem reads_quote (s : Text) : Reads (quote s) (.string (some s)) := by
  refine reads_of_succ (List.cons_ne_nil _ _) fun fuel rest _ _ => ?_
  rw [quote, List.append_assoc, List.cons_append, rawValue?_quote, List.singleton_append,
    stringRest?_quote]
  rfl

/-! ### Arrays -/

theorem rawItems?_of_close (h : skipSpace s = ']' :: t) (fuel : Nat) :
    rawItems? fuel s = none := by
  cases fuel with
  | zero => rfl
  | succ fuel =>
    cases fuel with
    | zero => rfl
    | succ fuel =>
      rw [rawItems?, rawValue?, h]
      rfl

theorem ReadsItems.single (h : Reads s r) : ReadsItems s [r] := by
  intro fuel gap rest hfuel hgap
  obtain ⟨fuel, rfl⟩ := Nat.exists_eq_add_of_le' (Nat.one_le_of_lt hfuel)
  have hends : Ends (gap ++ ']' :: rest) := ends_gap_append hgap (ends_cons (by decide))
  have hread := h fuel (gap ++ ']' :: rest) (by omega) hends
  rw [rawItems?, hread, Option.bind_eq_bind, Option.bind_some]
  dsimp only
  rw [skipSpace_append hgap]
  rfl

theorem ReadsItems.cons (h : Reads s r) (hrest : ReadsItems t items) :
    ReadsItems (s ++ ',' :: t) (r :: items) := by
  intro fuel gap rest hfuel hgap
  rw [List.length_append, List.length_cons] at hfuel
  obtain ⟨fuel, rfl⟩ := Nat.exists_eq_add_of_le' (Nat.one_le_of_lt hfuel)
  have hread := h fuel (',' :: (t ++ (gap ++ ']' :: rest))) (by omega) (ends_cons (by decide))
  rw [List.append_assoc, List.cons_append, rawItems?, hread]
  show (rawItems? fuel (t ++ (gap ++ ']' :: rest))).map
    (fun (items, rest) => (r :: items, rest)) = _
  rw [hrest fuel gap rest (by omega) hgap]
  rfl

theorem ReadsItems.array {gap : Text} (h : ReadsItems s items) (hgap : IsGap gap) :
    Reads ('[' :: s ++ gap ++ [']']) (.array items) := by
  refine reads_of_succ (by simp) fun fuel rest hfuel _ => ?_
  simp only [List.length_append, List.length_cons] at hfuel
  have hread := h fuel gap rest (by omega) hgap
  have hs : '[' :: s ++ gap ++ [']'] ++ rest = '[' :: (s ++ (gap ++ ']' :: rest)) := by simp
  rw [hs, rawValue?_bracket]
  split
  · rename_i hclose
    rw [rawItems?_of_close hclose] at hread
    cases hread
  · rw [hread]
    rfl

/-! ### Objects -/

theorem rawFields?_of_close (h : skipSpace s = '\x7d' :: t) (fuel : Nat) :
    rawFields? fuel s = none := by
  cases fuel with
  | zero => rfl
  | succ fuel =>
    rw [rawFields?, h]
    rfl

theorem rawFields?_name {before : Text} (hbefore : IsGap before) (name s : Text) (fuel : Nat) :
    rawFields? (fuel + 1) (before ++ (quote name ++ ':' :: s)) =
      (rawValue? fuel s).bind fun (value, s) =>
        match skipSpace s with
        | ',' :: rest =>
          (rawFields? fuel rest).map fun (fields, rest) => ((some name, value) :: fields, rest)
        | '\x7d' :: rest => some ([(some name, value)], rest)
        | _ => none := by
  rw [rawFields?_gap hbefore, quote, List.append_assoc, List.cons_append, rawFields?_quote,
    List.singleton_append, stringRest?_quote]
  rfl

theorem ReadsFields.single {before : Text} (hbefore : IsGap before) (name : Text)
    (h : Reads s r) : ReadsFields (before ++ (quote name ++ ':' :: s)) [(some name, r)] := by
  intro fuel gap rest hfuel hgap
  simp only [List.length_append, List.length_cons] at hfuel
  obtain ⟨fuel, rfl⟩ := Nat.exists_eq_add_of_le' (Nat.one_le_of_lt hfuel)
  have hends : Ends (gap ++ '\x7d' :: rest) := ends_gap_append hgap (ends_cons (by decide))
  have hread := h fuel (gap ++ '\x7d' :: rest) (by omega) hends
  rw [List.append_assoc, List.append_assoc, List.cons_append, rawFields?_name hbefore, hread,
    Option.bind_some]
  dsimp only
  rw [skipSpace_append hgap]
  rfl

theorem ReadsFields.cons {before : Text} (hbefore : IsGap before) (name : Text) (h : Reads s r)
    (hrest : ReadsFields t fields) :
    ReadsFields (before ++ (quote name ++ ':' :: s) ++ ',' :: t) ((some name, r) :: fields) := by
  intro fuel gap rest hfuel hgap
  simp only [List.length_append, List.length_cons] at hfuel
  obtain ⟨fuel, rfl⟩ := Nat.exists_eq_add_of_le' (Nat.one_le_of_lt hfuel)
  have hread := h fuel (',' :: (t ++ (gap ++ '\x7d' :: rest))) (by omega) (ends_cons (by decide))
  rw [List.append_assoc, List.append_assoc, List.append_assoc, List.cons_append, List.cons_append,
    rawFields?_name hbefore, hread, Option.bind_some]
  show (rawFields? fuel (t ++ (gap ++ '\x7d' :: rest))).map
    (fun (fields, rest) => ((some name, r) :: fields, rest)) = _
  rw [hrest fuel gap rest (by omega) hgap]
  rfl

theorem ReadsFields.object {gap : Text} (h : ReadsFields s fields) (hgap : IsGap gap) :
    Reads ('\x7b' :: s ++ gap ++ ['\x7d']) (.object fields) := by
  refine reads_of_succ (by simp) fun fuel rest hfuel _ => ?_
  simp only [List.length_append, List.length_cons] at hfuel
  have hread := h fuel gap rest (by omega) hgap
  have hs : '\x7b' :: s ++ gap ++ ['\x7d'] ++ rest = '\x7b' :: (s ++ (gap ++ '\x7d' :: rest)) := by
    simp
  rw [hs, rawValue?_brace]
  split
  · rename_i hclose
    rw [rawFields?_of_close hclose] at hread
    cases hread
  · rw [hread]
    rfl

/-! ### Numbers -/

theorem reads_ofInt (n : Int) (after : Text) (exponent? : Option Int)
    (h : ∀ (negative : Bool) (n : Nat) (rest : Text), Ends rest →
      numeral? negative (Text.ofNat n ++ (after ++ rest)) =
        some ({ negative, whole := Text.ofNat n, fraction? := none, exponent? }, rest)) :
    Reads (Text.ofInt n ++ after) (.number (numeral n exponent?)) := by
  cases n with
  | negSucc n =>
    refine reads_of_succ (List.cons_ne_nil _ _) fun fuel rest _ hrest => ?_
    have hnegative : decide (Int.negSucc n < 0) = true := decide_eq_true (Int.negSucc_lt_zero n)
    rw [Text.ofInt, List.append_assoc, List.cons_append, rawValue?_minus, h true _ rest hrest,
      numeral, hnegative]
    rfl
  | ofNat n =>
    have hne : Text.ofNat n ++ after ≠ [] :=
      List.append_ne_nil_of_left_ne_nil (Text.ofNat_ne_nil n) after
    refine reads_of_succ hne fun fuel rest _ hrest => ?_
    have hread := h false n rest hrest
    have hnegative : decide (Int.ofNat n < 0) = false :=
      decide_eq_false (Int.not_lt.2 (Int.natCast_nonneg n))
    rw [Text.ofInt, List.append_assoc, numeral, hnegative]
    cases hn : Text.ofNat n with
    | nil => exact absurd hn (Text.ofNat_ne_nil n)
    | cons c cs =>
      have hc : c.isDigit = true := Text.isDigit_of_mem_ofNat (hn ▸ List.mem_cons_self)
      rw [List.cons_append, rawValue?_digit fuel _ hc, ← List.cons_append, ← hn, hread]
      rfl

theorem reads_scalar_integer (n : Int) : Reads (scalar (integer n)) (.number (numeral n none)) := by
  have h := reads_ofInt n [] none fun negative n rest hrest =>
    numeral?_ofNat negative n hrest
  rwa [List.append_nil] at h

theorem reads_scalar_real (m e : Int) :
    Reads (scalar (real m e)) (.number (numeral m (some e))) := by
  refine reads_ofInt m _ (some e) fun negative n rest hrest => ?_
  rw [List.cons_append]
  exact numeral?_exponent negative n e hrest

end

/-! ### Printers -/

theorem reads_scalar {v : Json} {s : Text} (hs : s = scalar v) (harray : v.items?.getD [] = [])
    (hobject : v.fields?.getD [] = []) : Reads s v.toRaw := by
  subst hs
  cases v with
  | null => exact reads_of_succ (by simp [scalar]) fun _ _ _ _ => rfl
  | bool b => cases b <;> exact reads_of_succ (by simp [scalar]) fun _ _ _ _ => rfl
  | integer n => exact reads_scalar_integer n
  | real m e => exact reads_scalar_real m e
  | string s => exact reads_quote s
  | array items =>
    obtain rfl : items = [] := harray
    exact reads_of_succ (by simp [scalar]) fun _ _ _ _ => rfl
  | object fields =>
    obtain rfl : fields = [] := hobject
    exact reads_of_succ (by simp [scalar]) fun _ _ _ _ => rfl

theorem readsItems_compact {items : List Json} (h : ∀ v ∈ items, Reads v.compact v.toRaw)
    (hne : items ≠ []) : ReadsItems (compactItems items) (toRawItems items) := by
  induction items with
  | nil => exact absurd rfl hne
  | cons v rest ih =>
    obtain ⟨hv, hrest⟩ := List.forall_mem_cons.1 h
    cases rest with
    | nil => exact .single hv
    | cons w rest => exact .cons hv (ih hrest (List.cons_ne_nil w rest))

theorem readsFields_compact {fields : Table Json} (h : ∀ f ∈ fields, Reads f.2.compact f.2.toRaw)
    (hne : fields ≠ []) : ReadsFields (compactFields fields) (toRawFields fields) := by
  induction fields with
  | nil => exact absurd rfl hne
  | cons f rest ih =>
    obtain ⟨hf, hrest⟩ := List.forall_mem_cons.1 h
    cases rest with
    | nil => exact .single isGap_nil f.1 hf
    | cons g rest => exact .cons isGap_nil f.1 hf (ih hrest (List.cons_ne_nil g rest))

/-- **A value on one line is read back.** -/
theorem reads_compact (v : Json) : Reads v.compact v.toRaw := by
  induction v using induct with
  | null | bool | integer | real | string => exact reads_scalar rfl rfl rfl
  | array items ih =>
    cases items with
    | nil => exact reads_scalar (v := array []) rfl rfl rfl
    | cons v rest =>
      have h := (readsItems_compact ih (List.cons_ne_nil v rest)).array isGap_nil
      rwa [List.append_nil] at h
  | object fields ih =>
    cases fields with
    | nil => exact reads_scalar (v := object []) rfl rfl rfl
    | cons f rest =>
      have h := (readsFields_compact ih (List.cons_ne_nil f rest)).object isGap_nil
      rwa [List.append_nil] at h

theorem readsItems_pretty {level : Nat} {items : List Json}
    (h : ∀ v ∈ items, Reads (prettyAt level v) v.toRaw) (hne : items ≠ []) :
    ReadsItems (prettyItems level items) (toRawItems items) := by
  induction items with
  | nil => exact absurd rfl hne
  | cons v rest ih =>
    obtain ⟨hv, hrest⟩ := List.forall_mem_cons.1 h
    have hline := hv.gap (isGap_newline level)
    cases rest with
    | nil => exact .single hline
    | cons w rest => exact .cons hline (ih hrest (List.cons_ne_nil w rest))

theorem readsFields_pretty {level : Nat} {fields : Table Json}
    (h : ∀ f ∈ fields, Reads (prettyAt level f.2) f.2.toRaw) (hne : fields ≠ []) :
    ReadsFields (prettyFields level fields) (toRawFields fields) := by
  induction fields with
  | nil => exact absurd rfl hne
  | cons f rest ih =>
    obtain ⟨hf, hrest⟩ := List.forall_mem_cons.1 h
    have hblank : IsGap [' '] := rfl
    have hvalue : Reads (' ' :: prettyAt level f.2) f.2.toRaw := hf.gap hblank
    cases rest with
    | nil =>
      rw [prettyFields, List.append_assoc]
      exact .single (isGap_newline level) f.1 hvalue
    | cons g rest =>
      rw [prettyFields, List.append_assoc (newline level)]
      exact .cons (isGap_newline level) f.1 hvalue (ih hrest (List.cons_ne_nil g rest))

/-- **A value on several lines is read back**, at every level. -/
theorem reads_prettyAt (v : Json) (level : Nat) : Reads (prettyAt level v) v.toRaw := by
  induction v using induct generalizing level with
  | null | bool | integer | real | string => exact reads_scalar rfl rfl rfl
  | array items ih =>
    cases items with
    | nil => exact reads_scalar (v := array []) rfl rfl rfl
    | cons v rest =>
      have h := readsItems_pretty (fun v hv => ih v hv (level + 1)) (List.cons_ne_nil v rest)
      exact h.array (isGap_newline level)
  | object fields ih =>
    cases fields with
    | nil => exact reads_scalar (v := object []) rfl rfl rfl
    | cons f rest =>
      have h := readsFields_pretty (fun f hf => ih f hf (level + 1)) (List.cons_ne_nil f rest)
      exact h.object (isGap_newline level)

/-! ### Texts -/

theorem Reads.read? {s gap : Text} {r : Raw} (h : Reads s r) (hgap : IsGap gap) :
    Raw.read? (s ++ gap) = some r := by
  have hends : Ends gap := by
    have hnil : Ends [] := nofun
    have happend := ends_gap_append hgap hnil
    rwa [List.append_nil] at happend
  rw [Raw.read?, h _ gap (by rw [List.length_append]; omega) hends]
  simp [skipSpace_gap hgap]

/-- **What is printed for a value is read back**, on one line or on several. -/
theorem read?_of_mem {v : Json} {s : Text} (h : s ∈ [v.compact, v.pretty]) :
    Raw.read? s = some v.toRaw := by
  have hreads : Reads s v.toRaw := by
    simp only [List.mem_cons, List.not_mem_nil, or_false] at h
    rcases h with rfl | rfl
    · exact reads_compact v
    · exact reads_prettyAt v 0
  have hread := hreads.read? isGap_nil
  rwa [List.append_nil] at hread

end Json

end DocSite
