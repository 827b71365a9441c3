import DocSite.Proofs.Schema.Evaluation

/-!
# What a schema accepts

What a schema asks of a value is said here without an order of evaluation and without violations.
`Schema.Demands` is one layer of it: what a schema asks, given which values other schemas accept.
A schema may lead back to itself, so the layers are put on top of each other
(`Schema.AcceptsWithin`), and a value is accepted if it is from some number of layers on
(`Schema.Accepts`). Wherever evaluation comes to an end, that is the only answer that agrees with
`Demands` (`Schema.accepts_iff_demands`, `Schema.accepts_iff_of_demands`).

* `Schema.violations?_decides_acceptance` : a value has no violations exactly if it is accepted.

The proof compares `Demands` with one step of the evaluation (`Schema.demands_iff_of_finds`): if
other schemas accept exactly the values in which they find nothing, so does the schema that asks
them.
-/

namespace DocSite

namespace Schema

variable {root s v : Json} {n m : Nat} {found : List Violation} {accepts : Json → Json → Prop}

/-! ### Types -/

/-- The names of types. -/
def typeWords : List Text :=
  ["object".toList, "array".toList, "string".toList, "number".toList, "integer".toList,
    "boolean".toList, "null".toList]

/-- A value is of the type with a name. A name that is no type fits every value. -/
inductive OfType : Text → Json → Prop
  | object (fields : Table Json) : OfType "object".toList (.object fields)
  | array (items : List Json) : OfType "array".toList (.array items)
  | string (s : Text) : OfType "string".toList (.string s)
  | wholeNumber (i : Int) : OfType "number".toList (.integer i)
  | number (mantissa exponent : Int) : OfType "number".toList (.real mantissa exponent)
  | integer (i : Int) : OfType "integer".toList (.integer i)
  | boolean (b : Bool) : OfType "boolean".toList (.bool b)
  | null : OfType "null".toList .null
  | unknown {name : Text} {v : Json} (h : name ∉ typeWords) : OfType name v

theorem hasType_of_not_mem {name : Text} (h : name ∉ typeWords) : hasType v name = true := by
  have hother {word : Text} (hword : word ∈ typeWords) : name ≠ word :=
    fun heq => h (heq ▸ hword)
  have hsub : ["object".toList, "array".toList, "string".toList, "boolean".toList,
      "null".toList] ⊆ typeWords := by decide
  have hrest : ¬ ["object".toList, "array".toList, "string".toList, "boolean".toList,
      "null".toList].contains name = true := fun hmem => h (hsub (List.contains_iff_mem.1 hmem))
  rw [hasType.eq_def, if_neg (hother (by decide)), if_neg (hother (by decide)), if_neg hrest]

theorem hasType_iff {name : Text} : hasType v name = true ↔ OfType name v := by
  constructor
  · intro h
    by_cases hname : name ∈ typeWords
    · simp only [typeWords, List.mem_cons, List.not_mem_nil, or_false] at hname
      -- a name of one kind of value is no name of another kind
      rcases hname with rfl | rfl | rfl | rfl | rfl | rfl | rfl
      · cases v with
        | object fields => exact .object fields
        | _ => exact absurd h Bool.false_ne_true
      · cases v with
        | array items => exact .array items
        | _ => exact absurd h Bool.false_ne_true
      · cases v with
        | string s => exact .string s
        | _ => exact absurd h Bool.false_ne_true
      · cases v with
        | integer i => exact .wholeNumber i
        | real mantissa exponent => exact .number mantissa exponent
        | _ => exact absurd h Bool.false_ne_true
      · cases v with
        | integer i => exact .integer i
        | _ => exact absurd h Bool.false_ne_true
      · cases v with
        | bool b => exact .boolean b
        | _ => exact absurd h Bool.false_ne_true
      · cases v with
        | null => exact .null
        | _ => exact absurd h Bool.false_ne_true
    · exact .unknown hname
  · intro h
    cases h with
    | unknown h => exact hasType_of_not_mem h
    | _ => rfl

theorem ofType_string_iff : OfType "string".toList v ↔ ∃ s, v = .string s := by
  constructor
  · intro h
    rw [← hasType_iff] at h
    cases v with
    | string s => exact ⟨s, rfl⟩
    | _ => exact absurd h Bool.false_ne_true
  · rintro ⟨s, rfl⟩
    exact .string s

theorem ofType_array_iff : OfType "array".toList v ↔ ∃ items, v = .array items := by
  constructor
  · intro h
    rw [← hasType_iff] at h
    cases v with
    | array items => exact ⟨items, rfl⟩
    | _ => exact absurd h Bool.false_ne_true
  · rintro ⟨items, rfl⟩
    exact .array items

theorem ofType_object_iff : OfType "object".toList v ↔ ∃ fields, v = .object fields := by
  constructor
  · intro h
    rw [← hasType_iff] at h
    cases v with
    | object fields => exact ⟨fields, rfl⟩
    | _ => exact absurd h Bool.false_ne_true
  · rintro ⟨fields, rfl⟩
    exact .object fields

/-- A value has the type that a `type` keyword asks for: that of one name, or that of one name of a
list. Any other keyword asks for nothing. -/
def MatchesType (expected v : Json) : Prop :=
  match expected with
  | .string name => OfType name v
  | .array names => ∃ name, .string name ∈ names ∧ OfType name v
  | _ => True

theorem typeFault?_eq_none_iff {expected : Json} :
    typeFault? expected v = none ↔ MatchesType expected v := by
  have hnames (names : List Text) : (if names.any (hasType v) then none
      else some (Fault.wrongType names v.typeName)) = none ↔ ∃ name ∈ names, OfType name v := by
    simp only [← hasType_iff, ← List.any_eq_true]
    split_ifs with h <;> simp [h]
  cases expected with
  | string name => exact (hnames [name]).trans (by simp [MatchesType])
  | array names => exact (hnames _).trans (by simp [MatchesType, List.mem_filterMap])
  | _ => exact iff_of_true rfl trivial

/-! ### One layer -/

/-- Exactly one element of a list has a property. -/
def ExactlyOne {α : Type} (p : α → Prop) (xs : List α) : Prop :=
  ∃ before x after, xs = before ++ x :: after ∧ p x ∧ ∀ y ∈ before ++ after, ¬ p y

theorem countP_eq_one_iff {α : Type} {p : α → Bool} {xs : List α} :
    xs.countP p = 1 ↔ ExactlyOne (fun x => p x = true) xs := by
  constructor
  · intro h
    obtain ⟨x, hx, hpx⟩ := List.countP_pos_iff.1 (Nat.lt_of_lt_of_eq Nat.one_pos h.symm)
    obtain ⟨before, after, rfl⟩ := List.append_of_mem hx
    rw [List.countP_append, List.countP_cons_of_pos hpx] at h
    refine ⟨before, x, after, rfl, hpx, fun y hy => ?_⟩
    rcases List.mem_append.1 hy with hy | hy
    · exact List.countP_eq_zero.1 (by omega) y hy
    · exact List.countP_eq_zero.1 (by omega) y hy
  · rintro ⟨before, x, after, rfl, hpx, hothers⟩
    have hbefore : before.countP p = 0 :=
      List.countP_eq_zero.2 fun y hy => hothers y (List.mem_append_left _ hy)
    have hafter : after.countP p = 0 :=
      List.countP_eq_zero.2 fun y hy => hothers y (List.mem_append_right _ hy)
    rw [List.countP_append, List.countP_cons_of_pos hpx, hbefore, hafter]

/-- What the schema `s` of the document `root` asks of the value `v`, where `accepts` says which
values other schemas accept. -/
def Demands (root : Json) (accepts : Json → Json → Prop) (s v : Json) : Prop :=
  match s.fields? with
  | none => True
  | some keywords =>
    match (keywords.find? "$ref".toList).bind Json.text? with
    | some reference =>
      ∃ pointer target, reference = '#' :: pointer ∧ root.pointer? pointer = some target ∧
        accepts target v
    | none =>
      (∀ expected, keywords.find? "type".toList = some expected → MatchesType expected v) ∧
      (∀ schemas, keywords.find? "oneOf".toList = some (.array schemas) →
        ExactlyOne (accepts · v) schemas) ∧
      (∀ schemas fields : Table Json, keywords.find? "properties".toList = some (.object schemas) →
        v = .object fields → ∀ name t part, (name, t) ∈ schemas →
          fields.find? name = some part → accepts t part) ∧
      (∀ t items, keywords.find? "items".toList = some t → v = .array items →
        ∀ part ∈ items, accepts t part)

theorem resolve?_eq_some_iff {reference : Text} {target : Json} :
    resolve? root reference = some target ↔
      ∃ pointer, reference = '#' :: pointer ∧ root.pointer? pointer = some target := by
  unfold resolve?
  split
  · rename_i pointer
    simp
  · rename_i hsharp
    refine iff_of_false (by simp) ?_
    rintro ⟨pointer, rfl, -⟩
    exact hsharp pointer rfl

theorem alternativesFault?_eq_none_iff {schemas : List Json}
    {ofAlternative : Json → List Violation} :
    alternativesFault? (schemas.map ofAlternative) = none ↔
      ExactlyOne (fun a => ofAlternative a = []) schemas := by
  have hcount : alternativesFault? (schemas.map ofAlternative) = none ↔
      (schemas.map ofAlternative).countP List.isEmpty = 1 := by
    unfold alternativesFault?
    dsimp only
    split_ifs with h
    · exact iff_of_true rfl h
    · exact iff_of_false (by simp) h
  rw [hcount, List.countP_map, countP_eq_one_iff]
  simp only [Function.comp_apply, List.isEmpty_iff]

theorem ExactlyOne.congr {α : Type} {p q : α → Prop} {xs : List α} (h : ∀ x ∈ xs, p x ↔ q x) :
    ExactlyOne p xs ↔ ExactlyOne q xs := by
  unfold ExactlyOne
  refine exists_congr fun before => exists_congr fun x => exists_congr fun after => ?_
  refine and_congr_right fun heq => ?_
  subst heq
  refine and_congr (h x (by simp)) (forall₂_congr fun y hy => not_congr (h y ?_))
  rcases List.mem_append.1 hy with hy | hy <;> simp [hy]

/-- What a plan asks for, where `accepts` says which values other schemas accept. -/
def Plan.Demands (accepts : Json → Json → Prop) (v : Json) : Plan → Prop
  | .settled fault? => fault? = none
  | .follow target => accepts target v
  | .descend alternatives? parts =>
    (∀ schemas, alternatives? = some schemas → ExactlyOne (accepts · v) schemas) ∧
      ∀ p ∈ parts, accepts p.schema p.value

theorem forall_mem_propertyParts {keywords : Table Json} :
    (∀ p ∈ propertyParts keywords v, accepts p.schema p.value) ↔
      ∀ schemas fields : Table Json, keywords.find? "properties".toList = some (.object schemas) →
        v = .object fields → ∀ name t part, (name, t) ∈ schemas →
          fields.find? name = some part → accepts t part := by
  constructor
  · intro h schemas fields hschemas hfields name t part hmem hpart
    exact h ⟨t, part, name⟩ (mem_propertyParts.2 ⟨schemas, fields, hschemas, hfields, hmem, hpart⟩)
  · intro h p hp
    obtain ⟨schemas, fields, hschemas, hfields, hmem, hpart⟩ := mem_propertyParts.1 hp
    exact h schemas fields hschemas hfields p.name p.schema p.value hmem hpart

theorem forall_mem_itemParts {keywords : Table Json} :
    (∀ p ∈ itemParts keywords v, accepts p.schema p.value) ↔
      ∀ t items, keywords.find? "items".toList = some t → v = .array items →
        ∀ part ∈ items, accepts t part := by
  constructor
  · intro h t items ht hitems part hpart
    obtain ⟨i, hi⟩ := List.mem_iff_getElem?.1 hpart
    exact h ⟨t, part, Text.ofNat i⟩ (mem_itemParts.2 ⟨items, i, ht, hitems, hi, rfl⟩)
  · intro h p hp
    obtain ⟨items, i, ht, hitems, hi, -⟩ := mem_itemParts.1 hp
    exact h p.schema items ht hitems p.value (List.mem_of_getElem? hi)

/-- What a schema demands is what its plan asks for. -/
theorem demands_iff_plan : Demands root accepts s v ↔ (plan root s v).Demands accepts v := by
  unfold Demands plan
  cases s.fields? with
  | none => exact iff_of_true trivial rfl
  | some keywords =>
    dsimp only
    cases (keywords.find? "$ref".toList).bind Json.text? with
    | some reference =>
      dsimp only
      simp only [← and_assoc, exists_and_right, exists_comm, ← resolve?_eq_some_iff]
      cases resolve? root reference with
      | none => exact iff_of_false (by simp) (by simp [Plan.Demands])
      | some target => simp [Plan.Demands]
    | none =>
      dsimp only
      have htype :
          ((keywords.find? "type".toList).bind fun expected => typeFault? expected v) = none ↔
            ∀ expected, keywords.find? "type".toList = some expected →
              MatchesType expected v := by
        simp only [Option.bind_eq_none_iff, typeFault?_eq_none_iff]
      rw [← htype]
      cases (keywords.find? "type".toList).bind fun expected => typeFault? expected v with
      | some fault => exact iff_of_false (by simp) (by simp [Plan.Demands])
      | none =>
        have halternatives :
            (∀ schemas, (keywords.find? "oneOf".toList).bind Json.items? = some schemas →
              ExactlyOne (accepts · v) schemas) ↔
              ∀ schemas, keywords.find? "oneOf".toList = some (.array schemas) →
                ExactlyOne (accepts · v) schemas := by
          simp only [Option.bind_eq_some_iff, Json.items?_eq_some_iff, exists_eq_right]
        dsimp only [Plan.Demands]
        rw [halternatives, List.forall_mem_append, forall_mem_propertyParts, forall_mem_itemParts]
        simp only [true_and]

/-- **One step.** If other schemas accept exactly the values in which they find nothing, a schema
finds nothing exactly in the values that are as it demands. -/
theorem demands_iff_of_finds (h : Finds root (n + 1) s v found)
    (haccepts : ∀ t w found, Finds root n t w found → (accepts t w ↔ found = [])) :
    Demands root accepts s v ↔ found = [] := by
  rw [demands_iff_plan]
  cases h with
  | @settled _ _ _ fault? hplan =>
    rw [hplan, Plan.Demands]
    cases fault? <;> simp
  | follow hplan htarget =>
    rw [hplan]
    exact haccepts _ _ _ htarget
  | @descend _ _ _ alternatives? parts ofAlternative ofPart hplan halternatives hparts =>
    rw [hplan, Plan.Demands, List.append_eq_nil_iff, List.flatMap_eq_nil_iff]
    refine and_congr ?_ (forall₂_congr fun p hp => ?_)
    · cases alternatives? with
      | none => simp [faultOfAlternatives?]
      | some schemas =>
        have hone : ExactlyOne (accepts · v) schemas ↔
            ExactlyOne (fun a => ofAlternative a = []) schemas :=
          ExactlyOne.congr fun a ha => haccepts a v _ (halternatives a ha)
        simp only [Option.some.injEq, forall_eq', hone, ← alternativesFault?_eq_none_iff]
        simp [faultOfAlternatives?]
    · rw [haccepts _ _ _ (hparts p hp), List.map_eq_nil_iff]

/-- What a schema asks of a value, this many layers deep. -/
def AcceptsWithin (root : Json) : Nat → Json → Json → Prop
  | 0, _, _ => False
  | n + 1, s, v => Demands root (AcceptsWithin root n) s v

/-- The schema `s` of the document `root` accepts the value `v`: from some number of layers on. -/
def Accepts (root s v : Json) : Prop := ∃ n, ∀ m, n ≤ m → AcceptsWithin root m s v

theorem acceptsWithin_iff (h : Finds root n s v found) (hnm : n ≤ m) :
    AcceptsWithin root m s v ↔ found = [] := by
  induction n generalizing s v found m with
  | zero => cases h
  | succ n ih =>
    obtain ⟨m, rfl⟩ := Nat.exists_eq_add_of_lt hnm
    exact demands_iff_of_finds h fun t w found hfound => ih hfound (Nat.le_add_right n m)

theorem accepts_iff (h : Finds root n s v found) : Accepts root s v ↔ found = [] := by
  constructor
  · rintro ⟨k, hk⟩
    exact (acceptsWithin_iff h (Nat.le_max_left n k)).1 (hk _ (Nat.le_max_right n k))
  · intro hnil
    exact ⟨n, fun m hnm => (acceptsWithin_iff h hnm).2 hnil⟩

/-- **Acceptance is what a schema demands.** -/
theorem accepts_iff_demands (h : Terminates root s v) :
    Accepts root s v ↔ Demands root (Accepts root) s v := by
  obtain ⟨n, found, hfound⟩ := terminates_iff.1 h
  rw [accepts_iff hfound]
  exact (demands_iff_of_finds (hfound.mono (Nat.le_succ n)) fun _ _ _ => accepts_iff).symm

/-- **Nothing else is what a schema demands.** Where evaluation comes to an end, a notion of
acceptance under which each schema accepts what it demands is acceptance. -/
theorem accepts_iff_of_demands
    (haccepts : ∀ s v, Terminates root s v → (accepts s v ↔ Demands root accepts s v))
    (h : Terminates root s v) : accepts s v ↔ Accepts root s v := by
  have hfinds : ∀ n t w found, Finds root n t w found → (accepts t w ↔ found = []) := by
    intro n
    induction n with
    | zero => intro t w found hfound; cases hfound
    | succ n ih =>
      intro t w found hfound
      rw [haccepts t w (terminates_iff.2 ⟨_, _, hfound⟩)]
      exact demands_iff_of_finds hfound (ih · · ·)
  obtain ⟨n, found, hfound⟩ := terminates_iff.1 h
  exact (hfinds n s v found hfound).trans (accepts_iff hfound).symm

/-- **Validation decides acceptance.** Wherever evaluation comes to an end, acceptance is what the
schema demands of the value, and the value has no violations exactly if it is accepted. -/
theorem violations?_decides_acceptance (root : Json) :
    (∀ s v, Terminates root s v → (Accepts root s v ↔ Demands root (Accepts root) s v)) ∧
      ∀ v, Terminates root root v →
        ∃ found, violations? root v = some found ∧ (found = [] ↔ Accepts root root v) := by
  refine ⟨fun s v => accepts_iff_demands, fun v h => ?_⟩
  obtain ⟨found, hfound, n, hfinds⟩ := exists_violations? h
  exact ⟨found, hfound, (accepts_iff hfinds).symm⟩

/-- A tree is a number, or an array of trees and nothing else. The second alternative leads back to
the schema itself, and an array of numbers and a text is no tree. -/
theorem violations?_decides_acceptance_trees :
    let tree : Json := .object [("oneOf".toList, .array
      [.object [("type".toList, .string "number".toList)],
       .object [("items".toList, .object [("$ref".toList, .string "#".toList)]),
                ("type".toList, .string "array".toList)]])]
    let sample : Json := .array [.integer 1, .array [.integer 2, .string "x".toList]]
    Terminates tree tree sample ∧ ¬ Accepts tree tree sample := by
  intro tree sample
  have hends : Terminates tree tree sample := ⟨9, by decide +kernel⟩
  refine ⟨hends, fun haccepts => ?_⟩
  obtain ⟨found, hfound, hiff⟩ := (violations?_decides_acceptance tree).2 sample hends
  rw [hiff.2 haccepts] at hfound
  exact absurd hfound (by decide +kernel)

end Schema

end DocSite
