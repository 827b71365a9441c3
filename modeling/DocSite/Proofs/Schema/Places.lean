import DocSite.Proofs.Json.Names
import DocSite.Proofs.Schema.Acceptance
import Mathlib.Data.List.Flatten

/-!
# Where violations are

A violation points into the value: its pointer selects the part that has the fault. Evaluation goes
down into parts that have different names, and says at most one thing about a value itself, so that
nothing is said twice about a place.

* `Schema.Finds.located` : a pointer that is found selects a value, and the fault fits that value.
* `Schema.Fault.Fits.type_eq` : a fault that fits a value tells its type.
* `Schema.Finds.nodup_pointers` : the pointers that are found are different.
* `Schema.violations?_places` : the three together, for the violations of a value.

Names are distinct in a schema that was read (`Json.distinct_of_read?`). If a schema named a
property twice, its faults would be found twice.
-/

namespace DocSite

namespace Schema

variable {root s v w : Json} {n : Nat} {found : List Violation} {fault : Fault}

/-! ### Faults -/

/-- A fault that a value can have: one of the wrong type names the type of the value, and names only
types as expected. -/
def Fault.Fits (w : Json) : Fault → Prop
  | wrongType expected found => found = w.typeName ∧ ∀ name ∈ expected, name ∈ typeWords
  | alternatives _ _ => True
  | unresolved _ => True

theorem fits_of_typeFault? {expected : Json} (h : typeFault? expected v = some fault) :
    fault.Fits v := by
  unfold typeFault? at h
  split at h
  · rename_i names _
    split_ifs at h with hany
    obtain rfl := Option.some.inj h
    refine ⟨rfl, fun name hname => ?_⟩
    -- a name that is no type would have fit the value
    by_contra hword
    exact hany (List.any_eq_true.2 ⟨name, hname, hasType_of_not_mem hword⟩)
  · cases h

theorem fits_of_plan (h : plan root s v = .settled (some fault)) : fault.Fits v := by
  unfold plan at h
  split at h
  · cases h
  · split at h
    · split at h
      · cases h
      · cases h
        trivial
    · split at h
      · rename_i hfault
        cases h
        obtain ⟨expected, -, hexpected⟩ := Option.bind_eq_some_iff.1 hfault
        exact fits_of_typeFault? hexpected
      · cases h

theorem fits_of_faultOfAlternatives? {alternatives? : Option (List Json)}
    {ofAlternative : Json → List Violation}
    (h : faultOfAlternatives? alternatives? ofAlternative = some fault) : fault.Fits w := by
  obtain ⟨schemas, -, h⟩ := Option.bind_eq_some_iff.1 h
  unfold alternativesFault? at h
  dsimp only at h
  split_ifs at h
  obtain rfl := Option.some.inj h
  trivial

/-! ### Messages -/

theorem comma_not_mem_typeWords {name : Text} (h : name ∈ typeWords) : ',' ∉ name := by
  revert name
  decide

theorem typeName_mem_typeWords (v : Json) : v.typeName ∈ typeWords := by
  cases v <;> exact List.contains_iff_mem.1 rfl

theorem comma_not_mem_ofNat (n : Nat) : ',' ∉ Text.ofNat n := fun h =>
  absurd (Text.isDigit_of_mem_ofNat h) (by decide)

theorem comma_not_mem_join {names : List Text} (h : ∀ name ∈ names, ',' ∉ name) :
    ',' ∉ Text.join " or ".toList names := by
  unfold Text.join
  have hsep : ',' ∉ " or ".toList := by decide
  induction names with
  | nil => exact List.not_mem_nil
  | cons name names ih =>
    obtain ⟨hname, hnames⟩ := List.forall_mem_cons.1 h
    cases names with
    | nil => rwa [List.intercalate_singleton]
    | cons next names =>
      rw [List.intercalate_cons_cons, List.mem_append, List.mem_append, not_or, not_or]
      exact ⟨⟨hname, hsep⟩, ih hnames⟩

theorem eq_found_of_append {a b expected type : Text} (ha : ',' ∉ a) (hb : ',' ∉ b)
    (h : "expected ".toList ++ (a ++ ',' :: b) =
      "expected ".toList ++ expected ++ ", found ".toList ++ type) :
    b = " found ".toList ++ type := by
  have hcomma : ", found ".toList ++ type = ',' :: (" found ".toList ++ type) := rfl
  rw [List.append_assoc, hcomma] at h
  exact ((List.append_cons_inj_of_notMem ha hb).1 (List.append_cancel_left h)).2.2

theorem message_wrongType (names : List Text) (type : Text) :
    (Fault.wrongType names type).message =
      "expected ".toList ++
        (Text.join " or ".toList names ++ ',' :: (" found ".toList ++ type)) := by
  have hcomma : ", found ".toList ++ type = ',' :: (" found ".toList ++ type) := rfl
  unfold Fault.message
  dsimp only
  rw [List.append_assoc, List.append_assoc, hcomma]

theorem message_alternatives (total accepting : Nat) :
    (Fault.alternatives total accepting).message =
      "expected ".toList ++ ("exactly one of ".toList ++ Text.ofNat total ++
        " alternatives to match".toList ++ ',' :: ' ' :: (Text.ofNat accepting ++
          " matched".toList)) := by
  have hlead : "expected exactly one of ".toList =
      "expected ".toList ++ "exactly one of ".toList := rfl
  have hcomma : " alternatives to match, ".toList =
      " alternatives to match".toList ++ [',', ' '] := rfl
  unfold Fault.message
  dsimp only
  rw [hlead, hcomma]
  simp only [List.append_assoc, List.cons_append, List.nil_append]

/-- **A fault tells the type of the value that it fits.** No type is named with a comma in it, so
that the comma marks where the message says what was found. -/
theorem Fault.Fits.type_eq {expected type : Text} (h : fault.Fits w)
    (hmessage : fault.message = "expected ".toList ++ expected ++ ", found ".toList ++ type) :
    type = w.typeName := by
  cases fault with
  | wrongType names found =>
    obtain ⟨rfl, hnames⟩ := h
    have hjoin : ',' ∉ Text.join " or ".toList names :=
      comma_not_mem_join fun name hname => comma_not_mem_typeWords (hnames name hname)
    have hfound : ',' ∉ " found ".toList ++ w.typeName := by
      rw [List.mem_append, not_or]
      exact ⟨by decide, comma_not_mem_typeWords (typeName_mem_typeWords w)⟩
    rw [message_wrongType] at hmessage
    exact (List.append_cancel_left (eq_found_of_append hjoin hfound hmessage)).symm
  | alternatives total accepting =>
    have hbefore : ',' ∉ "exactly one of ".toList ++ Text.ofNat total ++
        " alternatives to match".toList := by
      rw [List.mem_append, List.mem_append, not_or, not_or]
      exact ⟨⟨by decide, comma_not_mem_ofNat total⟩, by decide⟩
    have hafter : ',' ∉ ' ' :: (Text.ofNat accepting ++ " matched".toList) := by
      rw [List.mem_cons, List.mem_append, not_or, not_or]
      exact ⟨by decide, comma_not_mem_ofNat accepting, by decide⟩
    rw [message_alternatives] at hmessage
    have hrest := eq_found_of_append hbefore hafter hmessage
    -- after the comma this message goes on with a number
    obtain ⟨c, digits, hdigits⟩ := List.exists_cons_of_ne_nil (Text.ofNat_ne_nil accepting)
    have hdigit : c.isDigit = true := Text.isDigit_of_mem_ofNat (hdigits ▸ List.mem_cons_self)
    rw [hdigits] at hrest
    have hc : c = 'f' := (List.cons.inj (List.cons.inj hrest).2).1
    rw [hc] at hdigit
    exact absurd hdigit (by decide)
  | unresolved reference =>
    have hhead : some 'u' = some 'e' := congrArg List.head? hmessage
    exact absurd (Option.some.inj hhead) (by decide)

/-! ### Places -/

/-- The parts that a schema looks into are what their names select. -/
theorem child?_of_mem_parts {keywords : Table Json} {p : Part}
    (h : p ∈ propertyParts keywords v ++ itemParts keywords v) :
    v.child? (Json.escapeSegment p.name) = some p.value := by
  rcases List.mem_append.1 h with h | h
  · obtain ⟨schemas, fields, -, rfl, -, hpart⟩ := mem_propertyParts.1 h
    exact Json.child?_of_find? rfl hpart
  · obtain ⟨items, i, -, rfl, hpart, hname⟩ := mem_itemParts.1 h
    rw [hname]
    exact Json.child?_of_getElem? rfl hpart

/-- **What is found is there.** The pointer of a violation selects a value that has the fault. -/
theorem Finds.located (h : Finds root n s v found) :
    ∀ x ∈ found, ∃ w, v.pointer? x.pointer = some w ∧ x.fault.Fits w := by
  induction h with
  | settled hplan =>
    rintro x hx
    obtain ⟨fault, hfault, rfl⟩ := Option.map_eq_some_iff.1 (Option.mem_toList.1 hx)
    subst hfault
    exact ⟨_, rfl, fits_of_plan hplan⟩
  | follow _ _ ih => exact ih
  | descend ofAlternative ofPart hplan _ _ _ ihparts =>
    obtain ⟨keywords, -, -, rfl⟩ := plan_eq_descend hplan
    intro x hx
    rcases List.mem_append.1 hx with hx | hx
    · obtain ⟨fault, hfault, rfl⟩ := Option.map_eq_some_iff.1 (Option.mem_toList.1 hx)
      exact ⟨_, rfl, fits_of_faultOfAlternatives? hfault⟩
    · obtain ⟨p, hp, hx⟩ := List.mem_flatMap.1 hx
      obtain ⟨y, hy, rfl⟩ := List.mem_map.1 hx
      obtain ⟨w, hw, hfits⟩ := ihparts p hp y hy
      exact ⟨w, Json.pointer?_below (child?_of_mem_parts hp) hw, hfits⟩

/-! ### No place twice -/

theorem pairwise_propertyParts {keywords : Table Json}
    (h : ∀ schemas : Table Json, keywords.find? "properties".toList = some (.object schemas) →
      (schemas.map Prod.fst).Nodup) :
    (propertyParts keywords v).Pairwise fun p q => p.name ≠ q.name := by
  unfold propertyParts
  split
  · rename_i schemas fields hschemas hfields
    rw [Option.bind_eq_some_iff] at hschemas
    simp only [Json.fields?_eq_some_iff, exists_eq_right] at hschemas
    refine List.Pairwise.filterMap _ ?_ (List.pairwise_map.1 (h schemas hschemas))
    rintro ⟨a, t⟩ ⟨b, u⟩ hab p hp q hq
    obtain ⟨part, -, rfl⟩ := Option.map_eq_some_iff.1 hp
    obtain ⟨part', -, rfl⟩ := Option.map_eq_some_iff.1 hq
    exact hab
  · exact List.Pairwise.nil

theorem pairwise_itemParts {keywords : Table Json} :
    (itemParts keywords v).Pairwise fun p q => p.name ≠ q.name := by
  unfold itemParts
  split
  · rename_i s items _ _
    refine List.pairwise_map.2 (List.pairwise_iff_getElem.2 ?_)
    intro i j hi hj hij hname
    simp only [List.getElem_zipIdx, Nat.zero_add] at hname
    exact absurd (Text.ofNat_injective hname) (Nat.ne_of_lt hij)
  · exact List.Pairwise.nil

theorem pairwise_parts {keywords : Table Json}
    (h : ∀ schemas : Table Json, keywords.find? "properties".toList = some (.object schemas) →
      (schemas.map Prod.fst).Nodup) :
    (propertyParts keywords v ++ itemParts keywords v).Pairwise fun p q => p.name ≠ q.name := by
  refine List.pairwise_append.2 ⟨pairwise_propertyParts h, pairwise_itemParts, ?_⟩
  -- an object has no elements
  intro p hp q hq
  obtain ⟨-, fields, -, hobject, -⟩ := mem_propertyParts.1 hp
  obtain ⟨items, -, -, harray, -⟩ := mem_itemParts.1 hq
  rw [hobject] at harray
  cases harray

theorem takeWhile_escapeSegment_append {name pointer : Text}
    (h : v.pointer? pointer = some w) :
    (Json.escapeSegment name ++ pointer).takeWhile (· ≠ '/') = Json.escapeSegment name := by
  have hname : ∀ c ∈ Json.escapeSegment name, decide (c ≠ '/') = true := fun c hc =>
    decide_eq_true fun heq => Json.slash_not_mem_escapeSegment name (heq ▸ hc)
  rw [List.takeWhile_append_of_pos hname]
  unfold Json.pointer? at h
  split at h
  · exact List.append_nil _
  · exact List.append_nil _
  · cases h

/-- Pointers below different names are different. -/
theorem eq_of_below_append {a b pointer pointer' : Text} {u w w' : Json}
    (h : v.pointer? pointer = some w) (h' : u.pointer? pointer' = some w')
    (heq : below [] a ++ pointer = below [] b ++ pointer') : a = b := by
  have htail : Json.escapeSegment a ++ pointer = Json.escapeSegment b ++ pointer' :=
    (List.cons.inj heq).2
  refine Json.escapeSegment_injective ?_
  rw [← takeWhile_escapeSegment_append h, htail, takeWhile_escapeSegment_append h']

theorem map_pointer_movedTo (here : Text) (found : List Violation) :
    (found.map (Violation.movedTo here)).map Violation.pointer =
      (found.map Violation.pointer).map (here ++ ·) := by
  rw [List.map_map, List.map_map]
  rfl

theorem nodup_pointers_parts {parts : List Part} {ofPart : Part → List Violation}
    (hnames : parts.Pairwise fun p q => p.name ≠ q.name)
    (hpointers : ∀ p ∈ parts, ∀ x ∈ ofPart p, ∃ w, p.value.pointer? x.pointer = some w)
    (hnodup : ∀ p ∈ parts, ((ofPart p).map Violation.pointer).Nodup) :
    (parts.flatMap fun p =>
      ((ofPart p).map Violation.pointer).map (below [] p.name ++ ·)).Nodup := by
  refine List.nodup_flatMap.2 ⟨fun p hp => ?_, hnames.imp_of_mem fun {p q} hp hq hne => ?_⟩
  · exact (hnodup p hp).map fun _ _ heq => List.append_cancel_left heq
  · intro pointer hleft hright
    simp only [List.mem_map] at hleft hright
    obtain ⟨_, ⟨x, hx, rfl⟩, rfl⟩ := hleft
    obtain ⟨_, ⟨y, hy, rfl⟩, heq⟩ := hright
    obtain ⟨w, hw⟩ := hpointers p hp x hx
    obtain ⟨w', hw'⟩ := hpointers q hq y hy
    exact hne (eq_of_below_append hw hw' heq.symm)

/-- **No place is found twice.** -/
theorem Finds.nodup_pointers (h : Finds root n s v found) (hroot : root.Distinct)
    (hs : s ∈ root.nodes) : (found.map Violation.pointer).Nodup := by
  induction h with
  | @settled _ _ _ fault? _ => cases fault? <;> simp
  | @follow _ s v target _ hplan _ ih =>
    have hcall : (target, v) ∈ (plan root s v).calls v := by
      rw [hplan]
      exact List.mem_cons_self
    exact ih (mem_nodes_of_mem_asked hs (mem_asked_of_mem_calls hcall))
  | @descend n s v alternatives? parts ofAlternative ofPart hplan _ hparts _ ihparts =>
    have hcall {p : Part} (hp : p ∈ parts) : (p.schema, p.value) ∈ (plan root s v).calls v := by
      rw [hplan]
      exact List.mem_append_right _ (List.mem_map_of_mem hp)
    have hnode {p : Part} (hp : p ∈ parts) : p.schema ∈ root.nodes :=
      mem_nodes_of_mem_asked hs (mem_asked_of_mem_calls (hcall hp))
    obtain ⟨keywords, hkeywords, -, rfl⟩ := plan_eq_descend hplan
    have hproperties : ∀ schemas : Table Json,
        keywords.find? "properties".toList = some (.object schemas) →
          (schemas.map Prod.fst).Nodup := fun schemas hschemas =>
      hroot schemas (Json.mem_nodes_trans
        (Json.mem_nodes_of_mem_fields hkeywords (Table.mem_of_find? hschemas)) hs)
    have hpointers : ∀ p ∈ propertyParts keywords v ++ itemParts keywords v,
        ∀ x ∈ ofPart p, ∃ w, p.value.pointer? x.pointer = some w := by
      intro p hp x hx
      obtain ⟨w, hw, -⟩ := (hparts p hp).located x hx
      exact ⟨w, hw⟩
    rw [List.map_append, List.map_flatMap]
    simp only [map_pointer_movedTo]
    refine List.nodup_append.2 ⟨?_, nodup_pointers_parts (pairwise_parts hproperties) hpointers
      fun p hp => ihparts p hp (hnode hp), ?_⟩
    · cases faultOfAlternatives? alternatives? ofAlternative <;> simp
    · -- a pointer to a part is not the pointer to the value
      intro pointer hself pointer' hpart heq
      obtain ⟨x, hx, rfl⟩ := List.mem_map.1 hself
      obtain ⟨fault, -, rfl⟩ := Option.map_eq_some_iff.1 (Option.mem_toList.1 hx)
      obtain ⟨p, -, hp⟩ := List.mem_flatMap.1 hpart
      obtain ⟨y, -, rfl⟩ := List.mem_map.1 hp
      cases heq

/-- **Places of violations.** Wherever evaluation comes to an end, the pointer of each violation
selects a part of the value, a message that tells a type tells the type of that part, and, for a
schema without repeated names, no two violations have the same pointer. -/
theorem violations?_places (h : Terminates root root v) :
    ∃ found, violations? root v = some found ∧
      (∀ x ∈ found, ∃ w, v.pointer? x.pointer = some w ∧
        ∀ expected type, x.fault.message =
          "expected ".toList ++ expected ++ ", found ".toList ++ type → type = w.typeName) ∧
      (root.Distinct → (found.map Violation.pointer).Nodup) := by
  obtain ⟨found, hfound, n, hfinds⟩ := exists_violations? h
  refine ⟨found, hfound, fun x hx => ?_, fun hroot =>
    hfinds.nodup_pointers hroot (Json.self_mem_nodes root)⟩
  obtain ⟨w, hw, hfits⟩ := hfinds.located x hx
  exact ⟨w, hw, fun expected type => hfits.type_eq⟩

/-- Names with a slash and a tilde are found again. Two faults are found below the one and one below
the other, each at a place of its own. -/
theorem violations?_places_escaped :
    let s : Json := .object [("properties".toList, .object
      [("a/b".toList, .object
        [("items".toList, .object [("type".toList, .string "string".toList)])]),
       ("m~n".toList, .object [("oneOf".toList, .array [])])])]
    let v : Json := .object
      [("a/b".toList, .array [.null, .string "x".toList, .integer 1]), ("m~n".toList, .null)]
    Terminates s s v ∧ s.Distinct ∧
      ∃ found, violations? s v = some found ∧ (found.map Violation.pointer).Nodup ∧
        found.map Violation.pointer = ["/a~1b/0".toList, "/a~1b/2".toList, "/m~0n".toList] := by
  intro s v
  have hends : Terminates s s v := ⟨9, by decide +kernel⟩
  have hnames : s.Distinct := by decide +kernel
  obtain ⟨found, hfound, -, hnodup⟩ := violations?_places hends
  refine ⟨hends, hnames, found, hfound, hnodup hnames, ?_⟩
  have hpointers : (violations? s v).map (List.map Violation.pointer) =
      some ["/a~1b/0".toList, "/a~1b/2".toList, "/m~0n".toList] := by decide +kernel
  rw [hfound] at hpointers
  exact Option.some.inj hpointers

end Schema

end DocSite
