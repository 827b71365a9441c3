import DocSite.Proofs.Json.Nodes
import DocSite.Proofs.Traversal
import DocSite.Schema
import Mathlib.Data.List.Nodup
import Mathlib.Data.List.Perm.Subperm
import Mathlib.Data.Nat.Find
import Mathlib.Tactic.Choose
import Mathlib.Tactic.Push

/-!
# How a schema is evaluated

One step of `Schema.check` looks at the keywords of a schema. It settles the value, hands it on to
the schema that a reference names, or asks the alternatives about the value and other schemas about
its parts. `Schema.plan` says which, and `Schema.Finds` puts the steps together: it relates a schema
and a value to the violations that are found in so many nested steps, their pointers starting at the
value.

* `Schema.finds_iff_check` : `check` finds what `Finds` says.
* `Schema.Terminates` : evaluation comes to an end.
* `Schema.exists_violations?` : the bound that `violations?` computes is large enough whenever
  evaluation comes to an end at all.

The bound is right because evaluation is deterministic. On a chain of calls at one value each node
needs one step less than the one before, so that no node of the schema document comes twice; and
each call about a part goes down in the value.
-/

namespace DocSite

namespace Schema

variable {root s v : Json} {n m : Nat} {found : List Violation}

/-! ### One step -/

/-- A part of a value that a schema looks into. -/
structure Part where
  /-- The schema for the part. -/
  schema : Json
  /-- The part. -/
  value : Json
  /-- What a pointer calls it. -/
  name : Text

/-- What a schema does with a value. -/
inductive Plan where
  /-- Nothing else has to be asked. -/
  | settled (fault? : Option Fault)
  /-- Another schema decides. -/
  | follow (target : Json)
  /-- The alternatives are asked about the value, if there are any, and others about its parts. -/
  | descend (alternatives? : Option (List Json)) (parts : List Part)

/-- The fields of a value for which a schema has properties. -/
def propertyParts (keywords : Table Json) (v : Json) : List Part :=
  match (keywords.find? "properties".toList).bind Json.fields?, v.fields? with
  | some schemas, some fields =>
    schemas.filterMap fun (name, s) => (Table.find? fields name).map (⟨s, ·, name⟩)
  | _, _ => []

/-- The elements of a value, if a schema speaks about them. -/
def itemParts (keywords : Table Json) (v : Json) : List Part :=
  match keywords.find? "items".toList, v.items? with
  | some s, some items => items.zipIdx.map fun (part, i) => ⟨s, part, Text.ofNat i⟩
  | _, _ => []

/-- What the schema `s` of the document `root` does with the value `v`. -/
def plan (root s v : Json) : Plan :=
  match s.fields? with
  | none => .settled none
  | some keywords =>
    match (keywords.find? "$ref".toList).bind Json.text? with
    | some reference =>
      match resolve? root reference with
      | some target => .follow target
      | none => .settled (some (.unresolved reference))
    | none =>
      match (keywords.find? "type".toList).bind fun expected => typeFault? expected v with
      | some fault => .settled (some fault)
      | none =>
        .descend ((keywords.find? "oneOf".toList).bind Json.items?)
          (propertyParts keywords v ++ itemParts keywords v)

/-- The fault that the alternatives leave, if there are any, where `ask` evaluates a schema. -/
def runAlternatives (ask : Json → Json → Text → Option (List Violation)) (v : Json) :
    Option (List Json) → Option (Option Fault)
  | some schemas => (schemas.mapM fun s => ask s v []).map alternativesFault?
  | none => some none

/-- The violations in parts of the value at `here`, where `ask` evaluates a schema. -/
def runParts (ask : Json → Json → Text → Option (List Violation)) (here : Text)
    (parts : List Part) : Option (List Violation) :=
  (parts.mapM fun p => ask p.schema p.value (below here p.name)).map List.flatten

/-- The violations at `here`, where `ask` evaluates a schema. -/
def Plan.run (ask : Json → Json → Text → Option (List Violation)) (v : Json) (here : Text) :
    Plan → Option (List Violation)
  | .settled fault? => some (fault?.map (⟨here, ·⟩)).toList
  | .follow target => ask target v here
  | .descend alternatives? parts => do
    let fault? ← runAlternatives ask v alternatives?
    let ofParts ← runParts ask here parts
    some ((fault?.map (⟨here, ·⟩)).toList ++ ofParts)

theorem mem_propertyParts {keywords : Table Json} {p : Part} :
    p ∈ propertyParts keywords v ↔ ∃ schemas fields : Table Json,
      keywords.find? "properties".toList = some (.object schemas) ∧ v = .object fields ∧
        (p.name, p.schema) ∈ schemas ∧ fields.find? p.name = some p.value := by
  unfold propertyParts
  split
  · rename_i schemas fields hschemas hfields
    rw [Option.bind_eq_some_iff] at hschemas
    simp only [Json.fields?_eq_some_iff, exists_eq_right] at hschemas hfields
    constructor
    · intro h
      obtain ⟨⟨name, s⟩, hmem, hp⟩ := List.mem_filterMap.1 h
      obtain ⟨part, hpart, rfl⟩ := Option.map_eq_some_iff.1 hp
      exact ⟨schemas, fields, hschemas, hfields, hmem, hpart⟩
    · rintro ⟨schemas', fields', hschemas', hfields', hmem, hpart⟩
      cases hschemas.symm.trans hschemas'
      cases hfields.symm.trans hfields'
      exact List.mem_filterMap.2 ⟨_, hmem, by dsimp only; rw [hpart]; rfl⟩
  · rename_i hnone
    refine iff_of_false List.not_mem_nil ?_
    rintro ⟨schemas, fields, hschemas, rfl, -⟩
    exact hnone schemas fields (by rw [hschemas]; rfl) rfl

theorem mem_itemParts {keywords : Table Json} {p : Part} :
    p ∈ itemParts keywords v ↔ ∃ (items : List Json) (i : Nat),
      keywords.find? "items".toList = some p.schema ∧ v = .array items ∧
        items[i]? = some p.value ∧ p.name = Text.ofNat i := by
  unfold itemParts
  split
  · rename_i s items hs hitems
    rw [Json.items?_eq_some_iff] at hitems
    constructor
    · intro h
      obtain ⟨⟨part, i⟩, hmem, rfl⟩ := List.mem_map.1 h
      exact ⟨items, i, hs, hitems, List.mk_mem_zipIdx_iff_getElem?.1 hmem, rfl⟩
    · rintro ⟨items', i, hs', hitems', hpart, hname⟩
      cases hs.symm.trans hs'
      cases hitems.symm.trans hitems'
      refine List.mem_map.2 ⟨(p.value, i), List.mk_mem_zipIdx_iff_getElem?.2 hpart, ?_⟩
      dsimp only
      rw [← hname]
  · rename_i hnone
    refine iff_of_false List.not_mem_nil ?_
    rintro ⟨items, i, hs, rfl, -⟩
    exact hnone _ items hs rfl

theorem runParts_append {ask : Json → Json → Text → Option (List Violation)} {here : Text}
    {first second : List Part} :
    runParts ask here (first ++ second) = (runParts ask here first).bind fun found =>
      (runParts ask here second).map (found ++ ·) :=
  flatten_mapM_append

/-- The violations in the field that a property is for, if it is there. -/
def runProperty (ask : Json → Json → Text → Option (List Violation)) (here : Text)
    (fields : Table Json) (property : Text × Json) : Option (List Violation) :=
  match fields.find? property.1 with
  | some part => ask property.2 part (below here property.1)
  | none => some []

theorem runParts_propertyParts {ask : Json → Json → Text → Option (List Violation)}
    {keywords : Table Json} {here : Text} :
    runParts ask here (propertyParts keywords v) =
      match (keywords.find? "properties".toList).bind Json.fields?, v.fields? with
      | some schemas, some fields => (schemas.mapM (runProperty ask here fields)).map List.flatten
      | _, _ => some [] := by
  unfold runParts propertyParts
  split
  · refine (flatten_mapM_filterMap ?_).symm
    rintro ⟨name, s⟩
    unfold runProperty
    dsimp only
    cases Table.find? _ name <;> rfl
  · rfl

theorem runParts_itemParts {ask : Json → Json → Text → Option (List Violation)}
    {keywords : Table Json} {here : Text} :
    runParts ask here (itemParts keywords v) =
      match keywords.find? "items".toList, v.items? with
      | some s, some items => do
        let found ← items.zipIdx.mapM fun (part, i) => ask s part (below here (Text.ofNat i))
        some found.flatten
      | _, _ => some [] := by
  unfold runParts itemParts
  split
  · rw [List.mapM_map]
    exact Option.map_eq_bind
  · rfl

/-- **A step follows the plan.** -/
theorem check_succ (root : Json) (n : Nat) (s v : Json) (here : Text) :
    check root (n + 1) s v here = (plan root s v).run (check root n) v here := by
  rw [check, plan]
  cases s.fields? with
  | none => rfl
  | some keywords =>
    dsimp only
    cases (keywords.find? "$ref".toList).bind Json.text? with
    | some reference =>
      dsimp only
      cases resolve? root reference <;> rfl
    | none =>
      dsimp only
      cases (keywords.find? "type".toList).bind fun expected => typeFault? expected v with
      | some fault => rfl
      | none =>
        dsimp only [Plan.run]
        rw [runParts_append, runParts_propertyParts, runParts_itemParts]
        generalize (keywords.find? "oneOf".toList).bind Json.items? = alternatives?
        generalize (keywords.find? "properties".toList).bind Json.fields? = schemas?
        generalize keywords.find? "items".toList = items?
        -- the same lists are asked one after the other
        cases alternatives? <;> cases schemas? <;> cases v.fields? <;> cases items? <;>
          cases v.items? <;>
          simp only [runAlternatives, Option.bind_eq_bind, Option.bind_some, Option.bind_assoc,
            Option.map_eq_bind, Function.comp_def, List.nil_append, List.append_nil,
            List.append_assoc, Option.bind_none, Option.toList_none] <;>
          rfl

/-! ### Steps put together -/

/-- The violation of a part, seen from the value at `here` that the part stands in. -/
def Violation.movedTo (here : Text) (x : Violation) : Violation :=
  { x with pointer := here ++ x.pointer }

theorem map_movedTo_nil (found : List Violation) : found.map (Violation.movedTo []) = found :=
  List.map_id found

theorem map_movedTo_movedTo (here name : Text) (found : List Violation) :
    (found.map (Violation.movedTo (below [] name))).map (Violation.movedTo here) =
      found.map (Violation.movedTo (below here name)) := by
  rw [List.map_map]
  refine List.map_congr_left fun x _ => ?_
  simp [Violation.movedTo, below]

/-- The fault of a value, from what the alternatives find, if there are any. -/
def faultOfAlternatives? (alternatives? : Option (List Json))
    (ofAlternative : Json → List Violation) : Option Fault :=
  alternatives?.bind fun schemas => alternativesFault? (schemas.map ofAlternative)

/-- In the document `root` and within so many nested steps, a schema finds violations in a value.
Their pointers start at the value. -/
inductive Finds (root : Json) : Nat → Json → Json → List Violation → Prop
  | settled {n : Nat} {s v : Json} {fault? : Option Fault} (h : plan root s v = .settled fault?) :
    Finds root (n + 1) s v (fault?.map (⟨[], ·⟩)).toList
  | follow {n : Nat} {s v target : Json} {found : List Violation}
    (h : plan root s v = .follow target) (htarget : Finds root n target v found) :
    Finds root (n + 1) s v found
  | descend {n : Nat} {s v : Json} {alternatives? : Option (List Json)} {parts : List Part}
    (ofAlternative : Json → List Violation) (ofPart : Part → List Violation)
    (h : plan root s v = .descend alternatives? parts)
    (halternatives : ∀ a ∈ alternatives?.getD [], Finds root n a v (ofAlternative a))
    (hparts : ∀ p ∈ parts, Finds root n p.schema p.value (ofPart p)) :
    Finds root (n + 1) s v
      (((faultOfAlternatives? alternatives? ofAlternative).map (⟨[], ·⟩)).toList ++
        parts.flatMap fun p => (ofPart p).map (Violation.movedTo (below [] p.name)))

theorem runAlternatives_eq_some {alternatives? : Option (List Json)}
    {ofAlternative : Json → List Violation}
    {ask : Json → Json → Text → Option (List Violation)}
    (h : ∀ a ∈ alternatives?.getD [], ask a v [] = some (ofAlternative a)) :
    runAlternatives ask v alternatives? =
      some (faultOfAlternatives? alternatives? ofAlternative) := by
  cases alternatives? with
  | none => rfl
  | some schemas =>
    simp only [Option.getD_some] at h
    rw [runAlternatives, mapM_eq_some_map h]
    rfl

theorem exists_of_runAlternatives {alternatives? : Option (List Json)} {fault? : Option Fault}
    {ask : Json → Json → Text → Option (List Violation)}
    (h : runAlternatives ask v alternatives? = some fault?) :
    ∃ ofAlternative : Json → List Violation,
      (∀ a ∈ alternatives?.getD [], ask a v [] = some (ofAlternative a)) ∧
        fault? = faultOfAlternatives? alternatives? ofAlternative := by
  cases alternatives? with
  | none => exact ⟨fun _ => [], by simp, (Option.some.inj h).symm⟩
  | some schemas =>
    obtain ⟨found, hfound, rfl⟩ := Option.map_eq_some_iff.1 h
    obtain ⟨ofAlternative, hall, rfl⟩ := exists_map_of_mapM hfound
    exact ⟨ofAlternative, hall, rfl⟩

theorem runParts_eq_some {here : Text} {parts : List Part} {ofPart : Part → List Violation}
    {ask : Json → Json → Text → Option (List Violation)}
    (h : ∀ p ∈ parts, ask p.schema p.value (below here p.name) =
      some ((ofPart p).map (Violation.movedTo (below here p.name)))) :
    runParts ask here parts =
      some ((parts.flatMap fun p => (ofPart p).map (Violation.movedTo (below [] p.name))).map
        (Violation.movedTo here)) := by
  rw [runParts, mapM_eq_some_map h, Option.map_some, List.flatMap_def, List.map_flatten,
    List.map_map]
  congr 2
  exact List.map_congr_left fun p _ => (map_movedTo_movedTo here p.name (ofPart p)).symm

theorem exists_of_runParts {here : Text} {parts : List Part} {ofParts : List Violation}
    {ask : Json → Json → Text → Option (List Violation)}
    (h : runParts ask here parts = some ofParts) :
    ∃ ofPart : Part → List Violation,
      (∀ p ∈ parts, ask p.schema p.value (below here p.name) = some (ofPart p)) ∧
        ofParts = parts.flatMap ofPart := by
  obtain ⟨found, hfound, rfl⟩ := Option.map_eq_some_iff.1 h
  obtain ⟨ofPart, hall, rfl⟩ := exists_map_of_mapM hfound
  exact ⟨ofPart, hall, rfl⟩

theorem map_movedTo_toList (here : Text) (fault? : Option Fault) :
    ((fault?.map (⟨[], ·⟩)).toList).map (Violation.movedTo here) =
      (fault?.map (⟨here, ·⟩)).toList := by
  cases fault? <;> simp [Violation.movedTo]

theorem Finds.check_eq (h : Finds root n s v found) (here : Text) :
    check root n s v here = some (found.map (Violation.movedTo here)) := by
  induction h generalizing here with
  | settled h => rw [check_succ, h, Plan.run, map_movedTo_toList]
  | follow h _ ih => rw [check_succ, h, Plan.run, ih here]
  | descend ofAlternative ofPart h _ _ iha ihp =>
    rw [check_succ, h, Plan.run,
      runAlternatives_eq_some fun a ha => by rw [iha a ha [], map_movedTo_nil],
      runParts_eq_some fun p hp => ihp p hp _, List.map_append, map_movedTo_toList]
    rfl

theorem exists_finds_of_check {here : Text} {moved : List Violation}
    (h : check root n s v here = some moved) :
    ∃ found, Finds root n s v found ∧ moved = found.map (Violation.movedTo here) := by
  induction n generalizing s v here moved with
  | zero => cases h
  | succ n ih =>
    rw [check_succ] at h
    cases hplan : plan root s v with
    | settled fault? =>
      rw [hplan] at h
      exact ⟨_, .settled hplan, by rw [map_movedTo_toList]; exact (Option.some.inj h).symm⟩
    | follow target =>
      rw [hplan] at h
      obtain ⟨found, hfound, hmoved⟩ := ih h
      exact ⟨found, .follow hplan hfound, hmoved⟩
    | descend alternatives? parts =>
      rw [hplan] at h
      obtain ⟨fault?, halternatives, h⟩ := Option.bind_eq_some_iff.1 h
      obtain ⟨moved', hparts, h⟩ := Option.bind_eq_some_iff.1 h
      obtain ⟨ofAlternative, ha, rfl⟩ := exists_of_runAlternatives halternatives
      obtain ⟨movedOfPart, hp, rfl⟩ := exists_of_runParts hparts
      have hfound : ∀ a ∈ alternatives?.getD [], Finds root n a v (ofAlternative a) := by
        intro a hmem
        obtain ⟨found, hfound, heq⟩ := ih (ha a hmem)
        rwa [heq, map_movedTo_nil]
      have hmoved : ∀ p ∈ parts, ∃ found, Finds root n p.schema p.value found ∧
          movedOfPart p = found.map (Violation.movedTo (below here p.name)) :=
        fun p hmem => ih (hp p hmem)
      choose! ofPart hofPart heq using hmoved
      refine ⟨_, .descend ofAlternative ofPart hplan hfound hofPart, ?_⟩
      rw [← Option.some.inj h, List.map_append, map_movedTo_toList, List.map_flatMap,
        List.flatMap_congr heq]
      simp only [map_movedTo_movedTo]

/-- **What `check` finds.** -/
theorem finds_iff_check : Finds root n s v found ↔ check root n s v [] = some found := by
  refine ⟨fun h => by rw [h.check_eq, map_movedTo_nil], fun h => ?_⟩
  obtain ⟨found', h', rfl⟩ := exists_finds_of_check h
  rwa [map_movedTo_nil]

theorem Finds.mono (h : Finds root n s v found) (hnm : n ≤ m) : Finds root m s v found := by
  induction h generalizing m with
  | settled h =>
    obtain ⟨m, rfl⟩ := Nat.exists_eq_add_of_lt hnm
    exact .settled h
  | follow h _ ih =>
    obtain ⟨m, rfl⟩ := Nat.exists_eq_add_of_lt hnm
    exact .follow h (ih (by omega))
  | descend ofAlternative ofPart h _ _ iha ihp =>
    obtain ⟨m, rfl⟩ := Nat.exists_eq_add_of_lt hnm
    exact .descend ofAlternative ofPart h (fun a ha => iha a ha (by omega))
      fun p hp => ihp p hp (by omega)

/-! ### Termination -/

/-- Evaluation of a value against a schema comes to an end: so many nested steps are enough. -/
def Terminates (root s v : Json) : Prop := ∃ n, (check root n s v []).isSome = true

theorem terminates_iff : Terminates root s v ↔ ∃ n found, Finds root n s v found := by
  simp only [Terminates, Option.isSome_iff_exists, finds_iff_check]

/-- So many nested steps are enough. -/
def SettlesIn (root : Json) (n : Nat) (s v : Json) : Prop := ∃ found, Finds root n s v found

theorem SettlesIn.mono (h : SettlesIn root n s v) (hnm : n ≤ m) : SettlesIn root m s v :=
  h.imp fun _ hfound => hfound.mono hnm

/-- What is asked for a value: other schemas about it, or schemas about its parts. -/
def Plan.calls (v : Json) : Plan → List (Json × Json)
  | .settled _ => []
  | .follow target => [(target, v)]
  | .descend alternatives? parts =>
    (alternatives?.getD []).map (·, v) ++ parts.map fun p => (p.schema, p.value)

/-- A step is settled once all that it asks is. -/
theorem settlesIn_succ_iff :
    SettlesIn root (n + 1) s v ↔ ∀ c ∈ (plan root s v).calls v, SettlesIn root n c.1 c.2 := by
  constructor
  · rintro ⟨found, h⟩ c hc
    cases h with
    | settled h => rw [h] at hc; cases hc
    | follow h htarget =>
      rw [h] at hc
      obtain rfl := List.mem_singleton.1 hc
      exact ⟨_, htarget⟩
    | descend ofAlternative ofPart h halternatives hparts =>
      rw [h] at hc
      rcases List.mem_append.1 hc with hc | hc
      · obtain ⟨a, ha, rfl⟩ := List.mem_map.1 hc
        exact ⟨_, halternatives a ha⟩
      · obtain ⟨p, hp, rfl⟩ := List.mem_map.1 hc
        exact ⟨_, hparts p hp⟩
  · intro h
    cases hplan : plan root s v with
    | settled fault? => exact ⟨_, .settled hplan⟩
    | follow target =>
      rw [hplan] at h
      obtain ⟨found, hfound⟩ := h _ List.mem_cons_self
      exact ⟨found, .follow hplan hfound⟩
    | descend alternatives? parts =>
      rw [hplan] at h
      have ha : ∀ a ∈ alternatives?.getD [], ∃ found, Finds root n a v found := fun a ha =>
        h (a, v) (List.mem_append_left _ (List.mem_map_of_mem ha))
      have hp : ∀ p ∈ parts, ∃ found, Finds root n p.schema p.value found := fun p hp =>
        h (p.schema, p.value) (List.mem_append_right _ (List.mem_map_of_mem hp))
      choose! ofAlternative ha using ha
      choose! ofPart hp using hp
      exact ⟨_, .descend ofAlternative ofPart hplan ha hp⟩

theorem mem_nodes_of_resolve? {reference : Text} {target : Json}
    (h : resolve? root reference = some target) : target ∈ root.nodes := by
  unfold resolve? at h
  split at h
  · exact Json.mem_nodes_of_pointer? h
  · cases h

theorem plan_eq_descend {alternatives? : Option (List Json)} {parts : List Part}
    (h : plan root s v = .descend alternatives? parts) :
    ∃ keywords, s.fields? = some keywords ∧
      alternatives? = (keywords.find? "oneOf".toList).bind Json.items? ∧
      parts = propertyParts keywords v ++ itemParts keywords v := by
  unfold plan at h
  split at h
  · cases h
  · rename_i keywords hkeywords
    split at h
    · split at h <;> cases h
    · split at h
      · cases h
      · obtain ⟨rfl, rfl⟩ := Plan.descend.inj h
        exact ⟨keywords, hkeywords, rfl, rfl⟩

/-- The schemas that a schema can ask, whatever the value is. -/
def asked (root s : Json) : List Json :=
  match s.fields? with
  | none => []
  | some keywords =>
    match (keywords.find? "$ref".toList).bind Json.text? with
    | some reference => (resolve? root reference).toList
    | none =>
      ((keywords.find? "oneOf".toList).bind Json.items?).getD [] ++
        ((((keywords.find? "properties".toList).bind Json.fields?).getD []).map Prod.snd ++
          (keywords.find? "items".toList).toList)

theorem mem_asked_of_mem_parts {keywords : Table Json} {p : Part}
    (h : p ∈ propertyParts keywords v ++ itemParts keywords v) :
    p.schema ∈ (((keywords.find? "properties".toList).bind Json.fields?).getD []).map Prod.snd ++
      (keywords.find? "items".toList).toList := by
  rcases List.mem_append.1 h with h | h
  · obtain ⟨schemas, fields, hschemas, -, hmem, -⟩ := mem_propertyParts.1 h
    refine List.mem_append_left _ ?_
    rw [hschemas]
    exact List.mem_map_of_mem hmem
  · obtain ⟨items, i, hitems, -⟩ := mem_itemParts.1 h
    exact List.mem_append_right _ (Option.mem_toList.2 hitems)

/-- **What a step asks**: the schema that is referred to, the alternatives, and the schemas of the
parts that it looks into. -/
theorem calls_cases {c : Json × Json} (h : c ∈ (plan root s v).calls v) :
    ∃ keywords, s.fields? = some keywords ∧
      ((∃ reference target, (keywords.find? "$ref".toList).bind Json.text? = some reference ∧
          resolve? root reference = some target ∧ c = (target, v)) ∨
        (keywords.find? "$ref".toList).bind Json.text? = none ∧
          ((∃ a ∈ ((keywords.find? "oneOf".toList).bind Json.items?).getD [], c = (a, v)) ∨
            ∃ p ∈ propertyParts keywords v ++ itemParts keywords v, c = (p.schema, p.value))) := by
  unfold plan at h
  split at h
  · cases h
  · rename_i keywords hkeywords
    refine ⟨keywords, hkeywords, ?_⟩
    split at h
    · rename_i reference hreference
      split at h
      · rename_i target htarget
        exact .inl ⟨reference, target, hreference, htarget, List.mem_singleton.1 h⟩
      · cases h
    · rename_i hnone
      split at h
      · cases h
      · refine .inr ⟨hnone, ?_⟩
        rcases List.mem_append.1 h with h | h
        · obtain ⟨a, ha, rfl⟩ := List.mem_map.1 h
          exact .inl ⟨a, ha, rfl⟩
        · obtain ⟨p, hp, rfl⟩ := List.mem_map.1 h
          exact .inr ⟨p, hp, rfl⟩

theorem mem_asked_of_mem_calls {c : Json × Json} (h : c ∈ (plan root s v).calls v) :
    c.1 ∈ asked root s := by
  obtain ⟨keywords, hkeywords, hcalls⟩ := calls_cases h
  unfold asked
  rw [hkeywords]
  dsimp only
  rcases hcalls with ⟨reference, target, href, htarget, rfl⟩ | ⟨href, ⟨a, ha, rfl⟩ | ⟨p, hp, rfl⟩⟩
  · rw [href]
    exact Option.mem_toList.2 htarget
  · rw [href]
    exact List.mem_append_left _ ha
  · rw [href]
    exact List.mem_append_right _ (mem_asked_of_mem_parts hp)

theorem mem_getD_nil {α : Type} {xs? : Option (List α)} {x : α} :
    x ∈ xs?.getD [] ↔ ∃ xs, xs? = some xs ∧ x ∈ xs := by
  cases xs? <;> simp

theorem mem_nodes_of_mem_asked {t : Json} (hs : s ∈ root.nodes) (h : t ∈ asked root s) :
    t ∈ root.nodes := by
  unfold asked at h
  split at h
  · cases h
  · rename_i keywords hkeywords
    -- what stands below a keyword stands in the document
    have hbelow {name : Text} {u w : Json} (hu : keywords.find? name = some u)
        (hw : w ∈ u.nodes) : w ∈ root.nodes :=
      Json.mem_nodes_trans hw (Json.mem_nodes_trans
        (Json.mem_nodes_of_mem_fields hkeywords (Table.mem_of_find? hu)) hs)
    split at h
    · exact mem_nodes_of_resolve? (Option.mem_toList.1 h)
    · rcases List.mem_append.1 h with h | h
      · obtain ⟨schemas, hschemas, ht⟩ := mem_getD_nil.1 h
        obtain ⟨u, hu, hitems⟩ := Option.bind_eq_some_iff.1 hschemas
        exact hbelow hu (Json.mem_nodes_of_mem_items hitems ht)
      · rcases List.mem_append.1 h with h | h
        · obtain ⟨⟨name, t⟩, ht, rfl⟩ := List.mem_map.1 h
          obtain ⟨schemas, hschemas, ht⟩ := mem_getD_nil.1 ht
          obtain ⟨u, hu, hfields⟩ := Option.bind_eq_some_iff.1 hschemas
          exact hbelow hu (Json.mem_nodes_of_mem_fields hfields ht)
        · exact hbelow (Option.mem_toList.1 h) (Json.self_mem_nodes t)

theorem part_mem_nodes {keywords : Table Json} {p : Part}
    (h : p ∈ propertyParts keywords v ++ itemParts keywords v) :
    p.value ∈ v.nodes ∧ p.value.depth < v.depth := by
  rcases List.mem_append.1 h with h | h
  · obtain ⟨schemas, fields, -, rfl, -, hpart⟩ := mem_propertyParts.1 h
    have hmem := Table.mem_of_find? hpart
    exact ⟨Json.mem_nodes_of_mem_fields rfl hmem, Json.depth_lt_of_mem_fields rfl hmem⟩
  · obtain ⟨items, i, -, rfl, hpart, -⟩ := mem_itemParts.1 h
    have hmem := List.mem_of_getElem? hpart
    exact ⟨Json.mem_nodes_of_mem_items rfl hmem, Json.depth_lt_of_mem_items rfl hmem⟩

theorem eq_or_depth_lt_of_mem_calls {c : Json × Json} (h : c ∈ (plan root s v).calls v) :
    c.2 = v ∨ c.2.depth < v.depth := by
  obtain ⟨keywords, -, ⟨_, _, -, -, rfl⟩ | ⟨-, ⟨a, -, rfl⟩ | ⟨p, hp, rfl⟩⟩⟩ := calls_cases h
  · exact .inl rfl
  · exact .inl rfl
  · exact .inr (part_mem_nodes hp).2

/-- A node that needs `n + k + 1` steps, where `n` are enough for all parts of the value, starts a
chain of `k + 1` different nodes: each of them needs one step less than the one before. -/
theorem exists_chain (hparts : ∀ t ∈ root.nodes, ∀ w : Json, w.depth < v.depth →
      ∀ m, SettlesIn root m t w → SettlesIn root n t w) (k : Nat) (hs : s ∈ root.nodes)
    (henough : SettlesIn root (n + k + 1) s v) (hneeds : ¬ SettlesIn root (n + k) s v) :
    ∃ chain : List Json, chain.length = k + 1 ∧ chain.Nodup ∧
      ∀ t ∈ chain, t ∈ root.nodes ∧ SettlesIn root (n + k + 1) t v := by
  induction k generalizing s with
  | zero => exact ⟨[s], rfl, List.nodup_singleton s, by simpa using ⟨hs, henough⟩⟩
  | succ k ih =>
    have hcalls := settlesIn_succ_iff.1 henough
    obtain ⟨c, hc, hlate⟩ : ∃ c ∈ (plan root s v).calls v, ¬ SettlesIn root (n + k) c.1 c.2 := by
      by_contra hall
      push Not at hall
      exact hneeds (settlesIn_succ_iff.2 hall)
    have hnode := mem_nodes_of_mem_asked hs (mem_asked_of_mem_calls hc)
    -- a part would not need that many steps, so the call is about the value itself
    have hsame : c.2 = v := by
      refine (eq_or_depth_lt_of_mem_calls hc).resolve_right fun hlt => hlate ?_
      exact (hparts c.1 hnode c.2 hlt _ (hcalls c hc)).mono (Nat.le_add_right n k)
    have hcall := hcalls c hc
    rw [hsame] at hcall hlate
    obtain ⟨chain, hlength, hnodup, hchain⟩ := ih hnode hcall hlate
    refine ⟨s :: chain, by rw [List.length_cons, hlength], ?_, ?_⟩
    · exact List.nodup_cons.2 ⟨fun hmem => hneeds (hchain s hmem).2, hnodup⟩
    · exact List.forall_mem_cons.2 ⟨⟨hs, henough⟩, fun t ht =>
        ⟨(hchain t ht).1, (hchain t ht).2.mono (Nat.le_succ _)⟩⟩

/-- **The steps that suffice.** At each level of the value every node of the document is passed at
most once. -/
theorem settlesIn_size_mul_depth (hs : s ∈ root.nodes) (h : SettlesIn root m s v) :
    SettlesIn root (root.size * (v.depth + 1)) s v := by
  induction hd : v.depth using Nat.strongRecOn generalizing s v m with
  | ind d ih =>
    have hparts : ∀ t ∈ root.nodes, ∀ w : Json, w.depth < v.depth → ∀ m, SettlesIn root m t w →
        SettlesIn root (root.size * d) t w := by
      intro t ht w hw m hm
      exact (ih w.depth (hd ▸ hw) ht hm rfl).mono (Nat.mul_le_mul_left _ (by omega))
    by_contra hlate
    -- the least number of steps that are enough is one more than what is not enough
    classical
    have hexists : ∃ n, SettlesIn root n s v := ⟨m, h⟩
    obtain ⟨k, hk⟩ : ∃ k, Nat.find hexists = root.size * d + k + 1 ∧ root.size ≤ k := by
      have hlt : root.size * (d + 1) < Nat.find hexists := by
        by_contra hle
        exact hlate ((Nat.find_spec hexists).mono (not_lt.1 hle))
      rw [Nat.mul_succ] at hlt
      exact ⟨Nat.find hexists - root.size * d - 1, by omega, by omega⟩
    obtain ⟨chain, hlength, hnodup, hchain⟩ := exists_chain hparts k hs
      (hk.1 ▸ Nat.find_spec hexists) (Nat.find_min hexists (by omega))
    have hle : chain.length ≤ root.nodes.length :=
      (hnodup.subperm fun t ht => (hchain t ht).1).length_le
    rw [hlength, Json.length_nodes] at hle
    omega

/-- Whether a schema asks others only so many times in a row, whatever the value is. -/
def endsWithin (root : Json) : Nat → Json → Bool
  | 0, _ => false
  | n + 1, s => (asked root s).all (endsWithin root n)

/-- **A schema that never asks in a circle settles every value.** -/
theorem settlesIn_of_endsWithin (h : endsWithin root n s = true) : SettlesIn root n s v := by
  induction n generalizing s v with
  | zero => cases h
  | succ n ih =>
    refine settlesIn_succ_iff.2 fun c hc => ih ?_
    exact List.all_eq_true.1 h c.1 (mem_asked_of_mem_calls hc)

theorem terminates_of_endsWithin (h : endsWithin root n s = true) : Terminates root s v :=
  terminates_iff.2 ⟨n, settlesIn_of_endsWithin h⟩

/-- **Where evaluation comes to an end, the bound of `violations?` is large enough.** -/
theorem exists_violations? (h : Terminates root root v) :
    ∃ found, violations? root v = some found ∧ ∃ n, Finds root n root v found := by
  obtain ⟨n, found, hfound⟩ := terminates_iff.1 h
  obtain ⟨found', hfound'⟩ := settlesIn_size_mul_depth (Json.self_mem_nodes root) ⟨found, hfound⟩
  have hbound : root.size * (v.depth + 1) ≤ fuelFor root v :=
    Nat.mul_le_mul_right _ (Nat.le_succ _)
  exact ⟨found', finds_iff_check.1 (hfound'.mono hbound), _, hfound'⟩

end Schema

end DocSite
