import DocSite.Pipeline.Schema
import DocSite.Proofs.Schema.Evaluation
import Mathlib.Data.Fintype.Card
import Mathlib.Data.Set.Finite.List
import Mathlib.Logic.Relation

/-!
# Where evaluation comes to an end

A schema asks others about the same value, or about parts of it (`Schema.Calls`). Only so many
schemas can be asked about so many values, so evaluation comes to an end exactly if no chain of
calls comes back to a schema and a value that it has asked before
(`Schema.terminates_iff_no_return`).

A chain that goes down in the value does not come back. So a schema may lead back to itself through
the fields and the elements of a value; what it must not do is hand the value itself on in a circle.

* `Schema.HandsOn` : a schema hands a value on to another one, whatever the value is.
* `Schema.Progresses` : no chain of places that hand a value on comes back to a place.
* `Schema.progresses_iff` : that is to say, no schema hands a value on to one that says the same.
* `Schema.progressing_schema_settles` : such a document settles every value, and more steps than
  `violations?` allows itself find nothing else. The schema of pipeline configurations is one.
-/

namespace DocSite

namespace Schema

variable {root s t v : Json} {n m : Nat}

/-! ### Counted chains -/

section

variable {α : Type} {r : α → α → Prop} {a b : α} (enough : Nat → α → Prop)

theorem exists_lt_of_chain (hzero : ∀ a, ¬ enough 0 a)
    (hstep : ∀ n a b, r a b → enough (n + 1) a → enough n b) (h : Relation.TransGen r a b)
    (ha : enough n a) : ∃ m < n, enough m b := by
  have hless {n : Nat} {a b : α} (h : r a b) (ha : enough n a) : ∃ m < n, enough m b := by
    cases n with
    | zero => exact absurd ha (hzero a)
    | succ n => exact ⟨n, Nat.lt_succ_self n, hstep n a b h ha⟩
  induction h with
  | single h => exact hless h ha
  | tail _ h ih =>
    obtain ⟨m, hm, hb⟩ := ih
    obtain ⟨k, hk, hc⟩ := hless h hb
    exact ⟨k, Nat.lt_trans hk hm, hc⟩

theorem not_enough_of_return (hzero : ∀ a, ¬ enough 0 a)
    (hstep : ∀ n a b, r a b → enough (n + 1) a → enough n b) (h : Relation.TransGen r a a)
    (n : Nat) : ¬ enough n a := by
  induction n using Nat.strongRecOn with
  | ind n ih =>
    intro ha
    obtain ⟨m, hm, hagain⟩ := exists_lt_of_chain enough hzero hstep h ha
    exact ih m hm hagain

end

/-! ### Chains of calls -/

/-- In the document `root`, a schema and a value ask for a schema and a value. -/
def Calls (root : Json) (a b : Json × Json) : Prop := b ∈ (plan root a.1 a.2).calls a.2

/-- There is a number of steps that is enough for all of some schemas and values. -/
theorem exists_common_bound {calls : List (Json × Json)}
    (h : ∀ c ∈ calls, ∃ n, SettlesIn root n c.1 c.2) :
    ∃ n, ∀ c ∈ calls, SettlesIn root n c.1 c.2 := by
  induction calls with
  | nil => exact ⟨0, List.forall_mem_nil _⟩
  | cons c calls ih =>
    obtain ⟨⟨n, hn⟩, hcalls⟩ := List.forall_mem_cons.1 h
    obtain ⟨m, hm⟩ := ih hcalls
    exact ⟨max n m, List.forall_mem_cons.2 ⟨hn.mono (Nat.le_max_left n m),
      fun c hc => (hm c hc).mono (Nat.le_max_right n m)⟩⟩

theorem terminates_of_calls (h : ∀ c, Calls root (s, v) c → Terminates root c.1 c.2) :
    Terminates root s v := by
  have hsettles : ∀ c ∈ (plan root s v).calls v, ∃ n, SettlesIn root n c.1 c.2 :=
    fun c hc => terminates_iff.1 (h c hc)
  obtain ⟨n, hn⟩ := exists_common_bound hsettles
  exact terminates_iff.2 ⟨n + 1, settlesIn_succ_iff.2 hn⟩

theorem settlesIn_zero : ¬ SettlesIn root 0 s v := by
  rintro ⟨found, hfound⟩
  cases hfound

theorem not_terminates_of_return {a c : Json × Json}
    (hreach : Relation.ReflTransGen (Calls root) a c)
    (hreturn : Relation.TransGen (Calls root) c c) : ¬ Terminates root a.1 a.2 := by
  let enough (n : Nat) (a : Json × Json) : Prop := SettlesIn root n a.1 a.2
  have hzero : ∀ a, ¬ enough 0 a := fun _ => settlesIn_zero
  have hstep : ∀ n a b, Calls root a b → enough (n + 1) a → enough n b :=
    fun n a b h ha => settlesIn_succ_iff.1 ha b h
  intro h
  obtain ⟨n, hn⟩ := terminates_iff.1 h
  rcases Relation.reflTransGen_iff_eq_or_transGen.1 hreach with rfl | hchain
  · exact not_enough_of_return enough hzero hstep hreturn n hn
  · obtain ⟨m, -, hm⟩ := exists_lt_of_chain enough hzero hstep hchain hn
    exact not_enough_of_return enough hzero hstep hreturn m hm

/-! ### What a step asks -/

/-- In the document `root`, a schema hands every value on: a reference to the schema that it names,
and alternatives, where there is no reference, to each of them. -/
inductive HandsOn (root : Json) : Json → Json → Prop
  | reference {keywords : Table Json} {pointer : Text} {target : Json}
    (h : keywords.find? "$ref".toList = some (.string ('#' :: pointer)))
    (htarget : root.pointer? pointer = some target) : HandsOn root (.object keywords) target
  | alternative {keywords : Table Json} {alternatives : List Json} {a : Json}
    (hnone : ∀ reference, keywords.find? "$ref".toList ≠ some (.string reference))
    (h : keywords.find? "oneOf".toList = some (.array alternatives)) (ha : a ∈ alternatives) :
    HandsOn root (.object keywords) a

/-- The schemas to which a schema hands every value on. -/
def handedOn (root s : Json) : List Json :=
  match s.fields? with
  | none => []
  | some keywords =>
    match (keywords.find? "$ref".toList).bind Json.text? with
    | some reference => (resolve? root reference).toList
    | none => ((keywords.find? "oneOf".toList).bind Json.items?).getD []

theorem bind_text?_eq_some_iff {x? : Option Json} {s : Text} :
    x?.bind Json.text? = some s ↔ x? = some (.string s) := by
  simp only [Option.bind_eq_some_iff, Json.text?_eq_some_iff, exists_eq_right]

theorem bind_items?_eq_some_iff {x? : Option Json} {items : List Json} :
    x?.bind Json.items? = some items ↔ x? = some (.array items) := by
  simp only [Option.bind_eq_some_iff, Json.items?_eq_some_iff, exists_eq_right]

theorem handsOn_iff_mem : HandsOn root s t ↔ t ∈ handedOn root s := by
  constructor
  · intro h
    cases h with
    | reference h htarget =>
      simp only [handedOn, Json.fields?]
      rw [bind_text?_eq_some_iff.2 h]
      exact Option.mem_toList.2 htarget
    | @alternative keywords alternatives _ hnone h ha =>
      have hnone : (keywords.find? "$ref".toList).bind Json.text? = none :=
        Option.eq_none_iff_forall_ne_some.2 fun reference hreference =>
          hnone reference (bind_text?_eq_some_iff.1 hreference)
      simp only [handedOn, Json.fields?]
      rw [hnone, bind_items?_eq_some_iff.2 h]
      exact ha
  · intro h
    unfold handedOn at h
    split at h
    · cases h
    · rename_i keywords hkeywords
      obtain rfl := Json.fields?_eq_some_iff.1 hkeywords
      split at h
      · rename_i reference hreference
        have htarget := Option.mem_toList.1 h
        unfold resolve? at htarget
        split at htarget
        · exact .reference (bind_text?_eq_some_iff.1 hreference) htarget
        · cases htarget
      · rename_i hnone
        obtain ⟨alternatives, halternatives, ha⟩ := mem_getD_nil.1 h
        refine .alternative (fun reference hreference => ?_)
          (bind_items?_eq_some_iff.1 halternatives) ha
        rw [bind_text?_eq_some_iff.2 hreference] at hnone
        cases hnone

theorem handsOn_or_part {c : Json × Json} (h : Calls root (s, v) c) :
    HandsOn root s c.1 ∧ c.2 = v ∨ c.2 ∈ v.nodes ∧ c.2.depth < v.depth := by
  rw [handsOn_iff_mem]
  obtain ⟨keywords, hkeywords, hcalls⟩ := calls_cases h
  unfold handedOn
  rw [hkeywords]
  dsimp only
  rcases hcalls with ⟨reference, target, href, htarget, rfl⟩ | ⟨href, ⟨a, ha, rfl⟩ | ⟨p, hp, rfl⟩⟩
  · rw [href]
    exact .inl ⟨Option.mem_toList.2 htarget, rfl⟩
  · rw [href]
    exact .inl ⟨ha, rfl⟩
  · exact .inr (part_mem_nodes hp)

/-! ### Places that hand a value on -/

/-- In the document `root`, the schema at a place hands every value on to the one at another
place. -/
inductive PassesOn (root : Json) : Text → Text → Prop
  | reference {here pointer : Text} {keywords : Table Json} {target : Json}
    (hhere : root.pointer? here = some (.object keywords))
    (h : keywords.find? "$ref".toList = some (.string ('#' :: pointer)))
    (htarget : root.pointer? pointer = some target) : PassesOn root here pointer
  | alternative {here : Text} {keywords : Table Json} {alternatives : List Json} {i : Nat}
    {a : Json} (hhere : root.pointer? here = some (.object keywords))
    (hnone : ∀ reference, keywords.find? "$ref".toList ≠ some (.string reference))
    (h : keywords.find? "oneOf".toList = some (.array alternatives))
    (ha : alternatives[i]? = some a) :
    PassesOn root here (below (below here "oneOf".toList) (Text.ofNat i))

/-- No chain of places that hand a value on comes back to a place. -/
def Progresses (root : Json) : Prop := ∀ here, ¬ Relation.TransGen (PassesOn root) here here

theorem pointer?_below {here name : Text} {part : Json} (h : root.pointer? here = some s)
    (hpart : s.child? (Json.escapeSegment name) = some part) :
    root.pointer? (below here name) = some part := by
  have hname : s.pointer? ('/' :: Json.escapeSegment name ++ []) = some part :=
    Json.pointer?_below hpart rfl
  rw [List.append_nil] at hname
  rw [below, Json.pointer?_append h, hname]

theorem pointer?_alternative {here : Text} {keywords : Table Json} {alternatives : List Json}
    {i : Nat} {a : Json} (hhere : root.pointer? here = some (.object keywords))
    (h : keywords.find? "oneOf".toList = some (.array alternatives))
    (ha : alternatives[i]? = some a) :
    root.pointer? (below (below here "oneOf".toList) (Text.ofNat i)) = some a :=
  pointer?_below (pointer?_below hhere (Json.child?_of_find? rfl h))
    (Json.child?_of_getElem? rfl ha)

theorem handsOn_of_passesOn {here there : Text}
    (h : Relation.TransGen (PassesOn root) here there) :
    ∃ s t, root.pointer? here = some s ∧ root.pointer? there = some t ∧
      Relation.TransGen (HandsOn root) s t := by
  have hstep {here there : Text} (h : PassesOn root here there) :
      ∃ s t, root.pointer? here = some s ∧ root.pointer? there = some t ∧ HandsOn root s t := by
    cases h with
    | reference hhere h htarget => exact ⟨_, _, hhere, htarget, .reference h htarget⟩
    | alternative hhere hnone h ha =>
      exact ⟨_, _, hhere, pointer?_alternative hhere h ha,
        .alternative hnone h (List.mem_of_getElem? ha)⟩
  induction h with
  | single h =>
    obtain ⟨s, t, hs, ht, hands⟩ := hstep h
    exact ⟨s, t, hs, ht, .single hands⟩
  | tail _ h ih =>
    obtain ⟨s, t, hs, ht, hchain⟩ := ih
    obtain ⟨t', u, ht', hu, hands⟩ := hstep h
    obtain rfl := Option.some.inj (ht.symm.trans ht')
    exact ⟨s, u, hs, hu, hchain.tail hands⟩

/-- How a schema leads to another one at the places of a document. Either it goes down from each
place of the one to some place of the other; or there is a place of the other to which it goes from
all places of the one. -/
def Leads (root : Json) (r : Text → Text → Prop) (s t : Json) : Prop :=
  (t.depth < s.depth ∧
    ∀ p, root.pointer? p = some s → ∃ q, root.pointer? q = some t ∧ r p q) ∨
  ∃ q, root.pointer? q = some t ∧ ∀ p, root.pointer? p = some s → r p q

theorem Leads.exists_place {r : Text → Text → Prop} (h : Leads root r s t) {p : Text}
    (hp : root.pointer? p = some s) : ∃ q, root.pointer? q = some t ∧ r p q := by
  rcases h with ⟨-, hdown⟩ | ⟨q, hq, hall⟩
  · exact hdown p hp
  · exact ⟨q, hq, hall p hp⟩

theorem HandsOn.leads (h : HandsOn root s t) : Leads root (PassesOn root) s t := by
  cases h with
  | @reference keywords pointer _ h htarget =>
    exact .inr ⟨pointer, htarget, fun p hp => .reference hp h htarget⟩
  | @alternative keywords alternatives a hnone h ha =>
    obtain ⟨i, hi⟩ := List.mem_iff_getElem?.1 ha
    have hdepth : (Json.array alternatives).depth < (Json.object keywords).depth :=
      Json.depth_lt_of_mem_fields rfl (Table.mem_of_find? h)
    refine .inl ⟨(Json.depth_lt_of_mem_items rfl ha).trans hdepth, fun p hp => ?_⟩
    exact ⟨_, pointer?_alternative hp h hi, .alternative hp hnone h hi⟩

/-- A chain goes down as long as it meets no reference, and after that it no longer matters where it
started. -/
theorem leads_of_chain (h : Relation.TransGen (HandsOn root) s t) :
    Leads root (Relation.TransGen (PassesOn root)) s t := by
  induction h with
  | single h =>
    rcases h.leads with ⟨hdepth, hdown⟩ | ⟨q, hq, hall⟩
    · refine .inl ⟨hdepth, fun p hp => ?_⟩
      obtain ⟨q, hq, hstep⟩ := hdown p hp
      exact ⟨q, hq, .single hstep⟩
    · exact .inr ⟨q, hq, fun p hp => .single (hall p hp)⟩
  | tail _ h ih =>
    rcases h.leads with ⟨hdepth, hdown⟩ | ⟨q, hq, hall⟩
    · rcases ih with ⟨hdepth', hdown'⟩ | ⟨p, hp, hall⟩
      · refine .inl ⟨hdepth.trans hdepth', fun p hp => ?_⟩
        obtain ⟨q, hq, hchain⟩ := hdown' p hp
        obtain ⟨q', hq', hstep⟩ := hdown q hq
        exact ⟨q', hq', hchain.tail hstep⟩
      · obtain ⟨q, hq, hstep⟩ := hdown p hp
        exact .inr ⟨q, hq, fun p' hp' => (hall p' hp').tail hstep⟩
    · -- the reference forgets the place that the chain has come to
      refine .inr ⟨q, hq, fun p hp => ?_⟩
      obtain ⟨p', hp', hchain⟩ := ih.exists_place hp
      exact hchain.tail (hall p' hp')

/-- **Schemas may be told apart by what they say.** Where no place hands a value on to itself, no
schema hands it on to one that says the same. -/
theorem progresses_iff :
    Progresses root ↔ ∀ s ∈ root.nodes, ¬ Relation.TransGen (HandsOn root) s s := by
  constructor
  · intro h s _ hreturn
    rcases leads_of_chain hreturn with ⟨hdepth, -⟩ | ⟨q, hq, hall⟩
    · exact Nat.lt_irrefl _ hdepth
    · exact h q (hall q hq)
  · intro h here hreturn
    obtain ⟨s, t, hs, ht, hchain⟩ := handsOn_of_passesOn hreturn
    obtain rfl := Option.some.inj (hs.symm.trans ht)
    exact h s (Json.mem_nodes_of_pointer? hs) hchain

/-! ### Chains that come back -/

theorem mem_nodes_of_reaches {c : Json × Json} (hs : s ∈ root.nodes)
    (h : Relation.ReflTransGen (Calls root) (s, v) c) : c.1 ∈ root.nodes ∧ c.2 ∈ v.nodes := by
  induction h with
  | refl => exact ⟨hs, Json.self_mem_nodes v⟩
  | tail _ hcall ih =>
    obtain ⟨hschema, hvalue⟩ := ih
    refine ⟨mem_nodes_of_mem_asked hschema (mem_asked_of_mem_calls hcall), ?_⟩
    rcases handsOn_or_part hcall with ⟨-, heq⟩ | ⟨hpart, -⟩
    · rw [heq]
      exact hvalue
    · exact Json.mem_nodes_trans hpart hvalue

/-- What chains of calls reach. -/
abbrev Reached (root : Json) (a : Json × Json) : Type :=
  {c : Json × Json // Relation.ReflTransGen (Calls root) a c}

theorem finite_reached (hs : s ∈ root.nodes) (v : Json) : Finite (Reached root (s, v)) := by
  refine Set.Finite.subset (List.finite_toSet (root.nodes ×ˢ v.nodes)) fun c hc => ?_
  obtain ⟨hschema, hvalue⟩ := mem_nodes_of_reaches hs hc
  exact List.mem_product.2 ⟨hschema, hvalue⟩

/-- Calls do not go on forever where nothing that is reached comes back to itself. -/
theorem wellFounded_reached (hs : s ∈ root.nodes)
    (h : ∀ c, Relation.ReflTransGen (Calls root) (s, v) c → ¬ Relation.TransGen (Calls root) c c) :
    WellFounded fun c d : Reached root (s, v) => Relation.TransGen (Calls root) d.1 c.1 := by
  have : Finite (Reached root (s, v)) := finite_reached hs v
  have : IsTrans (Reached root (s, v)) fun c d => Relation.TransGen (Calls root) d.1 c.1 :=
    ⟨fun _ _ _ hcd hde => hde.trans hcd⟩
  have : Std.Irrefl fun c d : Reached root (s, v) => Relation.TransGen (Calls root) d.1 c.1 :=
    ⟨fun c => h c.1 c.2⟩
  exact Finite.wellFounded_of_trans_of_irrefl _

/-- **Evaluation comes to an end exactly if it does not come back** to a schema and a value that it
has asked before. -/
theorem terminates_iff_no_return (hs : s ∈ root.nodes) :
    Terminates root s v ↔ ∀ c, Relation.ReflTransGen (Calls root) (s, v) c →
      ¬ Relation.TransGen (Calls root) c c := by
  constructor
  · exact fun h c hreach hreturn => not_terminates_of_return hreach hreturn h
  · intro h
    have hends : ∀ c : Reached root (s, v), Terminates root c.1.1 c.1.2 := fun c =>
      (wellFounded_reached hs h).induction c fun c ih => terminates_of_calls fun d hd =>
        ih ⟨d, c.2.tail hd⟩ (.single hd)
    exact hends ⟨(s, v), .refl⟩

/-- A chain of calls hands the value on all the way, or it goes down in the value. -/
theorem handsOn_or_depth_lt {a b : Json × Json} (h : Relation.TransGen (Calls root) a b) :
    Relation.TransGen (HandsOn root) a.1 b.1 ∧ b.2 = a.2 ∨ b.2.depth < a.2.depth := by
  induction h with
  | single h =>
    rcases handsOn_or_part h with ⟨hhands, heq⟩ | ⟨-, hlt⟩
    · exact .inl ⟨.single hhands, heq⟩
    · exact .inr hlt
  | tail _ h ih =>
    rcases handsOn_or_part h with ⟨hhands, heq⟩ | ⟨-, hlt⟩
    · rw [heq]
      exact ih.imp_left fun ⟨hchain, heq'⟩ => ⟨hchain.tail hhands, heq'⟩
    · rcases ih with ⟨-, heq⟩ | hlt'
      · exact .inr (heq ▸ hlt)
      · exact .inr (Nat.lt_trans hlt hlt')

theorem Progresses.terminates (h : Progresses root) (hs : s ∈ root.nodes) (v : Json) :
    Terminates root s v := by
  refine (terminates_iff_no_return hs).2 fun c hreach hreturn => ?_
  rcases handsOn_or_depth_lt hreturn with ⟨hchain, -⟩ | hlt
  · exact progresses_iff.1 h c.1 (mem_nodes_of_reaches hs hreach).1 hchain
  · exact Nat.lt_irrefl _ hlt

/-- A document that refers to itself does not make progress, and no bound is large enough. -/
example : violations? (.object [("$ref".toList, .string "#".toList)]) .null = none := by decide

/-! ### Documents that make progress -/

/-- Whether a schema hands values on only so many times in a row. -/
def handsOnWithin (root : Json) : Nat → Json → Bool
  | 0, _ => false
  | n + 1, s => (handedOn root s).all (handsOnWithin root n)

theorem progresses_of_handsOnWithin (h : ∀ s ∈ root.nodes, handsOnWithin root n s = true) :
    Progresses root := by
  let enough (n : Nat) (s : Json) : Prop := handsOnWithin root n s = true
  have hzero : ∀ s, ¬ enough 0 s := fun _ => Bool.false_ne_true
  have hstep : ∀ n s t, HandsOn root s t → enough (n + 1) s → enough n t :=
    fun _ _ t hands hs => List.all_eq_true.1 hs t (handsOn_iff_mem.1 hands)
  exact progresses_iff.2 fun s hs hreturn =>
    not_enough_of_return enough hzero hstep hreturn n (h s hs)

theorem progresses_pipeline : Progresses Pipeline.schema :=
  have h : ∀ s ∈ Pipeline.schema.nodes, handsOnWithin Pipeline.schema 3 s = true := by
    decide +kernel
  progresses_of_handsOnWithin h

/-- Where evaluation comes to an end, more steps than `violations?` allows itself change nothing. -/
theorem violations?_settled (h : Terminates root root v) :
    ∃ found, violations? root v = some found ∧
      ∀ n, fuelFor root v ≤ n → check root n root v [] = some found := by
  obtain ⟨found, hfound, -⟩ := exists_violations? h
  refine ⟨found, hfound, fun n hn => ?_⟩
  exact finds_iff_check.1 ((finds_iff_check.2 hfound).mono hn)

/-- **A document that makes progress settles every value**, however deep it is, even if the document
leads back to itself through the fields and elements of values: the violations are found, and more
steps would find no others. The schema of pipeline configurations makes progress, so its violations
are found in every value. -/
theorem progressing_schema_settles :
    (∀ root, Progresses root → ∀ v, ∃ found, violations? root v = some found ∧
      ∀ n, fuelFor root v ≤ n → check root n root v [] = some found) ∧
    Progresses Pipeline.schema ∧
    ∀ v, ∃ found, violations? Pipeline.schema v = some found ∧
      ∀ n, fuelFor Pipeline.schema v ≤ n →
        check Pipeline.schema n Pipeline.schema v [] = some found :=
  ⟨fun root h v => violations?_settled (h.terminates (Json.self_mem_nodes root) v),
    progresses_pipeline,
    fun v => violations?_settled (progresses_pipeline.terminates (Json.self_mem_nodes _) v)⟩

/-- A tree is a number, or has trees below it: in its elements, or in the field `left`. -/
theorem progressing_schema_settles_trees :
    let tree : Json := .object [("oneOf".toList, .array
      [.object [("type".toList, .string "number".toList)],
       .object [("$ref".toList, .string "#/definitions/node".toList)],
       .object [("items".toList, .object [("$ref".toList, .string "#".toList)]),
                ("type".toList, .string "array".toList)]]),
      ("definitions".toList, .object [("node".toList, .object
        [("properties".toList, .object [("left".toList,
          .object [("$ref".toList, .string "#".toList)])]),
         ("type".toList, .string "object".toList)])])]
    Progresses tree ∧ ∀ v, ∃ found, violations? tree v = some found := by
  intro tree
  have hnodes : ∀ s ∈ tree.nodes, handsOnWithin tree 4 s = true := by decide +kernel
  have htree : Progresses tree := progresses_of_handsOnWithin hnodes
  refine ⟨htree, fun v => ?_⟩
  obtain ⟨found, hfound, -⟩ := progressing_schema_settles.1 tree htree v
  exact ⟨found, hfound⟩

end Schema

end DocSite
