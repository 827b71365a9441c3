import DocSite.Pipeline.Configuration
import DocSite.Proofs.Json.Values
import DocSite.Proofs.Schema.Acceptance
import Mathlib.Data.Set.List

/-!
# The shape of pipeline configurations

Two descriptions of the same format stand side by side: the schema, which is evaluated as any other,
and the reader of configurations, which takes a null and an array where the schema does not. They
agree on what the schema accepts.

* `Pipeline.WellShaped` : the shape of a configuration.
* `Pipeline.accepts_schema_iff` : the schema accepts the values of that shape, and no others.
* `Pipeline.Describes` : what a value says of a configuration.
* `Pipeline.ofJson?_of_wellShaped` : a value of that shape is read, as it says.
* `Pipeline.schema_agrees_with_reader` : the two together, for every value and every text.
-/

namespace DocSite

namespace Pipeline

open Schema

variable {root v t : Json} {accepts : Json → Json → Prop} {name : Text}

/-! ### Shapes -/

/-- A text. -/
def IsText (v : Json) : Prop := ∃ s, v = .string s

/-- An array of values with a property. -/
def IsArrayOf (p : Json → Prop) (v : Json) : Prop :=
  ∃ items, v = .array items ∧ ∀ item ∈ items, p item

/-- A text or an array of texts. -/
def IsIdList (v : Json) : Prop := IsText v ∨ IsArrayOf IsText v

/-- An object that lists ids in the fields for them, if it has these fields. -/
def IsFilter (v : Json) : Prop :=
  ∃ fields : Table Json, v = .object fields ∧
    ∀ name ∈ ["include".toList, "exclude".toList], ∀ part,
      fields.find? name = some part → IsIdList part

/-- The names of the kinds of extensions. -/
def kindNames : List Text :=
  ["analyzers".toList, "filters".toList, "transforms".toList, "reporters".toList,
    "matchers".toList]

/-- An object with transform blocks and with filters for the kinds of extensions, as far as it has
fields for them. -/
def WellShaped (v : Json) : Prop :=
  ∃ fields : Table Json, v = .object fields ∧
    (∀ part, fields.find? "transformBlocks".toList = some part →
      IsArrayOf (IsArrayOf IsText) part) ∧
    ∀ name ∈ kindNames, ∀ part, fields.find? name = some part → IsFilter part

/-! ### What the schema accepts -/

theorem demands_object (type? alternatives? properties? items? : Option Json)
    {keywords : Table Json} (href : keywords.find? "$ref".toList = none)
    (htype : keywords.find? "type".toList = type?)
    (halternatives : keywords.find? "oneOf".toList = alternatives?)
    (hproperties : keywords.find? "properties".toList = properties?)
    (hitems : keywords.find? "items".toList = items?) :
    Demands root accepts (.object keywords) v ↔
      (∀ expected, type? = some expected → MatchesType expected v) ∧
      (∀ schemas, alternatives? = some (.array schemas) → ExactlyOne (accepts · v) schemas) ∧
      (∀ schemas fields : Table Json, properties? = some (.object schemas) →
        v = .object fields → ∀ name t part, (name, t) ∈ schemas →
          fields.find? name = some part → accepts t part) ∧
      ∀ t items, items? = some t → v = .array items → ∀ part ∈ items, accepts t part := by
  subst htype halternatives hproperties hitems
  unfold Demands
  simp only [Json.fields?]
  rw [href]
  rfl

theorem accepts_ofType : Accepts root (ofType name) v ↔ OfType name v := by
  have hends : endsWithin root 1 (ofType name) = true := rfl
  rw [accepts_iff_demands (terminates_of_endsWithin hends), ofType,
    demands_object (some (.string name)) none none none rfl rfl rfl rfl rfl]
  simp only [Option.some.injEq, forall_eq', reduceCtorEq, false_implies, implies_true, and_true,
    MatchesType]

theorem accepts_arrayOf (h : Terminates root (arrayOf t) v) :
    Accepts root (arrayOf t) v ↔ IsArrayOf (Accepts root t) v := by
  rw [accepts_iff_demands h, arrayOf,
    demands_object (some (.string "array".toList)) none none (some t) rfl rfl rfl rfl rfl]
  simp only [Option.some.injEq, forall_eq', reduceCtorEq, false_implies, implies_true, true_and,
    MatchesType, ofType_array_iff]
  constructor
  · rintro ⟨⟨items, rfl⟩, hitems⟩
    exact ⟨items, rfl, hitems t items rfl rfl⟩
  · rintro ⟨items, rfl, hitems⟩
    refine ⟨⟨items, rfl⟩, ?_⟩
    rintro _ _ rfl heq
    cases heq
    exact hitems

theorem accepts_reference {reference : Text} {keywords : Table Json} {target : Json}
    (href : keywords.find? "$ref".toList = some (.string reference))
    (htarget : resolve? root reference = some target)
    (h : Terminates root (.object keywords) v) :
    Accepts root (.object keywords) v ↔ Accepts root target v := by
  rw [accepts_iff_demands h]
  unfold Demands
  simp only [Json.fields?]
  rw [href]
  simp only [Option.bind_some, Json.text?]
  obtain ⟨pointer, rfl, hpointer⟩ := resolve?_eq_some_iff.1 htarget
  constructor
  · rintro ⟨pointer', target', heq, hpointer', haccepts⟩
    cases heq
    rw [hpointer] at hpointer'
    cases hpointer'
    exact haccepts
  · exact fun haccepts => ⟨pointer, target, rfl, hpointer, haccepts⟩

theorem accepts_properties (schemas : Table Json) {keywords : Table Json}
    (href : keywords.find? "$ref".toList = none)
    (htype : keywords.find? "type".toList = some (.string "object".toList))
    (halternatives : keywords.find? "oneOf".toList = none)
    (hproperties : keywords.find? "properties".toList = some (.object schemas))
    (hitems : keywords.find? "items".toList = none) (h : Terminates root (.object keywords) v) :
    Accepts root (.object keywords) v ↔ ∃ fields : Table Json, v = .object fields ∧
      ∀ row ∈ schemas, ∀ part, fields.find? row.1 = some part → Accepts root row.2 part := by
  rw [accepts_iff_demands h, demands_object _ _ _ _ href htype halternatives hproperties hitems]
  simp only [Option.some.injEq, Json.object.injEq, forall_eq', reduceCtorEq, false_implies,
    implies_true, true_and, and_true, MatchesType, ofType_object_iff]
  constructor
  · rintro ⟨⟨fields, rfl⟩, hparts⟩
    exact ⟨fields, rfl, fun row hrow part hpart =>
      hparts schemas fields rfl rfl row.1 row.2 part hrow hpart⟩
  · rintro ⟨fields, rfl, hparts⟩
    refine ⟨⟨fields, rfl⟩, ?_⟩
    rintro _ fields' rfl heq name t part hrow hpart
    cases heq
    exact hparts (name, t) hrow part hpart

theorem accepts_text : Accepts root (ofType "string".toList) v ↔ IsText v :=
  accepts_ofType.trans ofType_string_iff

theorem accepts_texts :
    Accepts schema (arrayOf (ofType "string".toList)) v ↔ IsArrayOf IsText v := by
  have hends : endsWithin schema 2 (arrayOf (ofType "string".toList)) = true := rfl
  rw [accepts_arrayOf (terminates_of_endsWithin hends)]
  simp only [IsArrayOf, accepts_text]

theorem accepts_blocks : Accepts schema (arrayOf (arrayOf (ofType "string".toList))) v ↔
    IsArrayOf (IsArrayOf IsText) v := by
  have hends : endsWithin schema 3 (arrayOf (arrayOf (ofType "string".toList))) = true := rfl
  rw [accepts_arrayOf (terminates_of_endsWithin hends)]
  simp only [IsArrayOf, accepts_texts]

theorem not_isText_of_isArrayOf {p : Json → Prop} (h : IsArrayOf p v) : ¬ IsText v := by
  obtain ⟨items, rfl, -⟩ := h
  rintro ⟨s, hs⟩
  cases hs

theorem exactlyOne_pair {α : Type} {p : α → Prop} {x y : α} (h : ¬ (p x ∧ p y)) :
    ExactlyOne p [x, y] ↔ p x ∨ p y := by
  constructor
  · rintro ⟨before, z, after, heq, hz, -⟩
    have hmem : z ∈ [x, y] := by rw [heq]; simp
    rcases List.mem_pair.1 hmem with rfl | rfl
    · exact .inl hz
    · exact .inr hz
  · rintro (hx | hy)
    · exact ⟨[], x, [y], rfl, hx, by simpa using fun hy => h ⟨hx, hy⟩⟩
    · exact ⟨[x], y, [], rfl, hy, by simpa using fun hx => h ⟨hx, hy⟩⟩

theorem accepts_idListSchema : Accepts schema idListSchema v ↔ IsIdList v := by
  have hends : endsWithin schema 3 idListSchema = true := rfl
  rw [accepts_iff_demands (terminates_of_endsWithin hends), idListSchema,
    demands_object none (some (.array _)) none none rfl rfl rfl rfl rfl]
  simp only [Option.some.injEq, Json.array.injEq, forall_eq', reduceCtorEq, false_implies,
    implies_true, true_and, and_true]
  rw [exactlyOne_pair, accepts_texts, accepts_text, or_comm, IsIdList]
  rw [accepts_texts, accepts_text]
  exact fun h => not_isText_of_isArrayOf h.1 h.2

theorem accepts_idList : Accepts schema (definition "idList".toList) v ↔ IsIdList v := by
  have hends : endsWithin schema 4 (definition "idList".toList) = true := rfl
  rw [← accepts_idListSchema]
  exact accepts_reference rfl rfl (terminates_of_endsWithin hends)

theorem accepts_extensionSchema : Accepts schema extensionSchema v ↔ IsFilter v := by
  have hends : endsWithin schema 5 extensionSchema = true := rfl
  rw [extensionSchema, accepts_properties _ rfl rfl rfl rfl rfl (terminates_of_endsWithin hends)]
  refine exists_congr fun fields => and_congr_right fun _ => ?_
  simp only [List.forall_mem_cons, accepts_idList]
  constructor
  · rintro ⟨hexclude, hinclude, -⟩
    exact ⟨hinclude, hexclude, List.forall_mem_nil _⟩
  · rintro ⟨hinclude, hexclude, -⟩
    exact ⟨hexclude, hinclude, List.forall_mem_nil _⟩

theorem accepts_extensionType :
    Accepts schema (definition "extensionType".toList) v ↔ IsFilter v := by
  have hends : endsWithin schema 6 (definition "extensionType".toList) = true := rfl
  rw [← accepts_extensionSchema]
  exact accepts_reference rfl rfl (terminates_of_endsWithin hends)

theorem terminates_schema (v : Json) : Terminates schema schema v :=
  have hends : endsWithin schema 7 schema = true := rfl
  terminates_of_endsWithin hends

/-- **What the schema accepts.** -/
theorem accepts_schema_iff : Accepts schema schema v ↔ WellShaped v := by
  have hproperties := accepts_properties _ rfl rfl rfl rfl rfl (terminates_schema v)
  refine hproperties.trans (exists_congr fun fields => and_congr_right fun _ => ?_)
  simp only [List.forall_mem_cons, kindNames, accepts_extensionType, accepts_blocks]
  constructor
  · rintro ⟨hanalyzers, hfilters, hmatchers, hreporters, hblocks, htransforms, -⟩
    exact ⟨hblocks, hanalyzers, hfilters, htransforms, hreporters, hmatchers, List.forall_mem_nil _⟩
  · rintro ⟨hblocks, hanalyzers, hfilters, htransforms, hreporters, hmatchers, -⟩
    exact ⟨hanalyzers, hfilters, hmatchers, hreporters, hblocks, htransforms, List.forall_mem_nil _⟩

theorem violations?_schema (v : Json) : violations? schema v = some (violations v) := by
  obtain ⟨found, hfound, -⟩ := exists_violations? (terminates_schema v)
  rw [violations, hfound]
  rfl

theorem violations_eq_nil_iff : violations v = [] ↔ WellShaped v := by
  obtain ⟨found, hfound, n, hfinds⟩ := exists_violations? (terminates_schema v)
  have hviolations : violations v = found := by rw [violations, hfound]; rfl
  rw [hviolations, ← accepts_schema_iff, accepts_iff hfinds]

/-! ### What is read -/

/-- The ids that a field lists: none if it is missing, one, or those of an array. -/
inductive ListsIds : Option Json → List Text → Prop
  | missing : ListsIds none []
  | one (id : Text) : ListsIds (some (.string id)) [id]
  | many (ids : List Text) : ListsIds (some (.array (ids.map .string))) ids

/-- The transform blocks that a field lists: none if it is missing, or those of an array. -/
inductive ListsBlocks : Option Json → List (List Text) → Prop
  | missing : ListsBlocks none []
  | given (blocks : List (List Text)) :
    ListsBlocks (some (.array (blocks.map fun ids => .array (ids.map .string)))) blocks

/-- The kinds of extensions with their filters. -/
def Configuration.kinds (c : Configuration) : List (Text × Filter) :=
  [("analyzers".toList, c.analyzers), ("filters".toList, c.filters),
    ("transforms".toList, c.transforms), ("reporters".toList, c.reporters),
    ("matchers".toList, c.matchers)]

/-- The ids that a filter includes and excludes are those that a field lists. -/
def DescribesFilter (field : Option Json) (f : Filter) : Prop :=
  ListsIds (field.bind (·.field? "include".toList)) f.includes ∧
    ListsIds (field.bind (·.field? "exclude".toList)) f.excludes

/-- The transform blocks and the filters of a configuration are those that a value lists. -/
def Describes (v : Json) (c : Configuration) : Prop :=
  ListsBlocks (v.field? "transformBlocks".toList) c.transformBlocks ∧
    ∀ kind ∈ c.kinds, DescribesFilter (v.field? kind.1) kind.2

theorem exists_map_eq {α : Type} {f : α → Json} {items : List Json}
    (h : ∀ item ∈ items, ∃ a, item = f a) : ∃ as : List α, items = as.map f := by
  have hrange : items ∈ Set.range (List.map f) := by
    rw [Set.range_list_map]
    exact fun item hitem => (h item hitem).imp fun _ => Eq.symm
  exact hrange.imp fun _ => Eq.symm

theorem exists_texts (h : IsArrayOf IsText v) :
    ∃ ids : List Text, v = .array (ids.map .string) := by
  obtain ⟨items, rfl, hitems⟩ := h
  obtain ⟨ids, rfl⟩ := exists_map_eq hitems
  exact ⟨ids, rfl⟩

theorem texts?_map_string (ids : List Text) : (ids.map Json.string).mapM Json.text? = some ids :=
  mapM_map_of_forall (f := Json.text?) (fun _ => rfl) ids

theorem block?_map_string (ids : List Text) :
    Configuration.block? (.array (ids.map .string)) = some ids :=
  texts?_map_string ids

theorem exists_ids {field : Option Json} (h : ∀ part, field = some part → IsIdList part) :
    ∃ ids?, Filter.optionalIds? field = some ids? ∧ ListsIds field (ids?.getD []) := by
  cases field with
  | none => exact ⟨none, rfl, .missing⟩
  | some part =>
    rcases h part rfl with ⟨id, rfl⟩ | htexts
    · exact ⟨some [id], rfl, .one id⟩
    · obtain ⟨ids, rfl⟩ := exists_texts htexts
      refine ⟨some ids, ?_, .many ids⟩
      change (Filter.ids? (.array (ids.map .string))).map some = _
      rw [Filter.ids?, texts?_map_string]
      rfl

theorem exists_blocks {field : Option Json}
    (h : ∀ part, field = some part → IsArrayOf (IsArrayOf IsText) part) :
    ∃ blocks, Configuration.blocks? field = some blocks ∧ ListsBlocks field blocks := by
  cases field with
  | none => exact ⟨[], rfl, .missing⟩
  | some part =>
    obtain ⟨items, rfl, hitems⟩ := h part rfl
    obtain ⟨blocks, rfl⟩ := exists_map_eq fun item hitem => exists_texts (hitems item hitem)
    exact ⟨blocks, mapM_map_of_forall block?_map_string blocks, .given blocks⟩

theorem exists_filter {field : Option Json} (h : ∀ part, field = some part → IsFilter part) :
    ∃ f, Filter.ofField? field = some f ∧ DescribesFilter field f := by
  cases field with
  | none => exact ⟨{}, rfl, .missing, .missing⟩
  | some part =>
    obtain ⟨fields, rfl, hfields⟩ := h part rfl
    obtain ⟨include?, hinclude, hincludes⟩ := exists_ids (hfields _ List.mem_cons_self)
    obtain ⟨exclude?, hexclude, hexcludes⟩ :=
      exists_ids (hfields _ (List.mem_cons_of_mem _ List.mem_cons_self))
    refine ⟨⟨include?, exclude?⟩, ?_, hincludes, hexcludes⟩
    simp only [Filter.ofField?, Filter.ofJson?, recordFields?, hinclude, hexclude,
      Option.bind_eq_bind, Option.bind_some]

/-- **A value of the shape is read, as it says.** -/
theorem ofJson?_of_wellShaped (h : WellShaped v) :
    ∃ c, Configuration.ofJson? v = some c ∧ Describes v c := by
  obtain ⟨fields, rfl, hblocks, hkinds⟩ := h
  obtain ⟨blocks, htransformBlocks, hlists⟩ := exists_blocks hblocks
  have hfilter (name : Text) (hname : name ∈ kindNames) :
      ∃ f, Filter.ofField? (fields.find? name) = some f ∧ DescribesFilter (fields.find? name) f :=
    exists_filter (hkinds name hname)
  obtain ⟨analyzers, hanalyzers, hisAnalyzers⟩ := hfilter "analyzers".toList (by decide)
  obtain ⟨filters, hfilters, hisFilters⟩ := hfilter "filters".toList (by decide)
  obtain ⟨transforms, htransforms, hisTransforms⟩ := hfilter "transforms".toList (by decide)
  obtain ⟨reporters, hreporters, hisReporters⟩ := hfilter "reporters".toList (by decide)
  obtain ⟨matchers, hmatchers, hisMatchers⟩ := hfilter "matchers".toList (by decide)
  refine ⟨⟨blocks, analyzers, filters, transforms, reporters, matchers⟩, ?_, hlists, ?_⟩
  · simp only [Configuration.ofJson?, recordFields?, htransformBlocks, hanalyzers, hfilters,
      htransforms, hreporters, hmatchers, Option.bind_eq_bind, Option.bind_some]
  · simp only [Configuration.kinds, List.forall_mem_cons]
    exact ⟨hisAnalyzers, hisFilters, hisTransforms, hisReporters, hisMatchers,
      List.forall_mem_nil _⟩

theorem ofValue_of_wellShaped (h : WellShaped v) :
    ∃ c, Configuration.ofValue v = .ok c ∧ Describes v c := by
  obtain ⟨c, hc, hdescribes⟩ := ofJson?_of_wellShaped h
  refine ⟨c, ?_, hdescribes⟩
  rw [Configuration.ofValue, violations_eq_nil_iff.2 h]
  simp only [hc]

theorem ofValue_of_not_wellShaped (h : ¬ WellShaped v) :
    Configuration.ofValue v = .error (.invalid (violations v)) := by
  unfold Configuration.ofValue
  split
  · rename_i hnil
    exact absurd (violations_eq_nil_iff.1 hnil) h
  · rfl

theorem describes_of_ofValue {c : Configuration} (h : Configuration.ofValue v = .ok c) :
    Describes v c := by
  by_cases hshape : WellShaped v
  · obtain ⟨c', hc', hdescribes⟩ := ofValue_of_wellShaped hshape
    obtain rfl := Except.ok.inj (h.symm.trans hc')
    exact hdescribes
  · rw [ofValue_of_not_wellShaped hshape] at h
    cases h

/-- **A value is never refused as not being JSON.** -/
theorem ofValue_ne_notJson (v : Json) : Configuration.ofValue v ≠ .error .notJson := by
  by_cases h : WellShaped v
  · obtain ⟨c, hc, -⟩ := ofValue_of_wellShaped h
    rw [hc]
    exact fun heq => nomatch heq
  · rw [ofValue_of_not_wellShaped h]
    exact fun heq => nomatch heq

theorem read_eq_notJson_iff {s : Text} :
    Configuration.read s = .error .notJson ↔ Json.read? s = none := by
  unfold Configuration.read
  cases Json.read? s with
  | none => exact iff_of_true rfl rfl
  | some v => exact iff_of_false (ofValue_ne_notJson v) (fun heq => nomatch heq)

theorem read_printed {v : Json} (h : v.Canonical) (hdepth : v.depth ≤ 127) {s : Text}
    (hs : s ∈ [v.compact, v.pretty]) : Configuration.read s = Configuration.ofValue v := by
  rw [Configuration.read, Json.read?_printed h hdepth hs]

/-- **The schema and the reader agree.** The violations of a value are always found, and there are
none exactly if the value has the shape of a configuration. Then it is read, and what is read is
what the value says. A text is refused as not being JSON only if it is not, and the text of a value
is read as that value is. -/
theorem schema_agrees_with_reader :
    (∀ v, violations? schema v = some (violations v) ∧ (violations v = [] ↔ WellShaped v) ∧
      (WellShaped v → ∃ c, Configuration.ofValue v = .ok c ∧ Describes v c)) ∧
      (∀ s, Configuration.read s = .error .notJson ↔ Json.read? s = none) ∧
      ∀ v : Json, v.Canonical → v.depth ≤ 127 → ∀ s ∈ [v.compact, v.pretty],
        Configuration.read s = Configuration.ofValue v :=
  ⟨fun v => ⟨violations?_schema v, violations_eq_nil_iff, ofValue_of_wellShaped⟩,
    fun _ => read_eq_notJson_iff, fun _ h hdepth _ hs => read_printed h hdepth hs⟩

/-- One id for a list, a list, an empty block and an unknown field. -/
theorem schema_agrees_with_reader_mixed :
    let v : Json := .object
      [("analyzers".toList, .object [("exclude".toList, .array [.string "b".toList]),
        ("include".toList, .string "a".toList)]),
       ("remark".toList, .null),
       ("transformBlocks".toList, .array [.array [.string "x".toList], .array []])]
    WellShaped v ∧ (∃ c, Configuration.ofValue v = .ok c ∧ Describes v c) ∧
      v.Canonical ∧ v.depth ≤ 127 ∧ Configuration.read v.pretty = Configuration.ofValue v := by
  intro v
  obtain ⟨hvalues, -, hprinted⟩ := schema_agrees_with_reader
  obtain ⟨-, hshape, hreads⟩ := hvalues v
  have h : WellShaped v := hshape.1 (by decide +kernel)
  have htext (s : Text) : (Json.array [.string s]).Canonical :=
    .array (List.forall_mem_singleton.2 (.string s))
  have hcanonical : v.Canonical := by
    refine .object (by unfold Table.Ascending; decide) ?_
    simp only [List.forall_mem_cons, List.not_mem_nil, false_imp_iff, implies_true, and_true]
    refine ⟨.object (by unfold Table.Ascending; decide) ?_, .null, .array ?_⟩
    · exact List.forall_mem_cons.2 ⟨htext _, List.forall_mem_singleton.2 (.string _)⟩
    · exact List.forall_mem_cons.2
        ⟨htext _, List.forall_mem_singleton.2 (.array (List.forall_mem_nil _))⟩
  exact ⟨h, hreads h, hcanonical, by decide, hprinted v hcanonical (by decide) _ (by simp)⟩

end Pipeline

end DocSite
