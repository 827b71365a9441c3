import DocSite.Proofs.Text.Splitting
import DocSite.Site.ComponentField

/-!
# A component field is what the macro asks for

What a macro `component:name@version[field]` asks for is told without looking it up: its list is one
slot with the name of a field, and its target names the first component of that name in the catalog
(`ComponentField.Asks`). Which release of the component is meant depends on the version alone
(`Component.Selects`). The look-ups that the handler goes through find what is asked for, and if any
of them fails, then nothing was asked for, or it is not there.

* `IsFirst` : the first member of a list with a property.
* `Component.select?_eq_some_iff` : the release that is selected is the one that is meant.
* `Component.exists_selects` : the latest and the newest release are there if there is any.
* `ComponentField.show?_of_asks`, `ComponentField.exists_asks` : what is shown was asked for.
* `ComponentField.shows_what_is_asked_for` : the text of a macro is the field that it asks for.
-/

namespace DocSite

/-! ### First members -/

/-- The first member of a list with a property. -/
def IsFirst {α : Type} (p : α → Prop) (x : α) (xs : List α) : Prop :=
  p x ∧ ∃ before after, xs = before ++ x :: after ∧ ∀ y ∈ before, ¬ p y

section First

variable {α : Type} {p : α → Prop} [DecidablePred p] {x : α} {xs : List α}

theorem IsFirst.mem {p : α → Prop} (h : IsFirst p x xs) : x ∈ xs := by
  obtain ⟨-, before, after, rfl, -⟩ := h
  exact List.mem_append_right _ List.mem_cons_self

theorem find?_eq_some_iff_isFirst : xs.find? (fun y => p y) = some x ↔ IsFirst p x xs := by
  simp [List.find?_eq_some_iff_append, IsFirst]

end First

/-! ### Fields -/

namespace ReleaseField

/-- The names of the fields of a release, and the fields. -/
inductive Names : Text → (Release → Text) → Prop
  | version : Names "version".toList Release.version
  | displayVersion : Names "displayVersion".toList Release.displayVersion
  | title : Names "title".toList Release.title

theorem names_iff {name : Text} {get : Release → Text} :
    Names name get ↔ ∃ field, ofName? name = some field ∧ (fun r => field.get r) = get := by
  constructor
  · rintro (_ | _ | _)
    · exact ⟨version, by decide, rfl⟩
    · exact ⟨displayVersion, by decide, rfl⟩
    · exact ⟨title, by decide, rfl⟩
  · rintro ⟨field, hfield, rfl⟩
    unfold ofName? at hfield
    split_ifs at hfield with hversion hdisplay htitle
    · obtain rfl := Option.some.inj hfield
      exact hversion ▸ .version
    · obtain rfl := Option.some.inj hfield
      exact hdisplay ▸ .displayVersion
    · obtain rfl := Option.some.inj hfield
      exact htitle ▸ .title

end ReleaseField

/-! ### Releases -/

namespace Component

variable {k : Component} {version : Text} {version? : Option Text} {r : Release}

/-- The release of a component that a version means, or that a missing version does. -/
inductive Selects (k : Component) : Option Text → Release → Prop
  /-- The first release with the version that is marked as the latest. -/
  | marked {version : Text} {r : Release} (hlatest : k.latest? = some version)
    (hr : IsFirst (fun s => s.version = version) r k.releases) : Selects k none r
  /-- The first release, if no release has the version that is marked, or none is marked. -/
  | unmarked {r : Release} {rest : List Release}
    (hlatest : ∀ s ∈ k.releases, k.latest? ≠ some s.version) (hrs : k.releases = r :: rest) :
    Selects k none r
  /-- The first release, unless it is the development line and another one follows. -/
  | newest {r : Release} {rest : List Release} (hrs : k.releases = r :: rest)
    (hr : r.version = "main".toList → rest = []) : Selects k (some "latest".toList) r
  /-- The release that follows the development line. -/
  | released {line r : Release} {rest : List Release} (hrs : k.releases = line :: r :: rest)
    (hline : line.version = "main".toList) : Selects k (some "latest".toList) r
  /-- The first release with a version. -/
  | exactly {version : Text} {r : Release} (hversion : version ≠ "latest".toList)
    (hr : IsFirst (fun s => s.version = version) r k.releases) : Selects k (some version) r

theorem release?_eq_some_iff :
    k.release? version = some r ↔ IsFirst (fun s => s.version = version) r k.releases :=
  find?_eq_some_iff_isFirst

theorem marked?_eq_none_iff :
    k.latest?.bind k.release? = none ↔ ∀ s ∈ k.releases, k.latest? ≠ some s.version := by
  cases k.latest? with
  | none => exact ⟨fun _ _ _ => nofun, fun _ => rfl⟩
  | some version =>
    rw [Option.bind_some, release?, List.find?_eq_none]
    simp only [decide_eq_true_eq, ne_eq, Option.some.injEq, @eq_comm _ version]

theorem latestRelease?_eq_some_iff : k.latestRelease? = some r ↔ k.Selects none r := by
  rw [latestRelease?, Option.or_eq_some_iff, Option.bind_eq_some_iff, marked?_eq_none_iff]
  constructor
  · rintro (⟨version, hlatest, hr⟩ | ⟨hlatest, hr⟩)
    · exact .marked hlatest (release?_eq_some_iff.1 hr)
    · obtain ⟨rest, hrs⟩ := List.head?_eq_some_iff.1 hr
      exact .unmarked hlatest hrs
  · rintro (⟨hlatest, hr⟩ | ⟨hlatest, hrs⟩)
    · exact .inl ⟨_, hlatest, release?_eq_some_iff.2 hr⟩
    · exact .inr ⟨hlatest, List.head?_eq_some_iff.2 ⟨_, hrs⟩⟩

theorem newestRelease?_eq_some_iff :
    k.newestRelease? = some r ↔ k.Selects (some "latest".toList) r := by
  constructor
  · intro h
    unfold newestRelease? at h
    split at h
    · rename_i first second rest hrs
      split_ifs at h with hline
      · exact .released (hrs.trans (by rw [Option.some.inj h])) hline
      · obtain rfl := Option.some.inj h
        exact .newest hrs fun hmain => absurd hmain hline
    · rename_i hshort
      obtain ⟨rest, hrs⟩ := List.head?_eq_some_iff.1 h
      cases rest with
      | nil => exact .newest hrs fun _ => rfl
      | cons second rest => exact absurd hrs (hshort _ _ _)
  · intro h
    rw [newestRelease?]
    cases h with
    | @newest _ rest hrs hr =>
      rw [hrs]
      cases rest with
      | nil => rfl
      | cons second rest =>
        have hline : r.version ≠ developmentVersion := fun hmain => by cases hr hmain
        simp [hline]
    | released hrs hline => simp [hrs, hline, developmentVersion]
    | exactly hversion _ => exact absurd rfl hversion

/-- **The release that is selected is the one that is meant.** -/
theorem select?_eq_some_iff : k.select? version? = some r ↔ k.Selects version? r := by
  cases version? with
  | none => exact latestRelease?_eq_some_iff
  | some version =>
    rw [select?]
    split_ifs with hlatest
    · rw [hlatest]
      exact newestRelease?_eq_some_iff
    · rw [release?_eq_some_iff]
      constructor
      · exact .exactly hlatest
      · rintro (_ | _ | _ | _ | ⟨-, hr⟩)
        · exact absurd rfl hlatest
        · exact absurd rfl hlatest
        · exact hr

/-- Without a version, and with `latest`, a component with any release has the release that is
meant. -/
theorem exists_selects (hrs : k.releases ≠ [])
    (hversion : version? = none ∨ version? = some "latest".toList) :
    ∃ r, k.Selects version? r := by
  obtain ⟨first, rest, hfirst⟩ := List.exists_cons_of_ne_nil hrs
  rcases hversion with rfl | rfl
  · cases hmarked : k.latest?.bind k.release? with
    | none => exact ⟨first, .unmarked (marked?_eq_none_iff.1 hmarked) hfirst⟩
    | some r =>
      obtain ⟨version, hlatest, hr⟩ := Option.bind_eq_some_iff.1 hmarked
      exact ⟨r, .marked hlatest (release?_eq_some_iff.1 hr)⟩
  · by_cases hline : first.version = "main".toList
    · cases rest with
      | nil => exact ⟨first, .newest hfirst fun _ => rfl⟩
      | cons second rest => exact ⟨second, .released hfirst hline⟩
    · exact ⟨first, .newest hfirst fun hmain => absurd hmain hline⟩

theorem Selects.mem (h : k.Selects version? r) : r ∈ k.releases := by
  cases h with
  | marked _ hr => exact hr.mem
  | unmarked _ hrs => exact hrs ▸ List.mem_cons_self
  | newest hrs _ => exact hrs ▸ List.mem_cons_self
  | released hrs _ => exact hrs ▸ List.mem_cons_of_mem _ List.mem_cons_self
  | exactly _ hr => exact hr.mem

end Component

/-! ### Macros -/

namespace ComponentField

variable {c : Catalog} {call : Call} {get : Release → Text} {k : Component}
  {version? : Option Text} {target name text : Text}

/-- What a target names: a component, and the version after the first `@`, if there is one. -/
inductive Splits : Text → Text → Option Text → Prop
  | plain {name : Text} (h : '@' ∉ name) : Splits name name none
  | versioned {name version : Text} (h : '@' ∉ name) :
    Splits (name ++ '@' :: version) name (some version)

/-- A macro asks for a field of a component in the catalog, in a version or without one. -/
structure Asks (c : Catalog) (call : Call) (get : Release → Text) (k : Component)
    (version? : Option Text) : Prop where
  field : ∃ name, call.attributes = [⟨.slot 1, some name⟩] ∧ ReleaseField.Names name get
  component : ∃ name, Splits call.target name version? ∧
    IsFirst (fun k => k.name = name) k c.components

theorem split_eq_iff : split target = (name, version?) ↔ Splits target name version? := by
  constructor
  · intro h
    unfold split at h
    split at h
    · rename_i before version hcut
      obtain ⟨rfl, rfl⟩ := Prod.mk.inj h
      obtain ⟨rfl, hbefore⟩ := Text.splitFirst?_eq_some_iff.1 hcut
      exact .versioned hbefore
    · rename_i hcut
      obtain ⟨rfl, rfl⟩ := Prod.mk.inj h
      exact .plain (Text.not_mem_of_splitFirst?_eq_none hcut)
  · rintro (h | h)
    · rw [split, Text.splitFirst?_eq_none h]
    · rw [split, Text.splitFirst?_append h]

theorem only?_eq_some_iff {as : Attributes} {value? : Option Text} :
    as.only? = some value? ↔ as = [⟨.slot 1, value?⟩] := by
  constructor
  · intro h
    unfold Attributes.only? at h
    split at h
    · rw [Option.some.inj h]
    · cases h
  · rintro rfl
    rfl

/-- A macro shows the field that it asks for, of the release that is selected. -/
theorem show?_of_asks (h : Asks c call get k version?) :
    show? c call = (k.select? version?).map get := by
  obtain ⟨⟨name, hattributes, hnames⟩, component, hsplit, hfirst⟩ := h
  obtain ⟨field, hfield, rfl⟩ := ReleaseField.names_iff.1 hnames
  have hcomponent : c.component? component = some k := find?_eq_some_iff_isFirst.2 hfirst
  simp only [show?, only?_eq_some_iff.2 hattributes, hfield, split_eq_iff.2 hsplit, hcomponent,
    Option.bind_eq_bind, Option.bind_some]
  rw [Option.map_eq_bind]
  rfl

/-- A macro that shows anything asks for a field of a component. -/
theorem exists_asks (h : show? c call = some text) :
    ∃ get k version?, Asks c call get k version? := by
  simp only [show?, Option.bind_eq_bind, Option.bind_eq_some_iff] at h
  obtain ⟨_, honly, name, rfl, field, hfield, k, hcomponent, -⟩ := h
  exact ⟨_, k, _, ⟨name, only?_eq_some_iff.1 honly, ReleaseField.names_iff.2 ⟨field, hfield, rfl⟩⟩,
    _, split_eq_iff.1 rfl, find?_eq_some_iff_isFirst.1 hcomponent⟩

/-- **The text of a macro is the field that it asks for.** A macro becomes plain text, and the
catalog stays as it is. A text that is not empty is the field that the macro asks for, of a release
of the component that it names. Of a macro that asks for a field, the text is that field of the
release that is meant, and empty if there is no such release. Without a version, and with `latest`,
there is one if the component has any. -/
theorem shows_what_is_asked_for (c : Catalog) (call : Call) :
    ∃ text, (handler.run call).run c = (.text text, c) ∧
      (text ≠ [] → ∃ get k version? r, Asks c call get k version? ∧ r ∈ k.releases ∧
        k.Selects version? r ∧ text = get r) ∧
      ∀ get k version?, Asks c call get k version? →
        (∀ r, k.Selects version? r → text = get r) ∧
        ((∀ r, ¬ k.Selects version? r) → text = []) ∧
        (k.releases ≠ [] → version? = none ∨ version? = some "latest".toList →
          ∃ r, k.Selects version? r) := by
  refine ⟨(show? c call).getD [], rfl, fun hne => ?_, fun get k version? h => ?_⟩
  · cases hshow : show? c call with
    | none => exact absurd (by rw [hshow, Option.getD_none]) hne
    | some text =>
      obtain ⟨get, k, version?, h⟩ := exists_asks hshow
      rw [show?_of_asks h, Option.map_eq_some_iff] at hshow
      obtain ⟨r, hr, htext⟩ := hshow
      have hselects := Component.select?_eq_some_iff.1 hr
      exact ⟨get, k, version?, r, h, hselects.mem, hselects, htext.symm⟩
  · rw [show?_of_asks h]
    refine ⟨fun r hr => ?_, fun hnone => ?_, Component.exists_selects⟩
    · rw [Component.select?_eq_some_iff.2 hr]
      rfl
    · rw [Option.eq_none_iff_forall_ne_some.2 fun r hr =>
        hnone r (Component.select?_eq_some_iff.1 hr)]
      rfl

/-- A product with two releases of one version after the development line. No release has the
version that is marked as the latest. -/
def library : Component where
  name := "lib".toList
  releases := [⟨"main".toList, "Nightly".toList, "Library".toList⟩,
    ⟨"2.0".toList, "Two".toList, "Library".toList⟩,
    ⟨"2.0".toList, "Two again".toList, "Library".toList⟩]
  latest? := some "3.0".toList

/-- The macro without a version shows the development line, the one with `latest` the release after
it. -/
theorem shows_what_is_asked_for_library :
    let c : Catalog := { components := [library] }
    let call (target : Text) : Call :=
      ⟨target, [⟨.slot 1, some "displayVersion".toList⟩], 1, 0, 0⟩
    Asks c (call "lib".toList) Release.displayVersion library none ∧
      (handler.run (call "lib".toList)).run c = (.text "Nightly".toList, c) ∧
      Asks c (call "lib@latest".toList) Release.displayVersion library (some "latest".toList) ∧
      (handler.run (call "lib@latest".toList)).run c = (.text "Two".toList, c) := by
  intro c call
  have hfirst : IsFirst (fun k => k.name = "lib".toList) library c.components :=
    ⟨rfl, [], [], rfl, nofun⟩
  have hplain : Asks c (call "lib".toList) Release.displayVersion library none :=
    ⟨⟨_, rfl, .displayVersion⟩, _, split_eq_iff.1 (by decide), hfirst⟩
  have hlatest :
      Asks c (call "lib@latest".toList) Release.displayVersion library (some "latest".toList) :=
    ⟨⟨_, rfl, .displayVersion⟩, _, split_eq_iff.1 (by decide), hfirst⟩
  obtain ⟨_, hrun, -, hasked⟩ := shows_what_is_asked_for c (call "lib".toList)
  obtain ⟨_, hrun', -, hasked'⟩ := shows_what_is_asked_for c (call "lib@latest".toList)
  obtain rfl := (hasked _ _ _ hplain).1 _ (.unmarked (by decide) rfl)
  obtain rfl := (hasked' _ _ _ hlatest).1 _ (.released rfl rfl)
  exact ⟨hplain, hrun, hlatest, hrun'⟩

end ComponentField

end DocSite
