import DocSite.Proofs.News.Ordering

/-!
# Summaries of files

A file has a summary exactly if its date attribute names an instant (`Summary.HasDate`). So a list
of files has summaries exactly if every file has a date; and since the dates are looked at one file
after the other, before anything is sorted, a list without summaries has the failure of the first
file without a date, whatever is wrong with the files after it.

* `Source.IsCalled` : what messages call a file.
* `Summary.Describes`, `Summary.Refuses` : the summary of a file, and why a file has none, said
  without the function that makes it.
* `Summary.list_sorts_or_fails_first` : the summaries of files are sorted, or the first failure is
  theirs.
-/

namespace DocSite

/-- Messages call a file by its path on disk, or else by its location written out. -/
inductive Source.IsCalled (s : Source) : (name : Text) → Prop
  | path {p : Text} (h : s.path? = some p) : IsCalled s p
  | id (h : s.path? = none) : IsCalled s s.id

theorem Source.isCalled_displayPath (s : Source) : s.IsCalled s.displayPath := by
  unfold displayPath
  cases h : s.path? with
  | none => exact .id h
  | some p => exact .path h

namespace Summary

/-- The date attribute of a file holds `value`, and that is not empty. -/
def DateValue (e : Entry) (value : Text) : Prop :=
  (Article.read e.contents).attributes.find? "page-publish_date".toList = some value ∧ value ≠ []

/-- The date attribute of a file names an instant. -/
def HasDate (e : Entry) (date : Instant) : Prop :=
  ∃ value, DateValue e value ∧ Instant.read? value = some date

/-- `s` is what a listing on a page at `context` shows of a file. -/
structure Describes (context : Location) (e : Entry) (s : Summary) : Prop where
  date : HasDate e s.date
  title : s.title = (Article.read e.contents).title?.getD []
  text : s.text = ['\n'].intercalate (Article.read e.contents).firstBlock
  xref : s.xref = e.location.xrefFrom context

/-- Why a file has no summary: its date attribute is missing or empty, or it names no instant. -/
inductive Refuses (e : Entry) : (error : NewsError) → Prop
  | missing {name : Text} (hname : e.source.IsCalled name) (h : ∀ value, ¬ DateValue e value) :
      Refuses e (.missingDate name)
  | invalid {name value : Text} (hname : e.source.IsCalled name) (hvalue : DateValue e value)
      (h : Instant.read? value = none) : Refuses e (.invalidDate name value)

variable {e : Entry} {context : Location} {s : Summary} {error : NewsError}

theorem DateValue.unique {value value' : Text} (h : DateValue e value) (h' : DateValue e value') :
    value = value' :=
  Option.some.inj (h.1.symm.trans h'.1)

/-! ### One file -/

theorem ofEntry_describes_or_refuses (e : Entry) (context : Location) :
    (∃ s, ofEntry e context = .ok s ∧ Describes context e s) ∨
      ∃ error, ofEntry e context = .error error ∧ Refuses e error := by
  unfold ofEntry
  dsimp only
  cases hvalue : ((Article.read e.contents).attributes.find? dateAttribute).filter (· ≠ []) with
  | none =>
    refine .inr ⟨_, rfl, .missing e.source.isCalled_displayPath fun value h => ?_⟩
    simpa [h.2] using Option.filter_eq_none_iff.1 hvalue value h.1
  | some value =>
    obtain ⟨hfind, hne⟩ := Option.filter_eq_some_iff.1 hvalue
    have hdate : DateValue e value := ⟨hfind, of_decide_eq_true hne⟩
    dsimp only
    cases hread : Instant.read? value with
    | none => exact .inr ⟨_, rfl, .invalid e.source.isCalled_displayPath hdate hread⟩
    | some date => exact .inl ⟨_, rfl, ⟨value, hdate, hread⟩, rfl, rfl, rfl⟩

theorem Refuses.not_hasDate (h : Refuses e error) {date : Instant} : ¬ HasDate e date := by
  rintro ⟨value, hvalue, hread⟩
  cases h with
  | missing _ hnone => exact hnone value hvalue
  | invalid _ hvalue' hnone =>
    rw [hvalue'.unique hvalue, hread] at hnone
    cases hnone

theorem describes_of_ofEntry (h : ofEntry e context = .ok s) : Describes context e s := by
  rcases ofEntry_describes_or_refuses e context with ⟨s', hs', hdescribes⟩ | ⟨error, herror, -⟩
  · rw [hs'] at h
    exact Except.ok.inj h ▸ hdescribes
  · rw [herror] at h
    cases h

theorem refuses_of_ofEntry (h : ofEntry e context = .error error) : Refuses e error := by
  rcases ofEntry_describes_or_refuses e context with ⟨s, hs, -⟩ | ⟨error', herror, hrefuses⟩
  · rw [hs] at h
    cases h
  · rw [herror] at h
    exact Except.error.inj h ▸ hrefuses

theorem exists_ofEntry_iff : (∃ s, ofEntry e context = .ok s) ↔ ∃ date, HasDate e date := by
  constructor
  · rintro ⟨s, hs⟩
    exact ⟨s.date, (describes_of_ofEntry hs).date⟩
  · rintro ⟨date, hdate⟩
    rcases ofEntry_describes_or_refuses e context with ⟨s, hs, -⟩ | ⟨error, -, hrefuses⟩
    · exact ⟨s, hs⟩
    · exact absurd hdate hrefuses.not_hasDate

theorem Refuses.names (h : Refuses e error) :
    (∃ name, e.source.IsCalled name ∧ name <:+: error.message) ∧
      ∀ value, DateValue e value → value <:+: error.message := by
  cases h with
  | @missing name hname hnone =>
    exact ⟨⟨name, hname, (List.suffix_append _ _).isInfix⟩,
      fun value hvalue => absurd hvalue (hnone value)⟩
  | @invalid name value hname hvalue hnone =>
    refine ⟨⟨name, hname, (List.suffix_append _ _).isInfix⟩, fun value' hvalue' => ?_⟩
    rw [hvalue'.unique hvalue]
    exact ⟨_, _, List.append_assoc _ _ _ |>.symm⟩

/-! ### A list of files -/

/-- Every file has a date, and there are summaries; or the first file without one is the failure. -/
theorem list_ok_or_first_error (files : List Entry) (context : Location) :
    ((∃ summaries, list files context = .ok summaries) ∧ ∀ e ∈ files, ∃ date, HasDate e date) ∨
      ∃ before e after error, files = before ++ e :: after ∧
        (∀ f ∈ before, ∃ date, HasDate f date) ∧ Refuses e error ∧
        list files context = .error error := by
  rcases mapM_ok_or_first_error (fun e => ofEntry e context) files with
    ⟨pairs, rfl, hok, hpairs⟩ | ⟨before, e, after, error, hfiles, hbefore, he, herror⟩
  · refine .inl ⟨⟨_, by rw [list, hok]; rfl⟩, fun e he => ?_⟩
    obtain ⟨p, hp, rfl⟩ := List.mem_map.1 he
    exact exists_ofEntry_iff.1 ⟨p.2, hpairs p hp⟩
  · refine .inr ⟨before, e, after, error, hfiles, fun f hf => exists_ofEntry_iff.1 (hbefore f hf),
      refuses_of_ofEntry he, by rw [list, herror]; rfl⟩

/-- **A list of files has sorted summaries, or the failure of the first file without a date.** There
are summaries exactly if every file has a date. They are then those of the files, the newest first
and files of one date in the order in which they come, so that no summary after a limit is newer
than one before it. Otherwise the failure is that of the first file without a date: it names the
file, and what the date attribute of the file says. -/
theorem list_sorts_or_fails_first (files : List Entry) (context : Location) :
    ((∃ summaries, list files context = .ok summaries) ↔
        ∀ e ∈ files, ∃ date, HasDate e date) ∧
      (∀ summaries, list files context = .ok summaries →
        ∃ all sorted : List (Entry × Summary), all.map Prod.fst = files ∧
          (∀ a ∈ all, Describes context a.1 a.2) ∧ NewestFirst dateOf all sorted ∧
          summaries = sorted.map Prod.snd ∧
          ∀ n, ∀ shown ∈ summaries.take n, ∀ left ∈ summaries.drop n,
            shown.date.notBefore left.date = true) ∧
      ∀ error, list files context = .error error →
        ∃ before e after, files = before ++ e :: after ∧
          (∀ f ∈ before, ∃ date, HasDate f date) ∧ Refuses e error ∧
          (∃ name, e.source.IsCalled name ∧ name <:+: error.message) ∧
          ∀ value, DateValue e value → value <:+: error.message := by
  refine ⟨⟨?_, ?_⟩, ?_, ?_⟩
  · rintro ⟨summaries, hok⟩
    rcases list_ok_or_first_error files context with ⟨-, hall⟩ | ⟨_, _, _, error, -, -, -, herror⟩
    · exact hall
    · rw [hok] at herror
      cases herror
  · intro hall
    rcases list_ok_or_first_error files context with ⟨hok, -⟩ | ⟨_, e, _, _, rfl, -, hrefuses, -⟩
    · exact hok
    · obtain ⟨date, hdate⟩ := hall e (by simp)
      exact absurd hdate hrefuses.not_hasDate
  · intro summaries hok
    obtain ⟨all, sorted, hfst, hall, hsorted, rfl⟩ := exists_of_list hok
    refine ⟨all, sorted, hfst, fun a ha => describes_of_ofEntry (hall a ha), hsorted, rfl, ?_⟩
    intro n shown hshown left hleft
    rw [← List.map_take] at hshown
    rw [← List.map_drop] at hleft
    obtain ⟨a, ha, rfl⟩ := List.mem_map.1 hshown
    obtain ⟨b, hb, rfl⟩ := List.mem_map.1 hleft
    exact hsorted.notBefore_of_take n ha hb
  · intro error herror
    rcases list_ok_or_first_error files context with
      ⟨⟨summaries, hok⟩, -⟩ | ⟨before, e, after, error', hfiles, hbefore, hrefuses, herror'⟩
    · rw [hok] at herror
      cases herror
    · rw [herror] at herror'
      obtain rfl := Except.error.inj herror'
      exact ⟨before, e, after, hfiles, hbefore, hrefuses, hrefuses.names⟩

end Summary

end DocSite
