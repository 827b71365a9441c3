import DocSite.News.Listing
import DocSite.Proofs.Macro.Section
import DocSite.Proofs.Text.Paragraphs
import DocSite.Proofs.Time.Clock

/-!
# The sections of a listing

A listing is markup that is read again. Its sections can be told apart by blank lines alone: each is
a heading, a paragraph with the date and a paragraph with the text of a summary, whatever the lines
of that text look like. All that is asked of a summary is that nothing in it starts a line where
none should start, and that no line of its text is blank (`Summary.InLines`).

* `Listing.paragraphs_entry_append` : one section in front of others.
* `Listing.headingLevel?_heading` : its heading is one level below the section of the listing.
* `Listing.render_keeps_sections_apart` : the paragraphs of a listing.
-/

namespace DocSite

/-! ### The day of an instant -/

theorem Instant.not_mem_dayText {c : Char} (hc : c = '\n' ∨ c = '\r') (i : Instant) :
    c ∉ i.dayText := by
  have hweekday : ∀ name ∈ weekdayNames, c ∉ name := by rcases hc with rfl | rfl <;> decide
  have hmonth : ∀ name ∈ monthNames, c ∉ name := by rcases hc with rfl | rfl <;> decide
  have hdigit : c.isDigit = false := by rcases hc with rfl | rfl <;> rfl
  have hmarks : c ≠ ',' ∧ c ≠ ' ' ∧ c ≠ '-' ∧ c ≠ '+' := by rcases hc with rfl | rfl <;> decide
  obtain ⟨hcomma, hspace, hminus, hplus⟩ := hmarks
  simp only [dayText, List.mem_append, List.mem_cons, not_or]
  exact ⟨⟨⟨not_mem_getD hweekday _, hcomma, hspace, not_mem_padded hdigit⟩, hspace,
    not_mem_getD hmonth _⟩, hspace, not_mem_yearText hdigit hminus hplus _⟩

/-- A summary in lines: its reference and its title stand in one line each, and no line of its text
is blank. -/
structure Summary.InLines (s : Summary) : Prop where
  xref : '\n' ∉ s.xref
  title : '\n' ∉ s.title
  text : ∀ line ∈ s.text.splitOn '\n', Text.isBlank line = false

instance (s : Summary) : Decidable s.InLines :=
  decidable_of_iff
    ('\n' ∉ s.xref ∧ '\n' ∉ s.title ∧ ∀ line ∈ s.text.splitOn '\n', Text.isBlank line = false)
    ⟨fun ⟨hxref, htitle, htext⟩ => ⟨hxref, htitle, htext⟩, fun h => ⟨h.xref, h.title, h.text⟩⟩

namespace Listing

/-- The heading of a section. -/
def heading (level : Nat) (s : Summary) : Text :=
  List.replicate (level + 2) '=' ++ " xref:".toList ++ s.xref ++ '[' :: Bracket.escape s.title ++
    [']']

/-- The paragraphs of a section, where `text` are the lines of the summary. -/
def entryParagraphs (level : Nat) (s : Summary) (text : List Text) : List (List Text) :=
  [[heading level s], ["[.news-date]".toList, s.date.dayText], "[.news-summary]".toList :: text]

variable {level : Nat} {s : Summary}

/-- **A heading is one level below the section of the listing.** -/
theorem headingLevel?_heading (hlevel : level ≤ 4) (s : Summary) :
    headingLevel? (heading level s) = some (level + 1) := by
  refine headingLevel?_eq_some_iff.2
    ⟨"xref:".toList ++ s.xref ++ '[' :: Bracket.escape s.title ++ [']'], ?_, by omega, ?_⟩
  · simp [heading]
  · exact Text.isBlank_eq_false_of_mem (c := 'x') (by decide) (by simp)

theorem newline_not_mem_heading (h : s.InLines) : '\n' ∉ heading level s := by
  have hescape : '\n' ∉ Bracket.escape s.title := by
    intro hmem
    obtain ⟨c, hc, hmem⟩ := List.mem_flatMap.1 hmem
    split at hmem
    · simp at hmem
    · exact h.title (List.mem_singleton.1 hmem ▸ hc)
  simp [heading, h.xref, hescape]

theorem splitOn_entry_append (h : s.InLines) (rest : Text) :
    (entry level s ++ rest).splitOn '\n' =
      [heading level s] ++ [] :: (["[.news-date]".toList, s.date.dayText] ++
        [] :: ("[.news-summary]".toList :: s.text.splitOn '\n' ++ rest.splitOn '\n')) := by
  have hday : '\n' ∉ s.date.dayText := s.date.not_mem_dayText (.inl rfl)
  have hentry : entry level s ++ rest =
      heading level s ++ '\n' :: ([] ++ '\n' :: ("[.news-date]".toList ++ '\n' ::
        (s.date.dayText ++ '\n' :: ([] ++ '\n' :: ("[.news-summary]".toList ++ '\n' ::
          (s.text ++ '\n' :: rest)))))) := by
    simp [entry, heading]
  have hcut {line : Text} (hline : '\n' ∉ line) (rest : Text) :
      (line ++ '\n' :: rest).splitOn '\n' = line :: rest.splitOn '\n' :=
    List.splitOn_append_cons_self_of_not_mem hline rest
  rw [hentry, hcut (newline_not_mem_heading h), hcut List.not_mem_nil, hcut (by decide), hcut hday,
    hcut List.not_mem_nil, hcut (by decide), Text.splitOn_append_newline]
  rfl

/-- **One section in front of others**, with a line feed between them, has three paragraphs. -/
theorem paragraphs_entry_append (h : s.InLines) {rest : Text} {lines : List Text}
    (hrest : rest.splitOn '\n' = [] :: lines) :
    Text.paragraphs ((entry level s ++ rest).splitOn '\n') =
      entryParagraphs level s (s.text.splitOn '\n') ++ Text.paragraphs lines := by
  have hheading : ∀ line ∈ [heading level s], Text.isBlank line = false := by
    simpa using Text.isBlank_eq_false_of_mem (c := '=') (by decide) (by simp [heading])
  have hdate : ∀ line ∈ ["[.news-date]".toList, s.date.dayText], Text.isBlank line = false := by
    have hday : Text.isBlank s.date.dayText = false :=
      Text.isBlank_eq_false_of_mem (c := ',') (by decide) (by simp [Instant.dayText])
    simp only [List.mem_cons, List.not_mem_nil, or_false]
    rintro line (rfl | rfl)
    · rfl
    · exact hday
  have hsummary : ∀ line ∈ "[.news-summary]".toList :: s.text.splitOn '\n',
      Text.isBlank line = false :=
    List.forall_mem_cons.2 ⟨rfl, h.text⟩
  rw [splitOn_entry_append h, hrest, Text.paragraphs_append_blank rfl,
    Text.paragraphs_append_blank rfl, Text.paragraphs_append_blank rfl,
    Text.paragraphs_eq_singleton (List.cons_ne_nil _ _) hheading,
    Text.paragraphs_eq_singleton (List.cons_ne_nil _ _) hdate,
    Text.paragraphs_eq_singleton (List.cons_ne_nil _ _) hsummary]
  rfl

theorem render_cons (level : Nat) (s : Summary) (summaries : List Summary) :
    render level (s :: summaries) =
      entry level s ++ if summaries = [] then [] else '\n' :: render level summaries := by
  cases summaries with
  | nil => simp [render]
  | cons t summaries => simp [render]

theorem paragraphs_render {summaries : List Summary} (h : ∀ s ∈ summaries, s.InLines) :
    Text.paragraphs ((render level summaries).splitOn '\n') =
      summaries.flatMap fun s => entryParagraphs level s (s.text.splitOn '\n') := by
  induction summaries with
  | nil => rfl
  | cons s summaries ih =>
    obtain ⟨hs, hsummaries⟩ := List.forall_mem_cons.1 h
    rw [render_cons, List.flatMap_cons]
    split_ifs with hnil
    · rw [paragraphs_entry_append hs (List.splitOn_nil _), hnil, Text.paragraphs_nil]
      rfl
    · have hcut : ('\n' :: render level summaries).splitOn '\n' =
          [] :: (render level summaries).splitOn '\n' := Text.splitOn_append_newline [] _
      rw [paragraphs_entry_append hs hcut, ih hsummaries]

theorem render_eq_nil_or_concat (level : Nat) (summaries : List Summary) :
    render level summaries = [] ∨ ∃ text, render level summaries = text ++ ['\n'] := by
  induction summaries with
  | nil => exact .inl rfl
  | cons s summaries ih =>
    rw [render_cons]
    split_ifs with hnil
    · exact .inr ⟨_, List.append_nil _⟩
    · rcases ih with hempty | ⟨text, htext⟩
      · exact .inr ⟨_, by rw [hempty]⟩
      · exact .inr ⟨entry level s ++ '\n' :: text, by simp [htext]⟩

/-- Carriage returns at the ends of lines are those of the text of the summary. -/
theorem map_dropReturn_entryParagraphs (level : Nat) (s : Summary) (text : List Text) :
    (entryParagraphs level s text).map (List.map Text.dropReturn) =
      entryParagraphs level s (text.map Text.dropReturn) := by
  have hheading : Text.dropReturn (heading level s) = heading level s :=
    if_neg (by rw [heading, List.getLast?_concat]; decide)
  have hday : Text.dropReturn s.date.dayText = s.date.dayText :=
    if_neg fun hlast => s.date.not_mem_dayText (.inr rfl) (List.mem_of_getLast? hlast)
  simp only [entryParagraphs, List.map_cons, List.map_nil, hheading, hday]
  rfl

/-- **A listing keeps its sections apart.** In a section of level four or less, the paragraphs of a
listing are three for each summary, in their order: a heading, the date, and the lines of the text.
This holds of the pieces between line feeds, and of the lines that a reader sees, which leaves out
carriage returns at their ends. The heading is one level below the section, and holds the reference
and the escaped title. -/
theorem render_keeps_sections_apart {level : Nat} {summaries : List Summary} (hlevel : level ≤ 4)
    (h : ∀ s ∈ summaries, s.InLines) :
    Text.paragraphs ((render level summaries).splitOn '\n') =
        summaries.flatMap (fun s => entryParagraphs level s (s.text.splitOn '\n')) ∧
      Text.paragraphs (render level summaries).lines =
        summaries.flatMap (fun s =>
          entryParagraphs level s ((s.text.splitOn '\n').map Text.dropReturn)) ∧
      ∀ s ∈ summaries, headingLevel? (heading level s) = some (level + 1) ∧
        s.xref <:+: heading level s ∧ Bracket.escape s.title <:+: heading level s := by
  have hpieces : Text.paragraphs ((render level summaries).splitOn '\n') = _ := paragraphs_render h
  refine ⟨hpieces, ?_, fun s _ => ⟨headingLevel?_heading hlevel s, ?_, ?_⟩⟩
  · have hlines : Text.paragraphs (render level summaries).lines =
        (Text.paragraphs ((render level summaries).splitOn '\n')).map
          (List.map Text.dropReturn) := by
      rcases render_eq_nil_or_concat level summaries with hempty | ⟨text, htext⟩
      · rw [hempty]
        rfl
      · rw [htext, Text.paragraphs_lines]
    rw [hlines, hpieces, List.map_flatMap]
    simp only [map_dropReturn_entryParagraphs]
  · exact ⟨List.replicate (level + 2) '=' ++ " xref:".toList,
      '[' :: Bracket.escape s.title ++ [']'], by simp [heading]⟩
  · exact ⟨List.replicate (level + 2) '=' ++ " xref:".toList ++ s.xref ++ ['['], [']'],
      by simp [heading]⟩

/-- Two summaries with brackets in their titles, and lines that look like a heading, a delimiter and
attributes. -/
def sampleSummaries : List Summary :=
  [{ date := ⟨1717200000, 0⟩, title := "Out [beta]".toList, xref := "news/b.adoc".toList
     text := "It is.\n== News\n\t----".toList },
   { date := ⟨0, 0⟩, title := [], xref := "2.0@docs:api:a.adoc".toList
     text := "[.news-date]\r\n.So it is".toList }]

theorem render_keeps_sections_apart_lookalikes :
    4 ≤ 4 ∧ (∀ s ∈ sampleSummaries, s.InLines) ∧
      Text.paragraphs ((render 4 sampleSummaries).splitOn '\n') =
        sampleSummaries.flatMap (fun s => entryParagraphs 4 s (s.text.splitOn '\n')) ∧
      Text.paragraphs (render 4 sampleSummaries).lines =
        sampleSummaries.flatMap (fun s =>
          entryParagraphs 4 s ((s.text.splitOn '\n').map Text.dropReturn)) ∧
      ∀ s ∈ sampleSummaries, headingLevel? (heading 4 s) = some 5 ∧
        s.xref <:+: heading 4 s ∧ Bracket.escape s.title <:+: heading 4 s := by
  have h : ∀ s ∈ sampleSummaries, s.InLines := by decide +kernel
  exact ⟨le_rfl, h, render_keeps_sections_apart le_rfl h⟩

end Listing

end DocSite
