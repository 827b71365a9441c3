import DocSite.News.Article
import DocSite.Proofs.Table
import DocSite.Proofs.Text.Lines
import DocSite.Proofs.Text.Words

/-!
# Reading an article

The header of an article ends at the first blank line after the title, and the rest is the body. Of
a body, only the lines outside comment blocks count: first lines that are passed over, which may set
attributes, then the paragraph, up to a blank line. The order in which the reader asks what kind of
line it sees does not show in this, so what follows about articles needs no cases over the kinds.

* `Article.ofLines_titled`, `Article.ofLines_untitled` : where a body starts.
* `Article.body_eq` : what is read of a body, by its lines outside comment blocks.
* `Article.Draft.read_text_append` : an article that is written with a title, attributes and a
  paragraph is read as it was written, whatever follows the paragraph.
-/

namespace DocSite

namespace Article

/-! ### Bodies -/

section

variable {attributes : Table Text} {commented : Bool} {line : Text} {lines : List Text}

/-- The lines outside comment blocks, where `commented` says whether one is open. -/
def uncommented : (commented : Bool) → List Text → List Text
  | _, [] => []
  | commented, line :: rest =>
    if isCommentFence line then uncommented (!commented) rest
    else if commented then uncommented commented rest
    else line :: uncommented commented rest

/-- Whether a comment block is open after lines. -/
def commentedAfter : (commented : Bool) → List Text → Bool
  | commented, [] => commented
  | commented, line :: rest => commentedAfter (commented ^^ isCommentFence line) rest

/-- A line that stands before the first paragraph. -/
def isPassed (line : Text) : Bool :=
  isSkipped line || (assignment? line).isSome || isSectionHeading line.trim

theorem uncommented_fence (h : isCommentFence line = true) (rest : List Text) :
    uncommented commented (line :: rest) = uncommented (!commented) rest := by
  rw [uncommented, if_pos h]

theorem uncommented_inside (h : isCommentFence line = false) (rest : List Text) :
    uncommented true (line :: rest) = uncommented true rest := by
  rw [uncommented, if_neg (ne_true_of_eq_false h), if_pos rfl]

theorem uncommented_outside (h : isCommentFence line = false) (rest : List Text) :
    uncommented false (line :: rest) = line :: uncommented false rest := by
  rw [uncommented, if_neg (ne_true_of_eq_false h), if_neg Bool.false_ne_true]

theorem uncommented_cons (rest : List Text) :
    uncommented commented (line :: rest) =
      (if commented || isCommentFence line then [] else [line]) ++
        uncommented (commented ^^ isCommentFence line) rest := by
  cases hfence : isCommentFence line with
  | true => rw [uncommented_fence hfence, Bool.or_true, Bool.xor_true, if_pos rfl, List.nil_append]
  | false =>
    rw [Bool.or_false, Bool.xor_false]
    cases commented with
    | true => rw [uncommented_inside hfence, if_pos rfl, List.nil_append]
    | false => rw [uncommented_outside hfence, if_neg Bool.false_ne_true, List.singleton_append]

theorem uncommented_append (rest : List Text) :
    uncommented commented (lines ++ rest) =
      uncommented commented lines ++ uncommented (commentedAfter commented lines) rest := by
  induction lines generalizing commented with
  | nil => rfl
  | cons line lines ih =>
    rw [List.cons_append, uncommented_cons, uncommented_cons, ih, commentedAfter, List.append_assoc]

theorem commentedAfter_of_no_fence (h : ∀ line ∈ lines, isCommentFence line = false) :
    commentedAfter commented lines = commented := by
  induction lines with
  | nil => rfl
  | cons line lines ih =>
    obtain ⟨hline, hlines⟩ := List.forall_mem_cons.1 h
    rw [commentedAfter, hline, Bool.xor_false, ih hlines]

theorem uncommented_of_no_fence (h : ∀ line ∈ lines, isCommentFence line = false) :
    uncommented commented lines = if commented then [] else lines := by
  induction lines with
  | nil => cases commented <;> rfl
  | cons line lines ih =>
    obtain ⟨hline, hlines⟩ := List.forall_mem_cons.1 h
    cases commented with
    | true =>
      rw [uncommented_inside hline, ih hlines]
      rfl
    | false =>
      rw [uncommented_outside hline, ih hlines]
      rfl

theorem assignment?_eq_some {row : Text × Text} (h : assignment? line = some row) :
    ∃ rest, line = ':' :: rest := by
  unfold assignment? at h
  split at h
  · exact ⟨_, rfl⟩
  · cases h

theorem trim_colon (rest : Text) : ∃ trimmed, Text.trim (':' :: rest) = ':' :: trimmed :=
  Text.trim_cons (by decide) rest

theorem isSkipped_colon (rest : Text) : isSkipped (':' :: rest) = false := by
  obtain ⟨trimmed, htrim⟩ := trim_colon rest
  have hblank : Text.isBlank (':' :: rest) = false := rfl
  rw [isSkipped, hblank, htrim]
  rfl

theorem assignment?_of_isSkipped (h : isSkipped line = true) : assignment? line = none := by
  by_contra hsome
  obtain ⟨row, hrow⟩ := Option.ne_none_iff_exists'.1 hsome
  obtain ⟨rest, rfl⟩ := assignment?_eq_some hrow
  rw [isSkipped_colon] at h
  cases h

theorem setEntry_of_assignment?_eq_none (h : assignment? line = none) :
    setEntry attributes line = attributes := by
  rw [setEntry, h]

theorem isPassed_of_isSkipped (h : isSkipped line = true) : isPassed line = true := by
  rw [isPassed, h]
  rfl

theorem isBlank_of_not_isPassed (h : isPassed line = false) : Text.isBlank line = false := by
  simp only [isPassed, isSkipped, Bool.or_eq_false_iff] at h
  exact h.1.1.1.1

theorem body_passed (hfence : isCommentFence line = false) (h : isPassed line = true)
    (rest : List Text) :
    body attributes false (line :: rest) = body (setEntry attributes line) false rest := by
  rw [body, if_neg (ne_true_of_eq_false hfence), if_neg Bool.false_ne_true]
  split_ifs with hskipped hentry hheading
  · rw [setEntry_of_assignment?_eq_none (assignment?_of_isSkipped hskipped)]
  · rfl
  · rw [setEntry_of_assignment?_eq_none (Option.not_isSome_iff_eq_none.1 hentry)]
  · simp only [isPassed, Bool.or_eq_true] at h
    obtain (h | h) | h := h <;> contradiction

theorem body_not_passed (hfence : isCommentFence line = false) (h : isPassed line = false)
    (rest : List Text) :
    body attributes false (line :: rest) = (attributes, line :: paragraph false rest) := by
  simp only [isPassed, Bool.or_eq_false_iff] at h
  obtain ⟨⟨hskipped, hentry⟩, hheading⟩ := h
  simp only [body, hfence, hskipped, hentry, hheading, Bool.false_eq_true, if_false]

theorem paragraph_eq :
    paragraph commented lines = (uncommented commented lines).takeWhile (!Text.isBlank ·) := by
  induction lines generalizing commented with
  | nil => rfl
  | cons line lines ih =>
    rw [paragraph]
    cases hfence : isCommentFence line with
    | true => rw [if_pos rfl, uncommented_fence hfence, ih]
    | false =>
      rw [if_neg Bool.false_ne_true]
      cases commented with
      | true => rw [if_pos rfl, uncommented_inside hfence, ih]
      | false =>
        rw [if_neg Bool.false_ne_true, uncommented_outside hfence, List.takeWhile_cons]
        cases Text.isBlank line with
        | true => rfl
        | false => rw [if_neg Bool.false_ne_true, ih]; rfl

/-- **What is read of a body**: outside comment blocks, the lines before the paragraph set the
attributes, and the paragraph goes on up to a blank line. -/
theorem body_eq :
    body attributes commented lines =
      (((uncommented commented lines).takeWhile isPassed).foldl setEntry attributes,
        ((uncommented commented lines).dropWhile isPassed).takeWhile (!Text.isBlank ·)) := by
  induction lines generalizing attributes commented with
  | nil => rfl
  | cons line lines ih =>
    cases hfence : isCommentFence line with
    | true => rw [body, if_pos hfence, uncommented_fence hfence, ih]
    | false =>
      cases commented with
      | true =>
        rw [body, if_neg (ne_true_of_eq_false hfence), if_pos rfl, uncommented_inside hfence, ih]
      | false =>
        rw [uncommented_outside hfence]
        cases hpassed : isPassed line with
        | true =>
          rw [body_passed hfence hpassed, List.takeWhile_cons_of_pos hpassed,
            List.dropWhile_cons_of_pos hpassed, ih]
          rfl
        | false =>
          have hpassed' := ne_true_of_eq_false hpassed
          rw [body_not_passed hfence hpassed, List.takeWhile_cons_of_neg hpassed',
            List.dropWhile_cons_of_neg hpassed', List.takeWhile_cons,
            isBlank_of_not_isPassed hpassed, paragraph_eq]
          rfl

end

/-! ### Headers -/

section

theorem span_notBlank {lines : List Text} (h : ∀ line ∈ lines, Text.isBlank line = false)
    (rest : List Text) :
    (lines ++ rest).takeWhile (!Text.isBlank ·) = lines ++ rest.takeWhile (!Text.isBlank ·) ∧
      (lines ++ rest).dropWhile (!Text.isBlank ·) = rest.dropWhile (!Text.isBlank ·) := by
  have hpos : ∀ line ∈ lines, (!Text.isBlank line) = true := fun line hline => by
    rw [h line hline]
    rfl
  exact ⟨List.takeWhile_append_of_pos hpos, List.dropWhile_append_of_pos hpos⟩

variable {attributes : Table Text} {title? : Option Text} {line : Text} {header lines : List Text}

/-- A line that may stand before the title. -/
def isLead (line : Text) : Bool := Text.isBlank line || isComment line

/-- The article with a header that says `title?` and `attributes`, and a body. -/
def ofBody (title? : Option Text) (attributes : Table Text) (lines : List Text) : Article :=
  let (attributes, firstBlock) := body attributes false lines
  { title? := title?.or (attributes.find? "doctitle".toList), attributes, firstBlock }

/-- The title in the title line of an article, if it has one. -/
def titleLine? (lines : List Text) : Option Text := (lines.dropWhile isLead).head?.bind titleOf?

theorem isLead_of_titleOf? {title : Text} (h : titleOf? line = some title) :
    isLead line = false := by
  obtain ⟨rest, hsign, -⟩ := Option.map_eq_some_iff.1 h
  obtain rfl := List.isPrefixOf?_eq_some_iff_append_eq.1 hsign
  rfl

/-- A comment line has two slashes or three at its start, with or without blanks around it. -/
theorem trim_of_isComment (h : isComment line = true) :
    (∃ rest, line.trim = '/' :: rest) ∧ ¬"////".toList <+: line.trim := by
  obtain ⟨hslashes, hfour⟩ := Bool.and_eq_true_iff.1 h
  obtain ⟨rest, rfl⟩ := List.isPrefixOf_iff_prefix.1 hslashes
  refine ⟨Text.trim_cons (by decide) ('/' :: rest), fun htrim => ?_⟩
  have hstart : Text.trimStart ("//".toList ++ rest) = "//".toList ++ rest := rfl
  have hline : Text.trim ("//".toList ++ rest) <+: "//".toList ++ rest := by
    rw [Text.trim, hstart]
    exact Text.trimEnd_isPrefix _
  rw [List.isPrefixOf_iff_prefix.2 (htrim.trans hline)] at hfour
  cases hfour

theorem isCommentFence_of_isLead (h : isLead line = true) : isCommentFence line = false := by
  refine decide_eq_false fun hfence => ?_
  rcases Bool.or_eq_true_iff.1 h with hblank | hcomment
  · rw [Text.trim_of_isBlank hblank] at hfence
    cases hfence
  · exact (trim_of_isComment hcomment).2 (hfence ▸ List.prefix_rfl)

theorem isSkipped_of_isLead (h : isLead line = true) : isSkipped line = true := by
  rw [isLead] at h
  rw [isSkipped, h]
  rfl

/-- An article with a title line, after blank lines and comments. -/
theorem ofLines_titled {lead : List Text} {title : Text} (hlead : ∀ l ∈ lead, isLead l = true)
    (htitle : titleOf? line = some title) :
    ofLines (lead ++ line :: lines) =
      ofBody (some title) ((lines.takeWhile (!Text.isBlank ·)).foldl setEntry [])
        (lines.dropWhile (!Text.isBlank ·)) := by
  have hline : isLead line ≠ true := ne_true_of_eq_false (isLead_of_titleOf? htitle)
  have hstart : (lead ++ line :: lines).dropWhile (fun l => Text.isBlank l || isComment l) =
      line :: lines :=
    (List.dropWhile_append_of_pos hlead).trans (List.dropWhile_cons_of_neg hline)
  simp only [ofLines, hstart, List.head?_cons, Option.bind_some, htitle, Option.isSome_some,
    if_true, List.drop_succ_cons, List.drop_zero]
  rfl

theorem body_of_isLead (h : isLead line = true) (rest : List Text) :
    body attributes false (line :: rest) = body attributes false rest := by
  have hskipped : isSkipped line = true := isSkipped_of_isLead h
  rw [body_passed (isCommentFence_of_isLead h) (isPassed_of_isSkipped hskipped),
    setEntry_of_assignment?_eq_none (assignment?_of_isSkipped hskipped)]

theorem body_dropWhile_isLead :
    body attributes false (lines.dropWhile isLead) = body attributes false lines := by
  induction lines with
  | nil => rfl
  | cons line lines ih =>
    cases hlead : isLead line with
    | true => rw [List.dropWhile_cons_of_pos hlead, ih, body_of_isLead hlead]
    | false => rw [List.dropWhile_cons_of_neg (ne_true_of_eq_false hlead)]

theorem titleLine?_append (lines rest : List Text) :
    titleLine? (lines ++ rest) =
      if (lines.dropWhile isLead).isEmpty then titleLine? rest else titleLine? lines := by
  rw [titleLine?, List.dropWhile_append]
  cases hrest : lines.dropWhile isLead with
  | nil => rfl
  | cons first others =>
    rw [titleLine?, titleLine?, hrest]
    rfl

/-- An article without a title line is all body. -/
theorem ofLines_untitled (h : titleLine? lines = none) : ofLines lines = ofBody none [] lines := by
  have htitle : ((lines.dropWhile fun l => Text.isBlank l || isComment l).head?.bind titleOf?) =
      none := h
  have hbody : body [] false (lines.dropWhile fun l => Text.isBlank l || isComment l) =
      body [] false lines := body_dropWhile_isLead
  simp only [ofLines, htitle, Option.isSome_none, Bool.false_eq_true, if_false, List.foldl_nil,
    hbody]
  rfl

/-- The lines `header` say `title?` and `attributes`, and the body of the article starts after them,
with `lines`. An article without a title line has no header. -/
inductive Begins : List Text → Option Text → Table Text → List Text → Prop
  | untitled {lines : List Text} (h : titleLine? lines = none) : Begins [] none [] lines
  | titled {lead entries lines : List Text} {line title blank : Text}
      (hlead : ∀ l ∈ lead, isLead l = true) (htitle : titleOf? line = some title)
      (hentries : ∀ l ∈ entries, Text.isBlank l = false) (hblank : Text.isBlank blank = true) :
      Begins (lead ++ line :: (entries ++ [blank])) (some title) (entries.foldl setEntry []) lines

theorem Begins.ofLines_eq (h : Begins header title? attributes lines) :
    ofLines (header ++ lines) = ofBody title? attributes lines := by
  cases h with
  | untitled h => exact ofLines_untitled h
  | @titled lead entries lines line title blank hlead htitle hentries hblank =>
    have hlines : lead ++ line :: (entries ++ [blank]) ++ lines =
        lead ++ line :: (entries ++ blank :: lines) := by simp
    have hskipped : isLead blank = true := by
      rw [isLead, hblank]
      rfl
    obtain ⟨htake, hdrop⟩ := span_notBlank hentries (blank :: lines)
    rw [hlines, ofLines_titled hlead htitle, htake, hdrop]
    simp only [List.takeWhile_cons, List.dropWhile_cons, hblank, Bool.not_true, Bool.false_eq_true,
      if_false, List.append_nil, ofBody, body_of_isLead hskipped]

theorem Begins.take {before after : List Text}
    (h : Begins header title? attributes (before ++ after)) :
    Begins header title? attributes before := by
  cases h with
  | untitled h =>
    refine .untitled ?_
    rw [titleLine?_append] at h
    split_ifs at h with hlead
    · rw [titleLine?, List.isEmpty_iff.1 hlead]
      rfl
    · exact h
  | titled hlead htitle hentries hblank => exact .titled hlead htitle hentries hblank

theorem Begins.insert {before after : List Text}
    (h : Begins header title? attributes (before ++ after)) (hline : isLead line = false)
    (htitle : titleOf? line = none) (rest : List Text) :
    Begins header title? attributes (before ++ line :: rest) := by
  cases h with
  | untitled h =>
    refine .untitled ?_
    rw [titleLine?_append] at h ⊢
    split_ifs at h ⊢ with hlead
    · rw [titleLine?, List.dropWhile_cons_of_neg (ne_true_of_eq_false hline)]
      exact htitle
    · exact h
  | titled hlead htitle hentries hblank => exact .titled hlead htitle hentries hblank

end

/-! ### Articles as they are written -/

/-- A line that can start a paragraph: it is no comment, no attributes or title of a block, no
attribute entry and no heading. -/
structure StartsParagraph (line : Text) : Prop where
  comment : "//".toList <+: line → "////".toList <+: line
  attributes : ∀ inner, line.trim ≠ '[' :: (inner ++ [']'])
  title : ∀ c rest, line.trim = '.' :: c :: rest → c = '.'
  entry : ∀ name value, isEntryName name = true → line ≠ ':' :: (name ++ ':' :: value)
  heading : ∀ n rest, 2 ≤ n → line.trim ≠ List.replicate n '=' ++ ' ' :: rest

/-- A line that goes on a paragraph: it is not blank, and no delimiter of a comment block. -/
structure IsParagraphLine (line : Text) : Prop where
  isLine : Text.IsLine line
  not_blank : Text.isBlank line = false
  not_fence : line.trim ≠ "////".toList

instance (line : Text) : Decidable (IsParagraphLine line) :=
  decidable_of_iff (Text.IsLine line ∧ Text.isBlank line = false ∧ line.trim ≠ "////".toList)
    ⟨fun ⟨hline, hblank, hfence⟩ => ⟨hline, hblank, hfence⟩,
      fun h => ⟨h.isLine, h.not_blank, h.not_fence⟩⟩

/-- An attribute entry: a name, and a value in one line without blanks at its ends. -/
structure IsEntry (entry : Text × Text) : Prop where
  name : isEntryName entry.1 = true
  trimmed : entry.2.trim = entry.2
  one_line : '\n' ∉ entry.2

instance (entry : Text × Text) : Decidable (IsEntry entry) :=
  decidable_of_iff (isEntryName entry.1 = true ∧ entry.2.trim = entry.2 ∧ '\n' ∉ entry.2)
    ⟨fun ⟨hname, htrim, hline⟩ => ⟨hname, htrim, hline⟩,
      fun h => ⟨h.name, h.trimmed, h.one_line⟩⟩

namespace StartsParagraph

variable {line : Text}

theorem not_isComment (h : StartsParagraph line) : isComment line = false := by
  by_contra hcomment
  obtain ⟨hslashes, hfour⟩ := Bool.and_eq_true_iff.1 (eq_true_of_ne_false hcomment)
  rw [List.isPrefixOf_iff_prefix.2 (h.comment (List.isPrefixOf_iff_prefix.1 hslashes))] at hfour
  cases hfour

theorem not_isBlockMetadata (h : StartsParagraph line) : isBlockMetadata line.trim = false := by
  unfold isBlockMetadata
  rw [Bool.or_eq_false_iff]
  constructor
  · by_contra hbrackets
    obtain ⟨hfirst, hlast⟩ := Bool.and_eq_true_iff.1 (eq_true_of_ne_false hbrackets)
    obtain ⟨tail, htail⟩ := List.head?_eq_some_iff.1 (of_decide_eq_true hfirst)
    obtain ⟨before, hbefore⟩ := List.getLast?_eq_some_iff.1 (of_decide_eq_true hlast)
    cases before with
    | nil =>
      rw [htail] at hbefore
      cases hbefore
    | cons c inner =>
      rw [htail, List.cons_append] at hbefore
      obtain ⟨rfl, rfl⟩ := List.cons.inj hbefore
      exact h.attributes inner htail
  · split
    · rename_i c rest htrim
      exact decide_eq_false (not_not_intro (h.title c rest htrim))
    · rfl

theorem not_assignment? (h : StartsParagraph line) : assignment? line = none := by
  unfold assignment?
  split
  · rename_i rest
    split
    · rename_i name value hcut
      refine if_neg fun hname => ?_
      exact h.entry name value hname (by rw [Text.eq_of_splitFirst? hcut])
    · rfl
  · rfl

theorem not_isSectionHeading (h : StartsParagraph line) : isSectionHeading line.trim = false := by
  by_contra hheading
  obtain ⟨hsigns, hspace⟩ := Bool.and_eq_true_iff.1 (eq_true_of_ne_false hheading)
  obtain ⟨rest, hrest⟩ := List.head?_eq_some_iff.1 (of_decide_eq_true hspace)
  obtain ⟨tail, htail⟩ := List.isPrefixOf_iff_prefix.1 hsigns
  have hrun : line.trim.takeWhile (· = '=') =
      List.replicate (line.trim.takeWhile (· = '=')).length '=' :=
    List.eq_replicate_iff.2 ⟨rfl, fun c hc => by simpa using List.mem_takeWhile_imp hc⟩
  have htwo : 2 ≤ (line.trim.takeWhile (· = '=')).length := by
    rw [← htail]
    exact Nat.le_add_left 2 (tail.takeWhile (· = '=')).length
  refine h.heading _ rest htwo ?_
  rw [← hrun, ← hrest, List.takeWhile_append_dropWhile]

theorem not_isPassed (h : StartsParagraph line) (hblank : Text.isBlank line = false) :
    isPassed line = false := by
  rw [isPassed, isSkipped, hblank, h.not_isComment, h.not_isBlockMetadata, h.not_assignment?,
    h.not_isSectionHeading]
  rfl

end StartsParagraph

theorem not_mem_of_isEntryName {name : Text} {c : Char} (h : isEntryName name = true)
    (hc : (Text.isAlphanumeric c || c = '-' || c = '_') = false) : c ∉ name := by
  intro hmem
  have hall := List.all_eq_true.1 (Bool.and_eq_true_iff.1 h).2 c hmem
  rw [hc] at hall
  cases hall

/-- The line of an attribute entry. -/
def entryLine (entry : Text × Text) : Text := ':' :: (entry.1 ++ ": ".toList) ++ entry.2

theorem isBlank_entryLine (entry : Text × Text) : Text.isBlank (entryLine entry) = false := rfl

namespace IsEntry

variable {entry : Text × Text}

theorem assignment?_entryLine (h : IsEntry entry) : assignment? (entryLine entry) = some entry := by
  have hcut : Text.splitFirst? ':' (entry.1 ++ ": ".toList ++ entry.2) =
      some (entry.1, ' ' :: entry.2) := by
    rw [List.append_assoc]
    exact Text.splitFirst?_append (not_mem_of_isEntryName h.name (by decide)) (' ' :: entry.2)
  have htrim : Text.trim (' ' :: entry.2) = entry.2 := by
    have hspace : Text.trim ([' '] ++ entry.2 ++ []) = Text.trim entry.2 :=
      Text.trim_append_blank rfl rfl entry.2
    rw [List.append_nil, h.trimmed] at hspace
    exact hspace
  rw [entryLine, List.cons_append, assignment?, hcut]
  simp only [h.name, if_true, htrim]

theorem isLine_entryLine (h : IsEntry entry) : Text.IsLine (entryLine entry) := by
  have hname : '\n' ∉ entry.1 := not_mem_of_isEntryName h.name (by decide)
  have hlast : (':' :: (entry.1 ++ ": ".toList)).getLast? = some ' ' := by
    rw [← List.cons_append, List.getLast?_append]
    rfl
  have hfront : Text.IsLine (':' :: (entry.1 ++ ": ".toList)) :=
    ⟨by simp [hname], by rw [hlast]; decide⟩
  exact hfront.append h.trimmed h.one_line

end IsEntry

theorem foldl_setEntry {entries : List (Text × Text)} (h : ∀ entry ∈ entries, IsEntry entry) :
    (entries.map entryLine).foldl setEntry [] = Table.ofList entries := by
  rw [List.foldl_map, Table.ofList]
  refine List.foldl_ext _ _ _ fun t entry hentry => ?_
  rw [setEntry, (h entry hentry).assignment?_entryLine]

/-- An article as it is written: a title, attribute entries, and the lines of a paragraph. -/
structure Draft where
  title : Text
  entries : List (Text × Text)
  first : Text
  more : List Text
  title_trimmed : title.trim = title
  title_one_line : '\n' ∉ title
  isEntry : ∀ entry ∈ entries, IsEntry entry
  names_nodup : (entries.map Prod.fst).Nodup
  starts : StartsParagraph first
  isParagraphLine : ∀ line ∈ first :: more, IsParagraphLine line

namespace Draft

variable (d : Draft)

/-- The lines of the article, up to the blank line that ends the paragraph. -/
def lines : List Text :=
  ("= ".toList ++ d.title) :: (d.entries.map entryLine ++ [] :: (d.first :: d.more ++ [[]]))

/-- The article as a text. -/
def text : Text := Text.unlines true d.lines

theorem isLine {line : Text} (h : line ∈ d.lines) : Text.IsLine line := by
  have hblank : Text.IsLine [] := ⟨List.not_mem_nil, nofun⟩
  rcases List.mem_cons.1 h with rfl | h
  · have hfront : Text.IsLine "= ".toList := by decide
    exact hfront.append d.title_trimmed d.title_one_line
  rcases List.mem_append.1 h with h | h
  · obtain ⟨entry, hentry, rfl⟩ := List.mem_map.1 h
    exact (d.isEntry entry hentry).isLine_entryLine
  rcases List.mem_cons.1 h with rfl | h
  · exact hblank
  rcases List.mem_append.1 h with h | h
  · exact (d.isParagraphLine line h).isLine
  · exact List.mem_singleton.1 h ▸ hblank

theorem body_paragraph (attributes : Table Text) (rest : List Text) :
    body attributes false (d.first :: d.more ++ [] :: rest) = (attributes, d.first :: d.more) := by
  have hfence : ∀ line ∈ d.first :: d.more, isCommentFence line = false := fun line hline =>
    decide_eq_false (d.isParagraphLine line hline).not_fence
  have hfirst : ¬isPassed d.first = true := ne_true_of_eq_false
    (d.starts.not_isPassed (d.isParagraphLine d.first List.mem_cons_self).not_blank)
  have hparagraph := (span_notBlank (fun line hline => (d.isParagraphLine line hline).not_blank)
    ([] :: uncommented false rest)).1
  have hseen : uncommented false (d.first :: d.more ++ [] :: rest) =
      d.first :: d.more ++ [] :: uncommented false rest := by
    rw [uncommented_append, uncommented_of_no_fence hfence, commentedAfter_of_no_fence hfence,
      uncommented_outside rfl, if_neg Bool.false_ne_true]
  rw [body_eq, hseen, List.cons_append, List.takeWhile_cons_of_neg hfirst,
    List.dropWhile_cons_of_neg hfirst, ← List.cons_append, hparagraph,
    List.takeWhile_cons_of_neg Bool.false_ne_true, List.append_nil]
  rfl

/-- **An article is read as it was written**, with any text after the paragraph. -/
theorem read_text_append :
    (∀ rest, read (d.text ++ rest) =
      { title? := some d.title, attributes := Table.ofList d.entries
        firstBlock := d.first :: d.more }) ∧
      (Table.ofList d.entries).Perm d.entries := by
  refine ⟨fun rest => ?_, Table.perm_ofList d.names_nodup⟩
  have hlines : Text.lines (d.text ++ rest) = d.lines ++ rest.lines :=
    Text.lines_unlines_append (List.cons_ne_nil _ _) (fun _ => d.isLine) rest
  have htitle : titleOf? ("= ".toList ++ d.title) = some d.title := by
    rw [titleOf?, List.isPrefixOf?_eq_some_iff_append_eq.2 rfl, Option.map_some, d.title_trimmed]
  have hentries : ∀ line ∈ d.entries.map entryLine, Text.isBlank line = false := by
    intro line hline
    obtain ⟨entry, -, rfl⟩ := List.mem_map.1 hline
    exact isBlank_entryLine entry
  have hbegins : Begins ([] ++ ("= ".toList ++ d.title) :: (d.entries.map entryLine ++ [[]]))
      (some d.title) ((d.entries.map entryLine).foldl setEntry [])
      (d.first :: d.more ++ [] :: rest.lines) :=
    .titled (List.forall_mem_nil _) htitle hentries rfl
  have hparts : d.lines ++ rest.lines =
      [] ++ ("= ".toList ++ d.title) :: (d.entries.map entryLine ++ [[]]) ++
        (d.first :: d.more ++ [] :: rest.lines) := by
    simp [lines]
  rw [read, hlines, hparts, hbegins.ofLines_eq, ofBody, body_paragraph, foldl_setEntry d.isEntry]
  rfl

/-- Later lines of a paragraph that look like a comment, a heading, an entry and attributes. -/
theorem read_text_append_lookalikes :
    ∃ d : Draft,
      d.text = "= Out\n:style: news\n:draft: \n\nIt is.\n// so\n== it\n:is: out\n[!]\n\n".toList ∧
      ∀ rest, read (d.text ++ rest) =
        { title? := some "Out".toList
          attributes := [("draft".toList, []), ("style".toList, "news".toList)]
          firstBlock := ["It is.".toList, "// so".toList, "== it".toList, ":is: out".toList,
            "[!]".toList] } := by
  refine ⟨{
    title := "Out".toList
    entries := [("style".toList, "news".toList), ("draft".toList, [])]
    first := "It is.".toList
    more := ["// so".toList, "== it".toList, ":is: out".toList, "[!]".toList]
    title_trimmed := by decide
    title_one_line := by decide
    isEntry := by decide
    names_nodup := by decide
    starts := ⟨by decide, nofun, nofun, nofun, fun n rest hn h => ?_⟩
    isParagraphLine := by decide }, rfl, fun rest => ?_⟩
  · obtain ⟨m, rfl⟩ := Nat.exists_eq_succ_of_ne_zero (Nat.ne_zero_of_lt hn)
    cases h
  · rw [(read_text_append _).1 rest]
    decide

end Draft

end Article

end DocSite
