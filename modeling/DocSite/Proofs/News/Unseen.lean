import DocSite.Proofs.Macro.Verbatim
import DocSite.Proofs.News.Article

/-!
# What is not seen of an article

The reader of articles and the macro processor tell comment blocks from other lines by rules of
their own: a listing toggles at each line of four slashes in the body, and the processor follows all
verbatim blocks from the first line on. Before the first paragraph of a body the two agree
(`Article.after_fenceOf`), because every other line that opens a verbatim block starts the
paragraph. So a block of four slashes there is not seen, and an unset entry is not seen in it.

* `Article.read_eq_of_comment_block` : a comment block before the first paragraph of a body is not
  seen.
* `Article.read_eq_of_unset` : an unset entry in the header, or in such a block, is not seen.
* `Article.firstBlock_of_unset` : elsewhere before the paragraph it starts the paragraph.
-/

namespace DocSite

namespace Article

open Delimiter (fourSlashes)

variable {attributes : Table Text} {title? : Option Text} {commented : Bool}
  {header before inner after lines : List Text} {opening closing line name : Text}

/-! ### The two views of comment blocks -/

theorem isCommentFence_iff_opening? :
    isCommentFence line = true ↔ Delimiter.opening? line.trim = some fourSlashes := by
  rw [isCommentFence, decide_eq_true_iff, Delimiter.opening?_eq_fourSlashes_iff]

theorem isCommentFence_eq_isClosedBy : isCommentFence line = fourSlashes.isClosedBy line.trim := by
  rw [Bool.eq_iff_iff, isCommentFence, decide_eq_true_iff, Delimiter.isClosedBy_fourSlashes_iff]

/-- The fence of the processor where the reader knows whether a comment block is open. -/
def fenceOf (commented : Bool) : Fence := if commented then some fourSlashes else none

theorem opening?_of_isComment (h : isComment line = true) :
    Delimiter.opening? line.trim = none := by
  obtain ⟨⟨rest, htrim⟩, hfour⟩ := trim_of_isComment h
  by_contra hopens
  obtain ⟨d, hd⟩ := Option.ne_none_iff_exists'.1 hopens
  rcases Delimiter.of_opening? hd with ⟨-, hhead⟩ | ⟨-, hlength, hrun⟩
  · rw [htrim] at hhead
    cases hhead
  · -- a delimiter of slashes has four of them at least
    obtain ⟨count, hcount⟩ := Nat.exists_eq_add_of_le hlength
    rw [hcount, List.replicate_add] at hrun
    have hchar : '/' = d.char := (List.cons.inj (htrim.symm.trans hrun)).1
    rw [hrun, ← hchar] at hfour
    exact hfour (List.prefix_append _ _)

theorem opening?_of_isBlockMetadata {s : Text} (h : isBlockMetadata s = true) :
    Delimiter.opening? s = none := by
  rcases Bool.or_eq_true_iff.1 h with hbrackets | htitle
  · obtain ⟨tail, rfl⟩ := List.head?_eq_some_iff.1
      (of_decide_eq_true (Bool.and_eq_true_iff.1 hbrackets).1)
    exact Delimiter.opening?_cons (by decide) (by decide) tail
  · split at htitle
    · rename_i c rest
      have hdot : c ≠ '.' := of_decide_eq_true htitle
      simp [Delimiter.opening?, Delimiter.runLength, Delimiter.backtick, hdot]
    · cases htitle

theorem opening?_of_isPassed (h : isPassed line = true) :
    Delimiter.opening? line.trim = none := by
  simp only [isPassed, isSkipped, Bool.or_eq_true] at h
  obtain (((hblank | hcomment) | hmetadata) | hentry) | hheading := h
  · rw [Text.trim_of_isBlank hblank]
    rfl
  · exact opening?_of_isComment hcomment
  · exact opening?_of_isBlockMetadata hmetadata
  · obtain ⟨row, hrow⟩ := Option.isSome_iff_exists.1 hentry
    obtain ⟨rest, rfl⟩ := assignment?_eq_some hrow
    obtain ⟨trimmed, htrim⟩ := trim_colon rest
    rw [htrim]
    exact Delimiter.opening?_cons (by decide) (by decide) trimmed
  · obtain ⟨rest, htrim⟩ := List.isPrefixOf_iff_prefix.1 (Bool.and_eq_true_iff.1 hheading).1
    rw [← htrim]
    exact Delimiter.opening?_cons (by decide) (by decide) _

theorem next_fenceOf (h : commented = false → isCommentFence line = false → isPassed line = true) :
    Fence.next (fenceOf commented) line = fenceOf (commented ^^ isCommentFence line) := by
  cases commented with
  | true =>
    have hnext : Fence.next (fenceOf true) line =
        if fourSlashes.isClosedBy line.trim then none else some fourSlashes := rfl
    rw [hnext, ← isCommentFence_eq_isClosedBy]
    cases isCommentFence line <;> rfl
  | false =>
    have hnext : Fence.next (fenceOf false) line = Delimiter.opening? line.trim := rfl
    rw [hnext]
    cases hfence : isCommentFence line with
    | true => exact isCommentFence_iff_opening?.1 hfence
    | false => exact opening?_of_isPassed (h rfl hfence)

/-- Before the paragraph, the processor is in a comment block where the reader is in one, and in no
other verbatim block. -/
theorem after_fenceOf (h : ∀ line ∈ uncommented commented lines, isPassed line = true) :
    Fence.after (fenceOf commented) lines = fenceOf (commentedAfter commented lines) := by
  induction lines generalizing commented with
  | nil => rfl
  | cons line lines ih =>
    have hstep : Fence.next (fenceOf commented) line =
        fenceOf (commented ^^ isCommentFence line) := by
      refine next_fenceOf fun hcommented hfence => h line ?_
      rw [hcommented, uncommented_outside hfence]
      exact List.mem_cons_self
    rw [Fence.after, List.foldl_cons, hstep, commentedAfter]
    refine ih fun l hl => h l ?_
    rw [uncommented_cons]
    exact List.mem_append_right _ hl

/-! ### Before the paragraph -/

/-- The lines `before`, with which a body starts after `header`, end before the first paragraph and
outside verbatim blocks. -/
structure BeforeParagraph (header before : List Text) : Prop where
  header_outside : Fence.after none header = none
  outside : Fence.after none (header ++ before) = none
  no_paragraph : (ofLines (header ++ before)).firstBlock = []

theorem isPassed_of_body_eq_nil (h : (body attributes commented lines).2 = []) :
    ∀ line ∈ uncommented commented lines, isPassed line = true := by
  rw [body_eq] at h
  refine List.dropWhile_eq_nil_iff.1 ?_
  cases hrest : (uncommented commented lines).dropWhile isPassed with
  | nil => rfl
  | cons first others =>
    have hfirst : isPassed first = false := by
      have hhead := List.head?_dropWhile_not isPassed (uncommented commented lines)
      rw [hrest] at hhead
      exact hhead
    simp only [hrest, List.takeWhile_cons, isBlank_of_not_isPassed hfirst] at h
    cases h

theorem BeforeParagraph.all_isPassed (h : BeforeParagraph header before)
    (hbegins : Begins header title? attributes before) :
    ∀ line ∈ uncommented false before, isPassed line = true := by
  have hparagraph := h.no_paragraph
  rw [hbegins.ofLines_eq] at hparagraph
  exact isPassed_of_body_eq_nil hparagraph

/-- The reader is outside comment blocks where the processor is outside verbatim blocks. -/
theorem BeforeParagraph.commentedAfter_eq (h : BeforeParagraph header before)
    (hbegins : Begins header title? attributes before) : commentedAfter false before = false := by
  have hagree : Fence.after none before = fenceOf (commentedAfter false before) :=
    after_fenceOf (h.all_isPassed hbegins)
  have houtside := h.outside
  rw [Fence.after_append, h.header_outside, hagree] at houtside
  cases hcommented : commentedAfter false before with
  | false => rfl
  | true =>
    rw [hcommented] at houtside
    cases houtside

/-! ### Comment blocks -/

/-- A comment block that ends before the first paragraph of a body: a line of four slashes opens it
after `before`, and `closing` is the first line that closes it. -/
structure CommentBlock (header before : List Text) (opening : Text) (inner : List Text)
    (closing : Text) : Prop extends BeforeParagraph header before where
  opens : Delimiter.opening? opening.trim = some fourSlashes
  inside : ∀ line ∈ inner, fourSlashes.isClosedBy line.trim = false
  closes : fourSlashes.isClosedBy closing.trim = true

theorem not_titleOf?_of_isCommentFence (h : isCommentFence line = true) :
    isLead line = false ∧ titleOf? line = none := by
  constructor
  · by_contra hlead
    rw [isCommentFence_of_isLead (eq_true_of_ne_false hlead)] at h
    cases h
  · by_contra htitle
    obtain ⟨title, htitle⟩ := Option.ne_none_iff_exists'.1 htitle
    obtain ⟨rest, hsign, -⟩ := Option.map_eq_some_iff.1 htitle
    obtain rfl := List.isPrefixOf?_eq_some_iff_append_eq.1 hsign
    obtain ⟨trimmed, htrim⟩ := Text.trim_cons (c := '=') (by decide) (' ' :: rest)
    have hfence : Text.trim ('=' :: ' ' :: rest) = "////".toList := of_decide_eq_true h
    rw [htrim] at hfence
    cases hfence

theorem ofBody_congr {lines' : List Text} (h : uncommented false lines = uncommented false lines') :
    ofBody title? attributes lines = ofBody title? attributes lines' := by
  rw [ofBody, ofBody, body_eq, body_eq, h]

/-- A comment block that ends before the first paragraph of a body is not seen. -/
theorem ofLines_eq_of_comment_block (hbegins : Begins header title? attributes (before ++ after))
    (h : CommentBlock header before opening inner closing) :
    ofLines (header ++ (before ++ opening :: (inner ++ closing :: after))) =
      ofLines (header ++ (before ++ after)) := by
  have hopening : isCommentFence opening = true := isCommentFence_iff_opening?.2 h.opens
  have hclosing : isCommentFence closing = true := isCommentFence_eq_isClosedBy.trans h.closes
  have hinner : ∀ line ∈ inner, isCommentFence line = false := fun line hline =>
    isCommentFence_eq_isClosedBy.trans (h.inside line hline)
  obtain ⟨hlead, htitle⟩ := not_titleOf?_of_isCommentFence hopening
  rw [(hbegins.insert hlead htitle _).ofLines_eq, hbegins.ofLines_eq]
  refine ofBody_congr ?_
  rw [uncommented_append, h.commentedAfter_eq hbegins.take, uncommented_fence hopening,
    Bool.not_false, uncommented_append, uncommented_of_no_fence hinner,
    commentedAfter_of_no_fence hinner, uncommented_fence hclosing, uncommented_append,
    h.commentedAfter_eq hbegins.take]
  rfl

/-- **A comment block is not seen.** Where the body of an article starts, a block between two lines
of four slashes can be left out, with all that it says, and nothing of what is read changes. -/
theorem read_eq_of_comment_block {s t : Text}
    (hbegins : Begins header title? attributes (before ++ after))
    (h : CommentBlock header before opening inner closing)
    (hs : s.lines = header ++ (before ++ opening :: (inner ++ closing :: after)))
    (ht : t.lines = header ++ (before ++ after)) : read s = read t := by
  rw [read, read, hs, ht, ofLines_eq_of_comment_block hbegins h]

/-- A block after the header that says what a title, an attribute and a paragraph would. -/
theorem read_eq_of_comment_block_draft :
    CommentBlock ["= News".toList, []] ["// soon".toList] "////".toList
        ["= Draft".toList, ":draft: yes".toList, [], "No.".toList] "////".toList ∧
      read "= News\n\n// soon\n////\n= Draft\n:draft: yes\n\nNo.\n////\nYes.\n".toList =
        read "= News\n\n// soon\nYes.\n".toList := by
  have hbegins : Begins ([] ++ "= News".toList :: ([] ++ [[]])) (some "News".toList) []
      (["// soon".toList] ++ ["Yes.".toList]) :=
    .titled (List.forall_mem_nil _) rfl (List.forall_mem_nil _) rfl
  have hblock : CommentBlock ["= News".toList, []] ["// soon".toList] "////".toList
      ["= Draft".toList, ":draft: yes".toList, [], "No.".toList] "////".toList :=
    ⟨⟨by decide, by decide, by decide⟩, by decide, by decide, by decide⟩
  exact ⟨hblock, read_eq_of_comment_block hbegins hblock rfl rfl⟩

/-- Elsewhere a block is seen: before the title, where it makes the title line a paragraph, in the
header, where its entries set attributes, and with a longer delimiter, where it is the paragraph
itself. -/
theorem comment_block_is_seen :
    read "= News\n\nYes.\n".toList =
        { title? := some "News".toList, attributes := [], firstBlock := ["Yes.".toList] } ∧
      Delimiter.opening? "////".toList = some fourSlashes ∧
      read "////\nNo.\n////\n= News\n\nYes.\n".toList =
        { title? := none, attributes := [], firstBlock := ["= News".toList] } ∧
      read "= News\n////\n:draft: yes\n////\n\nYes.\n".toList =
        { title? := some "News".toList, attributes := [("draft".toList, "yes".toList)]
          firstBlock := ["Yes.".toList] } ∧
      Delimiter.opening? "/////".toList = some ⟨'/', 5⟩ ∧
      read "= News\n\n/////\nNo.\n/////\nYes.\n".toList =
        { title? := some "News".toList, attributes := []
          firstBlock := ["/////".toList, "No.".toList, "/////".toList, "Yes.".toList] } := by
  decide

/-! ### Unset entries -/

/-- The line that unsets an attribute. -/
def unsetLine (name : Text) : Text := ':' :: (name ++ "!:".toList)

theorem assignment?_unsetLine (hname : isEntryName name = true) :
    assignment? (unsetLine name) = none := by
  have hcolon : ':' ∉ name ++ ['!'] := by
    have h := not_mem_of_isEntryName hname (c := ':') (by decide)
    simp [h]
  have hcut : Text.splitFirst? ':' (name ++ "!:".toList) = some (name ++ ['!'], []) := by
    have h := Text.splitFirst?_append hcolon []
    rwa [List.append_assoc] at h
  have hmark : isEntryName (name ++ ['!']) = false := by
    by_contra h
    exact not_mem_of_isEntryName (eq_true_of_ne_false h) (c := '!') (by decide) (by simp)
  rw [unsetLine, assignment?, hcut]
  simp only [hmark, Bool.false_eq_true, if_false]

theorem not_isPassed_unsetLine (hname : isEntryName name = true) :
    isPassed (unsetLine name) = false := by
  obtain ⟨trimmed, htrim⟩ := trim_colon (name ++ "!:".toList)
  rw [isPassed, assignment?_unsetLine hname, unsetLine, isSkipped_colon, htrim]
  rfl

theorem not_isCommentFence_unsetLine (name : Text) : isCommentFence (unsetLine name) = false := by
  obtain ⟨trimmed, htrim⟩ := trim_colon (name ++ "!:".toList)
  rw [isCommentFence, unsetLine, htrim]
  rfl

/-- The lines on the right have one more than those on the left, which unsets `name`: in the header,
after the title line, or in a comment block that ends before the first paragraph of a body. -/
inductive GainsUnset (name : Text) : List Text → List Text → Prop
  | header {lead entries rest : List Text} {line title : Text}
      (hlead : ∀ l ∈ lead, isLead l = true) (htitle : titleOf? line = some title)
      (hentries : ∀ l ∈ entries, Text.isBlank l = false) :
      GainsUnset name (lead ++ line :: (entries ++ rest))
        (lead ++ line :: (entries ++ unsetLine name :: rest))
  | commented {header before inner inner' after : List Text} {opening closing : Text}
      {title? : Option Text} {attributes : Table Text}
      (hbegins : Begins header title? attributes (before ++ after))
      (hblock : CommentBlock header before opening (inner ++ inner') closing) :
      GainsUnset name (header ++ (before ++ opening :: (inner ++ inner' ++ closing :: after)))
        (header ++ (before ++ opening :: (inner ++ unsetLine name :: inner' ++ closing :: after)))

theorem ofLines_eq_of_unset {lines' : List Text} (hname : isEntryName name = true)
    (h : GainsUnset name lines lines') : ofLines lines' = ofLines lines := by
  cases h with
  | @header lead entries rest line title hlead htitle hentries =>
    have hunset : Text.isBlank (unsetLine name) = false :=
      isBlank_of_not_isPassed (not_isPassed_unsetLine hname)
    obtain ⟨htake, hdrop⟩ := span_notBlank hentries rest
    obtain ⟨htake', hdrop'⟩ := span_notBlank hentries (unsetLine name :: rest)
    rw [ofLines_titled hlead htitle, ofLines_titled hlead htitle, htake, hdrop, htake', hdrop']
    simp only [List.takeWhile_cons, List.dropWhile_cons, hunset, Bool.not_false, if_true,
      List.foldl_append, List.foldl_cons,
      setEntry_of_assignment?_eq_none (assignment?_unsetLine hname)]
  | @commented header before inner inner' after opening closing title? attributes hbegins hblock =>
    have hinside : ∀ l ∈ inner ++ unsetLine name :: inner',
        fourSlashes.isClosedBy l.trim = false := by
      intro l hl
      rcases List.mem_append.1 hl with hl | hl
      · exact hblock.inside l (List.mem_append_left _ hl)
      rcases List.mem_cons.1 hl with rfl | hl
      · exact isCommentFence_eq_isClosedBy.symm.trans (not_isCommentFence_unsetLine name)
      · exact hblock.inside l (List.mem_append_right _ hl)
    rw [ofLines_eq_of_comment_block hbegins hblock,
      ofLines_eq_of_comment_block hbegins { hblock with inside := hinside }]

/-- **An unset entry is not seen** in the header, or in a comment block before the first paragraph
of a body. -/
theorem read_eq_of_unset {s t : Text} (hname : isEntryName name = true)
    (h : GainsUnset name s.lines t.lines) : read t = read s :=
  ofLines_eq_of_unset hname h

/-- An unset entry after the title, and one in a comment block. -/
theorem read_eq_of_unset_draft :
    isEntryName "draft".toList = true ∧
      read "= News\n:draft!:\n:layout: news\n\n////\n////\nYes.\n".toList =
        read "= News\n:layout: news\n\n////\n////\nYes.\n".toList ∧
      read "= News\n\n////\nNo.\n:draft!:\n////\nYes.\n".toList =
        read "= News\n\n////\nNo.\n////\nYes.\n".toList := by
  have hname : isEntryName "draft".toList = true := by decide
  have hheader : GainsUnset "draft".toList
      ([] ++ "= News".toList :: ([] ++ [":layout: news".toList, [], "////".toList, "////".toList,
        "Yes.".toList]))
      ([] ++ "= News".toList :: ([] ++ unsetLine "draft".toList :: [":layout: news".toList, [],
        "////".toList, "////".toList, "Yes.".toList])) :=
    .header (List.forall_mem_nil _) rfl (List.forall_mem_nil _)
  have hbegins : Begins ([] ++ "= News".toList :: ([] ++ [[]])) (some "News".toList) []
      ([] ++ ["Yes.".toList]) :=
    .titled (List.forall_mem_nil _) rfl (List.forall_mem_nil _) rfl
  have hblock : CommentBlock ([] ++ "= News".toList :: ([] ++ [[]])) [] "////".toList
      (["No.".toList] ++ []) "////".toList :=
    ⟨⟨by decide, by decide, by decide⟩, by decide, by decide, by decide⟩
  exact ⟨hname, read_eq_of_unset hname hheader, read_eq_of_unset hname (.commented hbegins hblock)⟩

/-- Elsewhere before the first paragraph of a body, an unset entry starts the paragraph. -/
theorem firstBlock_of_unset (hname : isEntryName name = true)
    (hbegins : Begins header title? attributes (before ++ after))
    (hbefore : BeforeParagraph header before) :
    ∃ more, (ofLines (header ++ (before ++ unsetLine name :: after))).firstBlock =
      unsetLine name :: more := by
  have hpassed : isPassed (unsetLine name) = false := not_isPassed_unsetLine hname
  have hblank : Text.isBlank (unsetLine name) = false := isBlank_of_not_isPassed hpassed
  have hlead : isLead (unsetLine name) = false := by
    by_contra hlead
    rw [isPassed_of_isSkipped (isSkipped_of_isLead (eq_true_of_ne_false hlead))] at hpassed
    cases hpassed
  have hseen : uncommented false (before ++ unsetLine name :: after) =
      uncommented false before ++ unsetLine name :: uncommented false after := by
    rw [uncommented_append, hbefore.commentedAfter_eq hbegins.take,
      uncommented_outside (not_isCommentFence_unsetLine name)]
  rw [(hbegins.insert hlead rfl after).ofLines_eq, ofBody, body_eq, hseen]
  simp only [List.dropWhile_append_of_pos (hbefore.all_isPassed hbegins.take),
    List.dropWhile_cons_of_neg (ne_true_of_eq_false hpassed), List.takeWhile_cons, hblank,
    Bool.not_false, if_true]
  exact ⟨_, rfl⟩

/-- An unset entry after the header is the paragraph, and so is one where an article without a title
starts. -/
theorem unset_entry_is_seen :
    read "= News\n\nYes.\n".toList =
        { title? := some "News".toList, attributes := [], firstBlock := ["Yes.".toList] } ∧
      read "= News\n\n:draft!:\n\nYes.\n".toList =
        { title? := some "News".toList, attributes := [], firstBlock := [":draft!:".toList] } ∧
      read "Yes.\n".toList =
        { title? := none, attributes := [], firstBlock := ["Yes.".toList] } ∧
      read ":draft!:\nYes.\n".toList =
        { title? := none, attributes := []
          firstBlock := [":draft!:".toList, "Yes.".toList] } := by
  decide

end Article

end DocSite
