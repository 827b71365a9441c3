import DocSite.Proofs.Text.Splitting
import DocSite.Proofs.Traversal
import DocSite.Xml

/-!
# Reading XML documents

A document is read in two steps. Its text is cut at the angle brackets into tags and the character
data after them (`Xml.marks?`), and the tags are matched with each other (`Xml.build?`). Neither
step knows what the document is about, so what it finds in a document is what any reader finds
there.

* `Xml.unescape?_escape` : character data is read back, and holds nothing that is markup.
* `Xml.marks?_write` : tags and character data are read back from their text.
* `Xml.Element.IsReadable.isBuilt` : an element is built from its tags.
* `Xml.read?_document` : a document is read back as its root element.

Between elements an element may hold white space only, so an element that holds elements has to hold
one at least: without, the line break in it would be its text.
-/

namespace DocSite

namespace Xml

/-! ### Character data -/

/-- The text that character data stands for. An ampersand starts one of five entities. -/
def unescape? : Text → Option Text
  | [] => some []
  | '&' :: 'l' :: 't' :: ';' :: rest => ('<' :: ·) <$> unescape? rest
  | '&' :: 'g' :: 't' :: ';' :: rest => ('>' :: ·) <$> unescape? rest
  | '&' :: 'a' :: 'm' :: 'p' :: ';' :: rest => ('&' :: ·) <$> unescape? rest
  | '&' :: 'a' :: 'p' :: 'o' :: 's' :: ';' :: rest => ('\'' :: ·) <$> unescape? rest
  | '&' :: 'q' :: 'u' :: 'o' :: 't' :: ';' :: rest => ('"' :: ·) <$> unescape? rest
  | c :: rest => if c = '&' then none else (c :: ·) <$> unescape? rest

theorem escape_cons (c : Char) (s : Text) : escape (c :: s) = escapeChar c ++ escape s := rfl

/-- **Character data is read back.** -/
theorem unescape?_escape (s : Text) : unescape? (escape s) = some s := by
  induction s with
  | nil => rfl
  | cons c s ih =>
    rw [escape_cons, escapeChar]
    split_ifs with hlt hgt hamp hapos hquot
    · simp [unescape?, ih, hlt]
    · simp [unescape?, ih, hgt]
    · simp [unescape?, ih, hamp]
    · simp [unescape?, ih, hapos]
    · simp [unescape?, ih, hquot]
    · simp [unescape?, ih, hamp]

/-- The five entities. -/
def entities : List Text :=
  ["&lt;".toList, "&gt;".toList, "&amp;".toList, "&apos;".toList, "&quot;".toList]

theorem escapeChar_cases (c : Char) :
    escapeChar c ∈ entities ∨ c ∉ ['<', '>', '"'] ∧ escapeChar c = [c] := by
  unfold escapeChar
  split_ifs <;> simp [entities, *]

theorem not_mem_escape {d : Char} (hd : d ∈ ['<', '>', '"']) (s : Text) : d ∉ escape s := by
  have hentities : ∀ entity ∈ entities, '<' ∉ entity ∧ '>' ∉ entity ∧ '"' ∉ entity := by decide
  rw [escape, List.mem_flatMap]
  rintro ⟨c, -, hmem⟩
  rcases escapeChar_cases c with hentity | ⟨hc, hself⟩
  · obtain ⟨hopening, hclosing, hquote⟩ := hentities _ hentity
    simp only [List.mem_cons, List.not_mem_nil, or_false] at hd
    rcases hd with rfl | rfl | rfl
    · exact hopening hmem
    · exact hclosing hmem
    · exact hquote hmem
  · rw [hself, List.mem_singleton] at hmem
    exact hc (hmem ▸ hd)

/-! ### Tags -/

/-- A character of a name. -/
def isNameChar (c : Char) : Bool := c.isAlphanum || c = '-' || c = '_' || c = '.' || c = ':'

/-- A name of an element or an attribute. -/
def isName (s : Text) : Bool := s ≠ [] && s.all isNameChar

theorem ne_nil_of_isName {name : Text} (h : isName name = true) : name ≠ [] := by
  rintro rfl
  cases h

theorem not_mem_of_isName {name : Text} (h : isName name = true) {c : Char}
    (hc : isNameChar c = false) : c ∉ name := by
  intro hmem
  simp only [isName, Bool.and_eq_true, List.all_eq_true] at h
  rw [h.2 c hmem] at hc
  cases hc

/-- A tag: it opens an element, or closes one. -/
inductive Tag where
  | opens (name : Text) (attributes : List (Text × Text))
  | closes (name : Text)
  deriving DecidableEq, Repr

/-- The attributes in the pieces that quotes cut a tag into: a name with an equals sign, a value. -/
def readAttributes? : List Text → Option (List (Text × Text))
  | [[]] => some []
  | key :: value :: rest =>
    match Text.splitFirst? '=' key with
    | some (' ' :: key, []) => do
      let value ← unescape? value
      let others ← readAttributes? rest
      if isName key then some ((key, value) :: others) else none
    | _ => none
  | _ => none

/-- The tag with a text between its brackets. -/
def Tag.read? (body : Text) : Option Tag :=
  match body with
  | '/' :: name => if isName name then some (.closes name) else none
  | _ =>
    let name := body.takeWhile isNameChar
    if isName name then
      (readAttributes? ((body.dropWhile isNameChar).splitOn '"')).map (.opens name)
    else none

/-- An attribute in a tag. -/
def writeAttribute (a : Text × Text) : Text := ' ' :: a.1 ++ '=' :: '"' :: escape a.2 ++ ['"']

/-- What stands between the brackets of a tag. -/
def Tag.body : Tag → Text
  | .opens name attributes => name ++ attributes.flatMap writeAttribute
  | .closes name => '/' :: name

/-- A tag whose names are names. -/
inductive Tag.IsProper : Tag → Prop
  | opens {name : Text} {attributes : List (Text × Text)} (hname : isName name = true)
    (hattributes : ∀ a ∈ attributes, isName a.1 = true) : IsProper (.opens name attributes)
  | closes {name : Text} (hname : isName name = true) : IsProper (.closes name)

theorem openTag_eq (name : Text) (attributes : List (Text × Text)) :
    openTag name attributes = '<' :: ((Tag.opens name attributes).body ++ ['>']) := rfl

theorem closeTag_eq (name : Text) : closeTag name = '<' :: ((Tag.closes name).body ++ ['>']) := rfl

theorem readAttributes?_write {attributes : List (Text × Text)}
    (h : ∀ a ∈ attributes, isName a.1 = true) :
    readAttributes? ((attributes.flatMap writeAttribute).splitOn '"') = some attributes := by
  induction attributes with
  | nil => rfl
  | cons a attributes ih =>
    obtain ⟨ha, hrest⟩ := List.forall_mem_cons.1 h
    have hkey : '"' ∉ ' ' :: (a.1 ++ ['=']) := by
      simp [not_mem_of_isName ha (c := '"') (by decide)]
    have hvalue : '"' ∉ escape a.2 := not_mem_escape (by decide) a.2
    have hpieces : ((a :: attributes).flatMap writeAttribute).splitOn '"' =
        (' ' :: (a.1 ++ ['='])) :: escape a.2 ::
          (attributes.flatMap writeAttribute).splitOn '"' := by
      have htext : (a :: attributes).flatMap writeAttribute = (' ' :: (a.1 ++ ['='])) ++ '"' ::
          (escape a.2 ++ '"' :: attributes.flatMap writeAttribute) := by
        simp [writeAttribute]
      rw [htext, List.splitOn_append_cons_self, List.splitOn_append_cons_self,
        List.splitOn_eq_singleton hkey, List.splitOn_eq_singleton hvalue]
      rfl
    have hsplit : Text.splitFirst? '=' (' ' :: (a.1 ++ ['='])) = some (' ' :: a.1, []) := by
      refine Text.splitFirst?_append (a := ' ' :: a.1) ?_ []
      simp [not_mem_of_isName ha (c := '=') (by decide)]
    rw [hpieces, readAttributes?, hsplit]
    simp only [unescape?_escape, ih hrest, Option.bind_eq_bind, Option.bind_some, ha, if_true]

/-- **A tag is read back.** -/
theorem Tag.read?_body {tag : Tag} (h : tag.IsProper) : Tag.read? tag.body = some tag := by
  cases h with
  | closes hname => rw [Tag.body, Tag.read?, if_pos hname]
  | @opens name attributes hname hattributes =>
    have hall : ∀ c ∈ name, isNameChar c = true := by
      simp only [isName, Bool.and_eq_true, List.all_eq_true] at hname
      exact hname.2
    have hslash : ∀ other, (Tag.opens name attributes).body ≠ '/' :: other := by
      intro other heq
      obtain ⟨c, rest, rfl⟩ := List.exists_cons_of_ne_nil (ne_nil_of_isName hname)
      obtain rfl := (List.cons.inj heq).1
      exact absurd (hall _ List.mem_cons_self) (by decide)
    -- the first attribute starts with a blank, which no name holds
    have hends : (attributes.flatMap writeAttribute).takeWhile isNameChar = [] ∧
        (attributes.flatMap writeAttribute).dropWhile isNameChar =
          attributes.flatMap writeAttribute := by
      cases attributes with
      | nil => exact ⟨rfl, rfl⟩
      | cons a attributes => exact ⟨rfl, rfl⟩
    have htake : (Tag.opens name attributes).body.takeWhile isNameChar = name := by
      rw [Tag.body, List.takeWhile_append_of_pos hall, hends.1, List.append_nil]
    have hdrop : (Tag.opens name attributes).body.dropWhile isNameChar =
        attributes.flatMap writeAttribute := by
      rw [Tag.body, List.dropWhile_append_of_pos hall, hends.2]
    rw [Tag.read?]
    · rw [htake, if_pos hname, hdrop, readAttributes?_write hattributes, Option.map_some]
    · exact hslash

theorem Tag.not_mem_body {tag : Tag} (h : tag.IsProper) {d : Char} (hd : d ∈ ['<', '>']) :
    d ∉ tag.body := by
  have hspecial : isNameChar d = false ∧ d ≠ '/' ∧ d ≠ ' ' ∧ d ≠ '=' ∧ d ≠ '"' := by
    simp only [List.mem_cons, List.not_mem_nil, or_false] at hd
    rcases hd with rfl | rfl <;> decide
  obtain ⟨hchar, hother⟩ := hspecial
  have hname {name : Text} (h : isName name = true) : d ∉ name := not_mem_of_isName h hchar
  cases h with
  | closes hclosed => simp [Tag.body, hname hclosed, hother]
  | @opens name attributes hopened hattributes =>
    have hattribute : ∀ a ∈ attributes, d ∉ writeAttribute a := by
      intro a ha
      have hvalue : d ∉ escape a.2 := not_mem_escape (List.mem_append_left ['"'] hd) a.2
      simp [writeAttribute, hname (hattributes a ha), hvalue, hother]
    rw [Tag.body, List.mem_append, List.mem_flatMap, not_or]
    exact ⟨hname hopened, fun ⟨a, ha, hmem⟩ => hattribute a ha hmem⟩

/-! ### Marks -/

/-- A tag with the character data after it. -/
structure Mark where
  tag : Tag
  /-- The text up to the next tag. -/
  after : Text
  deriving DecidableEq, Repr

/-- The text of a mark without its first bracket. -/
def Mark.piece (m : Mark) : Text := m.tag.body ++ '>' :: escape m.after

/-- The mark in a piece that starts after an opening angle bracket. -/
def Mark.read? (piece : Text) : Option Mark := do
  let (body, data) ← Text.splitFirst? '>' piece
  let tag ← Tag.read? body
  let after ← unescape? data
  return ⟨tag, after⟩

/-- The text of marks. -/
def write (marks : List Mark) : Text := marks.flatMap fun m => '<' :: m.piece

/-- The marks of a text that starts with a tag, with or without white space before it. -/
def marks? (s : Text) : Option (List Mark) :=
  match s.splitOn '<' with
  | lead :: pieces => if Text.isBlank lead then pieces.mapM Mark.read? else none
  | [] => none

theorem Mark.read?_piece {m : Mark} (h : m.tag.IsProper) : Mark.read? m.piece = some m := by
  have hsplit : Text.splitFirst? '>' m.piece = some (m.tag.body, escape m.after) :=
    Text.splitFirst?_append (Tag.not_mem_body h (by decide)) _
  simp only [Mark.read?, hsplit, Option.bind_eq_bind, Option.bind_some, Tag.read?_body h,
    unescape?_escape]
  rfl

theorem Mark.not_mem_piece {m : Mark} (h : m.tag.IsProper) : '<' ∉ m.piece := by
  have hbody : '<' ∉ m.tag.body := Tag.not_mem_body h (by decide)
  have hdata : '<' ∉ escape m.after := not_mem_escape (by decide) _
  simp [Mark.piece, hbody, hdata]

theorem splitOn_write {marks : List Mark} (h : ∀ m ∈ marks, m.tag.IsProper) {lead : Text}
    (hlead : '<' ∉ lead) : (lead ++ write marks).splitOn '<' = lead :: marks.map Mark.piece := by
  induction marks generalizing lead with
  | nil =>
    rw [write, List.flatMap_nil, List.append_nil]
    exact List.splitOn_eq_singleton hlead
  | cons m marks ih =>
    obtain ⟨hm, hmarks⟩ := List.forall_mem_cons.1 h
    have htext : lead ++ write (m :: marks) = lead ++ '<' :: (m.piece ++ write marks) := by
      simp [write]
    rw [htext, List.splitOn_append_cons_self, List.splitOn_eq_singleton hlead,
      ih hmarks (Mark.not_mem_piece hm)]
    rfl

/-- **Marks are read back from their text**, whatever texts and values stand in it. -/
theorem marks?_write {marks : List Mark} (h : ∀ m ∈ marks, m.tag.IsProper) {lead : Text}
    (hlead : Text.isBlank lead = true) : marks? (lead ++ write marks) = some marks := by
  have hbracket : '<' ∉ lead := fun hmem =>
    absurd (List.all_eq_true.1 hlead _ hmem) (by decide)
  rw [marks?, splitOn_write h hbracket]
  dsimp only
  rw [if_pos hlead, mapM_map_eq_some fun m hm => Mark.read?_piece (h m hm), List.map_id']

/-! ### Elements -/

/-- An element whose closing tag has not been read. -/
structure Open where
  name : Text
  attributes : List (Text × Text)
  /-- The elements that were closed in it. -/
  children : List Element
  /-- The text in it. -/
  data : Text
  deriving Repr

namespace Open

/-- The element that is closed. Between elements there is white space only. -/
def close? (o : Open) : Option Element :=
  match o.children with
  | [] => some (.leaf o.name o.attributes o.data)
  | children => if Text.isBlank o.data then some (.node o.name o.attributes children) else none

/-- The element with one more in it, and text after that. -/
def add (o : Open) (e : Element) (data : Text) : Open :=
  { o with children := o.children ++ [e], data := o.data ++ data }

end Open

/-- The root element that marks build, where `opened` are the elements to be closed, the innermost
first. The outermost stands for the document. -/
def build? : (opened : List Open) → List Mark → Option Element
  | [⟨_, _, [root], data⟩], [] => if Text.isBlank data then some root else none
  | opened, ⟨.opens name attributes, data⟩ :: rest =>
    build? (⟨name, attributes, [], data⟩ :: opened) rest
  | o :: parent :: opened, ⟨.closes name, data⟩ :: rest =>
    if o.name = name then o.close?.bind fun e => build? (parent.add e data :: opened) rest
    else none
  | _, _ => none

/-- The declaration that a document starts with. -/
def declaration : Text := "<?xml version=\"1.0\" encoding=\"UTF-8\"?>".toList

/-- The marks of a document. -/
def documentMarks? (s : Text) : Option (List Mark) := (declaration.isPrefixOf? s).bind marks?

/-- The root element of a document. -/
def read? (s : Text) : Option Element := (documentMarks? s).bind (build? [⟨[], [], [], []⟩])

/-- The tags of a document in their order. -/
def tags? (s : Text) : Option (List Tag) := (documentMarks? s).map fun marks => marks.map Mark.tag

/-! ### The marks of an element -/

/-- The white space in an element at a level before those that follow in it. -/
def gap (level : Nat) : List Element → Text
  | [] => newline level
  | _ :: _ => newline (level + 1)

mutual

/-- The marks of an element at a level, where `after` follows the element. -/
def Element.marks (level : Nat) (after : Text) : Element → List Mark
  | .leaf name attributes content => [⟨.opens name attributes, content⟩, ⟨.closes name, after⟩]
  | .node name attributes children =>
    ⟨.opens name attributes, gap level children⟩ :: (marksWithin level children ++
      [⟨.closes name, after⟩])

/-- The marks of the elements that follow in an element at a level. -/
def marksWithin (level : Nat) : List Element → List Mark
  | [] => []
  | e :: rest => e.marks (level + 1) (gap level rest) ++ marksWithin level rest

end

mutual

/-- The tags of an element. -/
def Element.tags : Element → List Tag
  | .leaf name attributes _ => [.opens name attributes, .closes name]
  | .node name attributes children =>
    .opens name attributes :: (tagsWithin children ++ [.closes name])

/-- The tags of elements one after another. -/
def tagsWithin : List Element → List Tag
  | [] => []
  | e :: rest => e.tags ++ tagsWithin rest

end

mutual

/-- The tags do not depend on where an element stands. -/
theorem map_tag_marks (level : Nat) (after : Text) :
    ∀ e : Element, (e.marks level after).map Mark.tag = e.tags
  | .leaf _ _ _ => rfl
  | .node name attributes children => by
    rw [Element.marks, Element.tags, List.map_cons, List.map_append,
      map_tag_marksWithin level children]
    rfl

theorem map_tag_marksWithin (level : Nat) :
    ∀ es : List Element, (marksWithin level es).map Mark.tag = tagsWithin es
  | [] => rfl
  | e :: rest => by
    rw [marksWithin, tagsWithin, List.map_append, map_tag_marks, map_tag_marksWithin]

end

theorem escape_newline (level : Nat) : escape (newline level) = newline level := by
  have hblanks : ∀ n, escape (List.replicate n ' ') = List.replicate n ' ' := by
    intro n
    induction n with
    | zero => rfl
    | succ n ih =>
      rw [List.replicate_succ, escape_cons, ih]
      rfl
  rw [newline, escape_cons, hblanks]
  rfl

theorem escape_gap (level : Nat) (es : List Element) : escape (gap level es) = gap level es := by
  cases es with
  | nil => exact escape_newline level
  | cons e es => exact escape_newline (level + 1)

theorem isBlank_newline (level : Nat) : Text.isBlank (newline level) = true := by
  refine List.all_eq_true.2 fun c hc => ?_
  rcases List.mem_cons.1 hc with rfl | hc
  · decide
  · rw [List.eq_of_mem_replicate hc]
    decide

theorem isBlank_gap (level : Nat) (es : List Element) : Text.isBlank (gap level es) = true := by
  cases es with
  | nil => exact isBlank_newline level
  | cons e es => exact isBlank_newline (level + 1)

theorem isBlank_append {a b : Text} (ha : Text.isBlank a = true) (hb : Text.isBlank b = true) :
    Text.isBlank (a ++ b) = true := by
  rw [Text.isBlank, List.all_append, ← Text.isBlank, ← Text.isBlank, ha, hb]
  rfl

theorem write_append (marks marks' : List Mark) :
    write (marks ++ marks') = write marks ++ write marks' :=
  List.flatMap_append

theorem write_opens (name : Text) (attributes : List (Text × Text)) (data : Text)
    (rest : List Mark) : write (⟨.opens name attributes, data⟩ :: rest) =
      openTag name attributes ++ escape data ++ write rest := by
  simp [write, Mark.piece, openTag_eq]

theorem write_closes (name data : Text) : write [⟨.closes name, data⟩] =
    closeTag name ++ escape data := by
  simp [write, Mark.piece, closeTag_eq]

mutual

theorem write_marks (level : Nat) (after : Text) :
    ∀ e : Element, write (e.marks level after) = e.render level ++ escape after
  | .leaf name attributes content => by
    rw [Element.marks, write_opens, write_closes, Element.render]
    simp only [List.append_assoc]
  | .node name attributes children => by
    have hchildren := write_marksWithin level children
    rw [Element.marks, write_opens, write_append, write_closes, Element.render, escape_gap,
      List.append_assoc _ (gap level children), ← List.append_assoc (gap level children), hchildren]
    simp only [List.append_assoc]

theorem write_marksWithin (level : Nat) :
    ∀ es : List Element, gap level es ++ write (marksWithin level es) =
      renderAll (level + 1) es ++ newline level
  | [] => by
    rw [gap, marksWithin, renderAll]
    simp [write]
  | e :: rest => by
    have hrest := write_marksWithin level rest
    rw [gap, marksWithin, renderAll, write_append, write_marks, escape_gap, List.append_assoc
      (e.render (level + 1)), hrest]
    simp only [List.append_assoc]

end

/-! ### Building elements -/

/-- An element that is read back: its names are names, and it does not hold an empty list of
elements. -/
inductive Element.IsReadable : Element → Prop
  | leaf {name content : Text} {attributes : List (Text × Text)} (hname : isName name = true)
    (hattributes : ∀ a ∈ attributes, isName a.1 = true) :
    IsReadable (.leaf name attributes content)
  | node {name : Text} {attributes : List (Text × Text)} {children : List Element}
    (hname : isName name = true) (hattributes : ∀ a ∈ attributes, isName a.1 = true)
    (hne : children ≠ []) (hchildren : ∀ e ∈ children, IsReadable e) :
    IsReadable (.node name attributes children)

theorem tagsWithin_eq (es : List Element) : tagsWithin es = es.flatMap Element.tags := by
  induction es with
  | nil => rfl
  | cons e es ih => rw [tagsWithin, ih, List.flatMap_cons]

theorem Element.IsReadable.isProper {e : Element} (h : e.IsReadable) :
    ∀ tag ∈ e.tags, tag.IsProper := by
  induction h with
  | leaf hname hattributes =>
    simp only [Element.tags, List.mem_cons, List.not_mem_nil, or_false]
    rintro tag (rfl | rfl)
    · exact .opens hname hattributes
    · exact .closes hname
  | node hname hattributes hne hchildren ih =>
    simp only [Element.tags, tagsWithin_eq, List.mem_cons, List.mem_append, List.mem_flatMap,
      List.not_mem_nil, or_false]
    rintro tag (rfl | ⟨e, he, htag⟩ | rfl)
    · exact .opens hname hattributes
    · exact ih e he tag htag
    · exact .closes hname

/-- The marks of an element build it in the element that is open, wherever it stands. -/
def Element.IsBuilt (e : Element) : Prop :=
  ∀ (level : Nat) (after : Text) (parent : Open) (opened : List Open) (rest : List Mark),
    build? (parent :: opened) (e.marks level after ++ rest) =
      build? (parent.add e after :: opened) rest

/-- The marks of elements one after another build them in the element that is open. -/
theorem exists_build?_marksWithin {es : List Element} (h : ∀ e ∈ es, e.IsBuilt) (level : Nat) :
    ∃ data, Text.isBlank data = true ∧ ∀ (o : Open) (opened : List Open) (rest : List Mark),
      build? (o :: opened) (marksWithin level es ++ rest) =
        build? (⟨o.name, o.attributes, o.children ++ es, o.data ++ data⟩ :: opened) rest := by
  induction es with
  | nil => exact ⟨[], rfl, fun o opened rest => by simp [marksWithin]⟩
  | cons e es ih =>
    obtain ⟨he, hes⟩ := List.forall_mem_cons.1 h
    obtain ⟨data, hdata, hbuild⟩ := ih hes
    refine ⟨gap level es ++ data, isBlank_append (isBlank_gap level es) hdata,
      fun o opened rest => ?_⟩
    rw [marksWithin, List.append_assoc, he, hbuild]
    simp [Open.add]

/-- **An element is built from its marks.** -/
theorem Element.IsReadable.isBuilt {e : Element} (h : e.IsReadable) : e.IsBuilt := by
  induction h with
  | leaf hname hattributes =>
    intro level after parent opened rest
    simp [Element.marks, build?, Open.close?]
  | @node name attributes children hname hattributes hne hchildren ih =>
    intro level after parent opened rest
    obtain ⟨data, hdata, hbuild⟩ := exists_build?_marksWithin ih level
    have hblank : Text.isBlank (gap level children ++ data) = true :=
      isBlank_append (isBlank_gap level children) hdata
    have hclose : Open.close? ⟨name, attributes, children, gap level children ++ data⟩ =
        some (.node name attributes children) := by
      obtain ⟨child, others, rfl⟩ := List.exists_cons_of_ne_nil hne
      rw [Open.close?]
      exact if_pos hblank
    have hopens : build? (parent :: opened) ((Element.node name attributes children).marks level
        after ++ rest) = build? (⟨name, attributes, [], gap level children⟩ :: parent :: opened)
          (marksWithin level children ++ (⟨.closes name, after⟩ :: rest)) := by
      rw [Element.marks]
      simp [build?]
    rw [hopens, hbuild]
    dsimp only
    rw [List.nil_append, build?, if_pos rfl, hclose, Option.bind_some]

/-! ### Documents -/

theorem document_eq (root : Element) :
    document root = declaration ++ (newline 0 ++ root.render 0) :=
  List.append_assoc _ _ _

theorem documentMarks?_document {root : Element} (h : root.IsReadable) :
    documentMarks? (document root) = some (root.marks 0 []) := by
  have hproper : ∀ m ∈ root.marks 0 [], m.tag.IsProper := by
    intro m hm
    have htag : m.tag ∈ (root.marks 0 []).map Mark.tag := List.mem_map_of_mem hm
    rw [map_tag_marks] at htag
    exact h.isProper _ htag
  have hrender : root.render 0 = write (root.marks 0 []) := by
    rw [write_marks]
    exact (List.append_nil _).symm
  have htext : document root = declaration ++ (newline 0 ++ write (root.marks 0 [])) := by
    rw [document_eq, hrender]
  have hprefix : declaration.isPrefixOf? (document root) =
      some (newline 0 ++ write (root.marks 0 [])) :=
    List.isPrefixOf?_eq_some_iff_append_eq.2 htext.symm
  rw [documentMarks?, hprefix, Option.bind_some, marks?_write hproper (isBlank_newline 0)]

/-- **A document is read back as its root element.** -/
theorem read?_document {root : Element} (h : root.IsReadable) :
    read? (document root) = some root := by
  have hbuild := h.isBuilt 0 [] ⟨[], [], [], []⟩ [] []
  rw [List.append_nil] at hbuild
  rw [read?, documentMarks?_document h, Option.bind_some, hbuild]
  rfl

theorem tags?_document {root : Element} (h : root.IsReadable) :
    tags? (document root) = some root.tags := by
  rw [tags?, documentMarks?_document h, Option.map_some, map_tag_marks]

end Xml

end DocSite
