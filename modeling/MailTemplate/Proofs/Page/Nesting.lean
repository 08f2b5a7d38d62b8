import MailTemplate.Page.Outline
import MailTemplate.Proofs.Page.Tags

/-!
# The tags of a page tree

The text of a page tree is well nested whatever strings are in it, if its elements and attributes
have proper names and the normal forms of its rich texts are well nested (`Piece.Tidy`,
`Part.Tidy`).  The ids that its tags carry are those of the tree, escaped, from front to back
(`Piece.ids`, `Part.ids`).  Proved by induction on the tree (`Piece.nests`, `Part.nests`).
-/

namespace MailTemplate

namespace Page

open Markup

/-! ### Names -/

/-- The text is a proper name: one letter or digit or more. -/
def isName (s : String) : Bool := !s.toList.isEmpty && s.toList.all Char.isAlphanum

lemma isAlphanum_of_isName {s : String} (h : isName s = true) :
    ∀ c ∈ s.toList, c.isAlphanum = true := by
  rw [isName, Bool.and_eq_true] at h
  exact List.all_eq_true.mp h.2

/-- A character that is no letter and no digit is not in a name. -/
lemma not_mem_of_isName {s : String} (h : isName s = true) {c : Char}
    (hc : c.isAlphanum = false) : c ∉ s.toList := by
  intro hmem
  rw [isAlphanum_of_isName h c hmem] at hc
  cases hc

lemma exists_cons_of_isName {s : String} (h : isName s = true) :
    ∃ c cs, s.toList = c :: cs ∧ c.isAlphanum = true := by
  have hall := isAlphanum_of_isName h
  rw [isName, Bool.and_eq_true] at h
  cases hs : s.toList with
  | nil =>
    rw [hs] at h
    cases h.1
  | cons c cs =>
    rw [hs] at hall
    exact ⟨c, cs, rfl, hall c List.mem_cons_self⟩

lemma unsigned_of_isName {s : String} (h : isName s = true) : Unsigned s.toList :=
  ⟨not_mem_of_isName h (by decide), not_mem_of_isName h (by decide)⟩

lemma unsigned_closing {s : String} (h : isName s = true) : Unsigned ('/' :: s.toList) := by
  have hslash : Unsigned ['/'] := by decide
  exact hslash.append (unsigned_of_isName h)

lemma isGap_of_isName {s : String} (h : isName s = true) :
    ∀ c ∈ s.toList, (!isGap c) = true := by
  intro c hc
  have hne : ∀ d : Char, d.isAlphanum = false → (c == d) = false := by
    intro d hd
    rw [beq_eq_false_iff_ne]
    rintro rfl
    exact not_mem_of_isName h hd hc
  rw [isGap, hne ' ' (by decide), hne '\t' (by decide), hne '\n' (by decide),
    hne '\x0c' (by decide)]
  rfl

/-! ### Written tags -/

/-- A tag as it is written, without its signs. -/
def rawTag (name : String) (attributes : Named) : List Char :=
  name.toList ++ attributes.flatMap writeNamed

/-- The attributes have proper names. -/
def TidyNamed (attributes : Named) : Prop := ∀ a ∈ attributes, isName a.1 = true

/-- The element and its attributes have proper names. -/
def TidyTag (name : String) (attributes : Named) : Prop :=
  isName name = true ∧ TidyNamed attributes

/-- The ids among the attributes of an element, escaped. -/
def namedIds (name : String) (attributes : Named) : List (List Char × List Char) :=
  (attributes.filter (·.1 == "id")).map fun a => (name.toList, escapeValue a.2.toList)

@[simp] lemma tidyNamed_nil : TidyNamed [] := List.forall_mem_nil _

@[simp] lemma tidyNamed_cons {a : String × String} {attributes : Named} :
    TidyNamed (a :: attributes) ↔ isName a.1 = true ∧ TidyNamed attributes :=
  List.forall_mem_cons

@[simp] lemma tidyNamed_append {attributes more : Named} :
    TidyNamed (attributes ++ more) ↔ TidyNamed attributes ∧ TidyNamed more :=
  List.forall_mem_append

@[simp] lemma namedIds_nil (name : String) : namedIds name [] = [] := rfl

@[simp] lemma namedIds_append (name : String) (attributes more : Named) :
    namedIds name (attributes ++ more) = namedIds name attributes ++ namedIds name more := by
  rw [namedIds, List.filter_append, List.map_append]
  rfl

lemma namedIds_cons (name : String) (a : String × String) (attributes : Named) :
    namedIds name (a :: attributes) =
      if a.1 = "id" then (name.toList, escapeValue a.2.toList) :: namedIds name attributes
      else namedIds name attributes := by
  by_cases hid : a.1 = "id"
  · rw [if_pos hid, namedIds, List.filter_cons_of_pos (by simpa using hid), List.map_cons]
    rfl
  · rw [if_neg hid, namedIds, List.filter_cons_of_neg (by simpa using hid)]
    rfl

lemma unsigned_escapeValue (cs : List Char) : Unsigned (escapeValue cs) :=
  ⟨not_mem_escapeValue (by decide) cs, not_mem_escapeValue (by decide) cs⟩

lemma unsigned_escapeText (cs : List Char) : Unsigned (escapeText cs) :=
  ⟨not_mem_escapeText (by decide) cs, not_mem_escapeText (by decide) cs⟩

lemma unsigned_writeNamed {a : String × String} (h : isName a.1 = true) :
    Unsigned (writeNamed a) := by
  have hlead : Unsigned [' '] := by decide
  have hmiddle : Unsigned ['=', '"'] := by decide
  have hend : Unsigned ['"'] := by decide
  exact (((hlead.append (unsigned_of_isName h)).append hmiddle).append
    (unsigned_escapeValue a.2.toList)).append hend

lemma unsigned_flatMap_writeNamed {attributes : Named} (h : TidyNamed attributes) :
    Unsigned (attributes.flatMap writeNamed) := by
  constructor
  · intro hmem
    obtain ⟨a, ha, hin⟩ := List.mem_flatMap.mp hmem
    exact (unsigned_writeNamed (h a ha)).1 hin
  · intro hmem
    obtain ⟨a, ha, hin⟩ := List.mem_flatMap.mp hmem
    exact (unsigned_writeNamed (h a ha)).2 hin

lemma TidyTag.unsigned {name : String} {attributes : Named} (h : TidyTag name attributes) :
    Unsigned (rawTag name attributes) :=
  (unsigned_of_isName h.1).append (unsigned_flatMap_writeNamed h.2)

/-- The name at the front of a written tag, which may end itself. -/
lemma elementName_rawTag {name : String} {attributes : Named} (h : TidyTag name attributes)
    {ending : List Char} (hending : ending = [] ∨ ∃ rest, ending = ' ' :: rest) :
    elementName (rawTag name attributes ++ ending) = name.toList := by
  have hname := isGap_of_isName h.1
  have hafter : ∀ rest, elementName (name.toList ++ ' ' :: rest) = name.toList := by
    intro rest
    exact takeWhile_run hname (by decide)
  cases attributes with
  | nil =>
    rw [rawTag, List.flatMap_nil, List.append_nil]
    rcases hending with rfl | ⟨rest, rfl⟩
    · rw [List.append_nil, elementName]
      exact List.takeWhile_eq_self_iff.mpr hname
    · exact hafter rest
  | cons a attributes =>
    rw [rawTag, List.flatMap_cons, writeNamed, List.append_assoc]
    exact hafter _

/-- The last word before a value is the attribute's name with the sign behind it. -/
lemma lastWord_attribute (front : List Char) {key : String} (hkey : isName key = true) :
    lastWord (front ++ ' ' :: key.toList ++ ['=']) = key.toList ++ ['='] := by
  have hrun : ∀ c ∈ '=' :: key.toList.reverse, (!isGap c) = true := by
    intro c hc
    rcases List.mem_cons.mp hc with rfl | hc
    · decide
    · exact isGap_of_isName hkey c (List.mem_reverse.mp hc)
  have hreverse : (front ++ ' ' :: key.toList ++ ['=']).reverse =
      ('=' :: key.toList.reverse) ++ ' ' :: front.reverse := by
    simp
  rw [lastWord, hreverse, takeWhile_run hrun (by decide), List.reverse_cons, List.reverse_reverse]

/-- The id values of a written tag are those among its attributes, escaped. -/
lemma idValues_written {attributes : Named} (h : TidyNamed attributes)
    {front ending : List Char} (hfront : '"' ∉ front) (hending : '"' ∉ ending) :
    idValues (front ++ attributes.flatMap writeNamed ++ ending) =
      (attributes.filter (·.1 == "id")).map fun a => escapeValue a.2.toList := by
  have hunmarked : ∀ cs : List Char, '"' ∉ cs → ∀ c ∈ cs, (c == '"') = false := by
    intro cs hcs c hc
    rw [beq_eq_false_iff_ne]
    rintro rfl
    exact hcs hc
  induction attributes generalizing front with
  | nil =>
    have hall : '"' ∉ front ++ ending := by
      intro hmem
      exact (List.mem_append.mp hmem).elim hfront hending
    rw [List.flatMap_nil, List.append_nil, idValues,
      Text.splitOn_eq_singleton (hunmarked _ hall)]
    rfl
  | cons a attributes ih =>
    obtain ⟨hkey, hrest⟩ := List.forall_mem_cons.mp h
    have hbefore : '"' ∉ front ++ ' ' :: a.1.toList ++ ['='] := by
      simp [hfront, not_mem_of_isName hkey (c := '"') (by decide)]
    have hvalue : '"' ∉ escapeValue a.2.toList := not_mem_escapeValue (by decide) _
    have hsplit : front ++ (a :: attributes).flatMap writeNamed ++ ending =
        (front ++ ' ' :: a.1.toList ++ ['=']) ++ '"' ::
          (escapeValue a.2.toList ++ '"' :: ([] ++ attributes.flatMap writeNamed ++ ending)) := by
      simp [writeNamed]
    have hnil : '"' ∉ ([] : List Char) := List.not_mem_nil
    have hmore := ih hrest hnil
    rw [idValues] at hmore ⊢
    rw [hsplit, Text.splitOn_append_mark (hunmarked _ hbefore) rfl,
      Text.splitOn_append_mark (hunmarked _ hvalue) rfl, quoted, List.filterMap_cons,
      lastWord_attribute front hkey, hmore]
    have hiff : a.1.toList ++ ['='] = "id=".toList ↔ a.1 = "id" := by
      rw [show "id=".toList = "id".toList ++ ['='] from rfl, List.append_left_inj,
        String.toList_inj]
    by_cases hid : a.1 = "id"
    · rw [if_pos (hiff.mpr hid), List.filter_cons_of_pos (by simpa using hid), List.map_cons]
    · rw [if_neg (mt hiff.mp hid), List.filter_cons_of_neg (by simpa using hid)]

/-- The ids that a written tag carries. -/
lemma TidyTag.idsOfTag {name : String} {attributes : Named} (h : TidyTag name attributes)
    {ending : List Char} (hending : ending = [] ∨ ending = [' ', '/']) :
    idsOfTag (rawTag name attributes ++ ending) = namedIds name attributes := by
  have hquote : '"' ∉ ending := by
    rcases hending with rfl | rfl <;> decide
  have hgap : ending = [] ∨ ∃ rest, ending = ' ' :: rest := by
    rcases hending with rfl | rfl
    · exact Or.inl rfl
    · exact Or.inr ⟨['/'], rfl⟩
  rw [Markup.idsOfTag, elementName_rawTag h hgap, rawTag,
    idValues_written h.2 (not_mem_of_isName h.1 (by decide)) hquote, List.map_map]
  rfl

/-- A closing tag carries no id. -/
lemma idsOfTag_closing {name : String} (h : isName name = true) :
    Markup.idsOfTag ('/' :: name.toList) = [] := by
  have hfront : '"' ∉ '/' :: name.toList :=
    List.not_mem_cons_of_ne_of_not_mem (by decide) (not_mem_of_isName h (by decide))
  have hvalues := idValues_written tidyNamed_nil hfront List.not_mem_nil
  rw [List.flatMap_nil, List.append_nil, List.append_nil] at hvalues
  rw [Markup.idsOfTag, hvalues]
  rfl

/-- A written tag does not end with a slash. -/
lemma getLast?_rawTag_ne {name : String} {attributes : Named} (h : TidyTag name attributes) :
    (rawTag name attributes).getLast? ≠ some '/' := by
  intro hlast
  rcases List.eq_nil_or_concat attributes with rfl | ⟨before, a, rfl⟩
  · rw [rawTag, List.flatMap_nil, List.append_nil] at hlast
    exact not_mem_of_isName h.1 (by decide) (List.mem_of_getLast? hlast)
  · rw [rawTag, List.concat_eq_append, List.flatMap_append, List.flatMap_singleton, writeNamed,
      ← List.append_assoc, ← List.append_assoc, List.getLast?_concat] at hlast
    cases hlast

/-- An opening tag of an element that is not void opens it. -/
lemma takeTag_opening {name : String} {attributes : Named} (h : TidyTag name attributes)
    (hvoid : name ∉ voidElements) :
    takeTag [] (rawTag name attributes) = some [name.toList] := by
  obtain ⟨c, cs, hname, hc⟩ := exists_cons_of_isName h.1
  have htag : elementName (rawTag name attributes) = name.toList := by
    simpa using elementName_rawTag h (Or.inl rfl)
  have hcons : rawTag name attributes = c :: (cs ++ attributes.flatMap writeNamed) := by
    rw [rawTag, hname, List.cons_append]
  have hne : ∀ d : Char, d.isAlphanum = false → c ≠ d := by
    rintro d hd rfl
    rw [hc] at hd
    cases hd
  have halone : standsAlone (rawTag name attributes) = false := by
    have hlast := getLast?_rawTag_ne h
    have hhead : (rawTag name attributes).head? ≠ some '!' := by
      rw [hcons]
      simpa using hne '!' (by decide)
    simp only [standsAlone, htag, String.ofList_toList, Bool.or_eq_false_iff, beq_eq_false_iff_ne]
    exact ⟨⟨hhead, hlast⟩, by simpa using hvoid⟩
  have hcloses : closes? (rawTag name attributes) = none := by
    rw [hcons, closes?]
    rintro rest heq
    exact hne '/' (by decide) (List.cons.inj heq).1
  rw [takeTag, halone, hcloses, htag]
  rfl

/-- A closing tag closes the element of its name. -/
lemma takeTag_closing {name : String} (h : isName name = true) :
    takeTag [name.toList] ('/' :: name.toList) = some [] := by
  obtain ⟨c, cs, hname, -⟩ := exists_cons_of_isName h
  have hgaps : ∀ c ∈ '/' :: name.toList, (!isGap c) = true :=
    List.forall_mem_cons.mpr ⟨by decide, isGap_of_isName h⟩
  have htag : elementName ('/' :: name.toList) = '/' :: name.toList :=
    List.takeWhile_eq_self_iff.mpr hgaps
  have hlast : ('/' :: name.toList).getLast? ≠ some '/' := by
    rw [hname, List.getLast?_cons_cons, ← hname]
    intro hlast
    exact not_mem_of_isName h (by decide) (List.mem_of_getLast? hlast)
  have hvoid : String.ofList ('/' :: name.toList) ∉ voidElements := by
    have hheads : ∀ v ∈ voidElements, v.toList.head? ≠ some '/' := by decide
    intro hmem
    apply hheads _ hmem
    rw [String.toList_ofList]
    rfl
  have halone : standsAlone ('/' :: name.toList) = false := by
    simp only [standsAlone, htag, Bool.or_eq_false_iff, beq_eq_false_iff_ne]
    exact ⟨⟨by simp, hlast⟩, by simpa using hvoid⟩
  rw [takeTag, halone, closes?]
  exact if_pos rfl

/-! ### Pieces -/

section

variable (normalize : String → String)

mutual

/-- The names of a piece are proper, and the normal form of its rich text is well nested. -/
def Piece.Tidy : Piece → Prop
  | .text _ => True
  | .named character => isName character = true
  | .rich s => WellNested (normalize s).toList
  | .empty name attributes => TidyTag name attributes ∧ name ∈ voidElements
  | .selfClosed name attributes => TidyTag name attributes
  | .element name attributes content =>
    TidyTag name attributes ∧ name ∉ voidElements ∧ TidyPieces content

/-- All of the pieces are tidy. -/
def TidyPieces : List Piece → Prop
  | [] => True
  | piece :: rest => piece.Tidy ∧ TidyPieces rest

end

mutual

/-- The ids that the tags of a piece carry, those in rich text included. -/
def Piece.ids : Piece → List (List Char × List Char)
  | .text _ => []
  | .named _ => []
  | .rich s => idsOf (normalize s).toList
  | .empty name attributes => namedIds name attributes
  | .selfClosed name attributes => namedIds name attributes
  | .element name attributes content => namedIds name attributes ++ idsOfPieces content

/-- The ids that the tags of pieces carry. -/
def idsOfPieces : List Piece → List (List Char × List Char)
  | [] => []
  | piece :: rest => piece.ids ++ idsOfPieces rest

end

@[simp] lemma tidyPieces_iff {pieces : List Piece} :
    TidyPieces normalize pieces ↔ ∀ p ∈ pieces, p.Tidy normalize := by
  induction pieces with
  | nil => simp [TidyPieces]
  | cons piece rest ih => rw [TidyPieces, ih, List.forall_mem_cons]

@[simp] lemma idsOfPieces_eq (pieces : List Piece) :
    idsOfPieces normalize pieces = pieces.flatMap (Piece.ids normalize) := by
  induction pieces with
  | nil => rfl
  | cons piece rest ih => rw [idsOfPieces, ih, List.flatMap_cons]

/-- A written element is well nested if its content is. -/
lemma TidyTag.nests {name : String} {attributes : Named} (h : TidyTag name attributes)
    (hvoid : name ∉ voidElements) {cs : List Char} {ids : List (List Char × List Char)}
    (hcs : Nests cs ids) :
    Nests (writeOpening name attributes ++ cs ++ writeClosing name)
      (namedIds name attributes ++ ids) := by
  have hids : Markup.idsOfTag (rawTag name attributes) = namedIds name attributes := by
    simpa using h.idsOfTag (Or.inl rfl)
  have hall := hcs.enclose h.unsigned (unsigned_closing h.1) (takeTag_opening h hvoid)
    (takeTag_closing h.1)
  rwa [hids, idsOfTag_closing h.1, List.append_nil] at hall

mutual

/-- The text of a tidy piece is well nested and carries its ids. -/
theorem Piece.nests : (piece : Piece) → piece.Tidy normalize →
    Nests (piece.write normalize) (piece.ids normalize)
  | .text s, _ => .of_unsigned (unsigned_escapeText s.toList)
  | .named character, h => by
    have hlead : Unsigned ['&'] := by decide
    have hend : Unsigned [';'] := by decide
    exact .of_unsigned ((hlead.append (unsigned_of_isName h)).append hend)
  | .rich s, h => ⟨h, rfl⟩
  | .empty name attributes, h => by
    obtain ⟨htag, hvoid⟩ := h
    have halone : standsAlone (rawTag name attributes ++ []) = true := by
      rw [standsAlone, elementName_rawTag htag (Or.inl rfl), String.ofList_toList,
        List.contains_iff_mem.mpr hvoid, Bool.or_true]
    have hids := htag.idsOfTag (Or.inl rfl)
    rw [List.append_nil] at halone hids
    rw [Piece.write, Piece.ids, ← hids]
    exact .of_standsAlone htag.unsigned halone
  | .selfClosed name attributes, h => by
    have hending : Unsigned [' ', '/'] := by decide
    have halone : standsAlone (rawTag name attributes ++ [' ', '/']) = true := by
      have hlast : (rawTag name attributes ++ [' ', '/']).getLast? = some '/' := by simp
      rw [standsAlone, hlast]
      simp
    have hall := Nests.of_standsAlone (h.unsigned.append hending) halone
    rw [h.idsOfTag (Or.inr rfl)] at hall
    have hwrite : writeHead name attributes ++ [' ', '/', '>'] =
        '<' :: (rawTag name attributes ++ [' ', '/']) ++ ['>'] := by
      simp [writeHead, rawTag]
    rw [Piece.write, Piece.ids, hwrite]
    exact hall
  | .element name attributes content, h =>
    h.1.nests h.2.1 (nests_writePieces content h.2.2)

/-- The text of tidy pieces is well nested and carries their ids. -/
theorem nests_writePieces :
    (pieces : List Piece) → TidyPieces normalize pieces →
      Nests (writePieces normalize pieces) (idsOfPieces normalize pieces)
  | [], _ => .of_unsigned (by rw [writePieces]; decide)
  | piece :: rest, h => (piece.nests h.1).append (nests_writePieces rest h.2)

end

/-! ### Parts and lines -/

mutual

/-- The names of a part are proper, and the normal forms of its rich texts are well nested. -/
def Part.Tidy : Part → Prop
  | .line content => TidyPieces normalize content
  | .element name attributes content =>
    TidyTag name attributes ∧ name ∉ voidElements ∧ TidyParts content

/-- All of the parts are tidy. -/
def TidyParts : List Part → Prop
  | [] => True
  | part :: rest => part.Tidy ∧ TidyParts rest

end

mutual

/-- The ids that the tags of a part carry. -/
def Part.ids : Part → List (List Char × List Char)
  | .line content => idsOfPieces normalize content
  | .element name attributes content => namedIds name attributes ++ idsOfParts content

/-- The ids that the tags of parts carry. -/
def idsOfParts : List Part → List (List Char × List Char)
  | [] => []
  | part :: rest => part.ids ++ idsOfParts rest

end

/-- Lines one behind the other, without indentation. -/
def unindented (lines : List (Nat × List Char)) : List Char := (lines.map Prod.snd).flatten

/-- Each line ends outside of tags. -/
def WholeTags (lines : List (Nat × List Char)) : Prop :=
  ∀ line ∈ lines, ∃ ts, tags? line.2 = some ts

@[simp] lemma tidyParts_iff {parts : List Part} :
    TidyParts normalize parts ↔ ∀ p ∈ parts, p.Tidy normalize := by
  induction parts with
  | nil => simp [TidyParts]
  | cons part rest ih => rw [TidyParts, ih, List.forall_mem_cons]

@[simp] lemma idsOfParts_eq (parts : List Part) :
    idsOfParts normalize parts = parts.flatMap (Part.ids normalize) := by
  induction parts with
  | nil => rfl
  | cons part rest ih => rw [idsOfParts, ih, List.flatMap_cons]

lemma unindented_append (lines more : List (Nat × List Char)) :
    unindented (lines ++ more) = unindented lines ++ unindented more := by
  rw [unindented, List.map_append, List.flatten_append]
  rfl

lemma unindented_singleton (depth : Nat) (cs : List Char) : unindented [(depth, cs)] = cs := by
  simp [unindented]

lemma WholeTags.singleton {cs : List Char} {ids : List (List Char × List Char)} (depth : Nat)
    (h : Nests cs ids) : WholeTags [(depth, cs)] := by
  obtain ⟨ts, hts, -⟩ := h.exists_tags
  exact List.forall_mem_singleton.mpr ⟨ts, hts⟩

/-- Indentation and line ends have no part in the tags. -/
lemma tags?_joinLines {indent : List Char} (hindent : Unsigned indent) (pretty : Bool)
    {lines : List (Nat × List Char)} (h : WholeTags lines) :
    tags? (joinLines pretty indent lines) = tags? (unindented lines) := by
  have hpad : ∀ depth, tags? (List.replicate depth indent).flatten = some [] := by
    intro depth
    apply tags?_unsigned
    constructor
    · simpa using fun _ => hindent.1
    · simpa using fun _ => hindent.2
  cases pretty with
  | false => rfl
  | true =>
    simp only [joinLines, if_true]
    induction lines with
    | nil => rfl
    | cons line lines ih =>
      obtain ⟨⟨ts, hts⟩, hrest⟩ := List.forall_mem_cons.mp h
      have hline : unindented (line :: lines) = line.2 ++ unindented lines := rfl
      rw [hline, tags?_append hts, ← ih hrest, List.map_cons]
      have hindented : tags? ((List.replicate line.1 indent).flatten ++ line.2) = some ts := by
        rw [tags?_append (hpad line.1), hts]
        rfl
      cases lines with
      | nil =>
        rw [List.map_nil, List.intercalate_singleton, hindented]
        simp [tags?, readTags]
      | cons next lines =>
        have hend : tags? ['\n'] = some [] := tags?_unsigned (by decide)
        rw [List.map_cons, List.intercalate_cons_cons, List.append_assoc, tags?_append hindented,
          tags?_append hend, Option.map_map]
        rfl

mutual

/-- The lines of a tidy part are well nested together, each has whole tags, and they carry the ids
of the part. -/
theorem Part.nests (depth : Nat) :
    (part : Part) → part.Tidy normalize →
      WholeTags (part.lines normalize depth) ∧
        Nests (unindented (part.lines normalize depth)) (part.ids normalize)
  | .line content, h => by
    have hall := nests_writePieces normalize content h
    rw [Part.lines, unindented_singleton]
    exact ⟨.singleton depth hall, hall⟩
  | .element name attributes content, h => by
    obtain ⟨htag, hvoid, hcontent⟩ := h
    obtain ⟨hwhole, hnests⟩ := nests_linesOf (depth + 1) content hcontent
    have hopening : ∃ ts, tags? (writeOpening name attributes) = some ts :=
      ⟨_, tags?_tag htag.unsigned⟩
    have hclosing : ∃ ts, tags? (writeClosing name) = some ts :=
      ⟨_, tags?_tag (unsigned_closing htag.1)⟩
    constructor
    · exact List.forall_mem_append.mpr ⟨List.forall_mem_cons.mpr ⟨hopening, hwhole⟩,
        List.forall_mem_singleton.mpr hclosing⟩
    · have htext : unindented (Part.lines normalize depth (.element name attributes content)) =
          writeOpening name attributes ++ unindented (linesOf normalize (depth + 1) content) ++
            writeClosing name := by
        rw [Part.lines, unindented_append, unindented_singleton]
        rfl
      rw [htext]
      exact htag.nests hvoid hnests

/-- The lines of tidy parts are well nested together. -/
theorem nests_linesOf (depth : Nat) :
    (parts : List Part) → TidyParts normalize parts →
      WholeTags (linesOf normalize depth parts) ∧
        Nests (unindented (linesOf normalize depth parts)) (idsOfParts normalize parts)
  | [], _ => ⟨List.forall_mem_nil _, .of_unsigned (by rw [linesOf]; decide)⟩
  | part :: rest, h => by
    obtain ⟨hwhole, hnests⟩ := part.nests depth h.1
    obtain ⟨hwholes, hmore⟩ := nests_linesOf depth rest h.2
    rw [linesOf, unindented_append]
    exact ⟨List.forall_mem_append.mpr ⟨hwhole, hwholes⟩, hnests.append hmore⟩

end

end

end Page

end MailTemplate
