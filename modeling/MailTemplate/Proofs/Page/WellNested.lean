import MailTemplate.Page.Document
import MailTemplate.Proofs.Page.Nesting

/-!
# Pages are well nested

No string in a resolved document breaks its page.  The strings that a page writes as markup are the
normal forms of the contents of some blocks and of the items of lists (`ResolvedBlock.richTexts`).
Whatever the function that brings them into normal form, if what it makes of them is well nested, so
is the page, in both views and with any blank indentation, and its tags carry the ids of the rows,
columns and blocks, escaped, one tag for each in the order of the document (`write_wellNested`).
-/

namespace MailTemplate

open Markup

/-! ### What a page has to carry -/

/-- The texts of a block that are written as markup, in the order written. -/
def ResolvedBlock.richTexts (block : ResolvedBlock) : List String :=
  match block.kind with
  | .text | .heading | .button | .link => block.content.toList
  | .list => (Page.itemsOf block.attributes "items").map Page.itemText
  | .image | .icon | .divider | .socials | .survey | .table | .spacer => []

/-- The texts of a document that are written as markup. -/
def ResolvedDocument.richTexts (d : ResolvedDocument) : List String :=
  d.rows.flatMap fun row => row.columns.flatMap fun column =>
    column.blocks.flatMap ResolvedBlock.richTexts

namespace Page

variable (normalize : String → String)

/-- The normal form of a rich text is well nested. -/
def Rich (s : String) : Prop := WellNested (normalize s).toList

/-- The ids in the normal form of a rich text. -/
def richIds (s : String) : List (List Char × List Char) := idsOf (normalize s).toList

/-- An element and its id, escaped. -/
def nodeId (element id : String) : List Char × List Char :=
  (element.toList, escapeValue id.toList)

/-- The ids on the page of a block: its own, and those in its rich texts. -/
def blockIds (block : ResolvedBlock) : List (List Char × List Char) :=
  nodeId "div" block.id :: block.richTexts.flatMap (richIds normalize)

/-- The ids on the page of a column: its own, and those of its blocks. -/
def columnIds (column : ResolvedColumn) : List (List Char × List Char) :=
  nodeId "td" column.id :: column.blocks.flatMap (blockIds normalize)

/-- The ids on the page of a row: its own, and those of its columns. -/
def rowIds (row : ResolvedRow) : List (List Char × List Char) :=
  nodeId "table" row.id :: row.columns.flatMap (columnIds normalize)

/-! ### Attributes -/

@[simp] lemma tidyNamed_layoutTable : TidyNamed layoutTable := by
  unfold TidyNamed
  decide

@[simp] lemma tidyNamed_styled (s : String) : TidyNamed (styled s) := by
  have hname : isName "style" = true := by decide
  unfold styled
  split
  · exact tidyNamed_nil
  · exact tidyNamed_cons.mpr ⟨hname, tidyNamed_nil⟩

@[simp] lemma tidyNamed_targeted (bag : Attributes) : TidyNamed (targeted bag) := by
  have hname : isName "target" = true := by decide
  unfold targeted
  split
  · exact tidyNamed_cons.mpr ⟨hname, tidyNamed_nil⟩
  · exact tidyNamed_nil

@[simp] lemma namedIds_layoutTable (name : String) : namedIds name layoutTable = [] := by
  simp [layoutTable, namedIds_cons]

@[simp] lemma namedIds_styled (name s : String) : namedIds name (styled s) = [] := by
  unfold styled
  split
  · rfl
  · rfl

@[simp] lemma namedIds_targeted (name : String) (bag : Attributes) :
    namedIds name (targeted bag) = [] := by
  unfold targeted
  split
  · rfl
  · rfl

/-! ### Blocks -/

/-- Parts that are tidy and carry these ids. -/
structure Carries (parts : List Part) (ids : List (List Char × List Char)) : Prop where
  tidy : ∀ p ∈ parts, p.Tidy normalize
  ids_eq : parts.flatMap (Part.ids normalize) = ids

variable {normalize}

/-- The content of a block is tidy if its text is, and carries the ids in its text. -/
lemma richContent_tidy {block : ResolvedBlock} (h : ∀ s ∈ block.content.toList, Rich normalize s) :
    (∀ p ∈ richContent block, p.Tidy normalize) ∧
      (richContent block).flatMap (Piece.ids normalize) =
        block.content.toList.flatMap (richIds normalize) := by
  constructor
  · exact List.forall_mem_map.mpr h
  · rw [richContent, List.flatMap_map]
    rfl

lemma textParts_carries {block : ResolvedBlock}
    (h : ∀ s ∈ block.content.toList, Rich normalize s) :
    Carries normalize (textParts block) (block.content.toList.flatMap (richIds normalize)) := by
  obtain ⟨htidy, hids⟩ := richContent_tidy h
  constructor
  · simpa +decide [textParts, Part.Tidy, Piece.Tidy, TidyTag] using htidy
  · simp [textParts, Part.ids, Piece.ids, hids]

/-- A heading element has one of five names. -/
lemma headingElement_mem (bag : Attributes) :
    headingElement bag ∈ ["h1", "h2", "h3", "h4", "h5"] := by
  unfold headingElement
  split
  · split
    · next hmem => exact List.contains_iff_mem.mp hmem
    · decide
  · decide

lemma headingParts_carries {block : ResolvedBlock}
    (h : ∀ s ∈ block.content.toList, Rich normalize s) :
    Carries normalize (headingParts block) (block.content.toList.flatMap (richIds normalize)) := by
  obtain ⟨htidy, hids⟩ := richContent_tidy h
  have hnames : ∀ name ∈ ["h1", "h2", "h3", "h4", "h5"],
      isName name = true ∧ name ∉ voidElements := by decide
  obtain ⟨hname, hvoid⟩ := hnames _ (headingElement_mem block.attributes)
  constructor
  · simpa [headingParts, Part.Tidy, Piece.Tidy, TidyTag, hname, hvoid] using htidy
  · simp [headingParts, Part.ids, Piece.ids, hids]

lemma imageParts_carries (bag : Attributes) : Carries normalize (imageParts bag) [] := by
  unfold imageParts
  split
  · exact ⟨List.forall_mem_nil _, rfl⟩
  · split
    all_goals
      split
      all_goals
        constructor
        · simp +decide [Part.Tidy, Piece.Tidy, TidyTag]
        · simp [Part.ids, Piece.ids, namedIds_cons]

lemma buttonParts_carries {block : ResolvedBlock}
    (h : ∀ s ∈ block.content.toList, Rich normalize s) :
    Carries normalize (buttonParts block) (block.content.toList.flatMap (richIds normalize)) := by
  obtain ⟨htidy, hids⟩ := richContent_tidy h
  constructor
  · simpa +decide [buttonParts, Part.Tidy, Piece.Tidy, TidyTag] using htidy
  · simp [buttonParts, Part.ids, Piece.ids, namedIds_cons, hids]

lemma linkParts_carries {block : ResolvedBlock}
    (h : ∀ s ∈ block.content.toList, Rich normalize s) :
    Carries normalize (linkParts block) (block.content.toList.flatMap (richIds normalize)) := by
  unfold linkParts
  split
  · next content hcontent =>
    rw [hcontent] at h ⊢
    have hrich : WellNested (normalize content).toList := h content (by simp)
    constructor
    · simpa +decide [Part.Tidy, Piece.Tidy, TidyTag] using hrich
    · simp [Part.ids, Piece.ids, namedIds_cons, richIds]
  · next hcontent =>
    constructor
    · simp +decide [Part.Tidy, Piece.Tidy, TidyTag]
    · simp [Part.ids, Piece.ids, namedIds_cons, hcontent]

lemma dividerParts_carries (bag : Attributes) : Carries normalize (dividerParts bag) [] := by
  constructor
  · simp +decide [dividerParts, hardBlank, Part.Tidy, Piece.Tidy, TidyTag]
  · simp [dividerParts, hardBlank, Part.ids, Piece.ids, namedIds_cons]

lemma spacerParts_carries (bag : Attributes) : Carries normalize (spacerParts bag) [] := by
  constructor
  · simp +decide [spacerParts, hardBlank, Part.Tidy, Piece.Tidy, TidyTag]
  · simp [spacerParts, hardBlank, Part.ids, Piece.ids, namedIds_cons]

/-- An element without an id around tidy parts is tidy, and carries their ids. -/
lemma Carries.enclose {name : String} {attributes : Named} (htag : TidyTag name attributes)
    (hvoid : name ∉ voidElements) (hown : namedIds name attributes = []) {content : List Part}
    {ids : List (List Char × List Char)} (h : Carries normalize content ids) :
    Carries normalize [.element name attributes content] ids := by
  constructor
  · simpa [Part.Tidy, htag, hvoid] using h.tidy
  · simp [Part.ids, hown, h.ids_eq]

/-- A table of cells is tidy if the cells are, and carries the ids in them. -/
lemma linkTable_carries (bag : Attributes) {links : List Part}
    {ids : List (List Char × List Char)} (h : Carries normalize links ids) :
    Carries normalize [linkTable bag links] ids := by
  have hrow : Carries normalize [.element "tr" [] links] ids :=
    h.enclose (by simp +decide [TidyTag]) (by decide) rfl
  exact hrow.enclose (by simp +decide [TidyTag]) (by decide) (by simp [namedIds_cons])

/-- Parts made one from each item, all of them tidy. -/
lemma Carries.of_map {α : Type} {f : α → Part} {g : α → List (List Char × List Char)}
    {items : List α} (h : ∀ a ∈ items, (f a).Tidy normalize ∧ (f a).ids normalize = g a) :
    Carries normalize (items.map f) (items.flatMap g) := by
  constructor
  · intro p hp
    obtain ⟨a, ha, rfl⟩ := List.mem_map.mp hp
    exact (h a ha).1
  · rw [List.flatMap_map]
    exact List.flatMap_congr fun a ha => (h a ha).2

lemma Carries.append {parts more : List Part} {ids moreIds : List (List Char × List Char)}
    (h : Carries normalize parts ids) (hmore : Carries normalize more moreIds) :
    Carries normalize (parts ++ more) (ids ++ moreIds) := by
  constructor
  · exact List.forall_mem_append.mpr ⟨h.tidy, hmore.tidy⟩
  · rw [List.flatMap_append, h.ids_eq, hmore.ids_eq]

lemma carries_nil : Carries normalize [] [] := ⟨List.forall_mem_nil _, rfl⟩

/-- Parts made one from each item, all of them tidy and without ids. -/
lemma Carries.of_map_nil {α : Type} {f : α → Part} {items : List α}
    (h : ∀ a ∈ items, (f a).Tidy normalize ∧ (f a).ids normalize = []) :
    Carries normalize (items.map f) [] := by
  have hall := Carries.of_map (g := fun _ => []) h
  rwa [List.flatMap_eq_nil_iff.mpr fun _ _ => rfl] at hall

lemma socialParts_carries (bag : Attributes) : Carries normalize (socialParts bag) [] := by
  unfold socialParts
  dsimp only
  split
  · exact carries_nil
  · apply linkTable_carries
    apply Carries.of_map_nil
    intro link _
    split
    all_goals
      constructor
      · simp +decide [Part.Tidy, Piece.Tidy, TidyTag]
      · simp [Part.ids, Piece.ids, namedIds_cons]

lemma surveyParts_carries (bag : Attributes) : Carries normalize (surveyParts bag) [] := by
  unfold surveyParts
  dsimp only
  change Carries normalize _ ([] ++ [])
  apply Carries.append
  · split
    · constructor
      · simp +decide [Part.Tidy, Piece.Tidy, TidyTag]
      · simp [Part.ids, Piece.ids]
    · exact carries_nil
  · split
    · exact carries_nil
    · apply linkTable_carries
      apply Carries.of_map_nil
      intro link _
      constructor
      · simp +decide [Part.Tidy, Piece.Tidy, TidyTag]
      · simp [Part.ids, Piece.ids, namedIds_cons]

lemma tableParts_carries (bag : Attributes) : Carries normalize (tableParts bag) [] := by
  unfold tableParts
  dsimp only
  split
  · exact carries_nil
  · refine Carries.enclose (by simp +decide [TidyTag]) (by decide)
      (by simp [namedIds_cons]) ?_
    apply Carries.of_map_nil
    rintro ⟨row, index⟩ _
    -- a cell of the header and a cell of another row differ in their name only
    cases flagOr bag "headerRow" true && index == 0
    all_goals
      constructor
      · simp +decide [Part.Tidy, Piece.Tidy, TidyTag]
      · simp [Part.ids, Piece.ids, namedIds_cons]

lemma listParts_carries {bag : Attributes}
    (h : ∀ item ∈ itemsOf bag "items", Rich normalize (itemText item)) :
    Carries normalize (listParts bag)
      (((itemsOf bag "items").map itemText).flatMap (richIds normalize)) := by
  unfold listParts
  dsimp only
  split
  · next hempty =>
    rw [List.isEmpty_iff.mp hempty]
    exact carries_nil
  · have hids : ((itemsOf bag "items").map itemText).flatMap (richIds normalize) =
        (itemsOf bag "items").zipIdx.flatMap fun p => richIds normalize (itemText p.1) := by
      rw [List.flatMap_map, ← List.zipIdx_map_fst 0 (itemsOf bag "items"), List.flatMap_map]
      simp
    rw [hids]
    refine Carries.enclose (by simp +decide [TidyTag]) (by decide)
      (by simp) ?_
    apply Carries.of_map
    rintro ⟨item, index⟩ hitem
    have hrich : WellNested (normalize (itemText item)).toList :=
      h item (List.fst_mem_of_mem_zipIdx hitem)
    cases flagOr bag "ordered" false
    all_goals
      constructor
      · simp +decide [Part.Tidy, Piece.Tidy, TidyTag, hrich]
      · simp [Part.ids, Piece.ids, namedIds_cons, richIds]

/-- What a block shows is tidy if its rich texts are, and carries the ids in them. -/
theorem blockParts_carries {block : ResolvedBlock} (h : ∀ s ∈ block.richTexts, Rich normalize s) :
    Carries normalize (blockParts block) (block.richTexts.flatMap (richIds normalize)) := by
  unfold blockParts
  unfold ResolvedBlock.richTexts at h ⊢
  cases hkind : block.kind with
  | text => exact textParts_carries (by simpa [hkind] using h)
  | heading => exact headingParts_carries (by simpa [hkind] using h)
  | image => exact imageParts_carries block.attributes
  | button => exact buttonParts_carries (by simpa [hkind] using h)
  | link => exact linkParts_carries (by simpa [hkind] using h)
  | divider => exact dividerParts_carries block.attributes
  | socials => exact socialParts_carries block.attributes
  | survey => exact surveyParts_carries block.attributes
  | table => exact tableParts_carries block.attributes
  | list => exact listParts_carries (by simpa [hkind] using h)
  | spacer => exact spacerParts_carries block.attributes
  | icon => exact imageParts_carries block.attributes

/-- A block in its frame carries its own id before those in its rich texts. -/
lemma blockPart_carries {block : ResolvedBlock} (h : ∀ s ∈ block.richTexts, Rich normalize s) :
    (blockPart block).Tidy normalize ∧
      (blockPart block).ids normalize = blockIds normalize block := by
  have hparts := blockParts_carries h
  constructor
  · simpa +decide [blockPart, Part.Tidy, TidyTag] using hparts.tidy
  · simp [blockPart, Part.ids, namedIds_cons, hparts.ids_eq, blockIds, nodeId]

/-! ### Rows and documents -/

lemma columnPart_carries {column : ResolvedColumn}
    (h : ∀ block ∈ column.blocks, ∀ s ∈ block.richTexts, Rich normalize s)
    (width valign gap : String) :
    (columnPart width valign gap column).Tidy normalize ∧
      (columnPart width valign gap column).ids normalize = columnIds normalize column := by
  have hblocks : Carries normalize (column.blocks.map blockPart)
      (column.blocks.flatMap (blockIds normalize)) :=
    .of_map fun block hblock => blockPart_carries (h block hblock)
  have hcontent : Carries normalize
      (if column.blocks.isEmpty then [.line [hardBlank]] else column.blocks.map blockPart)
      (column.blocks.flatMap (blockIds normalize)) := by
    split
    · next hempty =>
      rw [List.isEmpty_iff.mp hempty]
      constructor
      · simp +decide [hardBlank, Part.Tidy, Piece.Tidy]
      · simp [hardBlank, Part.ids, Piece.ids]
    · exact hblocks
  constructor
  · simpa +decide [columnPart, Part.Tidy, TidyTag] using hcontent.tidy
  · simpa [columnPart, Part.ids, namedIds_cons, columnIds, nodeId] using hcontent.ids_eq

/-- A part for each column and its index, with the ids of the column. -/
lemma Carries.of_columns {columns : List ResolvedColumn} {f : ResolvedColumn × ℕ → Part}
    (h : ∀ column ∈ columns, ∀ index,
      (f (column, index)).Tidy normalize ∧
        (f (column, index)).ids normalize = columnIds normalize column) :
    Carries normalize (columns.zipIdx.map f) (columns.flatMap (columnIds normalize)) := by
  have hids : columns.flatMap (columnIds normalize) =
      columns.zipIdx.flatMap fun p => columnIds normalize p.1 := by
    conv_lhs => rw [← List.zipIdx_map_fst 0 columns]
    rw [List.flatMap_map]
  rw [hids]
  apply Carries.of_map
  rintro ⟨column, index⟩ hcolumn
  exact h column (List.fst_mem_of_mem_zipIdx hcolumn) index

lemma columnParts_carries {row : ResolvedRow}
    (h : ∀ column ∈ row.columns, ∀ block ∈ column.blocks, ∀ s ∈ block.richTexts, Rich normalize s)
    (mobile : Bool) :
    Carries normalize (columnParts mobile row) (row.columns.flatMap (columnIds normalize)) := by
  unfold columnParts
  dsimp only
  split
  · apply Carries.of_columns
    intro column hcolumn index
    have hpart := columnPart_carries (h column hcolumn) "100%"
      (textOr row.attributes "verticalAlign" "top")
      (gapBefore "top" (numberOr row.attributes "columnSpacing" 0) index)
    constructor
    · simpa +decide [Part.Tidy, TidyTag] using hpart.1
    · simpa [Part.ids] using hpart.2
  · refine Carries.enclose (by simp +decide [TidyTag]) (by decide) rfl ?_
    apply Carries.of_columns
    intro column hcolumn index
    exact columnPart_carries (h column hcolumn) _ _ _

lemma rowPart_carries {row : ResolvedRow}
    (h : ∀ column ∈ row.columns, ∀ block ∈ column.blocks, ∀ s ∈ block.richTexts, Rich normalize s)
    (mobile : Bool) : (rowPart mobile row).Tidy normalize ∧
      (rowPart mobile row).ids normalize = rowIds normalize row := by
  have hcolumns := columnParts_carries h mobile
  constructor
  · simpa +decide [rowPart, Part.Tidy, TidyTag] using hcolumns.tidy
  · simp [rowPart, Part.ids, namedIds_cons, hcolumns.ids_eq, rowIds, nodeId]

lemma previewParts_carries (d : ResolvedDocument) : Carries normalize (previewParts d) [] := by
  unfold previewParts
  split
  · exact carries_nil
  · constructor
    · simp +decide [Part.Tidy, Piece.Tidy, TidyTag]
    · simp [Part.ids, Piece.ids, namedIds_cons]

lemma headPart_carries (d : ResolvedDocument) : Carries normalize [headPart d] [] := by
  constructor
  · simp +decide [headPart, Part.Tidy, Piece.Tidy, TidyTag]
  · simp [headPart, Part.ids, Piece.ids, namedIds_cons]

/-- The page of a document is tidy if its rich texts are, and carries the ids of its rows. -/
theorem pagePart_carries {d : ResolvedDocument} (h : ∀ s ∈ d.richTexts, Rich normalize s) :
    Carries normalize [pagePart d] (d.rows.flatMap (rowIds normalize)) := by
  have hrows : Carries normalize (d.rows.map (rowPart d.mobile))
      (d.rows.flatMap (rowIds normalize)) := by
    apply Carries.of_map
    intro row hrow
    refine rowPart_carries ?_ d.mobile
    intro column hcolumn block hblock s hs
    exact h s (List.mem_flatMap.mpr ⟨row, hrow, List.mem_flatMap.mpr
      ⟨column, hcolumn, List.mem_flatMap.mpr ⟨block, hblock, hs⟩⟩⟩)
  have htable : Carries normalize [bodyTable d] (d.rows.flatMap (rowIds normalize)) :=
    hrows.enclose (by simp +decide [TidyTag]) (by decide) (by simp [namedIds_cons])
  have hcell : Carries normalize [.element "td" [("align", "center")] [bodyTable d]]
      (d.rows.flatMap (rowIds normalize)) :=
    htable.enclose (by simp +decide [TidyTag]) (by decide) (by simp [namedIds_cons])
  have hline : Carries normalize
      [.element "tr" [] [.element "td" [("align", "center")] [bodyTable d]]]
      (d.rows.flatMap (rowIds normalize)) :=
    hcell.enclose (by simp +decide [TidyTag]) (by decide) rfl
  have hframe : Carries normalize [.element "table" (layoutTable ++ [("width", "100%"),
      ("style", "background-color:" ++ d.backgroundColor ++ ";")])
        [.element "tr" [] [.element "td" [("align", "center")] [bodyTable d]]]]
      (d.rows.flatMap (rowIds normalize)) :=
    hline.enclose (by simp +decide [TidyTag]) (by decide) (by simp [namedIds_cons])
  have hbody : Carries normalize [bodyPart d] (d.rows.flatMap (rowIds normalize)) :=
    ((previewParts_carries d).append hframe).enclose (by simp +decide [TidyTag])
      (by decide) (by simp [namedIds_cons])
  exact ((headPart_carries d).append hbody).enclose (by simp +decide [TidyTag])
    (by decide) (by simp [namedIds_cons])

lemma unsigned_of_blank {cs : List Char} (h : ∀ c ∈ cs, Text.isBlank c = true) : Unsigned cs := by
  constructor
  · intro hmem
    exact absurd (h '<' hmem) (by decide)
  · intro hmem
    exact absurd (h '>' hmem) (by decide)

/-- A page is well nested if the normal forms of its rich texts are, whatever function gives them
and whatever other strings the document holds: read as tags, each closing tag of it matches the
element opened last, and none stays open.  Its tags carry the ids of rows, columns and blocks in the
order of the document, each once and escaped, with the ids in the rich texts of a block behind that
of the block. -/
theorem write_wellNested (normalize : String → String) (settings : RenderSettings)
    (d : ResolvedDocument) (hindent : ∀ c ∈ settings.indent.toList, Text.isBlank c = true)
    (hrich : ∀ s ∈ d.richTexts, WellNested (normalize s).toList) :
    WellNested (write normalize settings d).toList ∧
      idsOf (write normalize settings d).toList = d.rows.flatMap (rowIds normalize) := by
  obtain ⟨htidy, hids⟩ := pagePart_carries hrich
  have hpage : (pagePart d).Tidy normalize := htidy (pagePart d) List.mem_cons_self
  obtain ⟨hwhole, hnests⟩ := (pagePart d).nests normalize 0 hpage
  have hunsigned : Unsigned "!DOCTYPE html".toList := by decide
  have hdoctype : Nests "<!DOCTYPE html>".toList [] :=
    Nests.of_standsAlone hunsigned (by decide)
  have hlines : WholeTags ((0, "<!DOCTYPE html>".toList) :: (pagePart d).lines normalize 0) :=
    List.forall_mem_cons.mpr ⟨⟨_, tags?_tag hunsigned⟩, hwhole⟩
  have htags := tags?_joinLines (unsigned_of_blank hindent) settings.prettyPrint hlines
  have hall : Nests
      (unindented ((0, "<!DOCTYPE html>".toList) :: (pagePart d).lines normalize 0))
      ([] ++ (pagePart d).ids normalize) := hdoctype.append hnests
  rw [List.flatMap_singleton] at hids
  rw [hids, List.nil_append] at hall
  have hwrite : (write normalize settings d).toList =
      joinLines settings.prettyPrint settings.indent.toList
        ((0, "<!DOCTYPE html>".toList) :: (pagePart d).lines normalize 0) := by
    rw [write, String.toList_ofList]
  rw [hwrite, WellNested, idsOf, htags]
  exact hall

/-- A document with signs of tags and quotes in its name, its ids and its content. -/
def hostileDocument : ResolvedDocument where
  id := "mail"
  name := "</title><script>"
  previewText := "a < b"
  fontFamily := "\"><td"
  width := 600
  color := "#000"
  backgroundColor := "\">"
  linkColor := "</style>"
  mobile := false
  palette := none
  rows :=
    [{ id := "r\"><tr", role := none, attributes := {}, container := {},
       columns :=
        [{ id := "c1", units := 12, width := "100%", attributes := {},
           blocks :=
            [{ id := "b1", kind := .text, content := some "</div><b>Hi <i id=\"in\">you",
               attributes := {} },
             { id := "b2", kind := .image, content := none,
               attributes := Attributes.set {} "src" (.text "\"><img src=x>") }] }] }]

/-- The normal form in which pages of documents are written closes the one rich text of the
document, whose id comes behind that of its block. -/
theorem write_wellNested_hostileDocument :
    WellNested (write RichText.normalize {} hostileDocument).toList ∧
      idsOf (write RichText.normalize {} hostileDocument).toList =
        [("table".toList, "r&quot;&gt;&lt;tr".toList), ("td".toList, "c1".toList),
         ("div".toList, "b1".toList), ("i".toList, "in".toList), ("div".toList, "b2".toList)] := by
  have hindent : ∀ c ∈ ({} : RenderSettings).indent.toList, Text.isBlank c = true :=
    List.forall_mem_cons.mpr ⟨rfl, List.forall_mem_singleton.mpr rfl⟩
  have hrich : ∀ s ∈ hostileDocument.richTexts, WellNested (RichText.normalize s).toList := by
    decide +kernel
  have hids : hostileDocument.rows.flatMap (rowIds RichText.normalize) =
      [("table".toList, "r&quot;&gt;&lt;tr".toList), ("td".toList, "c1".toList),
       ("div".toList, "b1".toList), ("i".toList, "in".toList), ("div".toList, "b2".toList)] := by
    decide +kernel
  rw [← hids]
  exact write_wellNested RichText.normalize {} hostileDocument hindent hrich

end Page

end MailTemplate
