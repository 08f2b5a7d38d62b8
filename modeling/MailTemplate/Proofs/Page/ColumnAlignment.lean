import MailTemplate.Page.Document
import MailTemplate.Proofs.Cascade.Precedence

/-!
# Vertical alignment of columns

On its page, a column without a vertical alignment of its own stands where its row says as a text of
its own, or else at the top.  The row itself may be aligned in another way: by its role, which sets
the columns of headers and carts in the middle, or by its override for the mobile view.  Neither of
the two reaches a column, and there is no third way (`columnAlignment_written`).
-/

namespace MailTemplate

namespace Cascade

/-! ### The alignment in effect -/

/-- The vertical alignment that a node sets itself, in the mobile view by its override first. -/
def ownAlignment? (mobile : Bool) (attributes : Attributes) : Option AttributeValue :=
  (if mobile then (overrides attributes).get? "verticalAlign" else none).or
    (attributes.get? "verticalAlign")

/-- The vertical alignment that a row has if it sets none itself. -/
def roleAlignment (r : Row) : String :=
  if r.role = some .header ∨ r.role = some .cart then "middle" else "top"

/-- The vertical alignment that a column has if it sets none itself. -/
def rowAlignment (r : Row) : String := (r.attributes.text? "verticalAlign").getD "top"

/-- The vertical alignment is the side of no box. -/
lemma ownValue?_verticalAlign (attributes : Attributes) :
    ownValue? attributes "verticalAlign" = attributes.get? "verticalAlign" :=
  ownValue?_eq_get? attributes (by decide) (by decide) (by decide)

/-- A layer says nothing under a key that none of its entries has. -/
lemma get?_bag_eq_none {entries : List (String × AttributeValue)} {key : String}
    (h : key ∉ entries.map Prod.fst) : (bag entries).get? key = none :=
  Attributes.get?_ofList_eq_none.mpr h

variable (view : View) (d : Document) (r : Row)

/-- Neither a theme nor a variant aligns a row. -/
lemma get?_rowDefaults_verticalAlign :
    (rowThemeDefaults (paletteOf d) r).get? "verticalAlign" = none ∧
      (rowVariantDefaults d r).get? "verticalAlign" = none := by
  constructor
  · unfold rowThemeDefaults
    split
    · exact get?_bag_eq_none (by simp)
    · exact get?_bag_eq_none (by simp)
    · exact get?_bag_eq_none (by simp)
    · exact get?_bag_eq_none (by simp)
    · rfl
  · unfold rowVariantDefaults
    split
    · split_ifs
      · exact get?_bag_eq_none (by simp)
      · rfl
    · split_ifs
      · rfl
      · exact get?_bag_eq_none (by simp)
    · exact get?_bag_eq_none (by simp)
    · exact get?_bag_eq_none (by simp)

/-- The role of a header or of a cart aligns a row to the middle, no other role aligns it. -/
lemma get?_rowRoleDefaults_verticalAlign :
    (rowRoleDefaults r).get? "verticalAlign" =
      if r.role = some .header ∨ r.role = some .cart then some (txt "middle") else none := by
  have hlast : ∀ entries : List (String × AttributeValue),
      (bag (entries ++ [("verticalAlign", txt "middle")])).get? "verticalAlign" =
        some (txt "middle") := by
    intro entries
    unfold Cascade.bag
    rw [Attributes.get?_ofList, List.reverse_append]
    rfl
  unfold rowRoleDefaults
  rcases r.role with _ | role
  · rfl
  · cases role with
    | header => exact hlast [_, _]
    | cart => exact hlast []
    | other name => rfl
    | _ => simpa using get?_bag_eq_none (by simp)

/-- A row is aligned as it sets itself, or else by its role. -/
lemma get?_row_verticalAlign :
    (row view d r).get? "verticalAlign" =
      some ((ownAlignment? view.mobile r.attributes).getD (txt (roleAlignment r))) := by
  have hmobile : rowMobile.get? "verticalAlign" = none := get?_bag_eq_none (by simp)
  have hbase : (rowBase d).get? "verticalAlign" = some (txt "top") := by
    unfold rowBase Cascade.bag
    rw [Attributes.get?_ofList]
    rfl
  have hlow : ((rowRoleDefaults r).get? "verticalAlign").or (some (txt "top")) =
      some (txt (roleAlignment r)) := by
    rw [get?_rowRoleDefaults_verticalAlign]
    unfold roleAlignment
    split_ifs
    · rfl
    · rfl
  obtain ⟨htheme, hvariant⟩ := get?_rowDefaults_verticalAlign d r
  have hkey : "verticalAlign" ∈ rowKeys := by decide
  have hhighest : highest? (rowSources view d r "verticalAlign") =
      some ((ownAlignment? view.mobile r.attributes).getD (txt (roleAlignment r))) := by
    unfold rowSources ownAlignment?
    rw [ownValue?_verticalAlign, ownValue?_verticalAlign, htheme, hvariant, hmobile, hbase,
      ite_self, ← Option.or_some, ← hlow, Option.or_assoc]
    simp only [highest?_cons, Option.none_or]
    rfl
  rw [get?_row, if_pos hkey, hhighest, Option.map_some, lengthValue_eq_self (by decide)]

/-- A column is aligned as it sets itself, or else as its row sets itself as a text, or else at the
top. -/
lemma get?_column_verticalAlign (c : Column) :
    (column view d r c).get? "verticalAlign" =
      some ((ownAlignment? view.mobile c.attributes).getD (txt (rowAlignment r))) := by
  have hbase : ∀ scope : Scope, scope.row = r →
      (columnBase scope).get? "verticalAlign" = some (txt (rowAlignment r)) := by
    rintro scope rfl
    unfold columnBase Cascade.bag
    rw [Attributes.get?_ofList]
    rfl
  have hkey : "verticalAlign" ∈ columnKeys := by decide
  have hhighest : highest? (columnSources view d r c "verticalAlign") =
      some ((ownAlignment? view.mobile c.attributes).getD (txt (rowAlignment r))) := by
    unfold columnSources ownAlignment?
    rw [ownValue?_verticalAlign, ownValue?_verticalAlign, hbase _ rfl, ← Option.or_some,
      Option.or_assoc]
    simp only [highest?_cons]
    rfl
  rw [get?_column, if_pos hkey, hhighest, Option.map_some, lengthValue_eq_self (by decide)]

/-- A column that sets no alignment is not aligned as its row is, exactly if the row has the
alignment from its role, or from an override that says something else than the row itself. -/
lemma rowAlignment_ne_iff {v : String} (h : (row view d r).text? "verticalAlign" = some v) :
    rowAlignment r ≠ v ↔
      ownAlignment? view.mobile r.attributes = none ∧
          (r.role = some .header ∨ r.role = some .cart) ∨
        view.mobile = true ∧ (overrides r.attributes).text? "verticalAlign" = some v ∧
          rowAlignment r ≠ v := by
  unfold Attributes.text? at h
  rw [get?_row_verticalAlign, Option.bind_some] at h
  cases hover : if view.mobile then (overrides r.attributes).get? "verticalAlign" else none with
  | some w =>
    -- an override decides, whatever the role of the row
    obtain ⟨hmobile, hget⟩ : view.mobile = true ∧
        (overrides r.attributes).get? "verticalAlign" = some w := by
      simpa using hover
    have hown : ownAlignment? view.mobile r.attributes = some w := by
      unfold ownAlignment?
      rw [hover, Option.some_or]
    rw [hown] at h ⊢
    have htext : (overrides r.attributes).text? "verticalAlign" = some v := by
      unfold Attributes.text?
      rw [hget]
      exact h
    simp [hmobile, htext]
  | none =>
    have hsilent : ¬(view.mobile = true ∧
        (overrides r.attributes).text? "verticalAlign" = some v ∧ rowAlignment r ≠ v) := by
      rintro ⟨hmobile, htext, -⟩
      rw [hmobile, if_pos rfl] at hover
      unfold Attributes.text? at htext
      rw [hover] at htext
      cases htext
    have hown : ownAlignment? view.mobile r.attributes = r.attributes.get? "verticalAlign" := by
      unfold ownAlignment?
      rw [hover, Option.none_or]
    rw [hown] at h ⊢
    cases hget : r.attributes.get? "verticalAlign" with
    | some w =>
      rw [hget] at h
      have hsame : rowAlignment r = v := by
        unfold rowAlignment Attributes.text?
        rw [hget, Option.bind_some, show w.text? = some v from h, Option.getD_some]
      simp [hsame]
    | none =>
      rw [hget] at h
      -- the row says nothing, so the role decides, but a column without an alignment is at the top
      have htop : rowAlignment r = "top" := by
        unfold rowAlignment Attributes.text?
        rw [hget]
        rfl
      obtain rfl : roleAlignment r = v := Option.some.inj h
      rw [or_iff_left hsilent, htop]
      unfold roleAlignment
      split_ifs with hrole
      · simp [hrole]
      · simp [hrole]

end Cascade

namespace Page

open Cascade

/-! ### Where a cell stands on a page -/

/-- The parts in a part at a depth. -/
def Part.inside : ℕ → Part → List Part
  | 0, part => [part]
  | _ + 1, .line _ => []
  | depth + 1, .element _ _ content => content.flatMap (Part.inside depth)

/-- The cell of a column on a page, by the places of its row and of its column.  Six elements
enclose a row, and four elements of the row enclose a cell. -/
def cell? (page : Part) (row column : ℕ) : Option Part :=
  ((page.inside 6)[row]?).bind fun part => (part.inside 4)[column]?

/-- Six elements deep in a page there are its rows. -/
lemma inside_pagePart (d : ResolvedDocument) :
    (pagePart d).inside 6 = d.rows.map (rowPart d.mobile) := by
  -- beside the table of the body there are only lines
  have hpreview : (previewParts d).flatMap (Part.inside 4) = [] := by
    unfold previewParts
    split_ifs
    · rfl
    · rfl
  have hhead : (headPart d).inside 5 = [] := by
    unfold headPart
    simp [Part.inside]
  have hbody : (bodyPart d).inside 5 = d.rows.map (rowPart d.mobile) := by
    unfold bodyPart bodyTable
    simp [Part.inside, hpreview, List.map_eq_flatMap]
  unfold pagePart
  rw [Part.inside, List.flatMap_cons, List.flatMap_singleton, hhead, hbody, List.nil_append]

/-- Four elements deep in a row there are the cells of its columns. -/
lemma inside_rowPart (mobile : Bool) (row : ResolvedRow) :
    (rowPart mobile row).inside 4 = row.columns.zipIdx.map fun p =>
      columnPart (if mobile then "100%" else p.1.width)
        (textOr row.attributes "verticalAlign" "top")
        (gapBefore (if mobile then "top" else "left")
          (numberOr row.attributes "columnSpacing" 0) p.2) p.1 := by
  cases mobile with
  | false => simp [Part.inside, rowPart, columnParts]
  | true =>
    rw [List.map_eq_flatMap]
    simp [Part.inside, rowPart, columnParts, List.flatMap_map]

/-- On the page of a document, the cell of a column is that of the resolved column. -/
lemma exists_cell?_eq (view : View) {d : Document} {r : Row} {c : Column} {i j : ℕ}
    (hr : d.rows[i]? = some r) (hc : r.columns[j]? = some c) :
    ∃ width gap, cell? (pagePart (resolve view d)) i j =
      some (columnPart width (textOr (row view d r) "verticalAlign" "top") gap
        (resolveColumn view d (paletteOf d) r j c)) := by
  have hrow : (resolve view d).rows[i]? = some (resolveRow view d (paletteOf d) r) := by
    unfold resolve
    rw [List.getElem?_map, hr]
    rfl
  have hcolumn : (resolveRow view d (paletteOf d) r).columns.zipIdx[j]? =
      some (resolveColumn view d (paletteOf d) r j c, j) := by
    unfold resolveRow
    simp [hc]
  have hcell : cell? (pagePart (resolve view d)) i j =
      ((rowPart view.mobile (resolveRow view d (paletteOf d) r)).inside 4)[j]? := by
    unfold cell?
    rw [inside_pagePart, List.getElem?_map, hrow]
    rfl
  rw [hcell, inside_rowPart, List.getElem?_map, hcolumn]
  exact ⟨_, _, rfl⟩

/-! ### Cells in the text of a page -/

variable {normalize : String → String}

/-- The lines of each of the parts are among the lines of all. -/
lemma lines_subset_linesOf {part : Part} {parts : List Part} (h : part ∈ parts) (depth : ℕ) :
    part.lines normalize depth ⊆ linesOf normalize depth parts := by
  induction parts with
  | nil => cases h
  | cons first rest ih =>
    rw [linesOf]
    rcases List.mem_cons.mp h with rfl | hrest
    · exact List.subset_append_left _ _
    · exact List.Subset.trans (ih hrest) (List.subset_append_right _ _)

/-- The lines of a part inside another are among the lines of that one. -/
lemma lines_subset_of_mem_inside {inner : Part} :
    ∀ {n : ℕ} {part : Part}, inner ∈ part.inside n → ∀ depth,
      inner.lines normalize (depth + n) ⊆ part.lines normalize depth := by
  intro n
  induction n with
  | zero =>
    intro part h depth
    obtain rfl : inner = part := List.mem_singleton.mp h
    exact List.Subset.refl _
  | succ n ih =>
    intro part h depth
    cases part with
    | line content => cases h
    | element name attributes content =>
      obtain ⟨child, hchild, hinner⟩ := List.mem_flatMap.mp h
      have hlines : inner.lines normalize (depth + 1 + n) ⊆
          linesOf normalize (depth + 1) content :=
        List.Subset.trans (ih hinner (depth + 1)) (lines_subset_linesOf hchild (depth + 1))
      intro line hline
      rw [← Nat.add_assoc, Nat.add_right_comm] at hline
      rw [Part.lines]
      exact List.mem_append_left _ (List.mem_cons_of_mem _ (hlines hline))

/-- Each of the texts stands in all of them with a separator in between. -/
lemma infix_intercalate {text : List Char} (sep : List Char) {texts : List (List Char)}
    (h : text ∈ texts) : text <:+: sep.intercalate texts := by
  induction texts with
  | nil => cases h
  | cons first rest ih =>
    cases rest with
    | nil =>
      obtain rfl := List.mem_singleton.mp h
      rw [List.intercalate_singleton]
    | cons second rest =>
      rw [List.intercalate_cons_cons]
      rcases List.mem_cons.mp h with rfl | hrest
      · rw [List.append_assoc]
        exact (List.prefix_append _ _).isInfix
      · exact (ih hrest).trans (List.suffix_append _ _).isInfix

/-- Each line stands in the text of all, indented or not. -/
lemma infix_joinLines (pretty : Bool) (indent : List Char) {lines : List (ℕ × List Char)}
    {line : ℕ × List Char} (h : line ∈ lines) : line.2 <:+: joinLines pretty indent lines := by
  unfold joinLines
  cases pretty with
  | false => exact List.infix_of_mem_flatten (List.mem_map_of_mem h)
  | true =>
    have hindented : (List.replicate line.1 indent).flatten ++ line.2 ∈
        lines.map fun l => (List.replicate l.1 indent).flatten ++ l.2 :=
      List.mem_map_of_mem (f := fun l => (List.replicate l.1 indent).flatten ++ l.2) h
    exact (List.suffix_append _ _).isInfix.trans (infix_intercalate _ hindented)

/-- The tag that opens a cell stands in the text of its page. -/
lemma infix_write {settings : RenderSettings} {d : ResolvedDocument} {i j : ℕ} {name : String}
    {attributes : Named} {content : List Part}
    (h : cell? (pagePart d) i j = some (.element name attributes content)) :
    writeOpening name attributes <:+: (write normalize settings d).toList := by
  obtain ⟨rowPart, hrow, hcell⟩ := Option.bind_eq_some_iff.mp h
  have hlines : (Part.element name attributes content).lines normalize (0 + 6 + 4) ⊆
      (pagePart d).lines normalize 0 :=
    List.Subset.trans (lines_subset_of_mem_inside (List.mem_of_getElem? hcell) _)
      (lines_subset_of_mem_inside (List.mem_of_getElem? hrow) 0)
  have hopening : (0 + 6 + 4, writeOpening name attributes) ∈
      (Part.element name attributes content).lines normalize (0 + 6 + 4) := by
    rw [Part.lines]
    exact List.mem_cons_self
  unfold write
  rw [String.toList_ofList]
  exact infix_joinLines _ _ (List.mem_cons_of_mem _ (hlines hopening))

/-! ### The alignment of a cell -/

/-- The cell of a column says how the column is aligned, as it sets itself or as its row does. -/
lemma exists_cell_of_column (view : View) {d : Document} {r : Row} {c : Column} {i j : ℕ}
    (hr : d.rows[i]? = some r) (hc : r.columns[j]? = some c)
    (hown : ownAlignment? view.mobile c.attributes = none) :
    ∃ attributes content,
      cell? (pagePart (resolve view d)) i j = some (.element "td" attributes content) ∧
        attributes.lookup "id" = some c.id ∧
        attributes.lookup "valign" = some (rowAlignment r) := by
  have hvalign : ∀ fallback,
      textOr (resolveColumn view d (paletteOf d) r j c).attributes "verticalAlign" fallback =
        rowAlignment r := by
    intro fallback
    have hget : (resolveColumn view d (paletteOf d) r j c).attributes.get? "verticalAlign" =
        some (txt (rowAlignment r)) := by
      rw [← Option.getD_none (a := txt (rowAlignment r)), ← hown]
      exact get?_column_verticalAlign view d r c
    unfold textOr Attributes.text?
    rw [hget]
    rfl
  obtain ⟨width, gap, hcell⟩ := exists_cell?_eq view hr hc
  exact ⟨_, _, hcell, rfl, congrArg some (hvalign _)⟩

/-- A column that sets no vertical alignment stands on the page where its row says as a text of its
own, or else at the top.  It has the alignment that is in effect at its row, unless that one comes
from the role of the row, or from an override for the mobile view that differs from what the row
says otherwise. -/
theorem columnAlignment_written (view : View) (d : Document) {i j : ℕ} {r : Row} {c : Column}
    (hr : d.rows[i]? = some r) (hc : r.columns[j]? = some c)
    (hown : ownAlignment? view.mobile c.attributes = none) :
    ∃ attributes content,
      cell? (pagePart (resolve view d)) i j = some (.element "td" attributes content) ∧
        attributes.lookup "id" = some c.id ∧
        attributes.lookup "valign" = some (rowAlignment r) ∧
        writeOpening "td" attributes <:+: (Page.ofDocument view d).toList ∧
        ∀ v, (row view d r).text? "verticalAlign" = some v →
          (attributes.lookup "valign" ≠ some v ↔
            ownAlignment? view.mobile r.attributes = none ∧
                (r.role = some .header ∨ r.role = some .cart) ∨
              view.mobile = true ∧ (overrides r.attributes).text? "verticalAlign" = some v ∧
                rowAlignment r ≠ v) := by
  obtain ⟨attributes, content, hcell, hid, hvalign⟩ := exists_cell_of_column view hr hc hown
  refine ⟨attributes, content, hcell, hid, hvalign, infix_write hcell, ?_⟩
  intro v hv
  have hne : attributes.lookup "valign" ≠ some v ↔ rowAlignment r ≠ v := by
    rw [hvalign, Ne, Option.some.injEq]
  exact hne.trans (rowAlignment_ne_iff view d r hv)

/-- A column that sets nothing. -/
def plainColumn : Column where
  id := "c"
  units := 12

/-- A header without an alignment of its own. -/
def headerRow : Row where
  id := "r"
  role := some .header
  columns := [plainColumn]

/-- A row at the bottom, which the mobile view has in the middle. -/
def bottomRow : Row where
  id := "s"
  attributes := .ofList
    [("mobile", .json (.object [("verticalAlign", .text "middle")])),
      ("verticalAlign", .text "bottom")]
  columns := [plainColumn]

/-- The header above the row at the bottom. -/
def alignedDocument : Document where
  id := "e"
  rows := [headerRow, bottomRow]

/-- In the mobile view, the column of the second row stays at the bottom. -/
theorem columnAlignment_written_alignedDocument :
    alignedDocument.rows[1]? = some bottomRow ∧ bottomRow.columns[0]? = some plainColumn ∧
      ownAlignment? true plainColumn.attributes = none ∧
      ∃ attributes content,
        cell? (pagePart (resolve { mobile := true } alignedDocument)) 1 0 =
            some (.element "td" attributes content) ∧
          attributes.lookup "valign" = some "bottom" ∧
          writeOpening "td" attributes <:+:
            (Page.ofDocument { mobile := true } alignedDocument).toList := by
  have hr : alignedDocument.rows[1]? = some bottomRow := rfl
  have hc : bottomRow.columns[0]? = some plainColumn := rfl
  have hown : ownAlignment? true plainColumn.attributes = none := rfl
  obtain ⟨attributes, content, hcell, -, hvalign, hinfix, -⟩ :=
    columnAlignment_written { mobile := true } alignedDocument hr hc hown
  exact ⟨hr, hc, hown, attributes, content, hcell, hvalign, hinfix⟩

/-- The middle of a header does not reach its column. -/
theorem exists_column_against_row :
    alignedDocument.rows[0]? = some headerRow ∧ headerRow.columns[0]? = some plainColumn ∧
      ownAlignment? false plainColumn.attributes = none ∧
      (row {} alignedDocument headerRow).text? "verticalAlign" = some "middle" ∧
      ∃ attributes content,
        cell? (pagePart (resolve {} alignedDocument)) 0 0 =
            some (.element "td" attributes content) ∧
          attributes.lookup "valign" = some "top" ∧
          writeOpening "td" attributes <:+: (Page.ofDocument {} alignedDocument).toList := by
  have hr : alignedDocument.rows[0]? = some headerRow := rfl
  have hc : headerRow.columns[0]? = some plainColumn := rfl
  have hown : ownAlignment? false plainColumn.attributes = none := rfl
  have hrow : (row {} alignedDocument headerRow).text? "verticalAlign" = some "middle" := by
    unfold Attributes.text?
    rw [get?_row_verticalAlign]
    rfl
  obtain ⟨attributes, content, hcell, -, hvalign⟩ := exists_cell_of_column {} hr hc hown
  exact ⟨hr, hc, hown, hrow, attributes, content, hcell, hvalign, infix_write hcell⟩

end Page

end MailTemplate
