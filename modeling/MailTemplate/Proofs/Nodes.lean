import MailTemplate.Proofs.Places

/-!
# The nodes of a document

A document as a list of nodes: each node with its id and with what it holds apart from its place and
the widths of columns.  A change at one place changes the nodes there and leaves all others as they
are; the lemmas say so up to the order of the nodes, with the others as a frame.
-/

namespace MailTemplate

/-! ### Nodes -/

/-- What a node holds, apart from its id, its place and the widths of columns. -/
inductive Document.Payload where
  | row (role : Option RowRole) (attributes container : Attributes)
  | column (attributes : Attributes)
  | block (kind : BlockKind) (content : Option String) (attributes : Attributes)

/-- A node under its id. -/
structure Document.Node where
  id : String
  payload : Document.Payload

open Document (Payload Node)

/-- The node of a block. -/
def Block.node (block : Block) : Node :=
  ⟨block.id, .block block.kind block.content block.attributes⟩

/-- The nodes of a column and of its blocks. -/
def Column.nodes (column : Column) : List Node :=
  ⟨column.id, .column column.attributes⟩ :: column.blocks.map Block.node

/-- The nodes of a row and of all that is in it, in document order. -/
def Row.nodes (row : Row) : List Node :=
  ⟨row.id, .row row.role row.attributes row.container⟩ :: row.columns.flatMap Column.nodes

/-- All nodes, in document order. -/
def Document.nodes (d : Document) : List Node := d.rows.flatMap Row.nodes

/-- The nodes of a column have the ids of the column. -/
@[simp] lemma Column.map_id_nodes (column : Column) : column.nodes.map Node.id = column.ids := by
  simp [Column.nodes, Column.ids, Block.node, Function.comp_def]

/-- The nodes of a row have the ids of the row. -/
@[simp] lemma Row.map_id_nodes (row : Row) : row.nodes.map Node.id = row.ids := by
  simp [Row.nodes, Row.ids, List.map_flatMap]

/-- The nodes of a document have the ids of the document. -/
@[simp] lemma Document.map_id_nodes (d : Document) : d.nodes.map Node.id = d.ids := by
  simp [Document.nodes, Document.ids, List.map_flatMap]

/-! ### Rows as frames -/

/-- The nodes of a list of rows, up to the order of the rows. -/
lemma nodes_perm_of_rows {d d' : Document} (h : d'.rows.Perm d.rows) : d'.nodes.Perm d.nodes :=
  h.flatMap_right Row.nodes

/-- A document is one of its rows and the others, and a change of that row leaves the others. -/
lemma exists_frame_row {d : Document} {index : ℕ} {row : Row} (h : d.rows[index]? = some row) :
    ∃ others, d.nodes.Perm (row.nodes ++ others) ∧
      { d with rows := d.rows.eraseIdx index }.nodes = others ∧
        ∀ f, (d.modifyRow index f).nodes.Perm ((f row).nodes ++ others) := by
  refine ⟨(d.rows.eraseIdx index).flatMap Row.nodes, ?_, rfl, fun f => ?_⟩
  · exact (perm_cons_eraseIdx h).flatMap_right Row.nodes
  · exact (perm_cons_modify h f).flatMap_right Row.nodes

/-- A document with a row inserted is the row and the former document. -/
lemma nodes_insertIdx_row {d : Document} {index : ℕ} (h : index ≤ d.rows.length) (row : Row) :
    { d with rows := d.rows.insertIdx index row }.nodes.Perm (row.nodes ++ d.nodes) :=
  (List.perm_insertIdx row d.rows h).flatMap_right Row.nodes

/-- A row may be inserted at any position. -/
lemma nodes_insertAt_row (d : Document) (position : Option ℕ) (row : Row) :
    { d with rows := insertAt d.rows position row }.nodes.Perm (row.nodes ++ d.nodes) := by
  refine nodes_insertIdx_row ?_ row
  cases position with
  | none => exact le_rfl
  | some p => exact Nat.min_le_right p d.rows.length

/-! ### Columns and blocks as frames -/

section Frames

variable {d : Document} {row : Row} {column : Column}

/-- A document is one of its columns and the other nodes, and a change of that column leaves the
others. -/
lemma exists_frame_column {place : ColumnPlace} (hrow : d.rows[place.row]? = some row)
    (hcolumn : row.columns[place.column]? = some column) :
    ∃ others, d.nodes.Perm (column.nodes ++ others) ∧
      ∀ f, (d.modifyColumn place f).nodes.Perm ((f column).nodes ++ others) := by
  obtain ⟨others, hd, -, hmodify⟩ := exists_frame_row hrow
  -- the frame of the column: the node of the row, the other columns, and the other rows
  refine ⟨⟨row.id, .row row.role row.attributes row.container⟩ ::
    (row.columns.eraseIdx place.column).flatMap Column.nodes ++ others, ?_, fun f => ?_⟩
  · refine hd.trans ?_
    rw [← List.append_assoc]
    refine List.Perm.append_right others ?_
    exact (((perm_cons_eraseIdx hcolumn).flatMap_right Column.nodes).cons _).trans
      List.perm_middle.symm
  · refine (hmodify _).trans ?_
    rw [← List.append_assoc]
    refine List.Perm.append_right others ?_
    exact (((perm_cons_modify hcolumn f).flatMap_right Column.nodes).cons _).trans
      List.perm_middle.symm

/-- A document is the blocks of one of its columns and the other nodes, and a change of those blocks
leaves the others. -/
lemma exists_frame_blocks (place : ColumnPlace) (hrow : d.rows[place.row]? = some row)
    (hcolumn : row.columns[place.column]? = some column) :
    ∃ others, d.nodes.Perm (column.blocks.map Block.node ++ others) ∧
      ∀ f, (d.modifyBlocks place f).nodes.Perm ((f column.blocks).map Block.node ++ others) := by
  obtain ⟨others, hd, hmodify⟩ := exists_frame_column hrow hcolumn
  refine ⟨⟨column.id, .column column.attributes⟩ :: others, ?_, fun f => ?_⟩
  · exact hd.trans List.perm_middle.symm
  · exact (hmodify _).trans List.perm_middle.symm

/-- A document is one of its blocks and the other nodes; a change of that block leaves the others,
and so does its removal. -/
lemma exists_frame_block {place : BlockPlace} {block : Block}
    (hrow : d.rows[place.row]? = some row) (hcolumn : row.columns[place.column]? = some column)
    (hblock : column.blocks[place.block]? = some block) :
    ∃ others, d.nodes.Perm (block.node :: others) ∧
      (d.modifyBlocks ⟨place.row, place.column⟩ fun bs => bs.eraseIdx place.block).nodes.Perm
        others ∧
      ∀ f, (d.modifyBlock place f).nodes.Perm ((f block).node :: others) := by
  obtain ⟨others, hd, hmodify⟩ :=
    exists_frame_blocks ⟨place.row, place.column⟩ hrow hcolumn
  refine ⟨(column.blocks.eraseIdx place.block).map Block.node ++ others, ?_, hmodify _,
    fun f => ?_⟩
  · exact hd.trans (((perm_cons_eraseIdx hblock).map Block.node).append_right others)
  · exact (hmodify _).trans (((perm_cons_modify hblock f).map Block.node).append_right others)

/-- A document with a block put into a column is the block and the former document. -/
lemma nodes_insertIdx_block {place : ColumnPlace} (hrow : d.rows[place.row]? = some row)
    (hcolumn : row.columns[place.column]? = some column) {index : ℕ}
    (hindex : index ≤ column.blocks.length) (block : Block) :
    (d.modifyBlocks place fun bs => bs.insertIdx index block).nodes.Perm
      (block.node :: d.nodes) := by
  obtain ⟨others, hd, hmodify⟩ := exists_frame_blocks _ hrow hcolumn
  have hinsert : ((column.blocks.insertIdx index block).map Block.node ++ others).Perm
      (block.node :: (column.blocks.map Block.node ++ others)) :=
    ((List.perm_insertIdx block column.blocks hindex).map Block.node).append_right others
  exact (hmodify _).trans (hinsert.trans (hd.symm.cons _))

end Frames

end MailTemplate
