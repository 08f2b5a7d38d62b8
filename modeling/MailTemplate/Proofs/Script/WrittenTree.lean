import MailTemplate.Proofs.Script.Grammar
import MailTemplate.Proofs.Script.WrittenAttributes

/-!
# The tree of a written document

A document in either surface form is lexed to the tokens of its elements, in document order, and
these are the tokens of one EMAIL node with a node for each row, column and block.

Main result: the script of a document has that tree, in the tag form if no content holds the closing
tag of its own block (`exists_tree_write`).
-/

namespace MailTemplate.Script

/-! ### Texts that are read as nodes -/

/-- A text whose tokens come before those of any text behind it, and are the tokens of nodes. -/
def Reads (form : Form) (text : List Char) (nodes : List Node) : Prop :=
  ∃ tokens, (∀ rest more, Lexes form none rest more →
      Lexes form none (text ++ rest) (tokens ++ more)) ∧
    ∀ more later, Derives more later → Derives (tokens ++ more) (nodes ++ later)

/-- No text is read as no nodes. -/
lemma reads_nil (form : Form) : Reads form [] [] :=
  ⟨[], fun _ _ h => h, fun _ _ h => h⟩

/-- Texts one after the other are read as the nodes of both. -/
lemma Reads.append {form : Form} {text text' : List Char} {nodes nodes' : List Node}
    (h : Reads form text nodes) (h' : Reads form text' nodes') :
    Reads form (text ++ text') (nodes ++ nodes') := by
  obtain ⟨tokens, hlex, hderive⟩ := h
  obtain ⟨tokens', hlex', hderive'⟩ := h'
  refine ⟨tokens ++ tokens', fun rest more hrest => ?_, fun more later hmore => ?_⟩
  · rw [List.append_assoc, List.append_assoc]
    exact hlex _ _ (hlex' rest more hrest)
  · rw [List.append_assoc, List.append_assoc]
    exact hderive _ _ (hderive' more later hmore)

/-- Texts that are read as one node each are read as these nodes. -/
lemma reads_flatMap {α : Type} {form : Form} {items : List α} {text : α → List Char}
    {node : α → Node} (h : ∀ a ∈ items, Reads form (text a) [node a]) :
    Reads form (items.flatMap text) (items.map node) := by
  induction items with
  | nil => exact reads_nil form
  | cons a items ih =>
    have hfirst := h a List.mem_cons_self
    have hmore := ih fun b hb => h b (List.mem_cons_of_mem a hb)
    exact hfirst.append hmore

/-- A text that is read as nodes is the source of a tree with these nodes, up to their places. -/
lemma Reads.exists_ofSource {form : Form} {text : List Char} {nodes : List Node}
    (h : Reads form text nodes) (hform : formOf text = form) :
    ∃ found, Tree.ofSource text = .ok ⟨form, found⟩ ∧ found.map Node.erase = nodes := by
  obtain ⟨tokens, hlex, hderive⟩ := h
  have hlexes := hlex [] [] lexes_nil
  have hderives := hderive [] [] Derives.nil
  rw [List.append_nil, List.append_nil] at hlexes hderives
  obtain ⟨found, hpieces, htokens⟩ := hlexes text.length le_rfl
  have hlexed : lex text = .ok (lexemesFrom 0 found) := by
    unfold lex pieces
    rw [hform, hpieces]
  have hmap : (lexemesFrom 0 found).map Lexeme.token = tokens := by
    rw [map_token_lexemesFrom, htokens]
  have htree := Script.exists_ofSource hlexed hmap hderives
  rwa [hform] at htree

/-! ### Lines -/

section Lines

variable {form : Form} {rest : List Char} {tokens : List Token}

/-- The blanks at the front of a line add no token. -/
lemma lexes_indent (depth : ℕ) (h : Lexes form none rest tokens) :
    Lexes form none (List.replicate (2 * depth) ' ' ++ rest) tokens := by
  refine lexes_layouts (fun c hc => ?_) h
  rw [List.eq_of_mem_replicate hc]
  decide

/-- The end of a line adds no token. -/
lemma lexes_newline (h : Lexes form none rest tokens) : Lexes form none ('\n' :: rest) tokens :=
  lexes_layout (by decide) h

/-- A line has the tokens of its text. -/
lemma lexes_line (depth : ℕ) {text : List Char}
    (h : Lexes form none (text ++ '\n' :: rest) tokens) :
    Lexes form none (line depth text ++ rest) tokens := by
  have hline : line depth text ++ rest =
      List.replicate (2 * depth) ' ' ++ (text ++ '\n' :: rest) := by
    unfold line
    simp
  rw [hline]
  exact lexes_indent depth h

/-- A keyword and its attributes are one token each, in front of layout. -/
lemma lexes_head {c : Char} (hc : Text.isLayout c = true) (element : Element)
    {pairs : List (List Char)} {attributes : List RawAttribute}
    (hpairs : List.Forall₂ (Writes .brace) pairs attributes)
    (h : Lexes .brace none (c :: rest) tokens) :
    Lexes .brace none (head element.keyword pairs ++ c :: rest)
      (.keyword element :: (attributes.map .attr ++ tokens)) := by
  have hlayout : ∀ a, Text.isLayout a = true → isKeyChar a = false ∧ a ≠ '=' := fun a ha =>
    ⟨not_isKeyChar_of_isLayout ha, ne_of_isLayout ha (by decide)⟩
  unfold head
  rw [List.append_assoc]
  refine lexes_keyword element (fun a ha => hlayout a ?_)
    (lexes_attributes hpairs (endsAttribute_layout .brace hc rest) h)
  cases pairs with
  | nil =>
    obtain rfl : c = a := by simpa using ha
    exact hc
  | cons p pairs =>
    obtain rfl : ' ' = a := by simpa using ha
    decide

/-- An opening tag and its attributes are one token each, in front of its end. -/
lemma lexes_tagHead {c : Char} (hc : c = ' ' ∨ c = '>') (element : Element)
    {pairs : List (List Char)} {attributes : List RawAttribute}
    (hpairs : List.Forall₂ (Writes .tag) pairs attributes)
    (h : ∀ opened, Lexes .tag (if element.isLeaf = true then some (element, opened) else none)
      (c :: rest) tokens) :
    Lexes .tag none ('<' :: (head element.keyword pairs ++ c :: rest))
      (.openTag element :: (attributes.map .attr ++ tokens)) := by
  have hends : EndsAttribute .tag (c :: rest) := by
    rcases hc with rfl | rfl
    · exact endsAttribute_layout .tag (by decide) rest
    · refine ⟨rfl, fun more hmore => ?_⟩
      have hmark : ¬ '>' = '<' := by decide
      exact absurd (List.cons.inj hmore).1 hmark
  unfold head
  rw [List.append_assoc]
  refine lexes_openTag element (fun a ha => ?_) fun opened =>
    lexes_attributes hpairs hends (h opened)
  cases pairs with
  | nil =>
    obtain rfl : c = a := by simpa using ha
    rcases hc with rfl | rfl
    · decide
    · decide
  | cons p pairs =>
    obtain rfl : ' ' = a := by simpa using ha
    decide

end Lines

/-! ### Elements -/

section Elements

variable {pairs : List (List Char)} {attributes : List RawAttribute}

/-- An element that holds others is read as a node with the nodes inside. -/
lemma reads_element {form : Form} (depth : ℕ) (e : Element) (he : e.isLeaf = false)
    {inside : List Char} {nodes : List Node} (hpairs : List.Forall₂ (Writes form) pairs attributes)
    (hinside : Reads form inside nodes) :
    Reads form (element form depth e.keyword pairs inside)
      [.mk e (attributes.map Attribute.ofRaw) (.children nodes) default] := by
  obtain ⟨tokens, hlex, hderive⟩ := hinside
  have hinner : Derives tokens nodes := by
    have h := hderive [] [] Derives.nil
    rwa [List.append_nil, List.append_nil] at h
  cases form with
  | brace =>
    refine ⟨.keyword e :: (attributes.map .attr ++ .openBrace :: (tokens ++ [.closeBrace])),
      fun rest more hrest => ?_, fun more later hmore => ?_⟩
    · have hclose : Lexes .brace none (line depth ['}'] ++ rest) (.closeBrace :: more) :=
        lexes_line depth (lexes_close (lexes_newline hrest))
      have hopen := lexes_layout (c := ' ') (by decide)
        (lexes_open (lexes_newline (hlex _ _ hclose)))
      have hhead := lexes_head (by decide) e hpairs hopen
      unfold element
      simp only [List.append_assoc, List.cons_append, List.nil_append] at hhead ⊢
      refine lexes_line depth ?_
      simpa using hhead
    · have hnode := Derives.braces e attributes hinner hmore
      simp only [List.append_assoc, List.cons_append, List.nil_append]
      exact hnode
  | tag =>
    refine ⟨.openTag e :: (attributes.map .attr ++ .tagEnd :: (tokens ++ [.closeTag e])),
      fun rest more hrest => ?_, fun more later hmore => ?_⟩
    · have hclose : Lexes .tag none
          (line depth ('<' :: '/' :: (e.keyword.toList ++ ['>'])) ++ rest)
          (.closeTag e :: more) := by
        have htag := lexes_closeTag e (lexes_newline hrest)
        refine lexes_line depth ?_
        simpa using htag
      have hopen := lexes_tagEnd (lexes_newline (hlex _ _ hclose))
      have hhead := lexes_tagHead (.inr rfl) e hpairs fun opened => by
        rw [he]
        exact hopen
      unfold element
      simp only [List.append_assoc, List.cons_append, List.nil_append] at hhead ⊢
      refine lexes_line depth ?_
      simpa using hhead
    · have hnode := Derives.tags e attributes hinner hmore
      simp only [List.append_assoc, List.cons_append, List.nil_append]
      exact hnode

/-- The line of an element that holds nothing is read as a node. -/
lemma reads_line (depth : ℕ) (e : Element)
    (hpairs : List.Forall₂ (Writes .brace) pairs attributes) :
    Reads .brace (line depth (head e.keyword pairs))
      [.mk e (attributes.map Attribute.ofRaw) .empty default] := by
  refine ⟨.keyword e :: attributes.map .attr, fun rest more hrest => ?_, fun more later hmore => ?_⟩
  · exact lexes_line depth (lexes_head (by decide) e hpairs (lexes_newline hrest))
  · exact Derives.bare e attributes hmore

/-- The line of a leaf without content, as a tag that closes itself, is read as a node. -/
lemma reads_selfClosed (depth : ℕ) (e : Element)
    (hpairs : List.Forall₂ (Writes .tag) pairs attributes) :
    Reads .tag (line depth ('<' :: (head e.keyword pairs ++ [' ', '/', '>'])))
      [.mk e (attributes.map Attribute.ofRaw) .empty default] := by
  refine ⟨.openTag e :: (attributes.map .attr ++ [.selfClose]), fun rest more hrest => ?_,
    fun more later hmore => ?_⟩
  · have hclose : ∀ leaf, Lexes .tag leaf (' ' :: '/' :: '>' :: '\n' :: rest)
        (.selfClose :: more) := fun leaf =>
      lexes_layout (by decide) (lexes_selfClose (lexes_newline hrest))
    have hhead := lexes_tagHead (.inl rfl) e hpairs fun opened => hclose _
    refine lexes_line depth ?_
    simpa using hhead
  · have hnode := Derives.selfClosed e attributes hmore
    simpa using hnode

/-- The line of a leaf with its content between tags is read as a node with that content, blanks at
its ends aside, unless the content holds the closing tag itself. -/
lemma reads_content (depth : ℕ) (e : Element) (he : e.isLeaf = true)
    (hpairs : List.Forall₂ (Writes .tag) pairs attributes) {content : List Char}
    (hcontent : ¬HoldsClosing e.keyword.toList content) :
    Reads .tag (line depth ('<' :: (head e.keyword pairs ++ '>' ::
        (content ++ '<' :: '/' :: e.keyword.toList ++ ['>']))))
      [.mk e (attributes.map Attribute.ofRaw) (.content (String.ofList (Text.trim content)))
        default] := by
  refine ⟨.openTag e :: (attributes.map .attr ++ [.tagEnd,
      .content (String.ofList (Text.trim content)), .closeTag e]), fun rest more hrest => ?_,
    fun more later hmore => ?_⟩
  · have hclose := lexes_closeTag e (lexes_newline hrest)
    have hbefore := contentBefore_append (not_mem_keyword e (by decide)) hcontent
      ⟨[], '\n' :: rest, rfl, List.forall_mem_nil _⟩
    have hhead := lexes_tagHead (.inr rfl) e hpairs fun opened => by
      rw [if_pos he]
      exact lexes_content hbefore hclose
    refine lexes_line depth ?_
    simpa using hhead
  · have hnode := Derives.content e attributes (String.ofList (Text.trim content)) hmore
    simpa using hnode

end Elements

/-! ### Nodes of a document -/

/-- The body of a block's node in the tag form. -/
def tagBody (content : Option String) : Body :=
  match content with
  | none => .empty
  | some content => .content (String.ofList (Text.trim content.toList))

/-- The node of a block: its content is an attribute in the brace form, and its body in the tag
form. -/
def blockNode (form : Form) (block : Block) : Node :=
  match form with
  | .brace =>
    .mk (.block block.kind) ((blockAttributes block).map Attribute.ofRaw) .empty default
  | .tag =>
    .mk (.block block.kind) ((leadAttributes block).map Attribute.ofRaw) (tagBody block.content)
      default

/-- The node of a column. -/
def columnNode (form : Form) (column : Column) : Node :=
  .mk .column ((columnAttributes column).map Attribute.ofRaw)
    (.children (column.blocks.map (blockNode form))) default

/-- The node of a row. -/
def rowNode (form : Form) (row : Row) : Node :=
  .mk .row ((rowAttributes row).map Attribute.ofRaw)
    (.children (row.columns.map (columnNode form))) default

/-- The node of a document. -/
def documentNode (form : Form) (d : Document) : Node :=
  .mk .email ((rootAttributes d).map Attribute.ofRaw) (.children (d.rows.map (rowNode form)))
    default

/-- The content of a block can be written in a form: between tags it must not hold the closing tag
of the block itself. -/
def Fits (form : Form) (block : Block) : Prop :=
  form = .tag → ∀ content ∈ block.content, ¬HoldsClosing block.kind.keyword.toList content.toList

/-- The line of a block is read as the block's node. -/
lemma reads_block {form : Form} {block : Block} (h : Fits form block) :
    Reads form (blockLine form block) [blockNode form block] := by
  have hpairs := writes_block form block
  unfold blockLine blockNode
  cases form with
  | brace =>
    unfold blockAttributes
    cases block.content with
    | none =>
      have hline := reads_line 3 (.block block.kind) hpairs
      rw [Option.map_none, Option.toList_none, List.append_nil]
      exact hline
    | some content =>
      have hall := List.rel_append hpairs (.cons (writes_content .brace content) .nil)
      exact reads_line 3 (.block block.kind) hall
  | tag =>
    cases hcontent : block.content with
    | none => exact reads_selfClosed 3 (.block block.kind) hpairs
    | some content => exact reads_content 3 (.block block.kind) rfl hpairs (h rfl content hcontent)

/-- The lines of a column are read as the column's node. -/
lemma reads_column {form : Form} {column : Column} (h : ∀ block ∈ column.blocks, Fits form block) :
    Reads form (columnLines form column) [columnNode form column] :=
  reads_element 2 .column rfl (writes_column form column)
    (reads_flatMap fun block hblock => reads_block (h block hblock))

/-- The lines of a row are read as the row's node. -/
lemma reads_row {form : Form} {row : Row}
    (h : ∀ column ∈ row.columns, ∀ block ∈ column.blocks, Fits form block) :
    Reads form (rowLines form row) [rowNode form row] :=
  reads_element 1 .row rfl (writes_row form row)
    (reads_flatMap fun column hcolumn => reads_column (h column hcolumn))

/-- The script of a document is in the form that it was written in. -/
lemma formOf_write (form : Form) (d : Document) : formOf (write form d).toList = form := by
  unfold write
  rw [String.toList_ofList]
  cases form with
  | brace => rfl
  | tag => rfl

/-- The script of a document is the source of the document's node, up to places. -/
theorem exists_tree_write {form : Form} {d : Document} (h : ∀ block ∈ d.blocks, Fits form block) :
    ∃ node, Tree.ofSource (write form d).toList = .ok ⟨form, [node]⟩ ∧
      node.erase = documentNode form d := by
  have hreads : Reads form (write form d).toList [documentNode form d] := by
    unfold write
    rw [String.toList_ofList]
    exact reads_element 0 .email rfl (writes_root form d) (reads_flatMap fun row hrow =>
      reads_row fun column hcolumn block hblock => h block (d.mem_blocks hrow hcolumn hblock))
  obtain ⟨found, htree, herase⟩ := hreads.exists_ofSource (formOf_write form d)
  obtain ⟨node, rfl, hnode⟩ := List.map_eq_singleton_iff.mp herase
  exact ⟨node, htree, hnode⟩

end MailTemplate.Script
