import MailTemplate.Proofs.Script.Lexing
import MailTemplate.Proofs.Script.Writable

/-!
# The attributes of a written document

Each element of a document is written with a list of attributes, every one of which is read back as
the key and the raw value that it stands for.

Main results: the attributes of the root, of rows, of columns and of blocks are read as written
(`writes_root`, `writes_row`, `writes_column`, `writes_block`), and the key that a container's key
is written as stands for that key, unless it starts with a capital
(`reopenedKey_of_isContainerKey`).  One value on its own is read back whatever follows it
(`convert_scanValue_valueText`).
-/

namespace MailTemplate.Script

/-! ### Written attributes -/

/-- A quoted attribute. -/
def quotedAttribute (key text : String) : RawAttribute := ⟨key, .quoted text⟩

/-- An attribute with a bare word. -/
def bareAttribute (key text : String) : RawAttribute := ⟨key, .bare text⟩

/-- The attributes of a bag: those under plain keys. -/
def bagAttributes (bag : Attributes) (reserved : List String) : List RawAttribute :=
  (bag.plainEntries reserved).map fun e => ⟨e.1, rawValue e.2⟩

/-- The attributes of a container: those under keys that a script can hold. -/
def containerAttributes (bag : Attributes) : List RawAttribute :=
  bag.scriptEntries.map fun e => ⟨containerKey e.1, rawValue e.2⟩

/-- The attributes of the root. -/
def rootAttributes (d : Document) : List RawAttribute :=
  [quotedAttribute "id" d.id, quotedAttribute "name" d.name] ++
    (if d.previewText = "" then [] else [quotedAttribute "previewText" d.previewText]) ++
    [quotedAttribute "fontFamily" d.fontFamily, bareAttribute "width" (toString d.width),
     quotedAttribute "color" d.color, quotedAttribute "backgroundColor" d.backgroundColor,
     quotedAttribute "rowBackgroundColor" d.rowBackgroundColor,
     quotedAttribute "linkColor" d.linkColor] ++
    (d.variant.map fun v => bareAttribute "styleVariant" v.name).toList ++
    (d.theme.map fun t => quotedAttribute "theme" t).toList

/-- The attributes of a row. -/
def rowAttributes (row : Row) : List RawAttribute :=
  quotedAttribute "id" row.id :: (row.role.map fun r => quotedAttribute "type" r.name).toList ++
    bagAttributes row.attributes ["id", "type"] ++ containerAttributes row.container

/-- The attributes of a column. -/
def columnAttributes (column : Column) : List RawAttribute :=
  [quotedAttribute "id" column.id, bareAttribute "width" (toString column.units)] ++
    bagAttributes column.attributes ["id", "width"]

/-- Content as an attribute. -/
def contentAttribute (content : String) : RawAttribute :=
  ⟨"content", if isInlineHtml content.toList then .html content else .quoted content⟩

/-- The attributes of a block, its content aside. -/
def leadAttributes (block : Block) : List RawAttribute :=
  quotedAttribute "id" block.id :: bagAttributes block.attributes ["id", "content"]

/-- The attributes of a block. -/
def blockAttributes (block : Block) : List RawAttribute :=
  leadAttributes block ++ (block.content.map contentAttribute).toList

/-- A quoted pair is read as a quoted attribute. -/
lemma writes_quotedPair (form : Form) {key : String} (hkey : isScriptKey key.toList = true)
    (text : String) : Writes form (quotedPair key text) (quotedAttribute key text) := by
  refine ⟨quoteText text.toList, rfl, hkey, fun rest _ => ?_⟩
  rw [scanValue_quoteText, String.ofList_toList]
  rfl

/-- A pair with a bare word is read as an attribute with that word. -/
lemma writes_barePair (form : Form) {key text : String} (hkey : isScriptKey key.toList = true)
    (hne : text.toList ≠ []) (htext : ∀ c ∈ text.toList, isBareChar c = true)
    (hhead : text.toList.head? ≠ some '[') :
    Writes form (pair key text.toList) (bareAttribute key text) := by
  refine ⟨text.toList, rfl, hkey, fun rest hrest => ?_⟩
  rw [scanValue_bare hne htext hhead hrest.1, String.ofList_toList]
  rfl

/-- The digits of a number are read as a bare word. -/
lemma writes_natPair (form : Form) {key : String} (hkey : isScriptKey key.toList = true) (n : ℕ) :
    Writes form (pair key (toString n).toList) (bareAttribute key (toString n)) := by
  have hdigits : (toString n).toList = Nat.toDigits 10 n := Nat.toList_repr
  have hchars : ∀ c ∈ (toString n).toList, c.isDigit = true := by
    rw [hdigits]
    exact fun c => Text.isDigit_of_mem_toDigits
  refine writes_barePair form hkey ?_ (fun c hc => isBareChar_of_number (.inl (hchars c hc))) ?_
  · rw [hdigits]
    exact Nat.toDigits_ne_nil
  · intro hhead
    have hbracket := hchars '[' (List.mem_of_mem_head? hhead)
    revert hbracket
    decide

/-- A written value is read as an attribute. -/
lemma writes_value (form : Form) {key : String} (hkey : isScriptKey key.toList = true)
    (v : AttributeValue) : Writes form (pair key (valueText v)) ⟨key, rawValue v⟩ :=
  ⟨valueText v, rfl, hkey, fun _ hrest => scanValue_valueText v hrest.1⟩

/-- Content is read as an attribute. -/
lemma writes_content (form : Form) (content : String) :
    Writes form (pair "content" (contentValue content.toList)) (contentAttribute content) := by
  have hkey : isScriptKey "content".toList = true := by decide
  refine ⟨contentValue content.toList, rfl, hkey, fun rest hrest => ?_⟩
  unfold contentValue contentAttribute
  simp only
  by_cases hinline : isInlineHtml content.toList = true
  · rw [if_pos hinline, if_pos hinline, scanValue_inline form hinline hrest.2,
      String.ofList_toList]
  · rw [if_neg hinline, if_neg hinline, scanValue_quoteText, String.ofList_toList]

/-- Members that a test lets through, written one by one. -/
lemma filterMap_ite {α β : Type} (p : α → Bool) (f : α → β) (items : List α) :
    (items.filterMap fun a => if p a = true then some (f a) else none) =
      (items.filter p).map f := by
  induction items with
  | nil => rfl
  | cons a items ih =>
    rw [List.filterMap_cons, List.filter_cons, ih]
    cases p a with
    | true => rfl
    | false => rfl

/-- The entries of a bag are written under plain keys. -/
lemma bagPairs_eq (bag : Attributes) (reserved : List String) :
    bagPairs bag reserved =
      (bag.plainEntries reserved).map fun e => pair e.1 (valueText e.2) := by
  unfold bagPairs Attributes.plainEntries writtenAs
  rw [filterMap_ite, List.filter_filter]
  congr 1
  refine List.filter_congr fun e _ => ?_
  rw [Bool.eq_iff_iff, decide_eq_true_eq]
  simp only [IsPlainKey, Bool.and_eq_true, Bool.not_eq_true', List.contains_eq_mem,
    decide_eq_false_iff_not]

/-- The entries of a bag are read as its attributes. -/
lemma writes_bag (form : Form) (bag : Attributes) (reserved : List String) :
    List.Forall₂ (Writes form) (bagPairs bag reserved) (bagAttributes bag reserved) := by
  rw [bagPairs_eq, bagAttributes, List.forall₂_map_left_iff, List.forall₂_map_right_iff]
  refine List.forall₂_same.mpr fun e he => writes_value form ?_ e.2
  exact (bag.isPlainKey_of_mem_plainEntries he).1

/-! ### Keys of containers -/

/-- A character that starts a name is an ASCII character. -/
lemma toNat_lt_of_isNameStart {c : Char} (hc : isNameStart c = true) : c.toNat < 128 := by
  unfold isNameStart Char.isAlpha Char.isUpper Char.isLower at hc
  simp only [Bool.or_eq_true, Bool.and_eq_true, decide_eq_true_eq, beq_iff_eq] at hc
  rcases hc with (⟨-, hupper⟩ | ⟨-, hlower⟩) | rfl
  · exact lt_of_le_of_lt hupper (by decide)
  · exact lt_of_le_of_lt hlower (by decide)
  · decide

/-- A capital is a character of a key. -/
lemma isKeyChar_toUpper {c : Char} (hc : isNameStart c = true) : isKeyChar c.toUpper = true := by
  have hall : ∀ n < 128, isNameStart (Char.ofNat n) = true →
      isKeyChar (Char.ofNat n).toUpper = true := by decide
  have hlt := toNat_lt_of_isNameStart hc
  rw [← Char.ofNat_toNat c] at hc ⊢
  exact hall c.toNat hlt hc

/-- A letter that is no capital is the capital's lower case. -/
lemma toLower_toUpper {c : Char} (hc : isNameStart c = true) (hupper : c.isUpper = false) :
    c.toUpper.toLower = c := by
  have hall : ∀ n < 128, isNameStart (Char.ofNat n) = true → (Char.ofNat n).isUpper = false →
      (Char.ofNat n).toUpper.toLower = Char.ofNat n := by decide
  have hlt := toNat_lt_of_isNameStart hc
  rw [← Char.ofNat_toNat c] at hc hupper ⊢
  exact hall c.toNat hlt hc hupper

/-- The key of a row for a key of its container, letter by letter. -/
lemma exists_containerKey {key : String} (hkey : isScriptKey key.toList = true) :
    ∃ c cs, key.toList = c :: cs ∧ isNameStart c = true ∧ (∀ a ∈ cs, isKeyChar a = true) ∧
      (containerKey key).toList = "container".toList ++ c.toUpper :: cs := by
  cases hlist : key.toList with
  | nil =>
    rw [hlist] at hkey
    cases hkey
  | cons c cs =>
    rw [hlist] at hkey
    simp only [isScriptKey, Bool.and_eq_true, List.all_eq_true] at hkey
    refine ⟨c, cs, rfl, hkey.1, hkey.2, ?_⟩
    unfold containerKey
    rw [hlist]
    exact String.toList_ofList

/-- A key of a container that a script can hold is written as a key. -/
lemma isScriptKey_containerKey {key : String} (hkey : isScriptKey key.toList = true) :
    isScriptKey (containerKey key).toList = true := by
  obtain ⟨c, cs, -, hc, hcs, hwritten⟩ := exists_containerKey hkey
  have hstart : isNameStart 'c' = true := by decide
  have hword : ∀ a ∈ "ontainer".toList, isKeyChar a = true := forall_mem_of_all (by decide)
  have hall : ∀ a ∈ "ontainer".toList ++ c.toUpper :: cs, isKeyChar a = true := by
    intro a ha
    rcases List.mem_append.mp ha with ha | ha
    · exact hword a ha
    · rcases List.mem_cons.mp ha with rfl | ha
      · exact isKeyChar_toUpper hc
      · exact hcs a ha
  have hsplit : "container".toList ++ c.toUpper :: cs =
      'c' :: ("ontainer".toList ++ c.toUpper :: cs) := rfl
  rw [hwritten, hsplit]
  unfold isScriptKey
  simp only
  rw [hstart, Bool.true_and, List.all_eq_true]
  exact hall

/-- The key that a container's key is read back as. -/
def reopenedKey (key : String) : String := (containerKey? (containerKey key)).getD key

/-- The key that a container's key is written as stands for some key of the container. -/
lemma containerKey?_containerKey {key : String} (hkey : isScriptKey key.toList = true) :
    containerKey? (containerKey key) = some (reopenedKey key) := by
  obtain ⟨c, cs, -, -, -, hwritten⟩ := exists_containerKey hkey
  have hread : containerKey? (containerKey key) =
      some (String.ofList (c.toUpper.toLower :: cs)) := by
    unfold containerKey?
    rw [hwritten, Text.dropHead?_append]
  unfold reopenedKey
  rw [hread]
  rfl

/-- A key of a container that does not start with a capital is read back as itself. -/
lemma reopenedKey_of_isContainerKey {key : String} (h : IsContainerKey key) :
    reopenedKey key = key := by
  obtain ⟨hkey, hupper⟩ := h
  obtain ⟨c, cs, hlist, hc, -, hwritten⟩ := exists_containerKey hkey
  have hread : containerKey? (containerKey key) = some key := by
    unfold containerKey?
    rw [hwritten, Text.dropHead?_append]
    simp only
    rw [toLower_toUpper hc (hupper c (by rw [hlist]; rfl)), ← hlist, String.ofList_toList]
  unfold reopenedKey
  rw [hread]
  rfl

/-- The entries of a container are read as its attributes. -/
lemma writes_container (form : Form) (bag : Attributes) :
    List.Forall₂ (Writes form) (containerPairs bag) (containerAttributes bag) := by
  have hpairs : containerPairs bag =
      bag.scriptEntries.map fun e => pair (containerKey e.1) (valueText e.2) := by
    unfold containerPairs Attributes.scriptEntries writtenAs
    rw [filterMap_ite]
  rw [hpairs, containerAttributes, List.forall₂_map_left_iff, List.forall₂_map_right_iff]
  refine List.forall₂_same.mpr fun e he => writes_value form ?_ e.2
  exact isScriptKey_containerKey (bag.isScriptKey_of_mem_scriptEntries he)

/-! ### Attributes of elements -/

/-- An attribute that may be left out is read as such. -/
lemma writes_toList {α : Type} {form : Form} {f : α → List Char} {g : α → RawAttribute}
    (h : ∀ a, Writes form (f a) (g a)) (o : Option α) :
    List.Forall₂ (Writes form) (o.map f).toList (o.map g).toList := by
  cases o with
  | none => exact .nil
  | some a => exact .cons (h a) .nil

/-- The attributes of the root are read as written. -/
lemma writes_root (form : Form) (d : Document) :
    List.Forall₂ (Writes form) (rootPairs d) (rootAttributes d) := by
  have hvariant : ∀ v : StyleVariant,
      Writes form (pair "styleVariant" v.name.toList) (bareAttribute "styleVariant" v.name) := by
    intro v
    cases v <;>
      exact writes_barePair form (by decide) (by decide) (forall_mem_of_all (by decide)) (by decide)
  have hquoted : ∀ key : String, isScriptKey key.toList = true →
      ∀ text, Writes form (quotedPair key text) (quotedAttribute key text) :=
    fun _ hkey text => writes_quotedPair form hkey text
  have hpreview : List.Forall₂ (Writes form)
      (if d.previewText = "" then [] else [quotedPair "previewText" d.previewText])
      (if d.previewText = "" then [] else [quotedAttribute "previewText" d.previewText]) := by
    split
    · exact .nil
    · exact .cons (hquoted _ (by decide) _) .nil
  unfold rootPairs rootAttributes
  refine List.rel_append (List.rel_append (List.rel_append (List.rel_append ?_ hpreview) ?_)
    (writes_toList hvariant d.variant)) (writes_toList (hquoted "theme" (by decide)) d.theme)
  · exact .cons (hquoted _ (by decide) _) (.cons (hquoted _ (by decide) _) .nil)
  · exact .cons (hquoted _ (by decide) _) (.cons (writes_natPair form (by decide) d.width)
      (.cons (hquoted _ (by decide) _) (.cons (hquoted _ (by decide) _)
        (.cons (hquoted _ (by decide) _) (.cons (hquoted _ (by decide) _) .nil)))))

/-- The attributes of a row are read as written. -/
lemma writes_row (form : Form) (row : Row) :
    List.Forall₂ (Writes form) (rowPairs row) (rowAttributes row) := by
  have hrole : ∀ r : RowRole,
      Writes form (quotedPair "type" r.name) (quotedAttribute "type" r.name) :=
    fun r => writes_quotedPair form (by decide) r.name
  unfold rowPairs rowAttributes
  exact List.rel_append (List.rel_append
    (.cons (writes_quotedPair form (by decide) row.id) (writes_toList hrole row.role))
    (writes_bag form row.attributes _)) (writes_container form row.container)

/-- The attributes of a column are read as written. -/
lemma writes_column (form : Form) (column : Column) :
    List.Forall₂ (Writes form) (columnPairs column) (columnAttributes column) := by
  unfold columnPairs columnAttributes
  exact List.rel_append (.cons (writes_quotedPair form (by decide) column.id)
    (.cons (writes_natPair form (by decide) column.units) .nil))
    (writes_bag form column.attributes _)

/-- The attributes of a block are read as written, its content aside. -/
lemma writes_block (form : Form) (block : Block) :
    List.Forall₂ (Writes form) (blockPairs block) (leadAttributes block) :=
  .cons (writes_quotedPair form (by decide) block.id) (writes_bag form block.attributes _)

/-! ### Values read back -/

/-- What may follow a value: nothing, a blank, or the end of a tag in the tag form. -/
def FollowsValue (form : Form) (rest : List Char) : Prop :=
  ∀ c ∈ rest.head?, Text.isBlank c = true ∨ form = .tag ∧ c = '>'

/-- A bare word ends at a blank, and in the tag form at the end of the tag. -/
lemma FollowsValue.endsValue {form : Form} {rest : List Char} (h : FollowsValue form rest) :
    EndsValue form rest := by
  cases rest with
  | nil => trivial
  | cons c rest =>
    change endsBare form c rest = true
    unfold endsBare
    rw [Bool.or_eq_true]
    rcases h c rfl with hblank | ⟨rfl, rfl⟩
    · exact .inl hblank
    · exact .inr rfl

/-- Written values are read back, whatever follows.  A value that a script can hold is written under
every key that a script can hold.  In both forms its text is scanned up to its end, if nothing, a
blank or the end of a tag follows; and under a key that takes no box shorthand what is scanned
becomes one entry, with the same value if every binary64 number in embedded JSON reads from its text
as itself.  A text in quotes is scanned up to its closing quote, whatever follows. -/
theorem convert_scanValue_valueText (form : Form) {key : String} {v : AttributeValue}
    (hkey : isScriptKey key.toList = true) (hbox : key ∉ boxKeys) (hv : v.Writable) :
    writtenAs key key v = some (pair key (valueText v)) ∧
      (∃ raw w,
        (∀ rest, FollowsValue form rest → scanValue form (valueText v ++ rest) = .ok (raw, rest)) ∧
          convert key raw = .ok [(key, w)] ∧
            (v.same w = true ↔ ∀ x ∈ v.jsonFloats, Json.Rereads x)) ∧
        ∀ s rest, ∃ body, quoteText s = '"' :: body ∧
          scanQuoted (body ++ rest) = .ok (s, rest) := by
  refine ⟨if_pos hkey, ?_, ?_⟩
  · obtain ⟨w, hw⟩ := hv.exists_reread
    have hconvert := convert_rawValue hv fun _ => boxSides?_of_not_mem hbox v.css
    rw [hw] at hconvert
    refine ⟨rawValue v, w, fun rest h => scanValue_valueText v h.endsValue,
      eq_ok_of_toOption hconvert, ?_⟩
    rw [← AttributeValue.exists_same_reread_iff hv, hw]
    constructor
    · intro hsame
      exact ⟨w, rfl, hsame⟩
    · rintro ⟨w', hw', hsame⟩
      obtain rfl := Option.some.inj hw'
      exact hsame
  · intro s rest
    have hscan := scanQuoted_escaped s rest
    rw [List.append_cons] at hscan
    exact ⟨_, rfl, hscan⟩

/-- Embedded JSON with brackets and quotes in its texts, and with a number. -/
def bracketed : AttributeValue :=
  .json (.array [.text "]\"\x7d", .object [("[", .float 5)]])

/-- Brackets and quotes in texts do not end embedded JSON. -/
theorem convert_scanValue_valueText_bracketed :
    isScriptKey "rows".toList = true ∧ "rows" ∉ boxKeys ∧ bracketed.Writable ∧
      FollowsValue .tag ['>', ']'] ∧
        ∃ raw w, scanValue .tag (valueText bracketed ++ ['>', ']']) = .ok (raw, ['>', ']']) ∧
          convert "rows" raw = .ok [("rows", w)] ∧ bracketed.same w = true := by
  have hkey : isScriptKey "rows".toList = true := by decide
  have hbox : "rows" ∉ boxKeys := by decide
  have hvalue : bracketed.Writable := by
    have hfinite : Binary64.isFinite 5 = true := Binary64.isFinite_ofNat (by norm_num)
    exact ⟨rfl, by decide, trivial, ⟨List.pairwise_singleton _ _, hfinite, trivial⟩, trivial⟩
  have hrest : FollowsValue .tag ['>', ']'] := by
    intro c hc
    obtain rfl := Option.some.inj hc
    exact .inr ⟨rfl, rfl⟩
  obtain ⟨-, ⟨raw, w, hscan, hconvert, hsame⟩, -⟩ :=
    convert_scanValue_valueText .tag hkey hbox hvalue
  refine ⟨hkey, hbox, hvalue, hrest, raw, w, hscan _ hrest, hconvert, hsame.mpr ?_⟩
  decide +kernel

end MailTemplate.Script
