import MailTemplate.Proofs.Lists
import MailTemplate.RichText

/-!
# Plain text as markup

Text without a less-than sign and without an ampersand is normalized without being read: it is
escaped as it stands.  Read as markup, such a text is a single node of text, a mark of byte order at
the front left out (`Markup.readNodes_of_plain`); and a node of text is not written with the
references of escaped text.  So the two ways agree exactly on texts without quotes, apostrophes,
no-break spaces and a mark of byte order at the front.

Main result: `RichText.normalize_eq_reserialized_iff`.

While plain text is read, the state is one of a family whose parameter is the text read so far
(`Assembly.reading`), and each token adds its characters to the parameter (`feed_reading`).
-/

namespace MailTemplate

namespace Markup

/-- A character that starts no tag and no reference, and is read as it stands. -/
def IsPlain (c : Char) : Prop := c ≠ '<' ∧ c ≠ '&' ∧ c ≠ '\x00'

/-! ### Tokens of plain text -/

/-- The text without a mark of byte order at its front. -/
def withoutMark : List Char → List Char
  | '\uFEFF' :: rest => rest
  | cs => cs

/-- What is left of a text is a part of it. -/
lemma withoutMark_subset (cs : List Char) : withoutMark cs ⊆ cs := by
  unfold withoutMark
  split
  · exact List.subset_cons_self _ _
  · exact List.Subset.refl _

/-- Text without carriage returns has only line feeds. -/
lemma withLineFeeds_go_of_not_mem {cs : List Char} (h : '\r' ∉ cs) : withLineFeeds.go cs = cs := by
  fun_induction withLineFeeds.go cs with
  | case1 => rfl
  | case2 rest => exact absurd List.mem_cons_self h
  | case3 rest => exact absurd List.mem_cons_self h
  | case4 c rest _ _ ih => rw [ih fun hmem => h (List.mem_cons_of_mem _ hmem)]

/-- Text without carriage returns loses only a mark of byte order. -/
lemma withLineFeeds_of_not_mem {cs : List Char} (h : '\r' ∉ cs) :
    withLineFeeds cs = withoutMark cs :=
  withLineFeeds_go_of_not_mem fun hmem => h (withoutMark_subset cs hmem)

/-- Text without null characters has none to replace. -/
lemma withoutNulls_of_plain {cs : List Char} (h : ∀ c ∈ cs, IsPlain c) : withoutNulls cs = cs := by
  unfold withoutNulls
  rw [List.map_congr_left (g := id), List.map_id]
  intro c hc
  exact if_neg (h c hc).2.2

/-- The first token of plain text is a text, cut off somewhere. -/
lemma readToken_of_plain {c : Char} {rest : List Char} (h : ∀ d ∈ c :: rest, IsPlain d) :
    ∃ run after, rest = run ++ after ∧
      readToken .markup c rest = (some (.text (c :: run)), after) := by
  obtain ⟨hless, hamp, hnull⟩ := h c List.mem_cons_self
  let inRun : Char → Bool := fun d => isGap d == isGap c && !(['<', '&', '\x00'].contains d)
  have hrun : withoutNulls (c :: rest.takeWhile inRun) = c :: rest.takeWhile inRun := by
    refine withoutNulls_of_plain fun d hd => h d ?_
    exact (List.cons_subset_cons c (List.takeWhile_sublist _).subset) hd
  refine ⟨rest.takeWhile inRun, rest.dropWhile inRun, List.takeWhile_append_dropWhile.symm, ?_⟩
  unfold readToken readRun
  simp only [if_neg hless, if_neg hamp, if_neg hnull]
  rw [hrun]

/-! ### Reading -/

namespace Assembly

/-- The state in which the root holds one text, given from its end on. -/
def holding (reversed : List Char) : Assembly :=
  { forest := ⟨#[⟨.element .html "html" [], none, [1]⟩, ⟨.text reversed, some root, []⟩]⟩
    opened := [root] }

/-- The state after plain text has been read: the root holds it, or nothing as long as nothing has
been read. -/
def reading : List Char → Assembly
  | [] => start
  | c :: rest => holding (c :: rest).reverse

/-- Text joins the text before it. -/
lemma flow_reading (xs : List Char) (y : Char) (ys : List Char) :
    (reading xs).flow (.text (y :: ys)) = reading (xs ++ y :: ys) := by
  cases xs with
  | nil => rfl
  | cons x xs =>
    calc (reading (x :: xs)).flow (.text (y :: ys))
        = holding ((y :: ys).reverse ++ (x :: xs).reverse) := rfl
      _ = reading (x :: xs ++ y :: ys) := by
        rw [← List.reverse_append]
        rfl

/-- A token of text adds its characters to what has been read. -/
lemma feed_reading (xs : List Char) (y : Char) (ys : List Char) :
    (reading xs).feed (.text (y :: ys)) = reading (xs ++ y :: ys) := by
  have hsettle : ∀ fuel, settle (.text (y :: ys)) (fuel + 1) (reading xs) =
      reading (xs ++ y :: ys) := by
    intro fuel
    rw [← flow_reading]
    cases xs <;> rfl
  have hskips : (reading xs).skipsLineFeed = false := by cases xs <;> rfl
  have hsame : { reading xs with skipsLineFeed := false } = reading xs := by cases xs <;> rfl
  unfold feed
  simp only [hskips, hsame]
  split
  · rw [if_neg (by decide), hsettle]
  · exact hsettle _

/-- The end of the text adds nothing. -/
lemma feed_finish_reading (xs : List Char) : (reading xs).feed .finish = reading xs := by
  cases xs <;> rfl

/-- The next token of plain text is a text, cut off somewhere. -/
lemma next_reading (xs : List Char) {c : Char} {rest : List Char}
    (h : ∀ d ∈ c :: rest, IsPlain d) :
    ∃ run after, rest = run ++ after ∧
      (reading xs).next c rest = ([.text (c :: run)], after) := by
  obtain ⟨run, after, hrest, htoken⟩ := readToken_of_plain h
  have hforeign : (reading xs).inForeign = false := by cases xs <;> rfl
  have hcontent : (reading xs).content = .markup := by cases xs <;> rfl
  refine ⟨run, after, hrest, ?_⟩
  unfold next
  rw [hforeign, hcontent, htoken]
  rfl

/-- Plain text is read to its end. -/
lemma readAll_reading (fuel : ℕ) (xs : List Char) {cs : List Char} (h : ∀ c ∈ cs, IsPlain c)
    (hfuel : cs.length ≤ fuel) : readAll fuel (reading xs) cs = reading (xs ++ cs) := by
  -- every token takes a character and moves it into the parameter of the state
  induction fuel generalizing xs cs with
  | zero =>
    rw [List.length_eq_zero_iff.mp (Nat.le_zero.mp hfuel), List.append_nil]
    exact feed_finish_reading xs
  | succ fuel ih =>
    cases cs with
    | nil =>
      rw [List.append_nil]
      exact feed_finish_reading xs
    | cons c rest =>
      obtain ⟨run, after, hrest, hnext⟩ := next_reading xs h
      have hsplit : xs ++ c :: rest = xs ++ c :: run ++ after := by
        rw [hrest, List.append_assoc, List.cons_append]
      rw [readAll, hnext, hsplit]
      change readAll fuel ((reading xs).feed (.text (c :: run))) after = _
      rw [feed_reading]
      refine ih _ (fun d hd => h d ?_) ?_
      · rw [hrest]
        exact List.mem_cons_of_mem _ (List.mem_append_right _ hd)
      · have hlength := congrArg List.length hrest
        rw [List.length_append] at hlength
        rw [List.length_cons] at hfuel
        omega

/-- The root holds what has been read. -/
lemma nodesUnder_reading (xs : List Char) :
    (reading xs).forest.nodesUnder root = if xs = [] then [] else [.text xs] := by
  cases xs with
  | nil => rfl
  | cons x xs =>
    have hnodes : (reading (x :: xs)).forest.nodesUnder root =
        [.text (x :: xs).reverse.reverse] := rfl
    rw [hnodes, List.reverse_reverse, if_neg (List.cons_ne_nil _ _)]

end Assembly

/-- Plain text is read as one node of text, unless it is empty. -/
lemma readNodes_of_plain {cs : List Char} (h : ∀ c ∈ cs, IsPlain c) (hreturn : '\r' ∉ cs) :
    readNodes cs = if withoutMark cs = [] then [] else [.text (withoutMark cs)] := by
  have hplain : ∀ c ∈ withoutMark cs, IsPlain c := fun c hc => h c (withoutMark_subset cs hc)
  have hread := Assembly.readAll_reading (withoutMark cs).length [] hplain (Nat.le_refl _)
  rw [List.nil_append] at hread
  unfold readNodes
  rw [withLineFeeds_of_not_mem hreturn, ← Assembly.nodesUnder_reading, ← hread]
  rfl

/-! ### Writing -/

/-- A node of text is written as its characters are. -/
lemma writeNodes_of_plain {cs : List Char} (h : ∀ c ∈ cs, IsPlain c) (hreturn : '\r' ∉ cs) :
    writeNodes none (readNodes cs) = (withoutMark cs).flatMap writeTextChar := by
  rw [readNodes_of_plain h hreturn]
  split
  · next hnil =>
    rw [hnil]
    rfl
  · exact List.append_nil _

/-- A character that text is escaped with in the same way as a node is written. -/
def WrittenAlike (c : Char) : Prop := c ≠ '"' ∧ c ≠ '\'' ∧ c ≠ '\u00A0'

/-- Quotes, apostrophes and no-break spaces apart, escaped characters are written ones. -/
lemma escapeTextChar_eq_writeTextChar {c : Char} (h : WrittenAlike c) :
    escapeTextChar c = writeTextChar c := by
  obtain ⟨hquote, happ, hspace⟩ := h
  unfold escapeTextChar writeTextChar
  simp only [if_neg hquote, if_neg happ, if_neg hspace]

/-- Escaped and written text are the same exactly if every character is. -/
lemma escapeText_eq_iff {cs : List Char} :
    escapeText cs = cs.flatMap writeTextChar ↔ ∀ c ∈ cs, WrittenAlike c := by
  induction cs with
  | nil => exact iff_of_true rfl (List.forall_mem_nil _)
  | cons c rest ih =>
    rw [List.forall_mem_cons, ← ih]
    unfold escapeText
    rw [List.flatMap_cons, List.flatMap_cons]
    by_cases hc : WrittenAlike c
    · rw [escapeTextChar_eq_writeTextChar hc, List.append_cancel_left_eq]
      exact (and_iff_right hc).symm
    · refine iff_of_false ?_ fun h => hc h.1
      -- the first character that is written tells the two apart
      unfold WrittenAlike at hc
      rw [not_and_or, not_and_or, not_not, not_not, not_not] at hc
      rcases hc with rfl | rfl | rfl
      · simp [escapeTextChar, writeTextChar]
      · simp [escapeTextChar, writeTextChar]
      · simp [escapeTextChar, writeTextChar]

/-- Escaped text and written text have the marks of byte order of the text. -/
lemma count_mark_flatMap {f : Char → List Char}
    (h : ∀ c, (f c).count '\uFEFF' = [c].count '\uFEFF') (cs : List Char) :
    (cs.flatMap f).count '\uFEFF' = cs.count '\uFEFF' := by
  induction cs with
  | nil => rfl
  | cons c rest ih =>
    rw [List.flatMap_cons, List.count_append, h, ih, ← List.count_append, List.singleton_append]

/-- No character is escaped with a mark of byte order. -/
lemma count_mark_escapeTextChar (c : Char) :
    (escapeTextChar c).count '\uFEFF' = [c].count '\uFEFF' := by
  by_cases hc : c ∈ '&' :: marks
  · -- no mark of byte order in a reference, and no character with a reference is one
    have hreferences : ∀ c ∈ '&' :: marks,
        (escapeTextChar c).count '\uFEFF' = [c].count '\uFEFF' := forall_mem_of_all (by decide)
    exact hreferences c hc
  · rw [escapeTextChar_eq_self hc]

/-- No character is written with a mark of byte order. -/
lemma count_mark_writeTextChar (c : Char) :
    (writeTextChar c).count '\uFEFF' = [c].count '\uFEFF' := by
  by_cases hc : c ∈ ['&', '<', '>', '\u00A0']
  · have hreferences : ∀ c ∈ ['&', '<', '>', '\u00A0'],
        (writeTextChar c).count '\uFEFF' = [c].count '\uFEFF' := forall_mem_of_all (by decide)
    exact hreferences c hc
  · simp only [List.mem_cons, List.not_mem_nil, or_false, not_or] at hc
    obtain ⟨hamp, hless, hgreater, hspace⟩ := hc
    unfold writeTextChar
    rw [if_neg hamp, if_neg hless, if_neg hgreater, if_neg hspace]

/-- Plain text is escaped as it is read and written exactly if no character of it is escaped in
another way than it is written, and no mark of byte order at its front gets lost. -/
lemma escapeText_eq_writeNodes_iff {cs : List Char} (h : ∀ c ∈ cs, IsPlain c)
    (hreturn : '\r' ∉ cs) :
    escapeText cs = writeNodes none (readNodes cs) ↔
      (∀ c ∈ cs, WrittenAlike c) ∧ cs.head? ≠ some '\uFEFF' := by
  rw [writeNodes_of_plain h hreturn, ← escapeText_eq_iff]
  unfold withoutMark
  split
  · next rest =>
    refine iff_of_false ?_ fun hboth => hboth.2 rfl
    intro heq
    have hcount := congrArg (List.count '\uFEFF') heq
    unfold escapeText at hcount
    rw [count_mark_flatMap count_mark_escapeTextChar, count_mark_flatMap count_mark_writeTextChar,
      List.count_cons_self] at hcount
    omega
  · next hmark =>
    refine (and_iff_left ?_).symm
    intro hhead
    obtain ⟨rest, rfl⟩ := List.head?_eq_some_iff.mp hhead
    exact hmark rest rfl

end Markup

namespace RichText

/-- The text read as markup and written again. -/
def reserialized (s : String) : String :=
  String.ofList (Markup.writeNodes none (Markup.readNodes s.toList))

/-- Text without less-than signs, ampersands, null characters and carriage returns means a single
node of text, unless it is empty.  Normalizing it gives what reading and writing it would give
exactly if it has no quote, no apostrophe and no no-break space, and no mark of byte order at its
front. -/
theorem normalize_eq_reserialized_iff {s : String}
    (h : ∀ c ∈ s.toList, c ≠ '<' ∧ c ≠ '&' ∧ c ≠ '\x00' ∧ c ≠ '\r') :
    Markup.readNodes s.toList = (if Markup.withoutMark s.toList = [] then []
      else [.text (Markup.withoutMark s.toList)]) ∧
      (normalize s = reserialized s ↔
        (∀ c ∈ s.toList, c ≠ '"' ∧ c ≠ '\'' ∧ c ≠ '\u00A0') ∧
          s.toList.head? ≠ some '\uFEFF') := by
  have hplain : ∀ c ∈ s.toList, Markup.IsPlain c := fun c hc =>
    ⟨(h c hc).1, (h c hc).2.1, (h c hc).2.2.1⟩
  have hreturn : '\r' ∉ s.toList := fun hmem => (h _ hmem).2.2.2 rfl
  have hmarkup : hasMarkup s.toList = false := by
    unfold hasMarkup
    rw [Bool.or_eq_false_iff, Bool.eq_false_iff, Bool.eq_false_iff, Ne, Ne,
      List.contains_iff_mem, List.contains_iff_mem]
    exact ⟨fun hmem => (h _ hmem).1 rfl, fun hmem => (h _ hmem).2.1 rfl⟩
  refine ⟨Markup.readNodes_of_plain hplain hreturn, ?_⟩
  refine Iff.trans ?_ (Markup.escapeText_eq_writeNodes_iff hplain hreturn)
  unfold normalize reserialized
  simp only [hmarkup, Bool.false_eq_true, if_false]
  exact String.ofList_inj

/-- A text in quotes. -/
def quoted : String := "a \"b\""

/-- A text with a sign that both ways write as a reference. -/
def greater : String := "a > b"

/-- Plain text without quotes is normalized as markup is. -/
theorem normalize_eq_reserialized_iff_greater :
    (∀ c ∈ greater.toList, c ≠ '<' ∧ c ≠ '&' ∧ c ≠ '\x00' ∧ c ≠ '\r') ∧
      normalize greater = reserialized greater := by
  have hplain : ∀ c ∈ greater.toList, c ≠ '<' ∧ c ≠ '&' ∧ c ≠ '\x00' ∧ c ≠ '\r' :=
    forall_mem_of_all (by decide +kernel)
  have halike : ∀ c ∈ greater.toList, c ≠ '"' ∧ c ≠ '\'' ∧ c ≠ '\u00A0' :=
    forall_mem_of_all (by decide +kernel)
  have hmark : greater.toList.head? ≠ some '\uFEFF' := by decide +kernel
  exact ⟨hplain, (normalize_eq_reserialized_iff hplain).2.mpr ⟨halike, hmark⟩⟩

/-- Quotes are escaped when a text is normalized, but not when it is read and written. -/
theorem exists_normalize_ne_reserialized :
    ∃ s : String, (∀ c ∈ s.toList, c ≠ '<' ∧ c ≠ '&' ∧ c ≠ '\x00' ∧ c ≠ '\r') ∧
      normalize s ≠ reserialized s :=
  ⟨quoted, forall_mem_of_all (by decide +kernel), by decide +kernel⟩

end RichText

end MailTemplate
