import MailTemplate.Proofs.Script.MarkupElements
import MailTemplate.Proofs.Script.Pieces

/-!
# Pieces in front of what follows them

Which piece is read from the front of a text depends on what follows that piece only through the
first character of that, and one more behind a mark that can start several tokens.  `Stands` says
for every kind of piece what may follow it.

Main results: the pieces that are read from the front of texts are those that stand there
(`stands_front`, `Stands.front_eq`), and a piece that stands in front of a text also does in front
of layout, and of a text that starts like it (`Stands.follows`).
-/

namespace MailTemplate.Script

/-! ### Looking ahead -/

/-- What decides of a text whether a piece ends in front of it. -/
def ahead : List Char → List Char
  | [] => []
  | c :: rest => if c = '<' ∨ c = '/' then c :: rest.take 1 else [c]

/-- A text that may follow a piece in the place of `t`: it starts with layout, or like `t`. -/
inductive Follows (t : List Char) : List Char → Prop
  | layout {c : Char} (rest : List Char) (hc : Text.isLayout c = true) : Follows t (c :: rest)
  | alike {t' : List Char} (h : ahead t' = ahead t) : Follows t t'

section Ahead

variable {t t' : List Char} {c : Char}

/-- Texts that start alike have the same first character. -/
lemma head?_of_ahead (h : ahead t' = ahead t) : t'.head? = t.head? := by
  have hhead : ∀ t : List Char, (ahead t).head? = t.head? := by
    intro t
    cases t with
    | nil => rfl
    | cons c rest =>
      rw [ahead]
      split
      · rfl
      · rfl
  rw [← hhead, h, hhead]

/-- Behind a mark that can start several tokens, texts that start alike have the same character. -/
lemma head?_tail_of_ahead (hc : c = '<' ∨ c = '/') {rest rest' : List Char}
    (h : ahead (c :: rest') = ahead (c :: rest)) : rest'.head? = rest.head? := by
  rw [ahead, ahead, if_pos hc, if_pos hc] at h
  have hfirst := congrArg List.head? (List.cons.inj h).2
  rwa [List.head?_take, List.head?_take, if_neg one_ne_zero, if_neg one_ne_zero] at hfirst

/-- What layout starts with and `t` does, a text that follows in the place of `t` does. -/
lemma Follows.forall_head (h : Follows t t') {p : Char → Prop}
    (hlayout : ∀ c, Text.isLayout c = true → p c) (ht : ∀ c ∈ t.head?, p c) :
    ∀ c ∈ t'.head?, p c := by
  cases h with
  | layout rest hc =>
    intro d hd
    obtain rfl := Option.some.inj hd
    exact hlayout _ hc
  | alike h =>
    rw [head?_of_ahead h]
    exact ht

/-- A mark that is not layout is at the front only if it was before. -/
lemma Follows.head?_append (h : Follows t t') {m : Char} (hm : Text.isLayout m = false)
    {x : List Char} (hhead : (x ++ t').head? = some m) : (x ++ t).head? = some m := by
  cases x with
  | cons a x => exact hhead
  | nil =>
    cases h with
    | layout rest hc => exact absurd (Option.some.inj hhead) (ne_of_isLayout hc hm)
    | alike h => exact head?_of_ahead h ▸ hhead

/-- A text that starts no further element has only such in its place. -/
lemma Follows.startsNone (h : Follows t t') (ht : StartsNone t) : StartsNone t' := by
  rintro more rfl
  cases h with
  | layout rest hc => exact absurd rfl (ne_of_isLayout hc (by decide))
  | alike h =>
    have hhead := head?_of_ahead h
    obtain ⟨rest, rfl⟩ := List.head?_eq_some_iff.mp hhead.symm
    rw [head?_tail_of_ahead (.inl rfl) h]
    exact ht rest rfl

/-- A bare word ends where it did, if the character behind the next one still ends a tag. -/
lemma endsBare_mono {form : Form} {rest rest' : List Char}
    (h : c = '/' → rest.head? = some '>' → rest'.head? = some '>')
    (hends : endsBare form c rest = true) : endsBare form c rest' = true := by
  unfold endsBare at hends ⊢
  cases form with
  | brace => exact hends
  | tag =>
    simp only [Bool.or_eq_true, Bool.and_eq_true, beq_iff_eq] at hends ⊢
    exact hends.imp_right (Or.imp_right fun hslash => ⟨hslash.1, h hslash.1 hslash.2⟩)

/-- A text in front of which values end has only such in its place. -/
lemma Follows.endsValue (h : Follows t t') {form : Form} (ht : EndsValue form t) :
    EndsValue form t' := by
  cases h with
  | layout rest hc => exact (endsAttribute_layout form hc rest).1
  | alike h =>
    have hhead := head?_of_ahead h
    cases t' with
    | nil => trivial
    | cons c rest' =>
      obtain ⟨rest, rfl⟩ := List.head?_eq_some_iff.mp hhead.symm
      refine endsBare_mono (fun hc hend => ?_) ht
      rw [head?_tail_of_ahead (.inr hc) h, hend]

end Ahead

/-! ### Values -/

section Values

variable {form : Form} {cs s r t t' x : List Char}

/-- A bare word is scanned in front of any text that may follow in place of the one behind it. -/
lemma scanBare_follows (h : scanBare form (x ++ t) = (x, t)) (ht : Follows t t') :
    scanBare form (x ++ t') = (x, t') := by
  induction x with
  | nil =>
    have hends : EndsValue form t := by
      cases t with
      | nil => trivial
      | cons c rest =>
        by_contra hgoes
        have hgoes' : ¬endsBare form c rest = true := hgoes
        rw [List.nil_append, scanBare, if_neg hgoes'] at h
        cases (Prod.mk.inj h).1
    have hends' := ht.endsValue hends
    cases t' with
    | nil => rfl
    | cons c rest =>
      have hend : endsBare form c rest = true := hends'
      rw [List.nil_append, scanBare, if_pos hend]
  | cons c x ih =>
    rw [List.cons_append, scanBare] at h
    split at h
    · cases (Prod.mk.inj h).1
    · next hgoes =>
      have hmore : scanBare form (x ++ t) = (x, t) :=
        Prod.ext (List.cons.inj (Prod.mk.inj h).1).2 (Prod.mk.inj h).2
      have hgoes' : ¬endsBare form c (x ++ t') = true := by
        refine fun hends => hgoes (endsBare_mono (fun _ hend => ?_) hends)
        exact ht.head?_append (by decide) hend
      rw [List.cons_append, scanBare, if_neg hgoes', ih hmore]

/-- Embedded JSON is a value in front of any text. -/
lemma scanValue_structured {c : Char} (hc : c = '[' ∨ c = '{') {rest : List Char}
    (h : scanStructured .outside 0 (c :: rest) = .ok (s, r)) (t : List Char) :
    scanValue form (s ++ t) = .ok (.structured (String.ofList s), t) := by
  obtain ⟨hne, happend, hlocal⟩ := scanStructured_local h
  obtain ⟨a, s, rfl⟩ := List.exists_cons_of_ne_nil hne
  obtain rfl : a = c := (List.cons.inj happend).1
  have hagain := hlocal t
  rw [List.cons_append] at hagain ⊢
  rcases hc with rfl | rfl
  · rw [scanValue, hagain]
    rfl
  · rw [scanValue, hagain]
    rfl

/-- A value is scanned in front of any text that may follow in the place of the one behind it. -/
theorem scanValue_follows {v : RawValue} (h : scanValue form (x ++ t) = .ok (v, t))
    (ht : Follows t t') : scanValue form (x ++ t') = .ok (v, t') := by
  generalize hcs : x ++ t = cs at h
  unfold scanValue at h
  split at h
  · obtain ⟨⟨s, r⟩, hscan, heq⟩ := bind_eq_ok.mp h
    obtain ⟨rfl, rfl⟩ := Prod.mk.inj (pure_eq_ok.mp heq)
    obtain ⟨y, rfl, hlocal⟩ := exists_scanQuoted hscan
    obtain rfl : x = '"' :: y := List.append_cancel_right hcs
    rw [List.cons_append, scanValue, hlocal]
    rfl
  · obtain ⟨⟨s, r⟩, hscan, heq⟩ := bind_eq_ok.mp h
    obtain ⟨rfl, rfl⟩ := Prod.mk.inj (pure_eq_ok.mp heq)
    obtain rfl := List.append_cancel_right (hcs.trans (scanStructured_local hscan).2.1.symm)
    exact scanValue_structured (.inl rfl) hscan t'
  · obtain ⟨⟨s, r⟩, hscan, heq⟩ := bind_eq_ok.mp h
    obtain ⟨rfl, rfl⟩ := Prod.mk.inj (pure_eq_ok.mp heq)
    obtain rfl := List.append_cancel_right (hcs.trans (scanStructured_local hscan).2.1.symm)
    exact scanValue_structured (.inr rfl) hscan t'
  · obtain ⟨⟨s, r⟩, hscan, heq⟩ := bind_eq_ok.mp h
    obtain ⟨rfl, rfl⟩ := Prod.mk.inj (pure_eq_ok.mp heq)
    have hnone := ht.startsNone (isElementRow_of_scanHtml hscan).2.2
    obtain ⟨p, rfl, rfl, hagain⟩ := scanHtml_again hscan
    obtain rfl : x = '<' :: p := List.append_cancel_right hcs
    have hscan' := hagain t' hnone ('<' :: (p ++ t')).length (Nat.lt_succ_self _)
    rw [List.cons_append, scanValue, hscan']
    rfl
  · next hquote hbracket hbrace hmark =>
    obtain ⟨rfl, hrest⟩ := Prod.mk.inj (Except.ok.inj h)
    have hword : (scanBare form cs).1 = x := by
      have happend := scanBare_append_eq form cs
      rw [hrest] at happend
      exact List.append_cancel_right (happend.trans hcs.symm)
    have hscan : scanBare form (x ++ t) = (x, t) := by rw [hcs, ← hword, ← hrest]
    -- no other kind of value starts there, since none did before
    have hnot : ∀ m, Text.isLayout m = false → (∀ rest, cs ≠ m :: rest) →
        ∀ rest, x ++ t' ≠ m :: rest := by
      intro m hm hcs' rest heq
      have hhead : (x ++ t).head? = some m := ht.head?_append hm (by rw [heq]; rfl)
      obtain ⟨more, hmore⟩ := List.head?_eq_some_iff.mp hhead
      exact hcs' more (hcs.symm.trans hmore)
    unfold scanValue
    split
    · next heq => exact absurd heq (hnot '"' (by decide) hquote _)
    · next heq => exact absurd heq (hnot '[' (by decide) hbracket _)
    · next heq => exact absurd heq (hnot '{' (by decide) hbrace _)
    · next heq => exact absurd heq (hnot '<' (by decide) hmark _)
    · rw [scanBare_follows hscan ht, hword]
      rfl

end Values

/-! ### The pieces of a text -/

/-- A comment of the tag form is scanned in front of any text. -/
lemma scanComment_local {cs s r : List Char} (h : scanComment cs = .ok (s, r)) (t : List Char) :
    scanComment (s ++ t) = .ok (s, t) := by
  fun_induction scanComment cs generalizing s with
  | case1 => cases h
  | case2 rest =>
    obtain ⟨rfl, rfl⟩ := Prod.mk.inj (Except.ok.inj h)
    rfl
  | case3 rest _ => cases h
  | case4 c rest _ hc s' r' hscan ih =>
    obtain ⟨rfl, rfl⟩ := Prod.mk.inj (Except.ok.inj h)
    rw [List.cons_append, List.cons_append]
    unfold scanComment
    simp [hc, ih hscan]
  | case5 c rest _ _ s' hscan ih => cases h
  | case6 rest _ _ => cases h
  | case7 c rest _ _ hc s' r' hscan ih =>
    obtain ⟨rfl, rfl⟩ := Prod.mk.inj (Except.ok.inj h)
    rw [List.cons_append]
    unfold scanComment
    simp [hc, ih hscan]
  | case8 c rest _ _ _ s' hscan ih => cases h

/-- An element is found by its keyword only. -/
lemma eq_keyword_of_ofKeyword? {name : String} {element : Element}
    (h : Element.ofKeyword? name = some element) : name = element.keyword := by
  unfold Element.ofKeyword? at h
  split at h
  · next hname =>
    obtain rfl := Option.some.inj h
    exact hname
  split at h
  · next hname =>
    obtain rfl := Option.some.inj h
    exact hname
  split at h
  · next hname =>
    obtain rfl := Option.some.inj h
    exact hname
  · obtain ⟨kind, hkind, rfl⟩ := Option.map_eq_some_iff.mp h
    unfold BlockKind.ofKeyword? at hkind
    have hname := List.find?_some hkind
    exact (beq_iff_eq.mp hname).symm

/-- A piece stands in front of a text: what it may look like, and what may follow it. -/
inductive Stands : Form → Piece → (after : List Char) → Prop
  | layout {form : Form} {text after : List Char} (hne : text ≠ [])
      (htext : ∀ c ∈ text, Text.isLayout c = true)
      (hafter : ∀ c ∈ after.head?, Text.isLayout c = false) : Stands form (.gap text) after
  | line {body after : List Char} (hbody : '\n' ∉ body) (hafter : ∀ c ∈ after.head?, c = '\n') :
      Stands .brace (.gap ('/' :: '/' :: body)) after
  | comment {text : List Char} (htext : ∀ t, scanComment (text ++ t) = .ok (text, t))
      (after : List Char) : Stands .tag (.gap ("<!--".toList ++ text)) after
  | attr {form : Form} {key value after : List Char} {v : RawValue}
      (hkey : isScriptKey key = true) (hvalue : scanValue form (value ++ after) = .ok (v, after)) :
      Stands form (.token (.attr ⟨String.ofList key, v⟩) (key ++ '=' :: value)) after
  | openBrace (after : List Char) : Stands .brace (.token .openBrace ['{']) after
  | closeBrace (after : List Char) : Stands .brace (.token .closeBrace ['}']) after
  | keyword (element : Element) {after : List Char}
      (hafter : ∀ c ∈ after.head?, isKeyChar c = false ∧ c ≠ '=') :
      Stands .brace (.token (.keyword element) element.keyword.toList) after
  | openTag (element : Element) {after : List Char}
      (hafter : ∀ c ∈ after.head?, c.isAlpha = false) :
      Stands .tag (.token (.openTag element) ('<' :: element.keyword.toList)) after
  | tagEnd (after : List Char) : Stands .tag (.token .tagEnd ['>']) after
  | selfClose (after : List Char) : Stands .tag (.token .selfClose ['/', '>']) after
  | closeTag (element : Element) {blanks : List Char}
      (hblanks : ∀ c ∈ blanks, Text.isLayout c = true) (after : List Char) :
      Stands .tag (.token (.closeTag element)
        ('<' :: '/' :: (element.keyword.toList ++ blanks) ++ ['>'])) after

/-- What is at the front of a text stands there, if it is not at fault. -/
def Front.Stands (form : Form) : Front → Prop
  | .piece p after => Script.Stands form p after
  | .fault _ _ => True
  | .unknown _ _ => True

section Sound

variable {form : Form} {c : Char} {rest : List Char}

/-- What is left of a run does not start like it. -/
lemma head?_dropWhile_not (p : Char → Bool) (cs : List Char) :
    ∀ c ∈ (cs.dropWhile p).head?, p c = false := by
  intro c hc
  have hend := List.head?_dropWhile_not p cs
  rw [Option.mem_def.mp hc] at hend
  simpa using hend

/-- Layout at the front of a text stands there. -/
lemma stands_frontLayout (hc : Text.isLayout c = true) :
    (frontLayout (c :: rest)).Stands form := by
  refine .layout ?_ (fun a ha => List.mem_takeWhile_imp ha) (head?_dropWhile_not _ _)
  rw [List.takeWhile_cons_of_pos hc]
  exact List.cons_ne_nil _ _

/-- An attribute at the front of a text stands there. -/
lemma stands_frontAttribute {key : List Char} (hkey : isScriptKey key = true) :
    (frontAttribute form key rest).Stands form := by
  unfold frontAttribute
  split
  · next v after hvalue =>
    obtain ⟨value, rfl⟩ := scanValue_suffix hvalue
    have htake : (value ++ after).take ((value ++ after).length - after.length) = value := by
      rw [List.length_append, Nat.add_sub_cancel, List.take_left]
    simp only [htake]
    exact .attr hkey hvalue
  · trivial

/-- A name that goes on with characters of keys is a key. -/
lemma isScriptKey_takeWhile (hc : isNameStart c = true) (rest : List Char) :
    isScriptKey (c :: rest.takeWhile isKeyChar) = true := by
  simp only [isScriptKey, hc, Bool.true_and, List.all_eq_true]
  exact fun a ha => List.mem_takeWhile_imp ha

/-- What is at the front of a text in the brace form stands there. -/
lemma stands_frontBrace (c : Char) (rest : List Char) : (frontBrace c rest).Stands .brace := by
  unfold frontBrace
  split
  · next hc => exact stands_frontLayout hc
  split
  · next hc => exact hc ▸ .openBrace rest
  split
  · next hc => exact hc ▸ .closeBrace rest
  split
  · next hslash =>
    obtain ⟨rfl, hhead⟩ := hslash
    obtain ⟨rest, rfl⟩ := List.head?_eq_some_iff.mp hhead
    change Stands .brace (.gap ('/' :: '/' :: rest.takeWhile (· != '\n')))
      (('/' :: rest).dropWhile (· != '\n'))
    refine .line (fun hmem => ?_) (fun c hc => ?_)
    · exact absurd (List.mem_takeWhile_imp hmem) (by decide)
    · simpa using head?_dropWhile_not (· != '\n') ('/' :: rest) c hc
  split
  · next hc =>
    simp only
    split
    · exact stands_frontAttribute (isScriptKey_takeWhile hc rest)
    · next after hequals =>
      split
      · trivial
      split
      · next element helement =>
        have hname := congrArg String.toList (eq_keyword_of_ofKeyword? helement)
        rw [String.toList_ofList] at hname
        rw [hname]
        refine .keyword element fun a ha => ⟨head?_dropWhile_not _ _ a ha, ?_⟩
        rintro rfl
        obtain ⟨more, hmore⟩ := List.head?_eq_some_iff.mp ha
        exact hequals more hmore
      · trivial
  · trivial

/-- What starts with a less-than sign in the tag form stands there. -/
lemma stands_frontTag (rest : List Char) : (frontTag rest).Stands .tag := by
  unfold frontTag
  split
  · split
    · next s after hscan => exact .comment (scanComment_local hscan) after
    · trivial
  · next r =>
    simp only
    split
    · trivial
    split
    · next after hafter =>
      split
      · next element helement =>
        have hname := congrArg String.toList (eq_keyword_of_ofKeyword? helement)
        rw [String.toList_ofList] at hname
        rw [hname]
        exact .closeTag element (fun a ha => List.mem_takeWhile_imp ha) after
      · trivial
    · trivial
  · next r _ _ =>
    simp only
    split
    · trivial
    split
    · next element helement =>
      have hname := congrArg String.toList (eq_keyword_of_ofKeyword? helement)
      rw [String.toList_ofList] at hname
      rw [hname]
      exact .openTag element (head?_dropWhile_not _ _)
    · trivial

/-- What is at the front of a text in the tag form stands there. -/
lemma stands_frontOfTags (c : Char) (rest : List Char) : (frontOfTags c rest).Stands .tag := by
  unfold frontOfTags
  split
  · next hc => exact stands_frontLayout hc
  split
  · exact stands_frontTag rest
  split
  · next hc => exact hc ▸ .tagEnd rest
  split
  · exact .selfClose _
  split
  · next hc =>
    simp only
    split
    · exact stands_frontAttribute (isScriptKey_takeWhile hc rest)
    · trivial
  · trivial

/-- What is at the front of a text stands there, in front of what is left. -/
theorem stands_front {p : Piece} {after : List Char} (h : front form c rest = .piece p after) :
    Stands form p after := by
  have hfront : (front form c rest).Stands form := by
    cases form with
    | brace => exact stands_frontBrace c rest
    | tag => exact stands_frontOfTags c rest
  rw [h] at hfront
  exact hfront

end Sound

section Complete

variable {form : Form} {c : Char} {p : Piece} {cs after : List Char}

/-- A piece that stands in front of a text is at the front of both. -/
theorem Stands.front_eq (h : Stands form p after) (htext : p.text = c :: cs) :
    front form c (cs ++ after) = .piece p after := by
  cases h with
  | layout hne hrun hafter =>
    obtain rfl := htext
    obtain ⟨htake, hdrop⟩ := takeWhile_name hrun hafter
    have hc := hrun c List.mem_cons_self
    rw [front_layout hc, ← List.cons_append, htake, ← List.dropWhile_cons_of_pos hc,
      ← List.cons_append, hdrop]
  | @line body _ hbody hafter =>
    obtain ⟨rfl, rfl⟩ := List.cons.inj htext
    -- the comment ends with its line, or with the text
    have hrun : ∀ a ∈ body, (a != '\n') = true := fun a ha =>
      bne_iff_ne.mpr (ne_of_mem_of_not_mem ha hbody)
    have hend : ∀ a ∈ after.head?, (a != '\n') = false := fun a ha => by simp [hafter a ha]
    obtain ⟨htake, hdrop⟩ := takeWhile_name hrun hend
    have hslash : Text.isLayout '/' = false := by decide
    change frontBrace '/' ('/' :: (body ++ after)) = _
    simp [frontBrace, hslash, htake, hdrop]
  | @comment text hscan _ =>
    obtain ⟨rfl, rfl⟩ := List.cons.inj htext
    change frontTag ('!' :: '-' :: '-' :: (text ++ after)) = _
    simp only [frontTag, hscan]
  | @attr _ key value _ v hkey hvalue =>
    cases key with
    | nil => cases hkey
    | cons d key =>
      obtain ⟨rfl, rfl⟩ := List.cons.inj htext
      change front form d (key ++ '=' :: value ++ after) = _
      rw [List.append_assoc]
      exact front_attribute hkey hvalue
  | openBrace =>
    obtain ⟨rfl, rfl⟩ := List.cons.inj htext
    rfl
  | closeBrace =>
    obtain ⟨rfl, rfl⟩ := List.cons.inj htext
    rfl
  | keyword element hafter =>
    have helement : Element.ofKeyword? (String.ofList (c :: cs)) = some element := by
      rw [← htext, Piece.text, String.ofList_toList]
      exact Element.ofKeyword?_keyword element
    obtain ⟨d, name, hname, hletters⟩ := exists_keyword element
    rw [Piece.text, hname] at htext
    obtain ⟨rfl, rfl⟩ := List.cons.inj htext
    rw [front_keyword (isNameStart_of_isAlpha (hletters d List.mem_cons_self))
      (fun a ha => isKeyChar_of_isAlpha (hletters a (List.mem_cons_of_mem d ha)))
      (not_mem_of_isAlpha hletters (by decide)) hafter helement, hname]
  | openTag element hafter =>
    obtain ⟨rfl, rfl⟩ := List.cons.inj htext
    exact front_openTag element hafter
  | tagEnd =>
    obtain ⟨rfl, rfl⟩ := List.cons.inj htext
    rfl
  | selfClose =>
    obtain ⟨rfl, rfl⟩ := List.cons.inj htext
    rfl
  | @closeTag element blanks hblanks =>
    obtain ⟨rfl, rfl⟩ := List.cons.inj htext
    change front .tag '<' ('/' :: (element.keyword.toList ++ blanks) ++ ['>'] ++ after) = _
    rw [List.append_assoc]
    exact front_closeTag element hblanks after

end Complete

section Following

variable {form : Form} {p : Piece} {after after' : List Char}

/-- A token that stands in front of a text also does in front of one that may follow in its place,
and so does every piece if both texts start alike. -/
theorem Stands.follows (h : Stands form p after) (ht : Follows after after')
    (hgap : ∀ text, p = .gap text → ahead after' = ahead after) : Stands form p after' := by
  cases h with
  | layout hne htext hafter =>
    refine .layout hne htext ?_
    rw [head?_of_ahead (hgap _ rfl)]
    exact hafter
  | line hbody hafter =>
    refine .line hbody ?_
    rw [head?_of_ahead (hgap _ rfl)]
    exact hafter
  | comment htext => exact .comment htext after'
  | attr hkey hvalue => exact .attr hkey (scanValue_follows hvalue ht)
  | openBrace => exact .openBrace after'
  | closeBrace => exact .closeBrace after'
  | keyword element hafter =>
    refine .keyword element (ht.forall_head (fun c hc => ?_) hafter)
    exact ⟨not_isKeyChar_of_isLayout hc, ne_of_isLayout hc (by decide)⟩
  | openTag element hafter =>
    exact .openTag element (ht.forall_head (fun c hc => not_isAlpha_of_isLayout hc) hafter)
  | tagEnd => exact .tagEnd after'
  | selfClose => exact .selfClose after'
  | closeTag element hblanks => exact .closeTag element hblanks after'

end Following

end MailTemplate.Script
