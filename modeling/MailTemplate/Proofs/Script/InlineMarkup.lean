import MailTemplate.Proofs.Affixes
import MailTemplate.Proofs.Lists
import MailTemplate.Proofs.Success
import MailTemplate.Script.Value

/-!
# Inline markup delimits itself

An element of inline markup ends at a greater-than sign, and the scan looks at nothing behind it, so
the text that it takes is taken again before any other text.  Only elements in a row look one step
further, at whether one more element follows.

Main result: content that is one value of inline markup is scanned as that value before any text
that starts no further element (`scanValue_inline`).
-/

namespace MailTemplate.Script

/-! ### Starts of tags -/

/-- An opener is its first character, in lower case, and the rest of it. -/
lemma startsTag_cons (h : Char) (hs : List Char) (c : Char) (cs : List Char) :
    startsTag (h :: hs) (c :: cs) = (h == c.toLower && startsTag hs cs) := by
  unfold startsTag
  rw [startsWithLower, Bool.and_assoc]
  rfl

/-- Whether a tag starts is seen before the first greater-than sign. -/
lemma startsTag_append {opener cs : List Char} (hopener : '>' ∉ opener) (hcs : '>' ∈ cs)
    (t : List Char) : startsTag opener (cs ++ t) = startsTag opener cs := by
  induction opener generalizing cs with
  | nil =>
    cases cs with
    | nil => cases hcs
    | cons c cs => rfl
  | cons h hs ih =>
    rw [List.mem_cons, not_or] at hopener
    cases cs with
    | nil => cases hcs
    | cons c cs =>
      rw [List.cons_append, startsTag_cons, startsTag_cons]
      rcases List.mem_cons.mp hcs with rfl | hmore
      · have hlower : Char.toLower '>' = '>' := by decide
        have hne : (h == '>') = false := beq_eq_false_iff_ne.mpr (Ne.symm hopener.1)
        rw [hlower, hne, Bool.false_and, Bool.false_and]
      · rw [ih hopener.2 hmore]

/-- No character of a name becomes a greater-than sign in lower case. -/
lemma toLower_ne_of_isAlphanum {c : Char} (hc : c.isAlphanum = true) : c.toLower ≠ '>' := by
  intro h
  rw [← Text.isAlphanum_toLower, h] at hc
  exact absurd hc (by decide)

/-! ### What a scan takes -/

/-- Characters taken up to a greater-than sign are taken before any other text. -/
lemma throughClose_spec {cs s r : List Char} (h : throughClose cs = some (s, r)) :
    cs = s ++ r ∧ '>' ∈ s ∧ ∀ t, throughClose (s ++ t) = some (s, t) := by
  induction cs generalizing s with
  | nil => cases h
  | cons c cs ih =>
    rw [throughClose] at h
    by_cases hc : c = '>'
    · rw [if_pos hc, Option.some.injEq, Prod.mk.injEq] at h
      obtain ⟨rfl, rfl⟩ := h
      refine ⟨rfl, by simp [hc], fun t => ?_⟩
      rw [List.singleton_append, throughClose, if_pos hc]
    · rw [if_neg hc] at h
      obtain ⟨⟨s', r'⟩, hrest, heq⟩ := Option.map_eq_some_iff.mp h
      obtain ⟨rfl, rfl⟩ := Prod.mk.inj heq
      obtain ⟨hcs, hmark, htake⟩ := ih hrest
      refine ⟨by rw [hcs]; rfl, List.mem_cons_of_mem c hmark, fun t => ?_⟩
      rw [List.cons_append, throughClose, if_neg hc, htake]
      rfl

/-- A scan for a closing tag goes on behind a character that does not end it. -/
def scanOn (name : List Char) (depth : ℕ) (inTag : Bool) (c : Char) (rest : List Char) :
    Option (List Char × List Char) :=
  (scanToClose name depth inTag rest).map fun p => (c :: p.1, p.2)

section Steps

variable (name : List Char) (depth : ℕ) {c : Char} (rest : List Char)

/-- The end of the closing tag of the element itself ends the scan. -/
lemma scanToClose_end : scanToClose name 0 true ('>' :: rest) = some (['>'], rest) := by
  rw [scanToClose.eq_def]
  rfl

/-- The end of the closing tag of an element inside closes that element. -/
lemma scanToClose_end_inner :
    scanToClose name (depth + 1) true ('>' :: rest) = scanOn name depth false '>' rest := by
  rw [scanToClose.eq_def]
  rfl

/-- Nothing but its end counts inside a closing tag. -/
lemma scanToClose_inTag (hc : c ≠ '>') :
    scanToClose name depth true (c :: rest) = scanOn name depth true c rest := by
  rw [scanToClose.eq_def]
  simp only [if_true, if_neg hc]
  rfl

/-- Outside of closing tags, tags of the name are looked for. -/
lemma scanToClose_outside : scanToClose name depth false (c :: rest) =
    if startsTag ('<' :: '/' :: name) (c :: rest) then scanOn name depth true c rest
    else if startsTag ('<' :: name) (c :: rest) then scanOn name (depth + 1) false c rest
    else scanOn name depth false c rest := by
  rw [scanToClose.eq_def]
  simp only [Bool.false_eq_true, if_false]
  rfl

end Steps

/-- The body of an element up to its closing tag is taken before any other text. -/
lemma scanToClose_spec {name : List Char} (hname : '>' ∉ name) {depth : ℕ} {inTag : Bool}
    {cs s r : List Char} (h : scanToClose name depth inTag cs = some (s, r)) :
    cs = s ++ r ∧ '>' ∈ s ∧ ∀ t, scanToClose name depth inTag (s ++ t) = some (s, t) := by
  have hclose : '>' ∉ '<' :: '/' :: name := by simp [hname]
  have hopen : '>' ∉ '<' :: name := by simp [hname]
  induction cs generalizing depth inTag s with
  | nil => cases h
  | cons c cs ih =>
    -- one more character is taken, and then the scan goes on in some state
    have hstep : ∀ (depth' : ℕ) (inTag' : Bool), scanOn name depth' inTag' c cs = some (s, r) →
        (∀ s' r', cs = s' ++ r' → '>' ∈ s' → ∀ t,
          scanToClose name depth inTag (c :: (s' ++ t)) = scanOn name depth' inTag' c (s' ++ t)) →
        c :: cs = s ++ r ∧ '>' ∈ s ∧ ∀ t, scanToClose name depth inTag (s ++ t) = some (s, t) := by
      intro depth' inTag' hon hgoes
      obtain ⟨⟨s', r'⟩, hrest, heq⟩ := Option.map_eq_some_iff.mp hon
      obtain ⟨rfl, rfl⟩ := Prod.mk.inj heq
      obtain ⟨hcs, hmark, htake⟩ := ih hrest
      refine ⟨by rw [hcs]; rfl, List.mem_cons_of_mem c hmark, fun t => ?_⟩
      rw [List.cons_append, hgoes s' r' hcs hmark, scanOn, htake]
      rfl
    cases inTag with
    | true =>
      by_cases hc : c = '>'
      · subst hc
        cases depth with
        | zero =>
          rw [scanToClose_end] at h
          obtain ⟨rfl, rfl⟩ := Prod.mk.inj (Option.some.inj h)
          exact ⟨rfl, List.mem_singleton_self '>', fun t => scanToClose_end name t⟩
        | succ depth =>
          rw [scanToClose_end_inner] at h
          exact hstep depth false h fun s' r' _ _ t => scanToClose_end_inner name depth (s' ++ t)
      · rw [scanToClose_inTag name depth cs hc] at h
        exact hstep depth true h fun s' r' _ _ t => scanToClose_inTag name depth (s' ++ t) hc
    | false =>
      have hlook : ∀ opener, '>' ∉ opener → ∀ s' r', cs = s' ++ r' → '>' ∈ s' → ∀ t,
          startsTag opener (c :: (s' ++ t)) = startsTag opener (c :: cs) := by
        intro opener hopener s' r' hcs hmark t
        have hmem : '>' ∈ c :: s' := List.mem_cons_of_mem c hmark
        have hhere := startsTag_append hopener hmem t
        have hthere := startsTag_append hopener hmem r'
        rw [List.cons_append] at hhere hthere
        rw [hhere, hcs, hthere]
      rw [scanToClose_outside] at h
      split at h
      · next hstart =>
        refine hstep depth true h fun s' r' hcs hmark t => ?_
        rw [scanToClose_outside, hlook _ hclose s' r' hcs hmark, if_pos hstart]
      · next hstart =>
        split at h
        · next hnested =>
          refine hstep (depth + 1) false h fun s' r' hcs hmark t => ?_
          rw [scanToClose_outside, hlook _ hclose s' r' hcs hmark, if_neg hstart,
            hlook _ hopen s' r' hcs hmark, if_pos hnested]
        · next hnested =>
          refine hstep depth false h fun s' r' hcs hmark t => ?_
          rw [scanToClose_outside, hlook _ hclose s' r' hcs hmark, if_neg hstart,
            hlook _ hopen s' r' hcs hmark, if_neg hnested]

/-! ### Elements -/

/-- One element is taken before any other text. -/
theorem scanElement_spec {cs s r : List Char} (h : scanElement cs = .ok (s, r)) :
    ∃ p, s = '<' :: p ∧ cs = p ++ r ∧ '>' ∈ p ∧ ∀ t, scanElement (p ++ t) = .ok (s, t) := by
  unfold scanElement at h
  simp only at h
  split at h
  · cases h
  next hname =>
  cases hopening : throughClose ('<' :: cs) with
  | none =>
    rw [hopening] at h
    cases h
  | some found =>
    obtain ⟨opening, rest⟩ := found
    rw [hopening] at h
    simp only at h
    obtain ⟨hcs, hmark, hthrough⟩ := throughClose_spec hopening
    -- the opening tag is the less-than sign and what follows it up to its end
    obtain ⟨o, rfl⟩ : ∃ o, opening = '<' :: o := by
      cases opening with
      | nil => cases hmark
      | cons a o => exact ⟨o, by rw [(List.cons.inj hcs).1]⟩
    have hbody : cs = o ++ rest := (List.cons.inj hcs).2
    have hmark' : '>' ∈ o := by simpa using hmark
    have hletters : ∀ t, (o ++ t).takeWhile Char.isAlphanum = cs.takeWhile Char.isAlphanum := by
      intro t
      rw [hbody, takeWhile_append_of_mem hmark' (by decide),
        takeWhile_append_of_mem hmark' (by decide)]
    split at h
    · next hsingle =>
      obtain ⟨rfl, rfl⟩ := Prod.mk.inj (Except.ok.inj h)
      refine ⟨o, rfl, hbody, hmark', fun t => ?_⟩
      unfold scanElement
      have hopen : throughClose ('<' :: (o ++ t)) = some ('<' :: o, t) := hthrough t
      simp only [hletters, hopen]
      rw [if_neg hname, if_pos hsingle]
    · next hdouble =>
      cases hclose : scanToClose (Text.lowerAscii (cs.takeWhile Char.isAlphanum)) 0 false rest with
      | none =>
        rw [hclose] at h
        cases h
      | some found =>
        obtain ⟨body, after⟩ := found
        rw [hclose] at h
        obtain ⟨rfl, rfl⟩ := Prod.mk.inj (Except.ok.inj h)
        have hplain : '>' ∉ Text.lowerAscii (cs.takeWhile Char.isAlphanum) := by
          intro hmem
          obtain ⟨a, ha, hlower⟩ := List.mem_map.mp hmem
          exact toLower_ne_of_isAlphanum (List.mem_takeWhile_imp ha) hlower
        obtain ⟨hrest, -, hscan⟩ := scanToClose_spec hplain hclose
        refine ⟨o ++ body, rfl, by rw [hbody, hrest, List.append_assoc],
          List.mem_append_left body hmark', fun t => ?_⟩
        unfold scanElement
        have hopen : throughClose ('<' :: (o ++ body ++ t)) = some ('<' :: o, body ++ t) := by
          rw [List.append_assoc]
          exact hthrough (body ++ t)
        have hsame : (o ++ body ++ t).takeWhile Char.isAlphanum = cs.takeWhile Char.isAlphanum := by
          rw [List.append_assoc]
          exact hletters (body ++ t)
        simp only [hsame, hopen]
        rw [if_neg hname, if_neg hdouble, hscan t]

/-! ### Elements in a row -/

/-- A text that starts no further element. -/
def StartsNone (t : List Char) : Prop := ∀ more, t = '<' :: more → more.head? = some '/'

/-- A text starts a further element if it has a less-than sign that no slash follows. -/
lemma startsNone_iff {t : List Char} :
    StartsNone t ↔ ¬(t.head? = some '<' ∧ t.tail.head? ≠ some '/') := by
  constructor
  · rintro h ⟨hhead, htail⟩
    cases t with
    | nil => cases hhead
    | cons a t =>
      rw [List.head?_cons, Option.some.injEq] at hhead
      exact htail (h t (by rw [hhead]))
  · rintro h more rfl
    by_contra hmore
    exact h ⟨rfl, hmore⟩

/-- What follows an element decides whether the scan goes on. -/
lemma scanHtml_succ (fuel : ℕ) {cs e rest : List Char} (h : scanElement cs = .ok (e, rest)) :
    scanHtml (fuel + 1) cs =
      if rest.head? = some '<' ∧ rest.tail.head? ≠ some '/' then do
        let (siblings, after) ← scanHtml fuel rest.tail
        return (e ++ siblings, after)
      else .ok (e, rest) := by
  rw [scanHtml, h, ok_bind]
  simp only
  split
  · simp
  · next more hmore =>
    have hhead : more.head? ≠ some '/' := by
      cases more with
      | nil => simp
      | cons a more =>
        intro heq
        rw [List.head?_cons, Option.some.injEq] at heq
        exact hmore more (by rw [heq])
    rw [if_pos ⟨rfl, hhead⟩]
    rfl
  · next hnone =>
    have hhead : rest.head? ≠ some '<' := by
      cases rest with
      | nil => simp
      | cons a rest =>
        intro heq
        rw [List.head?_cons, Option.some.injEq] at heq
        exact hnone rest (by rw [heq])
    rw [if_neg fun hand => hhead hand.1]
    rfl

/-- Elements in a row are taken before any text that starts no further element. -/
theorem scanHtml_spec {fuel : ℕ} {cs s r : List Char} (h : scanHtml fuel cs = .ok (s, r)) :
    ∃ p, s = '<' :: p ∧ cs = p ++ r ∧ '>' ∈ p ∧
      ∀ t, StartsNone t → ∀ fuel', fuel ≤ fuel' → scanHtml fuel' (p ++ t) = .ok (s, t) := by
  induction fuel generalizing cs s with
  | zero => cases h
  | succ fuel ih =>
    have hfuel : ∀ fuel', fuel + 1 ≤ fuel' → ∃ n, fuel' = n + 1 ∧ fuel ≤ n := fun fuel' hle =>
      ⟨fuel' - 1, by omega, by omega⟩
    have hfirst : ∃ e rest, scanElement cs = .ok (e, rest) := by
      rw [scanHtml] at h
      obtain ⟨⟨e, rest⟩, helement, -⟩ := bind_eq_ok.mp h
      exact ⟨e, rest, helement⟩
    obtain ⟨e, rest, helement⟩ := hfirst
    obtain ⟨p, rfl, hcs, hmark, htake⟩ := scanElement_spec helement
    rw [scanHtml_succ fuel helement] at h
    by_cases hmore : rest.head? = some '<' ∧ rest.tail.head? ≠ some '/'
    · rw [if_pos hmore] at h
      obtain ⟨⟨siblings, after⟩, hsiblings, heq⟩ := bind_eq_ok.mp h
      obtain ⟨rfl, rfl⟩ := Prod.mk.inj (Except.ok.inj heq)
      obtain ⟨q, rfl, hrest, hmark', htake'⟩ := ih hsiblings
      obtain ⟨b, q, rfl⟩ := List.exists_cons_of_ne_nil (List.ne_nil_of_mem hmark')
      have hstart : rest = '<' :: (b :: q ++ after) := by
        cases rest with
        | nil => cases hmore.1
        | cons a rest =>
          rw [List.head?_cons, Option.some.injEq] at hmore
          rw [← hrest, hmore.1]
          rfl
      refine ⟨p ++ '<' :: b :: q, rfl, by rw [hcs, hstart]; simp, List.mem_append_left _ hmark,
        fun t ht fuel' hle => ?_⟩
      obtain ⟨n, rfl, hn⟩ := hfuel fuel' hle
      have htext : p ++ '<' :: b :: q ++ t = p ++ '<' :: (b :: q ++ t) := by simp
      have hgoes : ('<' :: (b :: q ++ t)).head? = some '<' ∧
          ('<' :: (b :: q ++ t)).tail.head? ≠ some '/' := by
        refine ⟨rfl, ?_⟩
        have hhead := hmore.2
        rw [hrest] at hhead
        exact hhead
      rw [htext, scanHtml_succ n (htake _), if_pos hgoes, List.tail_cons, htake' t ht n hn]
      rfl
    · rw [if_neg hmore] at h
      obtain ⟨rfl, rfl⟩ := Prod.mk.inj (Except.ok.inj h)
      refine ⟨p, rfl, hcs, hmark, fun t ht fuel' hle => ?_⟩
      obtain ⟨n, rfl, -⟩ := hfuel fuel' hle
      rw [scanHtml_succ n (htake t), if_neg (startsNone_iff.mp ht)]

/-- Content that is one value of inline markup is scanned as that value. -/
theorem scanValue_inline (form : Form) {content t : List Char}
    (h : isInlineHtml content = true) (ht : StartsNone t) :
    scanValue form (content ++ t) = .ok (.html (String.ofList content), t) := by
  unfold isInlineHtml at h
  split at h
  · next rest =>
    split at h
    · next s hscan =>
      obtain ⟨p, rfl, hrest, -, htake⟩ := scanHtml_spec hscan
      rw [List.append_nil] at hrest
      subst hrest
      have hagain := htake t ht ('<' :: (rest ++ t)).length (by simp)
      rw [List.cons_append]
      unfold scanValue
      simp only [hagain]
      rfl
    · cases h
  · cases h

end MailTemplate.Script
