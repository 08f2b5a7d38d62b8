import MailTemplate.Proofs.Script.InlineMarkup
import MailTemplate.Proofs.Script.WrittenValues

/-!
# What is scanned from the front of a text

The value of an attribute is scanned from the front of a text: it leaves an end of the text
(`scanValue_suffix`), and it shows by its first character whether it is embedded JSON or inline
markup (`opens_scanValue`).

Main results: quoted texts and embedded JSON end by themselves, so they are scanned in front of any
text (`exists_scanQuoted`, `scanStructured_local`).
-/

namespace MailTemplate.Script

section Values

variable {form : Form} {cs s r : List Char}

/-- A quoted text is scanned in front of any text. -/
lemma exists_scanQuoted (h : scanQuoted cs = .ok (s, r)) :
    ∃ x, cs = x ++ r ∧ ∀ t, scanQuoted (x ++ t) = .ok (s, t) := by
  fun_induction scanQuoted cs generalizing s with
  | case1 => cases h
  | case2 more =>
    obtain ⟨rfl, rfl⟩ := Prod.mk.inj (Except.ok.inj h)
    exact ⟨['"'], rfl, fun t => rfl⟩
  | case3 c more ih =>
    obtain ⟨⟨s', r'⟩, hmore, heq⟩ := bind_eq_ok.mp h
    obtain ⟨rfl, rfl⟩ := Prod.mk.inj (pure_eq_ok.mp heq)
    obtain ⟨x, rfl, hscan⟩ := ih hmore
    refine ⟨'\\' :: c :: x, rfl, fun t => ?_⟩
    rw [List.cons_append, List.cons_append, scanQuoted, hscan]
    rfl
  | case4 => cases h
  | case5 c more hquote _ hslash ih =>
    obtain ⟨⟨s', r'⟩, hmore, heq⟩ := bind_eq_ok.mp h
    obtain ⟨rfl, rfl⟩ := Prod.mk.inj (pure_eq_ok.mp heq)
    obtain ⟨x, rfl, hscan⟩ := ih hmore
    refine ⟨c :: x, rfl, fun t => ?_⟩
    have hne : c ≠ '"' := fun heq => hquote heq
    rw [List.cons_append]
    unfold scanQuoted
    simp [hslash, hscan]

/-- A step in embedded JSON is decided by the character alone. -/
lemma scanStructured_step (state : StringState) (depth : ℕ) (c : Char) :
    (∀ rest, scanStructured state depth (c :: rest) = .ok ([c], rest)) ∨
      ∃ state' depth', ∀ rest, scanStructured state depth (c :: rest) =
        prepend [c] (scanStructured state' depth' rest) := by
  cases state with
  | escaped => exact .inr ⟨.inside, depth, fun rest => by rw [scanStructured]; rfl⟩
  | inside =>
    by_cases hslash : c = '\\'
    · refine .inr ⟨.escaped, depth, fun rest => ?_⟩
      rw [scanStructured]
      simp only [if_pos hslash]
      rfl
    by_cases hquote : c = '"'
    · refine .inr ⟨.outside, depth, fun rest => ?_⟩
      rw [scanStructured]
      simp only [if_neg hslash, if_pos hquote]
      rfl
    · refine .inr ⟨.inside, depth, fun rest => ?_⟩
      rw [scanStructured]
      simp only [if_neg hslash, if_neg hquote]
      rfl
  | outside =>
    by_cases hquote : c = '"'
    · refine .inr ⟨.inside, depth, fun rest => ?_⟩
      rw [scanStructured]
      simp only [if_pos hquote]
      rfl
    by_cases hopen : c = '[' ∨ c = '{'
    · exact .inr ⟨.outside, depth + 1, fun rest => scanStructured_open hopen depth rest⟩
    by_cases hclose : c = ']' ∨ c = '}'
    · by_cases hdepth : depth ≤ 1
      · refine .inl fun rest => ?_
        rw [scanStructured]
        simp only [if_neg hquote, if_neg hopen, if_pos hclose, if_pos hdepth]
      · refine .inr ⟨.outside, depth - 1, fun rest => ?_⟩
        rw [scanStructured]
        simp only [if_neg hquote, if_neg hopen, if_pos hclose, if_neg hdepth]
        rfl
    · refine .inr ⟨.outside, depth, fun rest => ?_⟩
      rw [scanStructured]
      simp only [if_neg hquote, if_neg hopen, if_neg hclose]
      rfl

/-- Embedded JSON is scanned in front of any text. -/
lemma scanStructured_local {state : StringState} {depth : ℕ}
    (h : scanStructured state depth cs = .ok (s, r)) :
    s ≠ [] ∧ s ++ r = cs ∧ ∀ t, scanStructured state depth (s ++ t) = .ok (s, t) := by
  induction cs generalizing state depth s with
  | nil => cases h
  | cons c cs ih =>
    rcases scanStructured_step state depth c with hend | ⟨state', depth', hgoes⟩
    · rw [hend] at h
      obtain ⟨rfl, rfl⟩ := Prod.mk.inj (Except.ok.inj h)
      exact ⟨List.cons_ne_nil _ _, rfl, hend⟩
    · rw [hgoes] at h
      obtain ⟨⟨s', r'⟩, hmore, heq⟩ := bind_eq_ok.mp h
      obtain ⟨rfl, rfl⟩ := Prod.mk.inj (pure_eq_ok.mp heq)
      obtain ⟨-, rfl, hscan⟩ := ih hmore
      refine ⟨List.cons_ne_nil _ _, rfl, fun t => ?_⟩
      rw [List.append_assoc, List.singleton_append, hgoes, hscan]
      rfl

/-- Embedded JSON starts with the bracket in front of it. -/
lemma head?_scanStructured {state : StringState} {depth : ℕ} {c : Char} {rest : List Char}
    (h : scanStructured state depth (c :: rest) = .ok (s, r)) : s.head? = some c := by
  obtain ⟨hne, happend, -⟩ := scanStructured_local h
  obtain ⟨d, s, rfl⟩ := List.exists_cons_of_ne_nil hne
  exact congrArg some (List.cons.inj happend).1

/-- A bare word and what it leaves make up the text. -/
lemma scanBare_append_eq (form : Form) (cs : List Char) :
    (scanBare form cs).1 ++ (scanBare form cs).2 = cs := by
  induction cs with
  | nil => rfl
  | cons c cs ih =>
    unfold scanBare
    split
    · rfl
    · exact congrArg (c :: ·) ih

/-- A value leaves an end of the text. -/
lemma scanValue_suffix {form : Form} {cs rest : List Char} {value : RawValue}
    (h : scanValue form cs = .ok (value, rest)) : rest <:+ cs := by
  unfold scanValue at h
  split at h
  · obtain ⟨⟨s, r⟩, hs, heq⟩ := bind_eq_ok.mp h
    obtain ⟨-, rfl⟩ := Prod.mk.inj (pure_eq_ok.mp heq)
    obtain ⟨x, rfl, -⟩ := exists_scanQuoted hs
    exact ⟨'"' :: x, rfl⟩
  · obtain ⟨⟨s, r⟩, hs, heq⟩ := bind_eq_ok.mp h
    obtain ⟨-, rfl⟩ := Prod.mk.inj (pure_eq_ok.mp heq)
    exact ⟨s, (scanStructured_local hs).2.1⟩
  · obtain ⟨⟨s, r⟩, hs, heq⟩ := bind_eq_ok.mp h
    obtain ⟨-, rfl⟩ := Prod.mk.inj (pure_eq_ok.mp heq)
    exact ⟨s, (scanStructured_local hs).2.1⟩
  · obtain ⟨⟨s, r⟩, hs, heq⟩ := bind_eq_ok.mp h
    obtain ⟨-, rfl⟩ := Prod.mk.inj (pure_eq_ok.mp heq)
    obtain ⟨p, -, hsplit, -⟩ := scanHtml_spec hs
    exact ⟨'<' :: p, by rw [hsplit, List.cons_append]⟩
  · obtain ⟨-, rfl⟩ := Prod.mk.inj (Except.ok.inj h)
    exact ⟨_, scanBare_append_eq form cs⟩

/-- A value starts as its kind demands. -/
def RawValue.Opens : RawValue → Prop
  | .structured s => s.toList.head? = some '[' ∨ s.toList.head? = some '{'
  | .html s => s.toList.head? = some '<'
  | _ => True

/-- A scanned value starts as its kind demands. -/
lemma opens_scanValue {form : Form} {cs rest : List Char} {value : RawValue}
    (h : scanValue form cs = .ok (value, rest)) : value.Opens := by
  unfold scanValue at h
  split at h
  · obtain ⟨⟨s, r⟩, -, heq⟩ := bind_eq_ok.mp h
    obtain ⟨rfl, -⟩ := Prod.mk.inj (pure_eq_ok.mp heq)
    trivial
  · obtain ⟨⟨s, r⟩, hs, heq⟩ := bind_eq_ok.mp h
    obtain ⟨rfl, -⟩ := Prod.mk.inj (pure_eq_ok.mp heq)
    rw [RawValue.Opens, String.toList_ofList]
    exact .inl (head?_scanStructured hs)
  · obtain ⟨⟨s, r⟩, hs, heq⟩ := bind_eq_ok.mp h
    obtain ⟨rfl, -⟩ := Prod.mk.inj (pure_eq_ok.mp heq)
    rw [RawValue.Opens, String.toList_ofList]
    exact .inr (head?_scanStructured hs)
  · obtain ⟨⟨s, r⟩, hs, heq⟩ := bind_eq_ok.mp h
    obtain ⟨rfl, -⟩ := Prod.mk.inj (pure_eq_ok.mp heq)
    rw [RawValue.Opens, String.toList_ofList]
    obtain ⟨p, rfl, -⟩ := scanHtml_spec hs
    rfl
  · obtain ⟨rfl, -⟩ := Prod.mk.inj (Except.ok.inj h)
    trivial

end Values

end MailTemplate.Script
