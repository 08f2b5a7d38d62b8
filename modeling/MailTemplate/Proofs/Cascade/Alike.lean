import MailTemplate.Proofs.Binary64.Text
import MailTemplate.Proofs.Cascade.Layers

/-!
# Bags that look alike

Two bags are alike when they have the same keys and, once bare lengths are in pixels, values that
are the same.  Numbers that are the same have the same text, so a length may be a number in one bag
and its text in the other.

Main results: alike entries keep bags alike (`Attributes.Alike.setAll`), and alike bags are the same
once bare lengths are in pixels (`Attributes.Alike.same_withLengths`).
-/

namespace MailTemplate

/-! ### Numbers and their texts -/

namespace Binary64

/-- A number with a value is the same as itself. -/
lemma same_self {x : Binary64} (h : x ≠ nan) : x.same x = true := by
  cases x with
  | nan => exact absurd rfl h
  | infinite s =>
    cases s with
    | false => rfl
    | true => rfl
  | finite s r => exact same_finite (.inl rfl)

/-- Numbers that are the same are equal, or both zero. -/
lemma eq_or_zero_of_same {x y : Binary64} (h : x.same y = true) :
    x = y ∨ ∃ s t, ∃ r : Fin rankLimit, r.val = 0 ∧ x = finite s r ∧ y = finite t r := by
  unfold same at h
  rw [beq_iff_eq] at h
  cases x with
  | nan => cases h
  | infinite s =>
    cases y with
    | nan => cases h
    | finite t r => cases s <;> cases h
    | infinite t =>
      cases s with
      | false =>
        cases t with
        | false => exact .inl rfl
        | true => cases h
      | true =>
        cases t with
        | false => cases h
        | true => exact .inl rfl
  | finite s r =>
    cases y with
    | nan => cases h
    | infinite t => cases t <;> cases h
    | finite t r' =>
      have hsigned : compare?.signed s r = compare?.signed t r' :=
        compare_eq_iff_eq.mp (Option.some.inj h)
      have hrank : r.val = r'.val ∧ (s = t ∨ r.val = 0) := by
        unfold compare?.signed at hsigned
        cases s <;> cases t <;> simp at hsigned ⊢ <;> omega
      obtain rfl : r = r' := Fin.ext hrank.1
      rcases hrank.2 with rfl | hzero
      · exact .inl rfl
      · exact .inr ⟨s, t, r, hzero, rfl, rfl⟩

end Binary64

/-- Numbers that are the same have the same text in style declarations. -/
lemma numberText_congr {x y : Binary64} (h : x.same y = true) : numberText x = numberText y := by
  rcases Binary64.eq_or_zero_of_same h with rfl | ⟨s, t, r, hzero, rfl, rfl⟩
  · rfl
  · have htext : ∀ s, numberText (.finite s ⟨0, by decide⟩) = "0" := by decide +kernel
    obtain rfl : r = ⟨0, by decide⟩ := Fin.ext hzero
    rw [htext, htext]

/-! ### Values -/

namespace AttributeValue

/-- What values are that are the same. -/
lemma same_cases {v w : AttributeValue} (h : v.same w = true) :
    (∃ b, v = .bool b ∧ w = .bool b) ∨ (∃ s, v = .text s ∧ w = .text s) ∨
      (∃ x y, v = .number x ∧ w = .number y ∧ x.same y = true) ∨
        ∃ a b, v = .json a ∧ w = .json b ∧ a.same b = true := by
  cases v with
  | bool b =>
    cases w with
    | bool b' => exact .inl ⟨b, rfl, congrArg _ (beq_iff_eq.mp h).symm⟩
    | _ => cases h
  | text s =>
    cases w with
    | text s' => exact .inr (.inl ⟨s, rfl, congrArg _ (beq_iff_eq.mp h).symm⟩)
    | _ => cases h
  | number x =>
    cases w with
    | number y => exact .inr (.inr (.inl ⟨x, y, rfl, rfl, h⟩))
    | _ => cases h
  | json a =>
    cases w with
    | json b => exact .inr (.inr (.inr ⟨a, b, rfl, rfl, h⟩))
    | _ => cases h

/-- Values that are the same are the same texts, if they are texts. -/
lemma text?_congr {v w : AttributeValue} (h : v.same w = true) : v.text? = w.text? := by
  rcases same_cases h with ⟨b, rfl, rfl⟩ | ⟨s, rfl, rfl⟩ | ⟨x, y, rfl, rfl, -⟩ | ⟨a, b, rfl, rfl, -⟩
  · rfl
  · rfl
  · rfl
  · rfl

/-- Values that are the same are the same once bare lengths are in pixels. -/
lemma same_lengthValue {key : String} {v w : AttributeValue} (h : v.same w = true) :
    (lengthValue key v).same (lengthValue key w) = true := by
  rcases same_cases h with
    ⟨b, rfl, rfl⟩ | ⟨s, rfl, rfl⟩ | ⟨x, y, rfl, rfl, hxy⟩ | ⟨a, b, rfl, rfl, hab⟩
  · exact h
  · exact h
  · unfold lengthValue
    simp only
    split_ifs
    · rw [numberText_congr hxy]
      exact beq_self_eq_true _
    · exact h
  · exact h

/-- JSON values that are the same stand for values that are the same. -/
lemma same_ofJson {v w : Json} (h : v.same w = true) : (ofJson v).same (ofJson w) = true := by
  cases v with
  | int n =>
    cases w with
    | int m =>
      obtain rfl : n = m := beq_iff_eq.mp h
      exact Binary64.same_self (Binary64.ofQuotient_ne_nan _ _ _)
    | _ => cases h
  | null =>
    cases w with
    | null => exact h
    | _ => cases h
  | bool b =>
    cases w with
    | bool b' => exact h
    | _ => cases h
  | float x =>
    cases w with
    | float y => exact h
    | _ => cases h
  | text s =>
    cases w with
    | text s' => exact h
    | _ => cases h
  | array xs =>
    cases w with
    | array ys => exact h
    | _ => cases h
  | object fs =>
    cases w with
    | object gs => exact h
    | _ => cases h

end AttributeValue

/-! ### Bags -/

/-- Entries with the same key and the same value. -/
abbrev SameEntry : String × AttributeValue → String × AttributeValue → Prop :=
  Keyed.Related fun _ v w => v.same w = true

/-- Entries with the same key and, once bare lengths are in pixels, the same value. -/
abbrev AlikeEntry : String × AttributeValue → String × AttributeValue → Prop :=
  Keyed.Related fun key v w => (lengthValue key v).same (lengthValue key w) = true

namespace Attributes

/-- Bags with alike entries. -/
def Alike (a b : Attributes) : Prop := List.Forall₂ AlikeEntry a.entries b.entries

variable {a b : Attributes}

/-- The bag without entries is alike itself. -/
lemma alike_empty : Alike {} {} := List.Forall₂.nil

/-- Alike bags stay alike when alike entries are set. -/
lemma Alike.setAll (h : a.Alike b) {new new' : List (String × AttributeValue)}
    (hnew : List.Forall₂ AlikeEntry new new') : (a.setAll new).Alike (b.setAll new') := by
  unfold Alike
  rw [entries_setAll, entries_setAll]
  exact Keyed.forall₂_foldl_insert h hnew

/-- What is accepted of alike bags is alike. -/
lemma Alike.filterKeys (h : a.Alike b) (keep : String → Bool) :
    (a.filterKeys keep).Alike (b.filterKeys keep) := Keyed.forall₂_filter h keep

/-- Alike bags are the same once bare lengths are in pixels. -/
lemma Alike.same_withLengths (h : a.Alike b) : a.withLengths.same b.withLengths = true := by
  unfold Alike at h
  change same.go (a.entries.map fun e => (e.1, lengthValue e.1 e.2))
    (b.entries.map fun e => (e.1, lengthValue e.1 e.2)) = true
  generalize a.entries = entries, b.entries = others at h ⊢
  induction h with
  | nil => rfl
  | cons he _ ih =>
    rw [List.map_cons, List.map_cons, same.go, Bool.and_eq_true, Bool.and_eq_true, ← he.1]
    exact ⟨⟨beq_self_eq_true _, he.2⟩, ih⟩

/-- A key without bare lengths has the same text in alike bags. -/
lemma Alike.text?_eq (h : a.Alike b) {key : String} (hkey : isLengthKey key = false) :
    a.text? key = b.text? key := by
  have hplain : ∀ v, lengthValue key v = v := by
    intro v
    unfold lengthValue
    split
    · rw [hkey]
      rfl
    · rfl
  unfold text? get?
  rcases Keyed.lookup_of_forall₂ h key with ⟨ha, hb⟩ | ⟨v, w, ha, hb, hvw⟩
  · rw [ha, hb]
  · rw [hplain, hplain] at hvw
    rw [ha, hb]
    exact AttributeValue.text?_congr hvw

/-- The entries of bags that are the same are the same one by one. -/
lemma forall₂_of_same (h : a.same b = true) : List.Forall₂ SameEntry a.entries b.entries := by
  unfold same at h
  generalize a.entries = entries, b.entries = others at h
  induction entries generalizing others with
  | nil =>
    cases others with
    | nil => exact .nil
    | cons e' others => cases h
  | cons e entries ih =>
    cases others with
    | nil => cases h
    | cons e' others =>
      rw [same.go, Bool.and_eq_true, Bool.and_eq_true, beq_iff_eq] at h
      exact .cons h.1 (ih others h.2)

/-- Under one key, bags that are the same have the same text. -/
lemma text?_of_same (h : a.same b = true) (key : String) : a.text? key = b.text? key := by
  unfold text? get?
  rcases Keyed.lookup_of_forall₂ (forall₂_of_same h) key with ⟨ha, hb⟩ | ⟨v, w, ha, hb, hvw⟩
  · rw [ha, hb]
  · rw [ha, hb]
    exact AttributeValue.text?_congr hvw

/-- A bag all whose values are the same as themselves. -/
def Steady (bag : Attributes) : Prop := ∀ e ∈ bag.entries, e.2.same e.2 = true

/-- A steady bag is alike itself. -/
lemma Steady.alike {bag : Attributes} (h : bag.Steady) : bag.Alike bag :=
  List.forall₂_same.mpr fun e he => ⟨rfl, AttributeValue.same_lengthValue (h e he)⟩

end Attributes

end MailTemplate
