import Mathlib.Data.List.TakeWhile
import Mathlib.Tactic
import MailTemplate.Text.Affix
import MailTemplate.Text.Measure

/-!
# Heads, tails and parts of texts

What is dropped from either end of a text depends on its characters: nothing if a character of the
head or tail is not there, and no character that is not in the tail.  The first line of a text is at
its front, and empty only in front of an end of line.  The parts between marks hold all other
characters of a text.
-/

namespace MailTemplate.Text

/-! ### Heads and tails -/

/-- Nothing that starts with a character that the text has not is dropped. -/
lemma dropHead?_of_not_mem {h : Char} {hs cs : List Char} (hcs : h ∉ cs) :
    dropHead? (h :: hs) cs = none := by
  cases cs with
  | nil => rfl
  | cons c cs =>
    have hne : h ≠ c := fun heq => hcs (heq ▸ List.mem_cons_self)
    rw [dropHead?, if_neg hne]

/-- Nothing is dropped from the end of a text without the last character of the tail. -/
lemma dropTails_of_not_mem (tail : List Char) {cs : List Char} {c : Char} (h : c ∉ cs) :
    dropTails (tail ++ [c]) cs = cs := by
  have hdrop : dropHead? (tail ++ [c]).reverse cs.reverse = none := by
    rw [List.reverse_append]
    exact dropHead?_of_not_mem fun hmem => h (List.mem_reverse.mp hmem)
  have hgo : ∀ n, dropTails.go (tail ++ [c]).reverse cs.reverse n = cs.reverse := by
    intro n
    cases n with
    | zero => rfl
    | succ n => rw [dropTails.go, hdrop]
  rw [dropTails, hgo, List.reverse_reverse]

/-- Only characters of the tail are dropped with it. -/
lemma mem_dropTails {tail cs : List Char} {c : Char} (htail : c ∉ tail) (hc : c ∈ cs) :
    c ∈ dropTails tail cs := by
  have hgo : ∀ (n : ℕ) (ds : List Char), c ∈ ds → c ∈ dropTails.go tail.reverse ds n := by
    intro n
    induction n with
    | zero => exact fun ds hds => hds
    | succ n ih =>
      intro ds hds
      rw [dropTails.go]
      split
      · next rest hrest =>
        rw [dropHead?_eq_some hrest] at hds
        rcases List.mem_append.mp hds with hmem | hmem
        · exact absurd (List.mem_reverse.mp hmem) htail
        · exact ih rest hmem
      · exact hds
  exact List.mem_reverse.mpr (hgo _ _ (List.mem_reverse.mpr hc))

/-- What precedes a tail is the text without it. -/
lemma dropTail?_eq_some {tail cs rest : List Char} :
    dropTail? tail cs = some rest ↔ cs = rest ++ tail := by
  unfold dropTail?
  rw [Option.map_eq_some_iff]
  constructor
  · rintro ⟨ds, hds, rfl⟩
    have hreverse := congrArg List.reverse (dropHead?_eq_some hds)
    rwa [List.reverse_reverse, List.reverse_append, List.reverse_reverse] at hreverse
  · rintro rfl
    refine ⟨rest.reverse, ?_, List.reverse_reverse rest⟩
    rw [List.reverse_append]
    exact dropHead?_append _ _

/-- Copies of a tail at the end of a text are dropped, down to a text without its last
character. -/
lemma dropTails_append_copies (tail : List Char) {c : Char} {cs : List Char} (h : c ∉ cs)
    (times : ℕ) :
    dropTails (tail ++ [c]) (cs ++ (List.replicate times (tail ++ [c])).flatten) = cs := by
  set head := (tail ++ [c]).reverse with hhead
  have hnone : dropHead? head cs.reverse = none := by
    rw [hhead, List.reverse_append]
    exact dropHead?_of_not_mem fun hmem => h (List.mem_reverse.mp hmem)
  have hgo : ∀ times fuel, times ≤ fuel →
      dropTails.go head ((List.replicate times head).flatten ++ cs.reverse) fuel = cs.reverse := by
    intro times
    induction times with
    | zero =>
      intro fuel _
      cases fuel with
      | zero => rfl
      | succ fuel =>
        rw [List.replicate_zero, List.flatten_nil, List.nil_append, dropTails.go, hnone]
    | succ times ih =>
      intro fuel hfuel
      obtain ⟨fuel, rfl⟩ := Nat.exists_eq_succ_of_ne_zero (Nat.ne_zero_of_lt hfuel)
      rw [List.replicate_succ, List.flatten_cons, List.append_assoc, Nat.succ_eq_add_one,
        dropTails.go, dropHead?_append]
      exact ih fuel (Nat.le_of_succ_le_succ hfuel)
  have hlength : times ≤ (cs ++ (List.replicate times (tail ++ [c])).flatten).length := by
    have hcopies : times ≤ times * (tail.length + 1) :=
      Nat.le_mul_of_pos_right times (Nat.succ_pos _)
    simp only [List.length_append, List.length_flatten, List.map_replicate, List.sum_replicate,
      smul_eq_mul, List.length_singleton]
    omega
  have hreverse : (cs ++ (List.replicate times (tail ++ [c])).flatten).reverse =
      (List.replicate times head).flatten ++ cs.reverse := by
    rw [List.reverse_append, List.reverse_flatten, List.map_replicate, List.reverse_replicate]
  rw [dropTails, hreverse, hgo times _ hlength, List.reverse_reverse]

/-- What is dropped from the end of a text is copies of the tail. -/
lemma exists_dropTails (tail cs : List Char) :
    ∃ times, cs = dropTails tail cs ++ (List.replicate times tail).flatten := by
  have hgo : ∀ fuel ds, ∃ times,
      ds = (List.replicate times tail.reverse).flatten ++ dropTails.go tail.reverse ds fuel := by
    intro fuel
    induction fuel with
    | zero => exact fun ds => ⟨0, rfl⟩
    | succ fuel ih =>
      intro ds
      rw [dropTails.go]
      split
      · next rest hrest =>
        obtain ⟨times, htimes⟩ := ih rest
        refine ⟨times + 1, ?_⟩
        rw [List.replicate_succ, List.flatten_cons, List.append_assoc, ← htimes]
        exact dropHead?_eq_some hrest
      · exact ⟨0, rfl⟩
  obtain ⟨times, htimes⟩ := hgo cs.length cs.reverse
  refine ⟨times, List.reverse_injective ?_⟩
  rw [dropTails, List.reverse_append, List.reverse_flatten, List.map_replicate,
    List.reverse_replicate, List.reverse_reverse]
  exact htimes

/-! ### First lines -/

/-- The first line is a front of the text before the first line feed. -/
lemma firstLine_prefix_takeWhile (cs : List Char) : firstLine cs <+: cs.takeWhile (· != '\n') := by
  unfold firstLine
  simp only
  split
  · cases htail : dropTail? ['\r'] (cs.takeWhile (· != '\n')) with
    | none => exact List.prefix_refl _
    | some line => exact ⟨['\r'], (dropTail?_eq_some.mp htail).symm⟩
  · exact List.prefix_refl _

/-- The first line is a front of the text. -/
lemma firstLine_prefix (cs : List Char) : firstLine cs <+: cs :=
  (firstLine_prefix_takeWhile cs).trans (List.takeWhile_prefix _)

/-- There is no line feed in the first line. -/
lemma not_mem_firstLine (cs : List Char) : '\n' ∉ firstLine cs := by
  intro hmem
  have hne := List.mem_takeWhile_imp ((firstLine_prefix_takeWhile cs).mem hmem)
  exact absurd hne (by decide)

/-- The first line is empty if the text is, or if it starts with an end of line. -/
lemma firstLine_eq_nil_iff {cs : List Char} :
    firstLine cs = [] ↔ cs = [] ∨ ∃ rest, cs = '\n' :: rest ∨ cs = '\r' :: '\n' :: rest := by
  constructor
  · intro h
    cases cs with
    | nil => exact .inl rfl
    | cons c rest =>
      right
      by_cases hc : c = '\n'
      · exact ⟨rest, .inl (by rw [hc])⟩
      have htake : ∀ {d : Char} {more : List Char}, d ≠ '\n' →
          (d :: more).takeWhile (· != '\n') = d :: more.takeWhile (· != '\n') :=
        fun hd => List.takeWhile_cons_of_pos (by simpa using hd)
      unfold firstLine at h
      simp only [htake hc] at h
      split at h
      · next hlt =>
        cases htail : dropTail? ['\r'] (c :: rest.takeWhile (· != '\n')) with
        | none =>
          rw [htail] at h
          cases h
        | some line =>
          rw [htail] at h
          obtain rfl : line = [] := h
          -- the line is the carriage return, and something follows
          obtain ⟨rfl, hnil⟩ := List.cons.inj (dropTail?_eq_some.mp htail)
          rw [hnil] at hlt
          obtain ⟨d, more, rfl⟩ := List.exists_cons_of_length_pos (Nat.lt_of_succ_lt_succ hlt)
          refine ⟨more, .inr ?_⟩
          by_cases hd : d = '\n'
          · rw [hd]
          · rw [htake hd] at hnil
            cases hnil
      · cases h
  · rintro (rfl | ⟨rest, rfl | rfl⟩)
    · rfl
    · simp [firstLine, dropTail?, dropHead?]
    · simp [firstLine, dropTail?, dropHead?]

/-! ### Letters -/

/-- Capitals are ASCII characters. -/
lemma toNat_lt_of_isUpper {c : Char} (h : c.isUpper = true) : c.toNat < 128 := by
  unfold Char.isUpper at h
  simp only [decide_eq_true_eq] at h
  exact lt_of_le_of_lt h.2 (by decide)

/-- Only capitals have another lower case. -/
lemma toLower_of_isUpper_eq_false {c : Char} (h : c.isUpper = false) : c.toLower = c := by
  unfold Char.isUpper at h
  simp only [decide_eq_false_iff_not] at h
  exact dif_neg h

/-- What every capital has among the ASCII characters, every capital has. -/
lemma of_isUpper {p : Char → Prop}
    (h : ∀ n < 128, (Char.ofNat n).isUpper = true → p (Char.ofNat n)) {c : Char}
    (hc : c.isUpper = true) : p c := by
  have hlt := toNat_lt_of_isUpper hc
  rw [← Char.ofNat_toNat c] at hc ⊢
  exact h c.toNat hlt hc

/-- Capitals are letters. -/
lemma isAlphanum_of_isUpper {c : Char} (h : c.isUpper = true) : c.isAlphanum = true :=
  of_isUpper (p := fun c => c.isAlphanum = true) (by decide) h

/-- The lower case of a character is no capital. -/
lemma isUpper_toLower (c : Char) : c.toLower.isUpper = false := by
  cases hupper : c.isUpper with
  | false =>
    rw [toLower_of_isUpper_eq_false hupper]
    exact hupper
  | true => exact of_isUpper (p := fun c => c.toLower.isUpper = false) (by decide) hupper

/-- Lower case keeps letters and digits, and all else. -/
lemma isAlphanum_toLower (c : Char) : c.toLower.isAlphanum = c.isAlphanum := by
  cases hupper : c.isUpper with
  | false => rw [toLower_of_isUpper_eq_false hupper]
  | true =>
    exact of_isUpper (p := fun c => c.toLower.isAlphanum = c.isAlphanum) (by decide) hupper

/-- Lower case keeps the size of a character. -/
lemma utf8Size_toLower (c : Char) : c.toLower.utf8Size = c.utf8Size := by
  cases hupper : c.isUpper with
  | false => rw [toLower_of_isUpper_eq_false hupper]
  | true => exact of_isUpper (p := fun c => c.toLower.utf8Size = c.utf8Size) (by decide) hupper

/-- A mark that is no letter is the lower case of itself alone. -/
lemma toLower_eq_iff {c m : Char} (hm : m.isAlphanum = false) : c.toLower = m ↔ c = m := by
  constructor
  · intro h
    cases hupper : c.isUpper with
    | false => rw [← h, toLower_of_isUpper_eq_false hupper]
    | true =>
      have halpha := isAlphanum_of_isUpper hupper
      rw [← isAlphanum_toLower, h, hm] at halpha
      cases halpha
  · rintro rfl
    refine toLower_of_isUpper_eq_false ?_
    cases hupper : c.isUpper with
    | false => rfl
    | true =>
      rw [isAlphanum_of_isUpper hupper] at hm
      cases hm

/-- Lower case keeps the size of a text. -/
lemma utf8Size_lowerAscii (cs : List Char) : utf8Size (lowerAscii cs) = utf8Size cs := by
  induction cs with
  | nil => rfl
  | cons c cs ih =>
    rw [lowerAscii, List.map_cons, utf8Size_cons, utf8Size_cons, utf8Size_toLower]
    exact congrArg _ ih

/-- A mark that is no letter stands in the lower case of a text where it stands in the text. -/
lemma mem_lowerAscii {m : Char} (hm : m.isAlphanum = false) {cs : List Char} :
    m ∈ lowerAscii cs ↔ m ∈ cs := by
  rw [lowerAscii, List.mem_map]
  constructor
  · rintro ⟨c, hc, heq⟩
    exact (toLower_eq_iff hm).mp heq ▸ hc
  · exact fun h => ⟨m, h, (toLower_eq_iff hm).mpr rfl⟩

/-! ### Parts between marks -/

/-- A character that is no mark is in one of the parts between marks. -/
lemma exists_mem_splitOn (isMark : Char → Bool) {c : Char} (hmark : isMark c = false)
    {cs : List Char} (hc : c ∈ cs) : ∃ part ∈ splitOn isMark cs, c ∈ part := by
  induction cs with
  | nil => cases hc
  | cons a cs ih =>
    rw [splitOn]
    split
    · next hnone =>
      -- there is always a part
      cases cs with
      | nil => cases hnone
      | cons b cs =>
        rw [splitOn] at hnone
        split at hnone
        · cases hnone
        · split at hnone
          · cases hnone
          · cases hnone
    · next part parts hparts =>
      rw [hparts] at ih
      rcases List.mem_cons.mp hc with rfl | hc
      · rw [hmark]
        exact ⟨c :: part, List.mem_cons_self, List.mem_cons_self⟩
      · obtain ⟨found, hfound, hin⟩ := ih hc
        split
        · exact ⟨found, List.mem_cons_of_mem _ hfound, hin⟩
        · rcases List.mem_cons.mp hfound with rfl | hfound
          · exact ⟨a :: found, List.mem_cons_self, List.mem_cons_of_mem a hin⟩
          · exact ⟨found, List.mem_cons_of_mem _ hfound, hin⟩

/-- A text without marks is its only part. -/
lemma splitOn_eq_singleton {isMark : Char → Bool} {cs : List Char}
    (h : ∀ c ∈ cs, isMark c = false) : splitOn isMark cs = [cs] := by
  induction cs with
  | nil => rfl
  | cons c cs ih =>
    rw [splitOn, ih fun a ha => h a (List.mem_cons_of_mem c ha), h c List.mem_cons_self]
    rfl

/-- The first part of a text ends at its first mark. -/
lemma splitOn_append_mark {isMark : Char → Bool} {cs : List Char} {m : Char}
    (h : ∀ c ∈ cs, isMark c = false) (hm : isMark m = true) (rest : List Char) :
    splitOn isMark (cs ++ m :: rest) = cs :: splitOn isMark rest := by
  have hcons : ∃ part parts, splitOn isMark rest = part :: parts := by
    cases rest with
    | nil => exact ⟨[], [], rfl⟩
    | cons c rest =>
      rw [splitOn]
      split
      · exact ⟨[], [], rfl⟩
      · split
        · exact ⟨_, _, rfl⟩
        · exact ⟨_, _, rfl⟩
  obtain ⟨part, parts, hparts⟩ := hcons
  induction cs with
  | nil =>
    rw [List.nil_append, splitOn, hparts]
    exact if_pos hm
  | cons c cs ih =>
    rw [List.cons_append, splitOn, ih fun a ha => h a (List.mem_cons_of_mem c ha),
      h c List.mem_cons_self]
    rfl

end MailTemplate.Text
