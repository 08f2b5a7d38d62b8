import Mathlib.Tactic
import MailTemplate.Keyed

/-!
# Ordered entries are kept as they are

A list of entries in the order of their keys is what it becomes when it is built up entry by entry,
and each entry is the one found under its key.  Searched from the end, the entry with the greatest
key is found first.
-/

namespace MailTemplate.Keyed

variable {α β : Type}

/-- Whether entries are in order depends on their keys only. -/
lemma ordered_iff_keys {entries : List (String × α)} :
    Ordered entries ↔ (entries.map Prod.fst).Pairwise (· < ·) := by
  unfold Ordered
  rw [List.pairwise_map]

/-- Entries with the keys of ordered ones are ordered. -/
lemma Ordered.of_keys_eq {entries : List (String × α)} {others : List (String × β)}
    (h : Ordered entries) (hkeys : others.map Prod.fst = entries.map Prod.fst) :
    Ordered others := by
  rw [ordered_iff_keys, hkeys]
  exact ordered_iff_keys.mp h

/-- An entry is found under its key if no two entries share theirs. -/
lemma lookup_of_mem {entries : List (String × α)} (h : (entries.map Prod.fst).Nodup)
    {key : String} {value : α} (he : (key, value) ∈ entries) :
    entries.lookup key = some value := by
  induction entries with
  | nil => cases he
  | cons a entries ih =>
    obtain ⟨k, v⟩ := a
    rw [List.map_cons, List.nodup_cons] at h
    rcases List.mem_cons.mp he with heq | hmem
    · obtain ⟨rfl, rfl⟩ := Prod.mk.inj heq
      exact List.lookup_cons_self
    · have hne : (key == k) = false := by
        rw [beq_eq_false_iff_ne]
        rintro rfl
        exact h.1 (List.mem_map.mpr ⟨(key, value), hmem, rfl⟩)
      rw [List.lookup_cons, hne]
      exact ih h.2 hmem

/-- An entry of ordered ones is found under its key. -/
lemma Ordered.lookup_of_mem {entries : List (String × α)} (h : Ordered entries)
    {key : String} {value : α} (he : (key, value) ∈ entries) :
    entries.lookup key = some value := by
  apply Keyed.lookup_of_mem _ he
  apply (ordered_iff_keys.mp h).imp
  rintro k _ hlt rfl
  exact String.lt_irrefl k hlt

/-- An entry above all others comes last. -/
lemma insert_of_forall_lt {key : String} {value : α} {entries : List (String × α)}
    (h : ∀ e ∈ entries, e.1 < key) : insert key value entries = entries ++ [(key, value)] := by
  induction entries with
  | nil => rfl
  | cons a entries ih =>
    obtain ⟨k, v⟩ := a
    have hlt : k < key := h (k, v) List.mem_cons_self
    have hnot : ¬key < k := fun hgt => String.lt_irrefl key (String.lt_trans hgt hlt)
    rw [insert, if_neg hnot, if_pos hlt, ih fun e he => h e (List.mem_cons_of_mem _ he)]
    rfl

/-- The entries after insertions are former ones or inserted ones. -/
lemma mem_foldl_insert {entries new : List (String × α)} {e : String × α}
    (h : e ∈ new.foldl (fun acc e => insert e.1 e.2 acc) entries) : e ∈ entries ∨ e ∈ new := by
  induction new generalizing entries with
  | nil => exact .inl h
  | cons a new ih =>
    rcases ih h with hmem | hmem
    · rcases mem_insert hmem with rfl | hmem
      · exact .inr List.mem_cons_self
      · exact .inl hmem
    · exact .inr (List.mem_cons_of_mem a hmem)

/-- Ordered entries set one after the other, above those there are, come behind them. -/
lemma foldl_insert_of_ordered {entries new : List (String × α)}
    (h : Ordered (entries ++ new)) :
    new.foldl (fun acc e => insert e.1 e.2 acc) entries = entries ++ new := by
  induction new generalizing entries with
  | nil => rw [List.foldl_nil, List.append_nil]
  | cons e new ih =>
    have hlast : ∀ a ∈ entries, a.1 < e.1 := fun a ha =>
      (List.pairwise_append.mp h).2.2 a ha e List.mem_cons_self
    have hmore : Ordered (entries ++ [e] ++ new) := by
      rw [List.append_assoc]
      exact h
    rw [List.foldl_cons, insert_of_forall_lt hlast, ih hmore, List.append_assoc]
    rfl

/-- Sorting ordered entries changes nothing. -/
theorem ofList_of_ordered {entries : List (String × α)} (h : Ordered entries) :
    ofList entries = entries := by
  unfold ofList
  rw [foldl_insert_of_ordered (by rwa [List.nil_append]), List.nil_append]

/-! ### Entries found from the end -/

/-- After insertions, a key has the last value inserted under it, or its former one. -/
lemma lookup_foldl_insert (entries new : List (String × α)) (key : String) :
    (new.foldl (fun acc e => insert e.1 e.2 acc) entries).lookup key =
      (new.reverse.lookup key).or (entries.lookup key) := by
  induction new generalizing entries with
  | nil => rfl
  | cons e new ih =>
    have hinsert : (insert e.1 e.2 entries).lookup key =
        ([e].lookup key).or (entries.lookup key) := by
      rw [lookup_insert, List.lookup_cons]
      by_cases hkey : key = e.1
      · rw [if_pos hkey, beq_iff_eq.mpr hkey]
        rfl
      · rw [if_neg hkey, beq_eq_false_iff_ne.mpr hkey]
        rfl
    calc (new.foldl (fun acc e => insert e.1 e.2 acc) (insert e.1 e.2 entries)).lookup key
        = (new.reverse.lookup key).or (([e].lookup key).or (entries.lookup key)) := by
          rw [ih (insert e.1 e.2 entries), hinsert]
      _ = ((e :: new).reverse.lookup key).or (entries.lookup key) := by
          rw [List.reverse_cons, List.lookup_append, Option.or_assoc]

/-- Sorting entries with different keys changes no look-up. -/
lemma lookup_ofList_of_nodup {entries : List (String × α)} (h : (entries.map Prod.fst).Nodup)
    (key : String) : (ofList entries).lookup key = entries.lookup key := by
  have hreverse : entries.reverse.lookup key = entries.lookup key := by
    induction entries with
    | nil => rfl
    | cons e entries ih =>
      rw [List.map_cons, List.nodup_cons] at h
      rw [List.reverse_cons, List.lookup_append, ih h.2, List.lookup_cons]
      by_cases hkey : key = e.1
      · have hmissing : entries.lookup key = none := by
          refine List.lookup_eq_none_iff.mpr fun a ha => ?_
          rw [bne_iff_ne]
          rintro rfl
          exact h.1 (hkey ▸ List.mem_map_of_mem ha)
        rw [hmissing, List.lookup_cons, beq_iff_eq.mpr hkey]
        rfl
      · rw [beq_eq_false_iff_ne.mpr hkey, List.lookup_cons, beq_eq_false_iff_ne.mpr hkey]
        exact Option.or_none
  unfold ofList
  rw [lookup_foldl_insert, List.lookup_nil, Option.or_none, hreverse]

/-- Entries found from the end of a list of lists are found in the lists, from the last one. -/
lemma lookup_reverse_flatMap {γ : Type} (f : γ → List (String × β)) (xs : List γ)
    (key : String) :
    (xs.flatMap f).reverse.lookup key = xs.reverse.findSome? fun x => (f x).reverse.lookup key := by
  induction xs with
  | nil => rfl
  | cons x xs ih =>
    rw [List.flatMap_cons, List.reverse_append, List.lookup_append, ih, List.reverse_cons,
      List.findSome?_append, List.findSome?_singleton]

/-- In ordered entries of which only two matter, the one with the greater key is found first from
the end. -/
lemma findSome?_reverse {entries : List (String × α)} (h : Ordered entries)
    {g : String × α → Option β} {low key : String} (hle : low ≤ key)
    (hg : ∀ e ∈ entries, e.1 ≠ key → e.1 ≠ low → g e = none) :
    entries.reverse.findSome? g = ((entries.lookup key).bind fun v => g (key, v)).or
      ((entries.lookup low).bind fun v => g (low, v)) := by
  induction entries with
  | nil => rfl
  | cons e entries ih =>
    obtain ⟨k, v⟩ := e
    have hlater : ∀ e ∈ entries, k < e.1 := fun e he => List.rel_of_pairwise_cons h he
    have hmissing : ∀ {a : String}, a ≤ k → entries.lookup a = none := by
      intro a ha
      refine List.lookup_eq_none_iff.mpr fun e he => ?_
      rw [bne_iff_ne]
      rintro rfl
      exact absurd (hlater e he) (String.not_lt.mpr ha)
    rw [List.reverse_cons, List.findSome?_append, ih h.of_cons
      fun e he => hg e (List.mem_cons_of_mem _ he), List.findSome?_singleton, List.lookup_cons,
      List.lookup_cons]
    by_cases hkey : key = k
    · subst hkey
      rw [hmissing (String.le_refl key), hmissing hle, beq_self_eq_true]
      by_cases hlow : low = key
      · subst hlow
        simp
      · rw [beq_eq_false_iff_ne.mpr hlow]
        simp
    · rw [beq_eq_false_iff_ne.mpr hkey]
      by_cases hlow : low = k
      · subst hlow
        rw [hmissing (String.le_refl low), beq_self_eq_true]
        simp
      · rw [beq_eq_false_iff_ne.mpr hlow,
          hg (k, v) List.mem_cons_self (fun heq => hkey heq.symm) fun heq => hlow heq.symm]
        simp

/-! ### Related entries -/

/-- Entries with the same key and related values. -/
def Related (R : String → α → β → Prop) (e : String × α) (e' : String × β) : Prop :=
  e.1 = e'.1 ∧ R e.1 e.2 e'.2

variable {R : String → α → β → Prop} {entries : List (String × α)} {others : List (String × β)}

/-- Related entries stay related when related values are inserted under one key. -/
lemma forall₂_insert (h : List.Forall₂ (Related R) entries others) {key : String} {v : α} {w : β}
    (hvw : R key v w) :
    List.Forall₂ (Related R) (insert key v entries) (insert key w others) := by
  have hfirst : Related R (key, v) (key, w) := ⟨rfl, hvw⟩
  induction h with
  | nil => exact .cons hfirst .nil
  | @cons e e' entries others he hrest ih =>
    obtain ⟨k, x⟩ := e
    obtain ⟨k', y⟩ := e'
    obtain rfl : k = k' := he.1
    unfold insert
    split_ifs
    · exact .cons hfirst (.cons he hrest)
    · exact .cons he ih
    · exact .cons hfirst hrest

/-- Related entries stay related when related ones are inserted. -/
lemma forall₂_foldl_insert (h : List.Forall₂ (Related R) entries others)
    {new : List (String × α)} {new' : List (String × β)}
    (hnew : List.Forall₂ (Related R) new new') :
    List.Forall₂ (Related R) (new.foldl (fun acc e => insert e.1 e.2 acc) entries)
      (new'.foldl (fun acc e => insert e.1 e.2 acc) others) := by
  induction hnew generalizing entries others with
  | nil => exact h
  | @cons e e' new new' he _ ih =>
    obtain ⟨k, v⟩ := e
    obtain ⟨k', w⟩ := e'
    obtain rfl : k = k' := he.1
    exact ih (forall₂_insert h he.2)

/-- Tests of keys keep entries related. -/
lemma forall₂_filter (h : List.Forall₂ (Related R) entries others) (keep : String → Bool) :
    List.Forall₂ (Related R) (entries.filter fun e => keep e.1)
      (others.filter fun e => keep e.1) := by
  induction h with
  | nil => exact .nil
  | cons he _ ih =>
    rw [List.filter_cons, List.filter_cons, he.1]
    split_ifs
    · exact .cons he ih
    · exact ih

/-- Under one key, related entries have related values, or none. -/
lemma lookup_of_forall₂ (h : List.Forall₂ (Related R) entries others) (key : String) :
    (entries.lookup key = none ∧ others.lookup key = none) ∨
      ∃ v w, entries.lookup key = some v ∧ others.lookup key = some w ∧ R key v w := by
  induction h with
  | nil => exact .inl ⟨rfl, rfl⟩
  | @cons e e' entries others he _ ih =>
    obtain ⟨k, v⟩ := e
    obtain ⟨k', w⟩ := e'
    obtain rfl : k = k' := he.1
    rw [List.lookup_cons, List.lookup_cons]
    split
    · next heq =>
      obtain rfl : key = k := beq_iff_eq.mp heq
      exact .inr ⟨v, w, rfl, rfl, he.2⟩
    · exact ih

end MailTemplate.Keyed
