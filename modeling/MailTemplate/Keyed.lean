/-!
# Entries in the order of their keys

Lists of entries whose keys ascend strictly in the order of code points, so that each key occurs
once.  JSON objects and attribute bags are such lists.

Main statements: insertion and erasure keep the order (`Ordered.insert`, `Ordered.erase`), and say
what a look-up finds afterwards (`lookup_insert`, `lookup_erase`).
-/

namespace MailTemplate.Keyed

variable {α β : Type}

/-- The keys ascend strictly. -/
def Ordered (entries : List (String × α)) : Prop :=
  entries.Pairwise fun a b => a.1 < b.1

/-- The entries with one key set; its former value is replaced. -/
def insert (key : String) (value : α) : List (String × α) → List (String × α)
  | [] => [(key, value)]
  | (k, v) :: rest =>
    if key < k then (key, value) :: (k, v) :: rest
    else if k < key then (k, v) :: insert key value rest
    else (key, value) :: rest

/-- Entries in any order, sorted by key; the last of a repeated key wins. -/
def ofList (entries : List (String × α)) : List (String × α) :=
  entries.foldl (fun acc e => insert e.1 e.2 acc) []

/-- The entries without one key. -/
def erase (key : String) (entries : List (String × α)) : List (String × α) :=
  entries.filter fun e => e.1 != key

theorem eq_of_not_lt {a b : String} (h : ¬a < b) (h' : ¬b < a) : a = b :=
  String.le_antisymm (String.not_lt.1 h') (String.not_lt.1 h)

theorem Ordered.nil : Ordered ([] : List (String × α)) := List.Pairwise.nil

theorem mem_insert {key : String} {value : α} {entries : List (String × α)} {e : String × α}
    (h : e ∈ insert key value entries) : e = (key, value) ∨ e ∈ entries := by
  induction entries with
  | nil => simpa [insert] using h
  | cons a rest ih =>
    obtain ⟨k, v⟩ := a
    simp only [insert] at h
    split at h
    · simpa using h
    · split at h
      · rcases List.mem_cons.1 h with h | h
        · exact .inr (List.mem_cons.2 (.inl h))
        · rcases ih h with h | h
          · exact .inl h
          · exact .inr (List.mem_cons.2 (.inr h))
      · rcases List.mem_cons.1 h with h | h
        · exact .inl h
        · exact .inr (List.mem_cons.2 (.inr h))

theorem Ordered.insert {entries : List (String × α)} (h : Ordered entries) (key : String)
    (value : α) : Ordered (insert key value entries) := by
  induction entries with
  | nil => exact List.pairwise_singleton _ _
  | cons a rest ih =>
    obtain ⟨k, v⟩ := a
    have hall := (List.pairwise_cons.1 h).1
    have hrest := (List.pairwise_cons.1 h).2
    simp only [Keyed.insert]
    split
    · next hlt =>
      refine List.pairwise_cons.2 ⟨fun e he => ?_, h⟩
      rcases List.mem_cons.1 he with rfl | he
      · exact hlt
      · exact String.lt_trans hlt (hall e he)
    · next hnlt =>
      split
      · next hlt =>
        refine List.pairwise_cons.2 ⟨fun e he => ?_, ih hrest⟩
        rcases mem_insert he with rfl | he
        · exact hlt
        · exact hall e he
      · next hnlt' =>
        have hk : key = k := eq_of_not_lt hnlt hnlt'
        exact List.pairwise_cons.2 ⟨fun e he => hk ▸ hall e he, hrest⟩

theorem ordered_foldl_insert (new entries : List (String × α)) (h : Ordered entries) :
    Ordered (new.foldl (fun acc e => insert e.1 e.2 acc) entries) := by
  induction new generalizing entries with
  | nil => exact h
  | cons e es ih => exact ih _ (h.insert e.1 e.2)

theorem ordered_ofList (entries : List (String × α)) : Ordered (ofList entries) :=
  ordered_foldl_insert entries [] .nil

theorem Ordered.filter {entries : List (String × α)} (h : Ordered entries)
    (keep : String × α → Bool) : Ordered (entries.filter keep) :=
  List.Pairwise.filter keep h

theorem Ordered.erase {entries : List (String × α)} (h : Ordered entries) (key : String) :
    Ordered (erase key entries) :=
  h.filter _

theorem Ordered.mapValues {entries : List (String × α)} (h : Ordered entries)
    (f : String → α → β) : Ordered (entries.map fun e => (e.1, f e.1 e.2)) :=
  List.pairwise_map.2 (h.imp fun hab => hab)

theorem lookup_insert (key k : String) (value : α) (entries : List (String × α)) :
    (insert key value entries).lookup k = if k = key then some value else entries.lookup k := by
  induction entries with
  | nil =>
    by_cases hk : k = key
    · simp [insert, hk]
    · simp [insert, List.lookup_cons, beq_eq_false_iff_ne.2 hk, hk]
  | cons a rest ih =>
    obtain ⟨l, v⟩ := a
    simp only [insert]
    split
    · by_cases hk : k = key
      · simp [hk]
      · simp [List.lookup_cons, beq_eq_false_iff_ne.2 hk, hk]
    · next hnlt =>
      split
      · next hlt =>
        by_cases hl : k = l
        · have hne : k ≠ key := fun h => String.lt_irrefl key (by rwa [← hl, h] at hlt)
          simp [hl, hl ▸ hne]
        · simp [List.lookup_cons, beq_eq_false_iff_ne.2 hl, ih]
      · next hnlt' =>
        have hkl : key = l := eq_of_not_lt hnlt hnlt'
        by_cases hk : k = key
        · simp [hk]
        · have hl : k ≠ l := fun h => hk (h.trans hkl.symm)
          simp [List.lookup_cons, beq_eq_false_iff_ne.2 hk, beq_eq_false_iff_ne.2 hl, hk]

theorem lookup_erase (key k : String) (entries : List (String × α)) :
    (erase key entries).lookup k = if k = key then none else entries.lookup k := by
  induction entries with
  | nil => simp [erase]
  | cons a rest ih =>
    obtain ⟨l, v⟩ := a
    simp only [erase] at ih
    by_cases hl : l = key
    · by_cases hk : k = key
      · simp [erase, hl, hk] at ih ⊢
        simpa using ih
      · have hkl : k ≠ l := fun h => hk (h.trans hl)
        simp [erase, hl, List.lookup_cons, beq_eq_false_iff_ne.2 hk, hk] at ih ⊢
        simpa using ih
    · have hne : (l != key) = true := bne_iff_ne.2 hl
      simp only [erase, List.filter_cons, hne, if_true, List.lookup_cons, ih]
      by_cases hk : k = l
      · have hkey : ¬k = key := fun h => hl (hk.symm.trans h)
        simp [hk, hl]
      · simp [beq_eq_false_iff_ne.2 hk]

end MailTemplate.Keyed
