import MailTemplate.Attribute.Keys
import MailTemplate.Proofs.Keyed

/-!
# Entries, keys and boxes of attribute bags

What a bag holds after entries are set one after the other, and what of it has keys that pass a
test.  Testing keys and setting entries can change places, so that the entries which fail the test
never matter (`Attributes.filterKeys_ofList`, `Attributes.filterKeys_merge`).

Box shorthands are spread over keys of their own, none of which takes a shorthand itself, and bare
numbers under these are lengths.
-/

namespace MailTemplate

namespace Keyed

variable {α : Type}

/-- An entry below all others comes first. -/
lemma insert_of_forall_gt {key : String} {value : α} {entries : List (String × α)}
    (h : ∀ e ∈ entries, key < e.1) : insert key value entries = (key, value) :: entries := by
  cases entries with
  | nil => rfl
  | cons a entries =>
    have hlt : key < a.1 := h a List.mem_cons_self
    rw [insert, if_pos hlt]

/-- Among entries that pass a test of their keys, one that does not is not seen. -/
lemma filter_insert_of_not {keep : String → Bool} {key : String} (hkey : keep key = false)
    (value : α) (entries : List (String × α)) :
    (insert key value entries).filter (fun e => keep e.1) =
      entries.filter fun e => keep e.1 := by
  induction entries with
  | nil => simp [insert, hkey]
  | cons a entries ih =>
    rw [insert]
    split_ifs with hlt hgt
    · simp [List.filter_cons, hkey]
    · rw [List.filter_cons, List.filter_cons, ih]
    · have heq := eq_of_not_lt hlt hgt
      simp [hkey, ← heq]

/-- An entry that passes a test of its key is inserted among those that do. -/
lemma filter_insert {keep : String → Bool} {key : String} (hkey : keep key = true) (value : α)
    {entries : List (String × α)} (h : Ordered entries) :
    (insert key value entries).filter (fun e => keep e.1) =
      insert key value (entries.filter fun e => keep e.1) := by
  have hkept : ∀ v rest, ((key, v) :: rest).filter (fun e : String × α => keep e.1) =
      (key, v) :: rest.filter fun e => keep e.1 := fun v rest => List.filter_cons_of_pos hkey
  induction entries with
  | nil => exact hkept value []
  | cons a entries ih =>
    obtain ⟨k, v⟩ := a
    rw [insert]
    split_ifs with hlt hgt
    · have hbelow : ∀ e ∈ ((k, v) :: entries).filter (fun e => keep e.1), key < e.1 := by
        intro e he
        rcases List.mem_cons.mp (List.mem_of_mem_filter he) with rfl | hmem
        · exact hlt
        · exact String.lt_trans hlt (List.rel_of_pairwise_cons h hmem)
      rw [insert_of_forall_gt hbelow, hkept]
    · rw [List.filter_cons, List.filter_cons, ih h.of_cons]
      split_ifs
      · rw [insert, if_neg hlt, if_pos hgt]
      · rfl
    · obtain rfl := eq_of_not_lt hlt hgt
      rw [hkept, hkept, insert, if_neg hlt, if_neg hlt]

end Keyed

namespace Attributes

/-! ### Entries set one after the other -/

/-- Setting entries inserts them. -/
lemma entries_setAll (bag : Attributes) (new : List (String × AttributeValue)) :
    (bag.setAll new).entries =
      new.foldl (fun acc e => Keyed.insert e.1 e.2 acc) bag.entries := by
  unfold setAll
  induction new generalizing bag with
  | nil => rfl
  | cons e new ih => exact ih (bag.set e.1 e.2)

/-- Entries in the order of their keys make the bag of these entries. -/
lemma entries_ofList {entries : List (String × AttributeValue)} (h : Keyed.Ordered entries) :
    (ofList entries).entries = entries := by
  unfold ofList
  rw [entries_setAll]
  exact Keyed.ofList_of_ordered h

/-- Entries set one list after the other. -/
lemma setAll_append (bag : Attributes) (new more : List (String × AttributeValue)) :
    bag.setAll (new ++ more) = (bag.setAll new).setAll more := by
  unfold setAll
  rw [List.foldl_append]

/-- A bag with more entries set. -/
lemma ofList_append (entries more : List (String × AttributeValue)) :
    ofList (entries ++ more) = (ofList entries).setAll more :=
  setAll_append empty entries more

/-- A bag is made of its entries. -/
lemma ofList_entries (bag : Attributes) : ofList bag.entries = bag :=
  Attributes.ext (entries_ofList bag.ordered)

/-- What the entries of a bag and new ones have, the entries of the bag with these set have. -/
lemma forall_setAll {p : String × AttributeValue → Prop} {bag : Attributes}
    {new : List (String × AttributeValue)} (hbag : ∀ e ∈ bag.entries, p e)
    (hnew : ∀ e ∈ new, p e) : ∀ e ∈ (bag.setAll new).entries, p e := by
  intro e he
  rw [entries_setAll] at he
  rcases Keyed.mem_foldl_insert he with hmem | hmem
  · exact hbag e hmem
  · exact hnew e hmem

/-! ### Keys that pass a test -/

section FilterKeys

variable (keep : String → Bool) (bag : Attributes)

/-- Setting an entry whose key passes the test. -/
lemma filterKeys_set {key : String} (hkey : keep key = true) (value : AttributeValue) :
    (bag.set key value).filterKeys keep = (bag.filterKeys keep).set key value :=
  Attributes.ext (Keyed.filter_insert hkey value bag.ordered)

/-- Setting an entry whose key fails the test. -/
lemma filterKeys_set_of_not {key : String} (hkey : keep key = false) (value : AttributeValue) :
    (bag.set key value).filterKeys keep = bag.filterKeys keep :=
  Attributes.ext (Keyed.filter_insert_of_not hkey value bag.entries)

/-- Setting entries, of which only those matter whose keys pass the test. -/
lemma filterKeys_setAll (new : List (String × AttributeValue)) :
    (bag.setAll new).filterKeys keep =
      (bag.filterKeys keep).setAll (new.filter fun e => keep e.1) := by
  induction new generalizing bag with
  | nil => rfl
  | cons e new ih =>
    have hstep := ih (bag.set e.1 e.2)
    by_cases hkey : keep e.1 = true
    · rw [filterKeys_set keep bag hkey] at hstep
      rw [List.filter_cons, if_pos hkey]
      exact hstep
    · rw [List.filter_cons, if_neg hkey]
      rw [Bool.not_eq_true] at hkey
      rw [filterKeys_set_of_not keep bag hkey] at hstep
      exact hstep

/-- The entries of a list whose keys pass the test. -/
lemma filterKeys_ofList (entries : List (String × AttributeValue)) :
    (ofList entries).filterKeys keep = ofList (entries.filter fun e => keep e.1) :=
  filterKeys_setAll keep empty entries

/-- Both bags together, less the keys that fail the test. -/
lemma filterKeys_merge (upper : Attributes) :
    (bag.merge upper).filterKeys keep = (bag.filterKeys keep).merge (upper.filterKeys keep) :=
  filterKeys_setAll keep bag upper.entries

/-- A key that passes the test has the value that it had before. -/
lemma get?_filterKeys {key : String} (hkey : keep key = true) :
    (bag.filterKeys keep).get? key = bag.get? key := by
  change (bag.entries.filter fun e => keep e.1).lookup key = bag.entries.lookup key
  generalize bag.entries = entries
  induction entries with
  | nil => rfl
  | cons e entries ih =>
    obtain ⟨k, v⟩ := e
    by_cases heq : key = k
    · subst heq
      rw [List.filter_cons, if_pos hkey, List.lookup_cons_self, List.lookup_cons_self]
    · have hne : (key == k) = false := beq_eq_false_iff_ne.mpr heq
      rw [List.filter_cons, List.lookup_cons, hne]
      split_ifs
      · rw [List.lookup_cons, hne]
        exact ih
      · exact ih

/-- A key that fails the test has no value. -/
lemma get?_filterKeys_of_not {key : String} (hkey : keep key = false) :
    (bag.filterKeys keep).get? key = none := by
  refine List.lookup_eq_none_iff.mpr fun e he => ?_
  have hkept : keep e.1 = true := (List.mem_filter.mp he).2
  rw [bne_iff_ne]
  rintro rfl
  rw [hkey] at hkept
  cases hkept

end FilterKeys

/-! ### Look-ups -/

/-- After entries are set, a key has the value of the last entry under it, or its former one. -/
lemma get?_setAll (bag : Attributes) (new : List (String × AttributeValue)) (key : String) :
    (bag.setAll new).get? key = (new.reverse.lookup key).or (bag.get? key) := by
  unfold get?
  rw [entries_setAll]
  exact Keyed.lookup_foldl_insert bag.entries new key

/-- In a bag made of entries, a key has the value of the last entry under it. -/
lemma get?_ofList (entries : List (String × AttributeValue)) (key : String) :
    (ofList entries).get? key = entries.reverse.lookup key := by
  unfold ofList
  rw [get?_setAll, get?_empty, Option.or_none]

/-- A bag has nothing under a key exactly if none of the entries that it is made of has the key. -/
lemma get?_ofList_eq_none {entries : List (String × AttributeValue)} {key : String} :
    (ofList entries).get? key = none ↔ key ∉ entries.map Prod.fst := by
  rw [get?_ofList, List.lookup_eq_none_iff]
  constructor
  · intro h hkey
    obtain ⟨e, he, rfl⟩ := List.mem_map.mp hkey
    exact bne_iff_ne.mp (h e (List.mem_reverse.mpr he)) rfl
  · intro h e he
    rw [bne_iff_ne]
    rintro rfl
    exact h (List.mem_map_of_mem (List.mem_reverse.mp he))

/-- In both bags together, a key has the value of the upper bag, or else that of the lower one. -/
@[simp] lemma get?_merge (lower upper : Attributes) (key : String) :
    (lower.merge upper).get? key = (upper.get? key).or (lower.get? key) := by
  have hupper : upper.entries.reverse.lookup key = upper.get? key := by
    rw [← get?_ofList, ofList_entries]
  unfold merge
  rw [get?_setAll, hupper]

/-- A changed value stays under its key. -/
@[simp] lemma get?_mapValues (bag : Attributes) (f : String → AttributeValue → AttributeValue)
    (key : String) : (bag.mapValues f).get? key = (bag.get? key).map (f key) := by
  change (bag.entries.map fun e => (e.1, f e.1 e.2)).lookup key =
    (bag.entries.lookup key).map (f key)
  induction bag.entries with
  | nil => rfl
  | cons e entries ih =>
    rw [List.map_cons, List.lookup_cons, List.lookup_cons]
    split
    · next heq =>
      rw [beq_iff_eq.mp heq]
      rfl
    · exact ih

/-! ### Bags with the same values -/

/-- Bags are equal if they hold the same values under all keys. -/
lemma ext_get? {a b : Attributes} (h : ∀ key, a.get? key = b.get? key) : a = b := by
  have hmem : ∀ (c : Attributes) (e : String × AttributeValue),
      e ∈ c.entries ↔ c.get? e.1 = some e.2 := by
    intro c e
    refine ⟨fun he => c.ordered.lookup_of_mem he, fun he => ?_⟩
    obtain ⟨before, after, hentries, -⟩ := List.lookup_eq_some_iff.mp he
    rw [hentries]
    exact List.mem_append_right before List.mem_cons_self
  have hnodup : ∀ c : Attributes, c.entries.Nodup := by
    intro c
    refine List.Pairwise.imp ?_ c.ordered
    rintro x _ hlt rfl
    exact String.lt_irrefl x.1 hlt
  have hperm : a.entries.Perm b.entries := by
    rw [List.perm_ext_iff_of_nodup (hnodup a) (hnodup b)]
    intro e
    rw [hmem, hmem, h]
  refine ext (hperm.eq_of_pairwise ?_ a.ordered b.ordered)
  intro x y _ _ hxy hyx
  exact absurd (String.lt_trans hxy hyx) (String.lt_irrefl x.1)

/-- Values set under two keys. -/
lemma set_set_comm (bag : Attributes) {key key' : String} (h : key ≠ key')
    (value value' : AttributeValue) :
    (bag.set key value).set key' value' = (bag.set key' value').set key value := by
  refine ext_get? ?_
  intro k
  simp only [get?_set]
  grind

/-- A value set under one key, and another key erased. -/
lemma set_erase_comm (bag : Attributes) {key key' : String} (h : key ≠ key')
    (value : AttributeValue) :
    (bag.set key value).erase key' = (bag.erase key').set key value := by
  refine ext_get? ?_
  intro k
  simp only [get?_set, get?_erase]
  grind

/-- Two keys erased. -/
lemma erase_erase_comm (bag : Attributes) (key key' : String) :
    (bag.erase key).erase key' = (bag.erase key').erase key := by
  refine ext_get? ?_
  intro k
  simp only [get?_erase]
  grind

end Attributes

/-! ### Boxes -/

/-- The keys of the sides that box shorthands are spread over. -/
def sideKeys : List String :=
  boxKeys.flatMap fun key => [key ++ "Top", key ++ "Right", key ++ "Bottom", key ++ "Left"]

/-- The sides of a box have keys of sides. -/
lemma Sides.mem_sideKeys {α : Type} {sides : Sides α} {key : String} (hkey : key ∈ boxKeys) :
    ∀ e ∈ sides.entries key, e.1 ∈ sideKeys := by
  have hall : ∀ key ∈ boxKeys, ∀ side ∈ ["Top", "Right", "Bottom", "Left"],
      key ++ side ∈ sideKeys := by decide
  have hside := hall key hkey
  unfold Sides.entries
  simp only [List.forall_mem_cons]
  exact ⟨hside "Top" (by decide), hside "Right" (by decide), hside "Bottom" (by decide),
    hside "Left" (by decide), List.forall_mem_nil _⟩

/-- No side has the key of a box shorthand. -/
lemma not_mem_boxKeys_of_sideKeys {key : String} (h : key ∈ sideKeys) : key ∉ boxKeys := by
  have hall : ∀ key ∈ sideKeys, key ∉ boxKeys := by decide
  exact hall key h

/-- Bare numbers under the keys of sides are lengths. -/
lemma isLengthKey_of_sideKeys {key : String} (h : key ∈ sideKeys) : isLengthKey key = true := by
  have hall : ∀ key ∈ sideKeys, isLengthKey key = true := by decide
  exact hall key h

/-- Values under other keys than those of lengths stay as they are. -/
lemma lengthValue_eq_self {key : String} (h : isLengthKey key = false) (v : AttributeValue) :
    lengthValue key v = v := by
  cases v with
  | number x =>
    unfold lengthValue
    simp only [h, Bool.false_eq_true, if_false]
  | bool x => rfl
  | text s => rfl
  | json j => rfl

end MailTemplate
