import Mathlib.Data.Finset.Card
import Mathlib.Order.Interval.Finset.Nat
import Mathlib.Tactic
import MailTemplate.Document.IdSource
import MailTemplate.Proofs.Lists

/-!
# Calls of an id source

A source is new or knows the ids of a document, and then answers calls: it reserves an id, or hands
out the next one with a stem.  After any calls its used ids are those that it knew and those that
were reserved or handed out (`used_makeAll_answer`).

The next id is found by a search that tries one number after the other and has no bound of its own:
`Search stem used count rounds n` says that it ends at `n` in so many rounds.  Every round but the
last meets a used id, and different numbers make different ids, so there is at most one round more
than there are used ids (`Search.rounds_le`).

A number that was passed is never tried again, whatever the stem, since an id has one number only
(`number_unique`).  So the rounds of all calls together are at most the ids that the source knew and
one for each call (`within_answer`), which bounds the numbers that it gives out.

Main result: `IdSource.calls_answered`.
-/

namespace MailTemplate.IdSource

/-- The ids in use, as a set. -/
def used (ids : IdSource) : Finset String := ids.taken.toFinset

variable {ids : IdSource} {stem : String} {used : Finset String} {count rounds n : ℕ}

/-- An id is in use if it is one of the used ids. -/
lemma isTaken_iff (ids : IdSource) (id : String) : ids.isTaken id = true ↔ id ∈ ids.used := by
  rw [isTaken, List.contains_iff_mem, IdSource.used, List.mem_toFinset]

/-- A reserved id is used. -/
lemma used_reserve (ids : IdSource) (id : String) :
    (ids.reserve id).2.used = insert id ids.used := List.toFinset_cons

/-- An id that was handed out is used. -/
lemma used_next (ids : IdSource) (stem : String) :
    (ids.next stem).2.used = insert (ids.next stem).1 ids.used := List.toFinset_cons

/-- Reserving gives out no number. -/
lemma count_reserve (ids : IdSource) (id : String) : (ids.reserve id).2.count = ids.count := rfl

/-- The id that is handed out has the number that the source then stands at. -/
lemma next_fst (ids : IdSource) (stem : String) :
    (ids.next stem).1 = numbered stem (ids.next stem).2.count := rfl

/-- The id that is handed out was not used. -/
lemma next_notMem_used (ids : IdSource) (stem : String) : (ids.next stem).1 ∉ ids.used := by
  rw [IdSource.used, List.mem_toFinset]
  exact next_not_mem ids stem

/-! ### The search -/

/-- A search for an unused id tries the number after `count` and goes on from there as long as the
id is used.  It ends at `n` in so many rounds. -/
inductive Search (stem : String) (used : Finset String) : (count rounds n : ℕ) → Prop
  | unused {count : ℕ} (h : numbered stem (count + 1) ∉ used) :
    Search stem used count 1 (count + 1)
  | used {count rounds n : ℕ} (h : numbered stem (count + 1) ∈ used)
    (rest : Search stem used (count + 1) rounds n) : Search stem used count (rounds + 1) n

/-- Every round goes on by one number. -/
lemma Search.eq_add (h : Search stem used count rounds n) : n = count + rounds := by
  induction h with
  | unused => rfl
  | used _ _ ih => omega

/-- The ids of all numbers before the end are used. -/
lemma Search.mem_of_lt (h : Search stem used count rounds n) {k : ℕ} (hcount : count < k)
    (hn : k < n) : numbered stem k ∈ used := by
  induction h with
  | unused => omega
  | used hfirst _ ih =>
    rcases Nat.eq_or_lt_of_le hcount with rfl | hlater
    · exact hfirst
    · exact ih hlater hn

/-- The ids that a search passes. -/
def passed (stem : String) (count n : ℕ) : Finset String :=
  (Finset.Ioo count n).image (numbered stem)

/-- An id is passed if its number is in between. -/
lemma mem_passed {id : String} :
    id ∈ passed stem count n ↔ ∃ k, (count < k ∧ k < n) ∧ numbered stem k = id := by
  simp only [passed, Finset.mem_image, Finset.mem_Ioo]

/-- A search passes an id in every round but the last. -/
lemma Search.card_passed (h : Search stem used count rounds n) :
    (passed stem count n).card + 1 = rounds := by
  have hend := h.eq_add
  have hpos : 0 < rounds := by cases h <;> exact Nat.succ_pos _
  rw [passed, Finset.card_image_of_injective _ fun _ _ => numbered_injective, Nat.card_Ioo]
  omega

/-- The passed ids are among any that have the used ones with a number from there on. -/
lemma Search.passed_subset (h : Search stem used count rounds n) {ahead : Finset String}
    (hahead : ∀ k, count < k → numbered stem k ∈ used → numbered stem k ∈ ahead) :
    passed stem count n ⊆ ahead := by
  intro id hid
  obtain ⟨k, ⟨hcount, hn⟩, rfl⟩ := mem_passed.mp hid
  exact hahead k hcount (h.mem_of_lt hcount hn)

/-- A search takes at most one round more than there are used ids. -/
lemma Search.rounds_le (h : Search stem used count rounds n) : rounds ≤ used.card + 1 := by
  have hpassed : passed stem count n ⊆ used := h.passed_subset fun _ _ hmem => hmem
  rw [← h.card_passed]
  exact Nat.succ_le_succ (Finset.card_le_card hpassed)

/-- If the number that is found in a bounded search is unused, it is where the search ends. -/
lemma search_freeNumber {taken : List String} (bound count : ℕ)
    (h : numbered stem (freeNumber stem taken bound count) ∉ taken) :
    ∃ rounds, Search stem taken.toFinset count rounds (freeNumber stem taken bound count) := by
  induction bound generalizing count with
  | zero => exact ⟨1, .unused (by rwa [List.mem_toFinset])⟩
  | succ bound ih =>
    rw [freeNumber] at h ⊢
    split at h
    case isTrue hused =>
      obtain ⟨rounds, hrest⟩ := ih (count + 1) h
      rw [if_pos hused]
      exact ⟨rounds + 1, .used (List.mem_toFinset.mpr (List.contains_iff_mem.mp hused)) hrest⟩
    case isFalse hunused =>
      rw [if_neg hunused]
      exact ⟨1, .unused (by rwa [List.mem_toFinset])⟩

/-- The next id is found by a search from the number that the source stands at. -/
lemma search_next (ids : IdSource) (stem : String) :
    ∃ rounds, Search stem ids.used ids.count rounds (ids.next stem).2.count :=
  search_freeNumber ids.taken.length ids.count (next_not_mem ids stem)

/-! ### Numbers of ids -/

/-- The digits at the end of an id are those of its number. -/
lemma digits_numbered (stem : String) (n : ℕ) :
    (numbered stem n).toList.reverse.takeWhile Char.isDigit = (Nat.toDigits 10 n).reverse := by
  have hchars : (numbered stem n).toList.reverse =
      (Nat.toDigits 10 n).reverse ++ '-' :: stem.toList.reverse := by
    simp [numbered, Nat.toString_eq_repr, Nat.toList_repr]
  rw [hchars]
  refine takeWhile_run (fun c hc => ?_) (by decide)
  exact Nat.isDigit_of_mem_toDigits (by decide) (by decide) (List.mem_reverse.mp hc)

/-- An id has one number, also if its stem has hyphens and digits. -/
lemma number_unique {stem stem' : String} {m n : ℕ} (h : numbered stem m = numbered stem' n) :
    m = n := by
  have hdigits : Nat.toDigits 10 m = Nat.toDigits 10 n := by
    rw [← List.reverse_inj, ← digits_numbered stem, ← digits_numbered stem', h]
  simpa using congrArg (fun ds => Nat.ofDigitChars 10 ds 0) hdigits

/-! ### Calls -/

/-- What a source may be asked for. -/
inductive Call where
  | reserve (id : String)
  | next (stem : String)
  deriving Repr, DecidableEq

/-- A call that was answered: an id was reserved and had been free or not, or one was handed out. -/
inductive Event where
  | reserved (id : String) (free : Bool)
  | handedOut (stem id : String)
  deriving Repr, DecidableEq

/-- The id that was reserved or handed out. -/
def Event.id : Event → String
  | .reserved id _ => id
  | .handedOut _ id => id

/-- Answers a call. -/
def answer : Call → IdSource → Event × IdSource
  | .reserve id, ids => (.reserved id (ids.reserve id).1, (ids.reserve id).2)
  | .next stem, ids => (.handedOut stem (ids.next stem).1, (ids.next stem).2)

/-- A call adds its id to the used ones. -/
lemma used_answer (call : Call) (ids : IdSource) :
    (answer call ids).2.used = insert (answer call ids).1.id ids.used := by
  cases call with
  | reserve id => exact used_reserve ids id
  | next stem => exact used_next ids stem

/-- After calls one after the other the ids of all of them are used. -/
lemma used_makeAll_answer (calls : List Call) (ids : IdSource) :
    (makeAll answer calls ids).2.used =
      ids.used ∪ ((makeAll answer calls ids).1.map Event.id).toFinset := by
  induction calls generalizing ids with
  | nil => simp [makeAll]
  | cons call calls ih =>
    calc (makeAll answer (call :: calls) ids).2.used
        = (makeAll answer calls (answer call ids).2).2.used := rfl
      _ = insert (answer call ids).1.id ids.used ∪
          ((makeAll answer calls (answer call ids).2).1.map Event.id).toFinset := by
        rw [ih, used_answer]
      _ = ids.used ∪ ((makeAll answer (call :: calls) ids).1.map Event.id).toFinset := by
        rw [makeAll, List.map_cons, List.toFinset_cons, Finset.union_insert, Finset.insert_union]

/-! ### Numbers of a whole run -/

/-- The number that a source stands at, and the used ids that it may still have to pass, are within
a bound. -/
def Within (ids : IdSource) (bound : ℕ) : Prop :=
  ∃ ahead : Finset String, ids.count + ahead.card ≤ bound ∧
    ∀ stem n, ids.count < n → numbered stem n ∈ ids.used → numbered stem n ∈ ahead

/-- A source stands within the bound. -/
lemma Within.count_le {bound : ℕ} (h : Within ids bound) : ids.count ≤ bound := by
  obtain ⟨ahead, hbound, -⟩ := h
  omega

/-- A reserved id adds one to the bound. -/
lemma Within.reserve {bound : ℕ} (h : Within ids bound) (id : String) :
    Within (ids.reserve id).2 (bound + 1) := by
  obtain ⟨ahead, hbound, hahead⟩ := h
  refine ⟨insert id ahead, ?_, ?_⟩
  · have hcard := Finset.card_insert_le id ahead
    rw [count_reserve]
    omega
  · intro stem n hn hmem
    rw [used_reserve] at hmem
    rcases Finset.mem_insert.mp hmem with hsame | hmem
    · exact Finset.mem_insert.mpr (.inl hsame)
    · exact Finset.mem_insert_of_mem (hahead stem n hn hmem)

/-- An id that is handed out adds one to the bound: the other rounds of its search are paid for by
the ids that it passes. -/
lemma Within.next {bound : ℕ} (h : Within ids bound) (stem : String) :
    Within (ids.next stem).2 (bound + 1) := by
  obtain ⟨ahead, hbound, hahead⟩ := h
  obtain ⟨rounds, hsearch⟩ := search_next ids stem
  have hend := hsearch.eq_add
  have hrounds := hsearch.card_passed
  have hpassed := hsearch.passed_subset (hahead stem)
  refine ⟨ahead \ passed stem ids.count (ids.next stem).2.count, ?_, ?_⟩
  · have hle := Finset.card_le_card hpassed
    rw [Finset.card_sdiff_of_subset hpassed]
    omega
  · intro stem' n hn hmem
    rw [used_next, next_fst] at hmem
    -- A number after the new one is neither that of the new id nor that of a passed one.
    rcases Finset.mem_insert.mp hmem with hsame | hmem
    · exact absurd (number_unique hsame) hn.ne'
    · refine Finset.mem_sdiff.mpr ⟨hahead stem' n (by omega) hmem, ?_⟩
      intro hid
      obtain ⟨k, ⟨-, hk⟩, hsame⟩ := mem_passed.mp hid
      exact absurd (number_unique hsame) (hk.trans hn).ne

/-- Every call adds one to the bound. -/
lemma within_answer {bound : ℕ} (calls : List Call) (h : Within ids bound) :
    Within (makeAll answer calls ids).2 (bound + calls.length) := by
  induction calls generalizing ids bound with
  | nil => exact h
  | cons call calls ih =>
    have hfirst : Within (answer call ids).2 (bound + 1) := by
      cases call with
      | reserve id => exact h.reserve id
      | next stem => exact h.next stem
    rw [List.length_cons, Nat.add_comm calls.length, ← Nat.add_assoc]
    exact ih hfirst

/-! ### Answers -/

/-- A new source, or one that knows the ids of a document. -/
def start : Option Document → IdSource
  | none => {}
  | some d => ofDocument d

/-- A source that stands at zero is within the number of its used ids. -/
lemma within_start (d : Option Document) : Within (start d) (start d).used.card := by
  have hzero : (start d).count = 0 := by cases d <;> rfl
  exact ⟨(start d).used, by omega, fun _ _ _ hmem => hmem⟩

/-- A source answers as one that has used exactly these ids. -/
structure HasUsed (ids : IdSource) (used : Finset String) : Prop where
  /-- It tells which ids are used. -/
  isTaken_iff : ∀ id, ids.isTaken id = true ↔ id ∈ used
  /-- Reserving an id tells whether it was unused, and uses it. -/
  reserve_iff : ∀ id, (ids.reserve id).1 = true ↔ id ∉ used
  used_reserve : ∀ id id', (ids.reserve id).2.isTaken id' = true ↔ id' = id ∨ id' ∈ used
  /-- The search for the next id ends, after at most one round more than there are used ids. -/
  search_next : ∀ stem, ∃ rounds ≤ used.card + 1,
    Search stem used ids.count rounds (ids.next stem).2.count
  /-- The id that is handed out has the number at which the search ends; it was unused, and is used
  from then on. -/
  next_eq : ∀ stem, (ids.next stem).1 = numbered stem (ids.next stem).2.count
  next_notMem : ∀ stem, (ids.next stem).1 ∉ used
  used_next : ∀ stem id', (ids.next stem).2.isTaken id' = true ↔
    id' = (ids.next stem).1 ∨ id' ∈ used

/-- A source answers by its used ids. -/
lemma hasUsed_used (ids : IdSource) : HasUsed ids ids.used := by
  constructor
  case isTaken_iff => exact ids.isTaken_iff
  case reserve_iff =>
    intro id
    rw [reserve_fst, Bool.not_eq_true', ← Bool.not_eq_true, ids.isTaken_iff]
  case used_reserve =>
    intro id id'
    rw [IdSource.isTaken_iff, IdSource.used_reserve, Finset.mem_insert]
  case search_next =>
    intro stem
    obtain ⟨rounds, hsearch⟩ := IdSource.search_next ids stem
    exact ⟨rounds, hsearch.rounds_le, hsearch⟩
  case next_eq => exact ids.next_fst
  case next_notMem => exact ids.next_notMem_used
  case used_next =>
    intro stem id'
    rw [IdSource.isTaken_iff, IdSource.used_next, Finset.mem_insert]

/-- After any calls, a source that was new or knew the ids of a document answers by the ids that it
knew and those that were reserved or handed out.  It never stands at a number above that of the ids
that it knew and the calls together, so a counter that can hold their sum does not overflow. -/
theorem calls_answered (d : Option Document) (calls : List Call) :
    let known := (d.elim [] Document.ids).toFinset
    let events := (makeAll answer calls (start d)).1
    let ids := (makeAll answer calls (start d)).2
    HasUsed ids (known ∪ (events.map Event.id).toFinset) ∧
      ids.count ≤ known.card + calls.length := by
  intro known events ids
  have hknown : (start d).used = known := by cases d <;> rfl
  have hused := used_makeAll_answer calls (start d)
  have hwithin := within_answer calls (within_start d)
  rw [hknown] at hused hwithin
  exact ⟨hused ▸ hasUsed_used ids, hwithin.count_le⟩

/-- A stem may look like an id, and a reserved id may look like one of its numbers. -/
example : (makeAll answer [.next "row", .reserve "row-1-2", .next "row-1"] (start none)).1 =
    [.handedOut "row" "row-1", .reserved "row-1-2" true, .handedOut "row-1" "row-1-3"] := by
  decide

end MailTemplate.IdSource
