import MailTemplate.Document.Basic

/-!
# Fresh ids

An id source numbers the ids that it hands out, one after the other, and skips every number whose id
is taken.  An id is a stem, a hyphen and a number.

Main statements: `reserve` reports whether an id was free (`reserve_fst`), and the id that `next`
returns is free (`next_not_mem`).
-/

namespace MailTemplate

/-- The ids in use, and the last number given out. -/
structure IdSource where
  count : Nat := 0
  taken : List String := []
  deriving Inhabited

namespace IdSource

/-- An id source that knows every id of a document. -/
def ofDocument (d : Document) : IdSource := { taken := d.ids }

/-- An id is in use. -/
def isTaken (ids : IdSource) (id : String) : Bool := ids.taken.contains id

/-- Marks an id as used; true if it was free. -/
def reserve (ids : IdSource) (id : String) : Bool × IdSource :=
  (!ids.isTaken id, { ids with taken := id :: ids.taken })

/-- The id with a stem and a number. -/
def numbered (stem : String) (n : Nat) : String := stem ++ "-" ++ toString n

/-- The first number above `count` whose id is not among the taken ones, in at most `rounds` more
steps. -/
def freeNumber (stem : String) (taken : List String) : (rounds count : Nat) → Nat
  | 0, count => count + 1
  | rounds + 1, count =>
    if taken.contains (numbered stem (count + 1)) then freeNumber stem taken rounds (count + 1)
    else count + 1

/-- The next free id with a stem.  As many rounds as there are taken ids always suffice, since
different numbers make different ids. -/
def next (ids : IdSource) (stem : String) : String × IdSource :=
  let n := freeNumber stem ids.taken ids.taken.length ids.count
  let id := numbered stem n
  (id, { count := n, taken := id :: ids.taken })

/-- The results of making things that need fresh ids from a list, one after the other. -/
def makeAll {α β : Type} (make : α → IdSource → β × IdSource) :
    List α → IdSource → List β × IdSource
  | [], ids => ([], ids)
  | a :: as, ids =>
    let (b, ids) := make a ids
    let (bs, ids) := makeAll make as ids
    (b :: bs, ids)

@[simp] theorem reserve_fst (ids : IdSource) (id : String) :
    (ids.reserve id).1 = !ids.isTaken id := rfl

/-! ### Fresh ids are free -/

theorem numbered_injective {stem : String} {m n : Nat} (h : numbered stem m = numbered stem n) :
    m = n := by
  have chars : (toString m).toList = (toString n).toList := by
    simpa [numbered] using congrArg String.toList h
  have digits : Nat.toDigits 10 m = Nat.toDigits 10 n := by
    simpa only [Nat.toString_eq_repr, Nat.toList_repr] using chars
  simpa using congrArg (fun ds => Nat.ofDigitChars 10 ds 0) digits

theorem lt_freeNumber (stem : String) (taken : List String) (rounds count : Nat) :
    count < freeNumber stem taken rounds count := by
  induction rounds generalizing count with
  | zero => simp [freeNumber]
  | succ rounds ih =>
    rw [freeNumber]
    split
    · exact Nat.lt_trans (Nat.lt_succ_self count) (ih (count + 1))
    · exact Nat.lt_succ_self count

/-- The first free number depends only on which later ids are taken. -/
theorem freeNumber_congr {stem : String} {a b : List String} {count : Nat} (rounds : Nat)
    (h : ∀ n, count < n → (numbered stem n ∈ a ↔ numbered stem n ∈ b)) :
    freeNumber stem a rounds count = freeNumber stem b rounds count := by
  induction rounds generalizing count with
  | zero => rfl
  | succ rounds ih =>
    have later := @ih (count + 1) fun n hn => h n (Nat.lt_of_succ_lt hn)
    simp only [freeNumber, List.contains_iff_mem, h (count + 1) (Nat.lt_succ_self count), later]

theorem numbered_freeNumber_not_mem (stem : String) {taken : List String} {rounds : Nat}
    (h : taken.length ≤ rounds) (count : Nat) :
    numbered stem (freeNumber stem taken rounds count) ∉ taken := by
  induction rounds generalizing taken count with
  | zero => simp [List.length_eq_zero_iff.1 (Nat.le_zero.1 h)]
  | succ rounds ih =>
    rw [freeNumber]
    split
    case isTrue hit =>
      let candidate := numbered stem (count + 1)
      have mem : candidate ∈ taken := List.contains_iff_mem.1 hit
      have other : ∀ n, count + 1 < n → numbered stem n ≠ candidate := fun n hn same =>
        Nat.ne_of_gt hn (numbered_injective same)
      have same : freeNumber stem taken rounds (count + 1) =
          freeNumber stem (taken.erase candidate) rounds (count + 1) :=
        freeNumber_congr rounds fun n hn => (List.mem_erase_of_ne (other n hn)).symm
      have shorter : (taken.erase candidate).length ≤ rounds := by
        rw [List.length_erase_of_mem mem]
        omega
      rw [same]
      intro found
      exact ih shorter (count + 1)
        ((List.mem_erase_of_ne (other _ (lt_freeNumber stem _ rounds (count + 1)))).2 found)
    case isFalse miss => simpa using miss

theorem next_not_mem (ids : IdSource) (stem : String) : (ids.next stem).1 ∉ ids.taken :=
  numbered_freeNumber_not_mem stem (Nat.le_refl _) ids.count

end IdSource

end MailTemplate
