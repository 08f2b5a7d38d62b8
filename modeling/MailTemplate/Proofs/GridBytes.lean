import MailTemplate.Proofs.GridEdits

/-!
# Widths in bytes

Widths are bytes, and arithmetic on bytes can fault: a sum may overflow, a difference fall below
zero, a divisor be zero, a number not fit into a byte, and the bounds of a clamp stand in the wrong
order.  The functions here carry out the grid arithmetic step by step and give nothing at a fault.

Main statements: on rows that are filled none of them faults, and each gives what the grid
arithmetic on natural numbers gives (`scale?_eq`, `resizePair?_eq`, `addColumn?_eq`,
`deleteColumn?_eq`, `ofPercentages?_eq`).
-/

namespace MailTemplate

/-! ### Arithmetic that can fault -/

namespace Byte

/-- A number as a byte; a fault if it is too great. -/
def ofNat? (n : ℕ) : Option ℕ := if n ≤ 255 then some n else none

/-- The sum of two bytes; a fault if it overflows. -/
def add? (a b : ℕ) : Option ℕ := ofNat? (a + b)

/-- The difference of two bytes; a fault if it falls below zero. -/
def sub? (a b : ℕ) : Option ℕ := if b ≤ a then some (a - b) else none

/-- The quotient of two bytes; a fault if the divisor is zero. -/
def div? (a b : ℕ) : Option ℕ := if b = 0 then none else some (a / b)

/-- The remainder of two bytes; a fault if the divisor is zero. -/
def mod? (a b : ℕ) : Option ℕ := if b = 0 then none else some (a % b)

/-- A number that fits is a byte. -/
lemma ofNat?_of_le {n : ℕ} (h : n ≤ 255) : ofNat? n = some n := if_pos h

/-- A sum that fits does not overflow. -/
lemma add?_of_le {a b : ℕ} (h : a + b ≤ 255) : add? a b = some (a + b) := ofNat?_of_le h

/-- A lesser number can be taken away. -/
lemma sub?_of_le {a b : ℕ} (h : b ≤ a) : sub? a b = some (a - b) := if_pos h

/-- A positive number divides. -/
lemma div?_of_pos {a b : ℕ} (h : 0 < b) : div? a b = some (a / b) := if_neg h.ne'

/-- A positive number leaves a remainder. -/
lemma mod?_of_pos {a b : ℕ} (h : 0 < b) : mod? a b = some (a % b) := if_neg h.ne'

end Byte

/-- A number kept within bounds; a fault if the bounds stand in the wrong order. -/
def Binary64.clamp? (x low high : Binary64) : Option Binary64 :=
  if low.le high then some (x.clamp low high) else none

/-- Bounds that are natural numbers in order make no fault. -/
lemma Binary64.clamp?_ofNat (x : Binary64) {a b : ℕ} (h : a ≤ b) (hb : b < 2 ^ 53) :
    x.clamp? (ofNat a) (ofNat b) = some (x.clamp (ofNat a) (ofNat b)) :=
  if_pos (ofNat_le_ofNat h hb)

/-- The units nearest to a percentage; a fault if the bounds of the grid stand in the wrong
order. -/
def percentToUnits? (percent : Binary64) : Option ℕ :=
  ((nearestUnits percent).clamp? (Binary64.ofNat 1) (Binary64.ofNat gridUnits)).map Binary64.toByte

/-- Reading a percentage makes no fault. -/
lemma percentToUnits?_eq (percent : Binary64) :
    percentToUnits? percent = some (percentToUnits percent) := by
  unfold percentToUnits?
  rw [Binary64.clamp?_ofNat _ (by decide) (by decide)]
  rfl

namespace Grid

/-! ### The grid arithmetic step by step -/

/-- Widths scaled to twelve units. -/
def scale? (widths : List ℕ) : Option (List ℕ) := (scale widths).mapM Byte.ofNat?

/-- The widths of a new row's columns from percentages. -/
def ofPercentages? (percentages : List Binary64) : Option (Except GridError (List ℕ)) :=
  if percentages.isEmpty || gridUnits < percentages.length then
    some (.error (.columnCount percentages.length))
  else
    match percentages.find? fun p => !p.isFinite || p.le 0 || hundred.lt p with
    | some p => some (.error (.percentage p))
    | none => do
      let units ← percentages.mapM percentToUnits?
      if units.sum = gridUnits then return .ok units
      let scaled ← scale? units
      return .ok scaled

/-- The widths of two neighbours after their divider moves. -/
def resizePair? (settings : GridSettings) (left right : ℕ) (leftPercent : Binary64) :
    Option (Except GridError (ℕ × ℕ)) :=
  if !leftPercent.isFinite then some (.error (.percentage leftPercent))
  else do
    let total ← Byte.add? left right
    let min := settings.minColumnUnits
    if total < Nat.min 255 (2 * min) then return .error (.belowMinimum total min)
    let most ← Byte.sub? total min
    let wanted ← (nearestUnits leftPercent).clamp? (Binary64.ofNat min) (Binary64.ofNat most)
    let rest ← Byte.sub? total wanted.toByte
    return .ok (wanted.toByte, rest)

/-- The widths with a new column at the end. -/
def addColumn? (settings : GridSettings) (units : List ℕ) : Option (Except GridError (List ℕ)) :=
  if settings.maxColumns ≤ units.length then some (.error (.columnLimit settings.maxColumns))
  else
    match donor? settings units with
    | none => some (.error .noDonorColumn)
    | some i => do
      let donor ← units[i]?
      let rest ← Byte.sub? donor settings.newColumnUnits
      return .ok (units.set i rest ++ [settings.newColumnUnits])

/-- The widths without one column. -/
def deleteColumn? (units : List ℕ) (index : ℕ) : Option (Except GridError (List ℕ)) :=
  if units.length ≤ 1 then some (.error .lastColumn)
  else
    match units[index]? with
    | none => some (.error (.noSuchColumn index))
    | some freed => do
      let others := units.eraseIdx index
      let count ← Byte.ofNat? others.length
      let share ← Byte.div? freed count
      let rest ← Byte.mod? freed count
      let spread ← others.mapM fun u => Byte.add? u share
      let first ← spread[0]?
      let widest ← Byte.add? first rest
      return .ok (spread.set 0 widest)

/-! ### No faults -/

/-- Changing a width is setting it to its changed value. -/
lemma modify_eq_set {units : List ℕ} {i u : ℕ} (f : ℕ → ℕ) (h : units[i]? = some u) :
    units.modify i f = units.set i (f u) := by
  rw [List.modify_eq_set_getElem?, h]
  rfl

/-- Scaling one to twelve widths makes no fault. -/
lemma scale?_eq {widths : List ℕ} (hne : widths ≠ []) (hlen : widths.length ≤ gridUnits) :
    scale? widths = some (scale widths) := by
  obtain ⟨-, hshares⟩ := scale_shares _ hne hlen
  have hbytes : ∀ u ∈ scale widths, Byte.ofNat? u = some (id u) := fun u hu =>
    Byte.ofNat?_of_le ((hshares.le hu).trans (by decide))
  unfold scale?
  rw [mapM_eq_some hbytes, List.map_id]

/-- Reading percentages makes no fault. -/
lemma ofPercentages?_eq (percentages : List Binary64) :
    ofPercentages? percentages = some (ofPercentages percentages) := by
  unfold ofPercentages? ofPercentages
  split
  · rfl
  · next hcount =>
    simp only [Bool.or_eq_true, List.isEmpty_iff, decide_eq_true_eq, not_or, not_lt] at hcount
    cases hfind : percentages.find? fun p => !p.isFinite || p.le 0 || hundred.lt p with
    | some p => rfl
    | none =>
      have hunits : percentages.mapM percentToUnits? = some (percentages.map percentToUnits) :=
        mapM_eq_some fun p _ => percentToUnits?_eq p
      have hne : percentages.map percentToUnits ≠ [] := by simpa using hcount.1
      have hlen : (percentages.map percentToUnits).length ≤ gridUnits := by
        simpa using hcount.2
      simp only [hunits, Option.bind_eq_bind, Option.bind_some]
      split
      · rfl
      · rw [scale?_eq hne hlen]
        rfl

/-- Moving a divider makes no fault as long as the two columns take less than a byte holds. -/
lemma resizePair?_eq (settings : GridSettings) (left right : ℕ) (leftPercent : Binary64)
    (hsmall : left + right < 255) :
    resizePair? settings left right leftPercent =
      some (resizePair settings left right leftPercent) := by
  unfold resizePair? resizePair
  split
  · rfl
  · next hfinite =>
    rw [Byte.add?_of_le (by omega)]
    simp only [Option.bind_eq_bind, Option.bind_some]
    split
    · rfl
    · next hroom =>
      rw [not_lt] at hroom
      have hmin : 2 * settings.minColumnUnits ≤ left + right := by
        rcases min_le_iff.mp hroom with hle | hle
        · omega
        · exact hle
      have hnan : nearestUnits leftPercent ≠ .nan :=
        nearestUnits_ne_nan (by simpa using hfinite)
      have hmem := Binary64.toByte_clamp_mem hnan
        (a := settings.minColumnUnits) (b := left + right - settings.minColumnUnits)
        (by omega) (by omega)
      have hclamp := Binary64.clamp?_ofNat (nearestUnits leftPercent)
        (a := settings.minColumnUnits) (b := left + right - settings.minColumnUnits)
        (by omega) (by omega)
      rw [Byte.sub?_of_le (by omega), Option.bind_some, hclamp, Option.bind_some,
        Byte.sub?_of_le (by omega)]
      rfl

/-- Adding a column makes no fault, since the donor is wider than the new column. -/
lemma addColumn?_eq (settings : GridSettings) (units : List ℕ) :
    addColumn? settings units = some (addColumn settings units) := by
  unfold addColumn? addColumn
  split
  · rfl
  · cases hdonor : donor? settings units with
    | none => rfl
    | some i =>
      obtain ⟨hi, -, hwide⟩ := donor?_spec hdonor
      have hget : units[i]? = some units[i] := List.getElem?_eq_getElem hi
      have hset := modify_eq_set (· - settings.newColumnUnits) hget
      simp only [hget, hset, Byte.sub?_of_le hwide.le, Option.bind_eq_bind, Option.bind_some]
      rfl

/-- Removing a column of a filled row makes no fault: the row has fewer than twenty-four columns,
and no width exceeds twelve. -/
lemma deleteColumn?_eq {units : List ℕ} (hfilled : Filled units) (index : ℕ) :
    deleteColumn? units index = some (deleteColumn units index) := by
  unfold deleteColumn? deleteColumn
  split
  · rfl
  · next hmany =>
    cases hfreed : units[index]? with
    | none => rfl
    | some freed =>
      have hmem : freed ∈ units := List.mem_of_getElem? hfreed
      have hi : index < units.length := (List.getElem?_eq_some_iff.mp hfreed).1
      have hlen : (units.eraseIdx index).length = units.length - 1 :=
        List.length_eraseIdx_of_lt hi
      have hlt := hfilled.length_lt
      have hle : freed ≤ 12 := hfilled.le hmem
      have hothers : ∀ u ∈ units.eraseIdx index, u ≤ 12 := fun u hu =>
        hfilled.le (List.mem_of_mem_eraseIdx hu)
      simp only
      generalize units.eraseIdx index = others at hlen hothers ⊢
      have hpos : 0 < others.length := by omega
      have hshare : freed / others.length ≤ freed := Nat.div_le_self _ _
      have hrest : freed % others.length ≤ freed := Nat.mod_le _ _
      have hspread : others.mapM (fun u => Byte.add? u (freed / others.length)) =
          some (others.map (· + freed / others.length)) :=
        mapM_eq_some fun u hu => Byte.add?_of_le (by linarith [hothers u hu])
      have hzero : others[0] ≤ 12 := hothers _ (List.getElem_mem hpos)
      have hfirst : (others.map (· + freed / others.length))[0]? =
          some (others[0] + freed / others.length) := by
        rw [List.getElem?_map, List.getElem?_eq_getElem hpos]
        rfl
      have hset := modify_eq_set (· + freed % others.length) hfirst
      have hcount : Byte.ofNat? others.length = some others.length := Byte.ofNat?_of_le (by omega)
      have hwidest : Byte.add? (others[0] + freed / others.length) (freed % others.length) =
          some (others[0] + freed / others.length + freed % others.length) :=
        Byte.add?_of_le (by omega)
      simp only [hcount, Byte.div?_of_pos hpos, Byte.mod?_of_pos hpos, hspread, hfirst, hwidest,
        hset, Option.bind_eq_bind, Option.bind_some]
      rfl

end Grid

end MailTemplate
