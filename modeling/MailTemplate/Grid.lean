import MailTemplate.Document.Width

/-!
# Grid arithmetic

The columns of a row share twelve units.  These functions work on the list of their widths and keep
its sum: they share out a row among columns, move the divider between two columns, and make room
for a column or give away the room of one.
-/

namespace MailTemplate

-- powers and sums are those of the core library, whatever else is imported
attribute [local instance (high)] instPowNat Zero.ofOfNat0

/-- The tuning of edits to columns. -/
structure GridSettings where
  /-- The least width that a moved divider leaves to a column. -/
  minColumnUnits : Nat := 2
  /-- The least width of a column that gives up width for a new one. -/
  donorMinUnits : Nat := 3
  /-- The width of a new column. -/
  newColumnUnits : Nat := 2
  /-- The greatest number of columns that a new column may lead to. -/
  maxColumns : Nat := 4
  deriving DecidableEq, Repr

/-- Why an operation on widths is refused. -/
inductive GridError where
  /-- A percentage that is no usable width. -/
  | percentage (percent : Binary64)
  /-- A number of columns that makes no row. -/
  | columnCount (count : Nat)
  | noSuchColumn (index : Nat)
  | columnLimit (max : Nat)
  | noDonorColumn
  | lastColumn
  /-- Two columns too narrow together for the least width of each. -/
  | belowMinimum (units min : Nat)
  deriving DecidableEq

namespace Grid

/-! ### Sharing out -/

/-- `total` units in `n` shares that differ by at most one, the greater ones first. -/
def equalSplit (total n : Nat) : List Nat :=
  (List.range n).map fun i => total / n + if i < total % n then 1 else 0

/-- The index of the first greatest of the numbers, where `greater a b` says that `a` lies above
`b`. -/
def firstBest (greater : Binary64 → Binary64 → Bool) : List (Nat × Binary64) → Option Nat
  | [] => none
  | (i, x) :: rest => some (go i x rest)
where
  /-- The best of the rest and the best so far. -/
  go (i : Nat) (x : Binary64) : List (Nat × Binary64) → Nat
    | [] => i
    | (j, y) :: rest => if greater y x then go j y rest else go i x rest

/-- How far each width stays behind its exact share, with its index. -/
def deficits (exact : List Binary64) (units : List Nat) : List (Nat × Binary64) :=
  (List.zipWith (fun e u => e - Binary64.ofNat u) exact units).zipIdx.map fun (d, i) => (i, d)

/-- One more unit to the width that is furthest behind, `missing` times. -/
def raise (exact : List Binary64) : (missing : Nat) → List Nat → List Nat
  | 0, units => units
  | missing + 1, units =>
    match firstBest (fun a b => b.lt a) (deficits exact units) with
    | some i => raise exact missing (units.modify i (· + 1))
    | none => units

/-- One unit less to the width that is least behind and wider than one unit, `surplus` times. -/
def lower (exact : List Binary64) : (surplus : Nat) → List Nat → List Nat
  | 0, units => units
  | surplus + 1, units =>
    let wide := (deficits exact units).filter fun (i, _) => 1 < units.getD i 0
    match firstBest (fun a b => a.lt b) wide with
    | some i => lower exact surplus (units.modify i (· - 1))
    | none => units

/-- Widths scaled to twelve units by largest remainders, at least one unit each. -/
def scale (widths : List Nat) : List Nat :=
  let sum := widths.sum
  if sum = 0 then equalSplit gridUnits widths.length
  else
    let exact := widths.map fun w =>
      Binary64.ofNat w * Binary64.ofNat gridUnits / Binary64.ofNat sum
    let units := exact.map fun e => max 1 (e.floor.truncateTo 0 (2 ^ (32 : Nat) - 1)).toNat
    let raised := raise exact (gridUnits - units.sum) units
    lower exact (raised.sum - gridUnits) raised

/-- The declared widths, with the undeclared ones filled from a list of shares. -/
def fill : (declared : List (Option Nat)) → (shares : List Nat) → List Nat
  | [], _ => []
  | some w :: rest, shares => w :: fill rest shares
  | none :: rest, share :: shares => share :: fill rest shares
  | none :: rest, [] => 1 :: fill rest []

/-- The widths of a row's columns from the declared ones.  Undeclared columns share what the others
leave.  When all are declared and do not add up to twelve, they are scaled; when nothing is left for
an undeclared one, the row is split evenly. -/
def assign (declared : List (Option Nat)) : List Nat :=
  let given := declared.filterMap id
  let undeclared := declared.length - given.length
  if undeclared = 0 then if given.sum = gridUnits then given else scale given
  else if gridUnits - given.sum < undeclared then equalSplit gridUnits declared.length
  else fill declared (equalSplit (gridUnits - given.sum) undeclared)

/-- The widths of a new row's columns from percentages. -/
def ofPercentages (percentages : List Binary64) : Except GridError (List Nat) :=
  if percentages.isEmpty || gridUnits < percentages.length then
    .error (.columnCount percentages.length)
  else
    match percentages.find? fun p => !p.isFinite || p.le 0 || hundred.lt p with
    | some p => .error (.percentage p)
    | none =>
      let units := percentages.map percentToUnits
      .ok (if units.sum = gridUnits then units else scale units)

/-! ### Edits -/

/-- The widths of two neighbours after their divider moves so that the left one takes a share of the
whole row.  Together they keep their width, and each keeps the least width. -/
def resizePair (settings : GridSettings) (left right : Nat) (leftPercent : Binary64) :
    Except GridError (Nat × Nat) :=
  let total := left + right
  let min := settings.minColumnUnits
  if !leftPercent.isFinite then .error (.percentage leftPercent)
  else if total < Nat.min 255 (2 * min) then .error (.belowMinimum total min)
  else
    let wanted :=
      (nearestUnits leftPercent).clamp (Binary64.ofNat min) (Binary64.ofNat (total - min))
    .ok (wanted.toByte, total - wanted.toByte)

/-- The index of the last width that can donate to a new column. -/
def donor? (settings : GridSettings) (units : List Nat) : Option Nat :=
  (units.zipIdx.filter fun (u, _) =>
    settings.donorMinUnits ≤ u && settings.newColumnUnits < u).getLast?.map Prod.snd

/-- The widths with a new column at the end, for which the last wide enough column gives width. -/
def addColumn (settings : GridSettings) (units : List Nat) : Except GridError (List Nat) :=
  if settings.maxColumns ≤ units.length then .error (.columnLimit settings.maxColumns)
  else
    match donor? settings units with
    | none => .error .noDonorColumn
    | some i =>
      .ok (units.modify i (· - settings.newColumnUnits) ++ [settings.newColumnUnits])

/-- The widths without one column, whose width is spread evenly over the others; the remainder goes
to the first. -/
def deleteColumn (units : List Nat) (index : Nat) : Except GridError (List Nat) :=
  if units.length ≤ 1 then .error .lastColumn
  else
    match units[index]? with
    | none => .error (.noSuchColumn index)
    | some freed =>
      let others := units.eraseIdx index
      .ok ((others.map (· + freed / others.length)).modify 0 (· + freed % others.length))

end Grid

end MailTemplate
