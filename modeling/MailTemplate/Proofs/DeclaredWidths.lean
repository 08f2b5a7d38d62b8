import Mathlib.Data.List.ReduceOption
import MailTemplate.Proofs.GridWidths

/-!
# Declared widths

`GridWidths` shows that assigned widths share the row, whatever is declared.  Here it is shown which
widths they are.  A row whose declared widths add up, or leave a unit to every undeclared column,
keeps them all in their places, and the undeclared columns share the rest evenly
(`Completes`); a row that leaves too little is split evenly as a whole.

Main result: `assign_completes`.

The boundary between the two is one comparison of the rest with the number of undeclared columns.
Where there is enough, the shares are dealt out along the row, so that the widths of the undeclared
columns, read off in order, are the shares themselves (`openUnits_fill`).
-/

namespace MailTemplate.Grid

/-- Shares in descending order that differ by at most one unit. -/
def Graded (shares : List ℕ) : Prop := shares.Pairwise fun u v => v ≤ u ∧ u ≤ v + 1

/-- The widths of the undeclared columns, in order. -/
def openUnits (declared : List (Option ℕ)) (units : List ℕ) : List ℕ :=
  ((declared.zip units).filter fun p => p.1.isNone).map Prod.snd

/-- The widths keep every declared one in its place, and the undeclared columns share the rest
evenly, the earlier ones never less. -/
structure Completes (declared : List (Option ℕ)) (units : List ℕ) : Prop where
  /-- A declared width stays where it is declared. -/
  kept : ∀ i w : ℕ, declared[i]? = some (some w) → units[i]? = some w
  /-- What the declared widths leave goes to the undeclared columns. -/
  sum_open : (openUnits declared units).sum + (declared.filterMap id).sum = gridUnits
  /-- No undeclared column gets less than a later one, or more than a unit above it. -/
  graded : Graded (openUnits declared units)

/-! ### Even splits -/

/-- An even split is graded: the remainder goes to the first shares. -/
lemma graded_equalSplit (total n : ℕ) : Graded (equalSplit total n) := by
  unfold Graded equalSplit
  rw [List.pairwise_map]
  refine List.pairwise_lt_range.imp ?_
  intro i j hij
  split <;> split <;> omega

/-- Any two of graded shares differ by at most one unit. -/
lemma Graded.le_succ {shares : List ℕ} (h : Graded shares) {u v : ℕ} (hu : u ∈ shares)
    (hv : v ∈ shares) : u ≤ v + 1 := by
  have hsymm : Std.Symm fun u v : ℕ => u ≤ v + 1 ∧ v ≤ u + 1 := ⟨fun _ _ huv => ⟨huv.2, huv.1⟩⟩
  have hpairs : shares.Pairwise fun u v => u ≤ v + 1 ∧ v ≤ u + 1 := by
    refine h.imp ?_
    intro u v huv
    omega
  have hall := hpairs.forall_of_forall (fun _ _ => by omega)
  exact (hall hu hv).1

/-! ### Filled gaps -/

/-- A row without columns leaves none open. -/
@[simp] lemma openUnits_nil (units : List ℕ) : openUnits [] units = [] := rfl

/-- An undeclared column is open. -/
@[simp] lemma openUnits_none_cons (declared : List (Option ℕ)) (u : ℕ) (units : List ℕ) :
    openUnits (none :: declared) (u :: units) = u :: openUnits declared units := rfl

/-- A declared column is not open. -/
@[simp] lemma openUnits_some_cons (w : ℕ) (declared : List (Option ℕ)) (u : ℕ)
    (units : List ℕ) : openUnits (some w :: declared) (u :: units) = openUnits declared units := rfl

/-- The columns of a row are the declared and the undeclared ones. -/
lemma length_filterMap_add_count_none (declared : List (Option ℕ)) :
    (declared.filterMap id).length + declared.count none = declared.length := by
  have hnone : declared.filter (fun w => w == none) = declared.filter Option.isNone :=
    List.filter_congr fun w _ => Option.beq_none
  rw [List.count_eq_length_filter, hnone]
  exact List.length_eq_reduceOption_length_add_filter_none.symm

/-- Filling keeps every declared width in its place. -/
lemma getElem?_fill {declared : List (Option ℕ)} (shares : List ℕ) {i w : ℕ}
    (h : declared[i]? = some (some w)) : (fill declared shares)[i]? = some w := by
  induction declared generalizing shares i with
  | nil => simp at h
  | cons width declared ih =>
    -- the first width stands in front of whatever the others are filled with
    have hcons : ∃ u shares', fill (width :: declared) shares = u :: fill declared shares' ∧
        ∀ w, width = some w → u = w := by
      cases width with
      | some w => exact ⟨w, shares, rfl, fun _ hw => Option.some.inj hw⟩
      | none =>
        cases shares with
        | nil => exact ⟨1, [], rfl, nofun⟩
        | cons share shares => exact ⟨share, shares, rfl, nofun⟩
    obtain ⟨u, shares', hfill, hu⟩ := hcons
    rw [hfill]
    cases i with
    | zero => exact congrArg some (hu w (Option.some.inj h))
    | succ i => exact ih shares' h

/-- Filling deals out the shares in their order. -/
lemma openUnits_fill {declared : List (Option ℕ)} {shares : List ℕ}
    (h : shares.length = declared.count none) :
    openUnits declared (fill declared shares) = shares := by
  induction declared generalizing shares with
  | nil =>
    rw [openUnits_nil]
    exact (List.length_eq_zero_iff.mp h).symm
  | cons width declared ih =>
    cases width with
    | some w =>
      have hrest : shares.length = declared.count none := by simpa using h
      rw [fill, openUnits_some_cons, ih hrest]
    | none =>
      obtain ⟨share, shares, rfl⟩ := List.exists_cons_of_length_pos (l := shares) (by simp [h])
      have hrest : shares.length = declared.count none := by simpa using h
      rw [fill, openUnits_none_cons, ih hrest]

/-! ### Assigned widths -/

/-- The number of undeclared columns is what the assignment compares the rest with. -/
lemma assign_eq (declared : List (Option ℕ)) :
    assign declared =
      if declared.count none = 0 then
        if (declared.filterMap id).sum = gridUnits then declared.filterMap id
        else scale (declared.filterMap id)
      else if gridUnits - (declared.filterMap id).sum < declared.count none then
        equalSplit gridUnits declared.length
      else
        fill declared (equalSplit (gridUnits - (declared.filterMap id).sum)
          (declared.count none)) := by
  have hlength := length_filterMap_add_count_none declared
  have hopen : declared.length - (declared.filterMap id).length = declared.count none := by omega
  unfold assign
  simp only [hopen]

/-- Widths that are all declared are the declared ones, each in its place. -/
lemma getElem?_filterMap_of_declared {declared : List (Option ℕ)} (h : none ∉ declared)
    {i w : ℕ} (hw : declared[i]? = some (some w)) : (declared.filterMap id)[i]? = some w := by
  induction declared generalizing i with
  | nil => simp at hw
  | cons width declared ih =>
    rw [List.mem_cons, not_or] at h
    obtain ⟨v, rfl⟩ := Option.ne_none_iff_exists'.mp (Ne.symm h.1)
    cases i with
    | zero => exact Option.some.inj hw
    | succ i => exact ih h.2 hw

/-- A row without undeclared columns leaves none open. -/
lemma openUnits_of_declared {declared : List (Option ℕ)} (h : none ∉ declared) (units : List ℕ) :
    openUnits declared units = [] := by
  unfold openUnits
  rw [List.map_eq_nil_iff, List.filter_eq_nil_iff]
  rintro ⟨width, u⟩ hmem hopen
  rw [Option.isNone_iff_eq_none] at hopen
  exact h (hopen ▸ (List.of_mem_zip hmem).1)

/-- Declared widths that fill the row are kept. -/
lemma completes_of_declared {declared : List (Option ℕ)} (h : none ∉ declared)
    (hsum : (declared.filterMap id).sum = gridUnits) :
    Completes declared (declared.filterMap id) := by
  refine ⟨fun i w => getElem?_filterMap_of_declared h, ?_, ?_⟩
  · rw [openUnits_of_declared h, List.sum_nil, hsum, Nat.zero_add]
  · rw [openUnits_of_declared h]
    exact List.Pairwise.nil

/-- Declared widths that leave something to undeclared columns are kept, and the rest is shared. -/
lemma completes_fill {declared : List (Option ℕ)} (h : none ∈ declared)
    (hsum : (declared.filterMap id).sum ≤ gridUnits) :
    Completes declared (fill declared
      (equalSplit (gridUnits - (declared.filterMap id).sum) (declared.count none))) := by
  have hopen : 0 < declared.count none := List.count_pos_iff.mpr h
  have hshares : openUnits declared (fill declared _) = _ :=
    openUnits_fill (length_equalSplit (gridUnits - (declared.filterMap id).sum) _)
  refine ⟨fun i w => getElem?_fill _, ?_, ?_⟩
  · rw [hshares, sum_equalSplit hopen]
    omega
  · rw [hshares]
    exact graded_equalSplit _ _

/-- Assigned widths: one to twelve columns whose declared widths are positive get as many widths,
each of at least one unit and together twelve.  If the declared widths fill the row, or leave at
least one unit to each undeclared column, they are kept and the undeclared columns share the rest
evenly, the earlier ones never less; if they leave less, no two columns differ by more than one
unit. -/
theorem assign_completes {declared : List (Option ℕ)}
    (hcount : 1 ≤ declared.length ∧ declared.length ≤ 12)
    (hpos : ∀ w, some w ∈ declared → 1 ≤ w) :
    (assign declared).length = declared.length ∧ (∀ u ∈ assign declared, 1 ≤ u) ∧
      (assign declared).sum = 12 ∧
        ((none ∉ declared ∧ (declared.filterMap id).sum = 12 ∨
            none ∈ declared ∧ (declared.filterMap id).sum + declared.count none ≤ 12) →
          Completes declared (assign declared)) ∧
          (none ∈ declared → 12 < (declared.filterMap id).sum + declared.count none →
            ∀ u ∈ assign declared, ∀ v ∈ assign declared, u ≤ v + 1) := by
  obtain ⟨hlength, hshares⟩ :=
    assign_shares declared (List.length_pos_iff.mp hcount.1) hcount.2 hpos
  refine ⟨hlength, hshares.pos, hshares.sum_eq, ?_, ?_⟩
  · rintro (⟨hall, hsum⟩ | ⟨hopen, hroom⟩)
    · have hfull : (declared.filterMap id).sum = gridUnits := hsum
      rw [assign_eq, if_pos (List.count_eq_zero.mpr hall), if_pos hfull]
      exact completes_of_declared hall hfull
    · have hsome : declared.count none ≠ 0 := (List.count_pos_iff.mpr hopen).ne'
      rw [assign_eq, if_neg hsome, if_neg (by unfold gridUnits; omega)]
      exact completes_fill hopen (by unfold gridUnits; omega)
  · intro hopen hover u hu v hv
    have hsome : declared.count none ≠ 0 := (List.count_pos_iff.mpr hopen).ne'
    rw [assign_eq, if_neg hsome, if_pos (by unfold gridUnits; omega)] at hu hv
    exact (graded_equalSplit _ _).le_succ hu hv

/-- Two declared columns among three undeclared ones. -/
def gaps : List (Option ℕ) := [some 3, none, some 2, none, none]

/-- Three columns share seven units between and behind two declared ones. -/
theorem assign_completes_gaps :
    (1 ≤ gaps.length ∧ gaps.length ≤ 12) ∧ (∀ w, some w ∈ gaps → 1 ≤ w) ∧
      assign gaps = [3, 3, 2, 2, 2] ∧ Completes gaps (assign gaps) := by
  have hcount : 1 ≤ gaps.length ∧ gaps.length ≤ 12 := by decide
  have hpos : ∀ w, some w ∈ gaps → 1 ≤ w := by
    intro w hw
    have hdeclared : w = 3 ∨ w = 2 := by simpa [gaps] using hw
    omega
  obtain ⟨-, -, -, hcompletes, -⟩ := assign_completes hcount hpos
  exact ⟨hcount, hpos, by decide, hcompletes (.inr (by decide))⟩

end MailTemplate.Grid
