import MailTemplate.Proofs.Edit.Step

/-!
# Handing out fresh ids

`IdSource.Hands ids given ids'` says that a source has handed out certain ids on the way from one
state to the next: no id twice, none that was taken, and the next state has taken them.  One call
hands out one id (`hands_next`), what follows adds to it (`Hands.append`), and making things one
after the other hands out what each of them gets (`hands_makeAll`).

Main statements: the copies of a block, a column and a row have only ids that were handed out
(`hands_copyBlock`, `hands_copyColumn`, `hands_copyRow`), and so has a new empty row
(`hands_emptyRow`).
-/

namespace MailTemplate

namespace IdSource

/-- On the way from one state to another, a source has handed out these ids. -/
structure Hands (ids : IdSource) (given : List String) (ids' : IdSource) : Prop where
  /-- No id is handed out twice. -/
  nodup : given.Nodup
  /-- No id that was taken is handed out. -/
  fresh : ∀ id ∈ given, id ∉ ids.taken
  /-- What is handed out is taken from then on. -/
  taken : ids'.taken.Perm (given ++ ids.taken)

variable {ids ids' ids'' : IdSource} {given given' : List String}

/-- A source that is not asked hands out nothing. -/
lemma Hands.refl (ids : IdSource) : Hands ids [] ids :=
  ⟨List.nodup_nil, fun _ h => absurd h List.not_mem_nil, List.Perm.refl _⟩

/-- One call hands out one id. -/
lemma hands_next (ids : IdSource) (stem : String) :
    Hands ids [(ids.next stem).1] (ids.next stem).2 := by
  refine ⟨List.nodup_singleton _, ?_, List.Perm.refl _⟩
  intro id hid
  rw [List.mem_singleton] at hid
  rw [hid]
  exact next_not_mem ids stem

/-- What is handed out first and what follows are handed out together. -/
lemma Hands.append (h : Hands ids given ids') (h' : Hands ids' given' ids'') :
    Hands ids (given ++ given') ids'' := by
  have hlater : ∀ id ∈ given', id ∉ given ∧ id ∉ ids.taken := by
    intro id hid
    have hnot := h'.fresh id hid
    rw [h.taken.mem_iff, List.mem_append, not_or] at hnot
    exact hnot
  refine ⟨?_, ?_, ?_⟩
  · refine List.Nodup.append h.nodup h'.nodup ?_
    intro id hid hid'
    exact (hlater id hid').1 hid
  · intro id hid
    rcases List.mem_append.mp hid with hid | hid
    · exact h.fresh id hid
    · exact (hlater id hid).2
  · calc ids''.taken
        |>.Perm (given' ++ ids'.taken) := h'.taken
      _ |>.Perm (given' ++ (given ++ ids.taken)) := h.taken.append_left given'
      _ |>.Perm (given ++ given' ++ ids.taken) := by
        rw [← List.append_assoc]
        exact List.perm_append_comm.append_right ids.taken

/-- The order of the ids that are handed out does not matter. -/
lemma Hands.perm (h : Hands ids given ids') (hperm : given.Perm given') :
    Hands ids given' ids' := by
  refine ⟨hperm.nodup_iff.mp h.nodup, fun id hid => h.fresh id (hperm.mem_iff.mpr hid), ?_⟩
  exact h.taken.trans (hperm.append_right ids.taken)

/-- Things made one after the other have handed out ids if each of them has. -/
lemma hands_makeAll {α β : Type} {make : α → IdSource → β × IdSource} {f : β → List String}
    (h : ∀ a ids, Hands ids (f (make a ids).1) (make a ids).2) (items : List α)
    (ids : IdSource) :
    Hands ids ((makeAll make items ids).1.flatMap f) (makeAll make items ids).2 := by
  induction items generalizing ids with
  | nil => exact Hands.refl ids
  | cons a items ih => exact (h a ids).append (ih (make a ids).2)

/-- Things made with fresh ids keep what their making keeps. -/
lemma map_makeAll {α β γ : Type} (make : α → IdSource → β × IdSource) (g : β → γ)
    (g' : α → γ) (h : ∀ a ids, g (make a ids).1 = g' a) (items : List α) (ids : IdSource) :
    (makeAll make items ids).1.map g = items.map g' := by
  induction items generalizing ids with
  | nil => rfl
  | cons a items ih =>
    rw [makeAll, List.map_cons, List.map_cons, h a ids, ih]

/-! ### Copies -/

/-- A copied block has a fresh id. -/
lemma hands_copyBlock (block : Block) (ids : IdSource) :
    Hands ids [(block.copy ids).1.id] (block.copy ids).2 :=
  hands_next ids "block"

/-- A copied column and its blocks have fresh ids. -/
lemma hands_copyColumn (column : Column) (ids : IdSource) :
    Hands ids (column.copy ids).1.ids (column.copy ids).2 := by
  have hblocks := hands_makeAll (f := fun b : Block => [b.id]) hands_copyBlock column.blocks
    (ids.next "column").2
  rw [← List.map_eq_flatMap] at hblocks
  exact (hands_next ids "column").append hblocks

/-- A copied row and all nodes in it have fresh ids. -/
lemma hands_copyRow (row : Row) (ids : IdSource) :
    Hands ids (row.copy ids).1.ids (row.copy ids).2 :=
  (hands_next ids "row").append (hands_makeAll hands_copyColumn row.columns _)

/-! ### New rows -/

/-- A new empty column has a fresh id. -/
lemma hands_emptyColumn (units : ℕ) (ids : IdSource) :
    Hands ids (Edit.emptyColumn units ids).1.ids (Edit.emptyColumn units ids).2 :=
  hands_next ids "column"

/-- A new row of empty columns has fresh ids. -/
lemma hands_emptyRow (d : Document) (units : List ℕ) :
    Hands (ofDocument d) (Edit.emptyRow d units).ids
      ((makeAll Edit.emptyColumn units (ofDocument d)).2.next "row").2 := by
  have hcolumns := hands_makeAll hands_emptyColumn units (ofDocument d)
  have hrow := hands_next (makeAll Edit.emptyColumn units (ofDocument d)).2 "row"
  exact (hcolumns.append hrow).perm List.perm_append_comm

end IdSource

end MailTemplate
