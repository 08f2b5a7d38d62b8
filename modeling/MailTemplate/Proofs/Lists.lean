import Mathlib.Data.List.TakeWhile
import Mathlib.Tactic

/-!
# Lists changed in one place, and runs at their front

What changing, inserting and removing one member of a list does to its members, to a list of values
read off it, and to a computation run over it; and what is cut off a list that starts with a run.
-/

namespace MailTemplate

variable {α β : Type}

/-- What holds of every member before one is changed, and of the changed one, holds of every member
afterwards. -/
lemma forall_mem_modify {p : α → Prop} {f : α → α} {items : List α} {i : ℕ}
    (hall : ∀ a ∈ items, p a) (hf : ∀ a ∈ items[i]?, p (f a)) : ∀ a ∈ items.modify i f, p a := by
  intro a ha
  obtain ⟨j, hj, rfl⟩ := List.mem_iff_getElem.mp ha
  rw [List.getElem_modify]
  have hj' : j < items.length := by simpa using hj
  split
  · next hij =>
    subst hij
    exact hf _ (List.getElem?_eq_getElem hj')
  · exact hall _ (List.getElem_mem hj')

/-- What holds of every member and of a new one holds after it is inserted. -/
lemma forall_mem_insertIdx {p : α → Prop} {items : List α} {i : ℕ} {a : α}
    (hall : ∀ b ∈ items, p b) (ha : p a) : ∀ b ∈ items.insertIdx i a, p b := by
  intro b hb
  rcases le_or_gt i items.length with hi | hi
  · rcases (List.mem_insertIdx hi).mp hb with rfl | hb
    · exact ha
    · exact hall b hb
  · rw [List.insertIdx_of_length_lt hi] at hb
    exact hall b hb

/-- What holds of every member holds of those that are left when one is removed. -/
lemma forall_mem_eraseIdx {p : α → Prop} {items : List α} (i : ℕ) (hall : ∀ b ∈ items, p b) :
    ∀ b ∈ items.eraseIdx i, p b :=
  fun b hb => hall b (List.mem_of_mem_eraseIdx hb)

/-- Every member has its counterpart after one is changed, if the changed one has. -/
lemma exists_mem_modify {R : α → α → Prop} {f : α → α} {items : List α} {i : ℕ}
    (hrefl : ∀ a, R a a) (hi : ∀ a, items[i]? = some a → R a (f a)) :
    ∀ a ∈ items, ∃ b ∈ items.modify i f, R a b := by
  intro a ha
  obtain ⟨j, hj, rfl⟩ := List.mem_iff_getElem.mp ha
  have hj' : j < (items.modify i f).length := by simpa using hj
  refine ⟨(items.modify i f)[j], List.getElem_mem hj', ?_⟩
  rw [List.getElem_modify]
  split
  · next hij =>
    subst hij
    exact hi _ (List.getElem?_eq_getElem hj)
  · exact hrefl _

/-- The members that pass a test are left, in their order, when one that does not is removed. -/
lemma filter_sublist_eraseIdx {p : α → Bool} {items : List α} {i : ℕ} {a : α}
    (h : items[i]? = some a) (ha : p a = false) : (items.filter p).Sublist (items.eraseIdx i) := by
  induction items generalizing i with
  | nil => simp at h
  | cons b items ih =>
    cases i with
    | zero =>
      obtain rfl : b = a := by simpa using h
      simp [ha]
    | succ i =>
      have hrest := ih (i := i) (by simpa using h)
      rw [List.eraseIdx_cons_succ, List.filter_cons]
      split
      · exact hrest.cons_cons b
      · exact hrest.cons b

/-- One member with a given key is left of a list whose keys are distinct. -/
lemma filter_key_eq_singleton [DecidableEq β] {key : α → β} {items : List α} {a : α}
    (hnodup : (items.map key).Nodup) (ha : a ∈ items) :
    (items.filter fun b => key b == key a) = [a] := by
  induction items with
  | nil => cases ha
  | cons b items ih =>
    rw [List.map_cons, List.nodup_cons] at hnodup
    obtain ⟨hnot, hnodup⟩ := hnodup
    rcases List.mem_cons.mp ha with rfl | ha
    · have hnone : (items.filter fun b => key b == key a) = [] := by
        refine List.filter_eq_nil_iff.mpr ?_
        intro b hb heq
        rw [beq_iff_eq] at heq
        exact hnot (heq ▸ List.mem_map_of_mem hb)
      rw [List.filter_cons_of_pos (p := fun b => key b == key a) (beq_self_eq_true _), hnone]
    · have hne : key b ≠ key a := by
        intro heq
        exact hnot (heq ▸ List.mem_map_of_mem ha)
      rw [List.filter_cons_of_neg (by simpa using hne)]
      exact ih hnodup ha

/-- To remove a member of a list whose keys are distinct is to keep the others by their keys. -/
lemma eraseIdx_eq_filter_key [DecidableEq β] {key : α → β} {items : List α} {i : ℕ} {a : α}
    (hnodup : (items.map key).Nodup) (h : items[i]? = some a) :
    items.eraseIdx i = items.filter fun b => key b ≠ key a := by
  induction items generalizing i with
  | nil => simp at h
  | cons b items ih =>
    rw [List.map_cons, List.nodup_cons] at hnodup
    obtain ⟨hnot, hnodup⟩ := hnodup
    cases i with
    | zero =>
      obtain rfl : b = a := by simpa using h
      have hall : (items.filter fun c => key c ≠ key b) = items := by
        refine List.filter_eq_self.mpr ?_
        intro c hc
        rw [decide_eq_true_eq]
        intro heq
        exact hnot (heq ▸ List.mem_map_of_mem hc)
      rw [List.filter_cons_of_neg (by simp), hall]
      rfl
    | succ i =>
      have ha : a ∈ items := List.mem_of_getElem? (by simpa using h)
      have hne : key b ≠ key a := by
        intro heq
        exact hnot (heq ▸ List.mem_map_of_mem ha)
      rw [List.eraseIdx_cons_succ, List.filter_cons_of_pos (by simpa using hne),
        ih hnodup (by simpa using h)]

/-- Values read off a list with one member changed are the former values with the one changed that
was read off that member. -/
lemma map_modify_at {g : α → β} {f : α → α} {k : β → β} {items : List α} {i : ℕ}
    (h : ∀ a, items[i]? = some a → g (f a) = k (g a)) :
    (items.modify i f).map g = (items.map g).modify i k := by
  induction items generalizing i with
  | nil => simp
  | cons a items ih =>
    cases i with
    | zero => simp [h a rfl]
    | succ i => simp [ih fun b hb => h b (by simpa using hb)]

/-- Values read off a list with one member changed are the former values with one changed. -/
lemma map_modify {g : α → β} {f : α → α} {k : β → β} (h : ∀ a, g (f a) = k (g a))
    (items : List α) (i : ℕ) : (items.modify i f).map g = (items.map g).modify i k :=
  map_modify_at fun a _ => h a

/-- The members of a list with one changed, each with its place. -/
lemma zipIdx_modify (f : α → α) (items : List α) (i start : ℕ) :
    (items.modify i f).zipIdx start =
      (items.zipIdx start).modify i fun e => (f e.1, e.2) := by
  induction items generalizing i start with
  | nil => simp
  | cons a items ih =>
    cases i with
    | zero => simp
    | succ i => simp [ih]

/-- Values that a change of one member does not touch stay the same. -/
lemma map_modify_of_eq {g : α → β} {f : α → α} (h : ∀ a, g (f a) = g a) (items : List α)
    (i : ℕ) : (items.modify i f).map g = items.map g := by
  rw [map_modify (k := id) h, List.modify_id]

/-- A list is one of its members and the others, up to order. -/
lemma perm_cons_eraseIdx {items : List α} {i : ℕ} {a : α} (h : items[i]? = some a) :
    items.Perm (a :: items.eraseIdx i) := by
  obtain ⟨hi, rfl⟩ := List.getElem?_eq_some_iff.mp h
  exact (List.getElem_cons_eraseIdx_perm hi).symm

/-- A list with one member changed is the changed member and the others, up to order. -/
lemma perm_cons_modify {items : List α} {i : ℕ} {a : α} (h : items[i]? = some a) (f : α → α) :
    (items.modify i f).Perm (f a :: items.eraseIdx i) := by
  induction items generalizing i with
  | nil => simp at h
  | cons b items ih =>
    cases i with
    | zero =>
      obtain rfl : b = a := by simpa using h
      simp
    | succ i =>
      have hrest := (ih (i := i) (by simpa using h)).cons b
      rw [List.modify_succ_cons, List.eraseIdx_cons_succ]
      exact hrest.trans (List.Perm.swap _ _ _)

/-- A list is one of its members between those before it and those behind it, and a change of that
member leaves these. -/
lemma exists_split_modify {items : List α} {i : ℕ} {a : α} (h : items[i]? = some a) :
    ∃ before after, items = before ++ a :: after ∧ before.length = i ∧
      ∀ f, items.modify i f = before ++ f a :: after := by
  obtain ⟨hi, rfl⟩ := List.getElem?_eq_some_iff.mp h
  refine ⟨items.take i, items.drop (i + 1), ?_, List.length_take_of_le hi.le, fun f => ?_⟩
  · rw [List.getElem_cons_drop, List.take_append_drop]
  · exact List.modify_eq_take_cons_drop hi

/-- A change of the member behind the front of a list leaves the front and the rest. -/
lemma modify_length_append (f : α → α) (before after : List α) (a : α) :
    (before ++ a :: after).modify before.length f = before ++ f a :: after := by
  induction before with
  | nil => rfl
  | cons b before ih => exact congrArg (b :: ·) ih

/-- An item inserted behind the front of a list stands between the front and the rest. -/
lemma insertIdx_length_append (before after : List α) (a : α) :
    (before ++ after).insertIdx before.length a = before ++ a :: after := by
  induction before with
  | nil => rfl
  | cons b before ih => exact congrArg (b :: ·) ih

/-- An item inserted into a list stands between a front of the list and the rest. -/
lemma exists_insertIdx_eq {items : List α} {index : ℕ} (h : index ≤ items.length) :
    ∃ before after, items = before ++ after ∧ before.length = index ∧
      ∀ item, items.insertIdx index item = before ++ item :: after := by
  have hlength := List.length_take_of_le h
  refine ⟨items.take index, items.drop index, (List.take_append_drop _ _).symm, hlength, ?_⟩
  intro item
  have hinsert := insertIdx_length_append (items.take index) (items.drop index) item
  rwa [List.take_append_drop, hlength] at hinsert

/-- An item inserted behind a member stands between that member and the rest. -/
lemma insertIdx_succ_length_append (before after : List α) (a b : α) :
    (before ++ a :: after).insertIdx (before.length + 1) b = before ++ a :: b :: after := by
  have hfront : before.length + 1 = (before ++ [a]).length := by simp
  rw [hfront, List.append_cons before a after, insertIdx_length_append, List.append_assoc]
  rfl

/-- An inserted item that does not pass a test makes no difference to what passes it. -/
lemma filter_insertIdx_of_neg {p : α → Bool} {a : α} (h : ¬p a = true) (items : List α) (i : ℕ) :
    (items.insertIdx i a).filter p = items.filter p := by
  induction items generalizing i with
  | nil =>
    cases i with
    | zero => exact List.filter_cons_of_neg h
    | succ i => rfl
  | cons b items ih =>
    cases i with
    | zero => exact List.filter_cons_of_neg h
    | succ i => rw [List.insertIdx_succ_cons, List.filter_cons, List.filter_cons, ih]

/-- A change that leaves every member as it is leaves a list as it is. -/
lemma map_eq_self {f : α → α} {items : List α} (h : ∀ a ∈ items, f a = a) : items.map f = items :=
  (List.map_congr_left h).trans (List.map_id items)

/-- To change the one member that has a key is to change all members, if the change leaves those
without the key as they are. -/
lemma modify_eq_map_of_nodup {keys : α → List β} {items : List α} {i : ℕ} {a : α} {key : β}
    {f g : α → α} (hnodup : (items.flatMap keys).Nodup) (h : items[i]? = some a)
    (hkey : key ∈ keys a) (hat : f a = g a) (hother : ∀ b ∈ items, key ∉ keys b → g b = b) :
    items.modify i f = items.map g := by
  obtain ⟨before, after, rfl, -, hmodify⟩ := exists_split_modify h
  rw [List.flatMap_append, List.flatMap_cons, List.nodup_append'] at hnodup
  obtain ⟨-, htail, hbefore⟩ := hnodup
  have hbefore' : before.map g = before := by
    refine map_eq_self ?_
    intro b hb
    refine hother b (List.mem_append_left _ hb) ?_
    intro hmem
    exact hbefore (List.mem_flatMap.mpr ⟨b, hb, hmem⟩) (List.mem_append_left _ hkey)
  have hafter : after.map g = after := by
    refine map_eq_self ?_
    intro b hb
    refine hother b (List.mem_append_right _ (List.mem_cons_of_mem a hb)) ?_
    intro hmem
    exact (List.disjoint_of_nodup_append htail) hkey (List.mem_flatMap.mpr ⟨b, hb, hmem⟩)
  rw [hmodify, List.map_append, List.map_cons, hbefore', hafter, hat]

/-- What a test of all members says holds of every member. -/
lemma forall_mem_of_all {p : α → Prop} [DecidablePred p] {items : List α}
    (h : (items.all fun a => p a) = true) : ∀ a ∈ items, p a := by
  intro a ha
  exact of_decide_eq_true (List.all_eq_true.mp h a ha)

/-- To change or leave out each member of a list whose keys are distinct is to do so with one, if
all members with other keys stay. -/
lemma filterMap_of_key {key : α → β} {f : α → Option α} {before after : List α} {a : α}
    (hnodup : ((before ++ a :: after).map key).Nodup) (hother : ∀ b, key b ≠ key a → f b = some b) :
    (before ++ a :: after).filterMap f = before ++ ((f a).toList ++ after) := by
  rw [List.map_append, List.map_cons, List.nodup_middle, List.nodup_cons, List.mem_append,
    not_or] at hnodup
  obtain ⟨⟨hbefore, hafter⟩, -⟩ := hnodup
  have hstay : ∀ items : List α, key a ∉ items.map key → items.filterMap f = items := by
    intro items hnot
    refine (List.filterMap_congr fun b hb => hother b ?_).trans List.filterMap_some
    intro heq
    exact hnot (heq ▸ List.mem_map_of_mem hb)
  rw [List.filterMap_append, hstay before hbefore, List.filterMap_cons]
  cases f a with
  | none => rw [hstay after hafter]; rfl
  | some b => rw [hstay after hafter]; rfl

/-- A member of a list that is related to another is related to a member of that. -/
lemma exists_mem_of_forall₂ {R : α → β → Prop} {items : List α} {others : List β}
    (h : List.Forall₂ R items others) {a : α} (ha : a ∈ items) : ∃ b ∈ others, R a b := by
  induction h with
  | nil => cases ha
  | cons hfirst _ ih =>
    rcases List.mem_cons.mp ha with rfl | hmore
    · exact ⟨_, List.mem_cons_self, hfirst⟩
    · obtain ⟨b, hb, hab⟩ := ih hmore
      exact ⟨b, List.mem_cons_of_mem _ hb, hab⟩

/-- Members that each have a counterpart have a list of counterparts. -/
lemma exists_forall₂ {R : α → β → Prop} {items : List α} (h : ∀ a ∈ items, ∃ b, R a b) :
    ∃ others, List.Forall₂ R items others := by
  induction items with
  | nil => exact ⟨[], List.Forall₂.nil⟩
  | cons a items ih =>
    obtain ⟨b, hb⟩ := h a List.mem_cons_self
    obtain ⟨others, hothers⟩ := ih fun c hc => h c (List.mem_cons_of_mem a hc)
    exact ⟨b :: others, List.Forall₂.cons hb hothers⟩

/-! ### Functions that may fail -/

/-- What is made of a list is made of its members one by one. -/
lemma mapM_eq_some_iff {f : α → Option β} {items : List α} {made : List β} :
    items.mapM f = some made ↔ List.Forall₂ (fun a b => f a = some b) items made := by
  induction items generalizing made with
  | nil =>
    rw [List.mapM_nil, List.forall₂_nil_left_iff]
    exact ⟨fun h => (Option.some.inj h).symm, fun h => congrArg some h.symm⟩
  | cons a items ih =>
    rw [List.mapM_cons, List.forall₂_cons_left_iff]
    constructor
    · intro h
      obtain ⟨b, hb, hrest⟩ := Option.bind_eq_some_iff.mp h
      obtain ⟨bs, hbs, heq⟩ := Option.bind_eq_some_iff.mp hrest
      exact ⟨b, bs, hb, ih.mp hbs, (Option.some.inj heq).symm⟩
    · rintro ⟨b, bs, hb, hbs, rfl⟩
      rw [hb, ih.mpr hbs]
      rfl

/-- Functions that agree on the members of a list agree on the list. -/
lemma mapM_congr {f g : α → Option β} {items : List α} (h : ∀ a ∈ items, f a = g a) :
    items.mapM f = items.mapM g := by
  induction items with
  | nil => rfl
  | cons a items ih =>
    rw [List.mapM_cons, List.mapM_cons, h a List.mem_cons_self,
      ih fun b hb => h b (List.mem_cons_of_mem a hb)]

/-- A function that never fails on a list gives the values of all its members. -/
lemma mapM_eq_some {f : α → Option β} {g : α → β} {items : List α}
    (h : ∀ a ∈ items, f a = some (g a)) : items.mapM f = some (items.map g) :=
  mapM_eq_some_iff.mpr (List.forall₂_map_right_iff.mpr (List.forall₂_same.mpr h))

/-- What is made of the members is changed afterwards as well in the list of all. -/
lemma mapM_map_eq {γ : Type} {f : α → Option β} {g : β → γ} (items : List α) :
    (items.mapM fun a => (f a).map g) = (items.mapM f).map (List.map g) := by
  induction items with
  | nil => rfl
  | cons a items ih =>
    rw [List.mapM_cons, List.mapM_cons, ih]
    cases f a with
    | none => rfl
    | some b =>
      cases items.mapM f with
      | none => rfl
      | some bs => rfl

/-- A function that does not fail on a list does not fail on its members. -/
lemma exists_of_mapM {f : α → Option β} {items : List α} {found : List β}
    (h : items.mapM f = some found) : ∀ a ∈ items, ∃ b, f a = some b := by
  intro a ha
  obtain ⟨b, -, hb⟩ := exists_mem_of_forall₂ (mapM_eq_some_iff.mp h) ha
  exact ⟨b, hb⟩

/-- What a relation says of values read off the members, it says of the lists of these values. -/
lemma map_eq_map_of_forall₂ {γ : Type} {g : β → γ} {k : α → γ} {items : List α} {others : List β}
    (h : List.Forall₂ (fun a b => g b = k a) items others) : others.map g = items.map k := by
  rw [eq_comm, ← List.forall₂_eq_eq_eq, List.forall₂_map_left_iff, List.forall₂_map_right_iff]
  exact h.imp fun _ _ => Eq.symm

/-- What a function keeps of each member, it keeps of a list. -/
lemma map_eq_of_mapM {γ : Type} {f : α → Option β} {g : β → γ} {k : α → γ}
    (h : ∀ a b, f a = some b → g b = k a) {items : List α} {found : List β}
    (hfound : items.mapM f = some found) : found.map g = items.map k :=
  map_eq_map_of_forall₂ ((mapM_eq_some_iff.mp hfound).imp h)

/-- What each member becomes, and how it is related to that, holds of all of them together. -/
lemma exists_mapM {f : α → Option β} {R : α → β → Prop} {items : List α}
    (h : ∀ a ∈ items, ∃ b, f a = some b ∧ R a b) :
    ∃ bs, items.mapM f = some bs ∧ List.Forall₂ R items bs := by
  obtain ⟨bs, hbs⟩ := exists_forall₂ h
  exact ⟨bs, mapM_eq_some_iff.mpr (hbs.imp fun _ _ => And.left), hbs.imp fun _ _ => And.right⟩

/-- What members become, with some of it kept, all of them become. -/
lemma exists_mapM_keeping {γ : Type} {f : α → Option β} {g : β → γ} {k : α → γ} {items : List α}
    (h : ∀ a ∈ items, ∃ b, f a = some b ∧ g b = k a) :
    ∃ bs, items.mapM f = some bs ∧ bs.map g = items.map k := by
  obtain ⟨bs, hbs, hkept⟩ := exists_mapM h
  exact ⟨bs, hbs, map_eq_map_of_forall₂ hkept⟩

/-- What is made of members in two ways, one of them from the other, is made so of all of them. -/
lemma exists_mapM_both {γ : Type} {f : α → Option β} {g : α → Option γ} {k : β → γ}
    {items : List α} (h : ∀ a ∈ items, ∃ b, f a = some b ∧ g a = some (k b)) :
    ∃ bs, items.mapM f = some bs ∧ items.mapM g = some (bs.map k) := by
  obtain ⟨bs, hbs, hboth⟩ := exists_mapM h
  exact ⟨bs, hbs, mapM_eq_some_iff.mpr (List.forall₂_map_right_iff.mpr hboth)⟩

/-! ### Runs -/

/-- A run ends at the first member that does not belong to it. -/
lemma takeWhile_run {p : α → Bool} {run rest : List α} {a : α} (h : ∀ b ∈ run, p b = true)
    (ha : p a = false) : (run ++ a :: rest).takeWhile p = run := by
  rw [List.takeWhile_append_of_pos h, List.takeWhile_cons_of_neg (by simp [ha]), List.append_nil]

/-- After a run comes the first member that does not belong to it. -/
lemma dropWhile_run {p : α → Bool} {run rest : List α} {a : α} (h : ∀ b ∈ run, p b = true)
    (ha : p a = false) : (run ++ a :: rest).dropWhile p = a :: rest := by
  rw [List.dropWhile_append_of_pos h, List.dropWhile_cons_of_neg (by simp [ha])]

/-- A run that ends before the end of a text ends there before any other text. -/
lemma takeWhile_append_of_mem {p : α → Bool} {items : List α} {a : α} (ha : a ∈ items)
    (hp : p a = false) (more : List α) : (items ++ more).takeWhile p = items.takeWhile p := by
  induction items with
  | nil => cases ha
  | cons b items ih =>
    rw [List.cons_append, List.takeWhile_cons, List.takeWhile_cons]
    rcases List.mem_cons.mp ha with rfl | hmore
    · rw [hp]
      rfl
    · rw [ih hmore]

end MailTemplate
