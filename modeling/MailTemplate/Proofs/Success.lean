/-!
# Successful computations

A sequence of computations that may fail succeeds exactly when each of them does in turn, and is
refused where the first of them is.  These rules take a success or a refusal apart, and put a
success together, without looking inside the computations.
-/

namespace MailTemplate

variable {ε ε' α β : Type}

/-- After a success comes the rest of a sequence. -/
@[simp] theorem ok_bind (a : α) (f : α → Except ε β) : (Except.ok a >>= f) = f a := rfl

/-- After a refusal comes nothing. -/
theorem throw_bind (e : ε) (f : α → Except ε β) : ((throw e : Except ε α) >>= f) = .error e := rfl

/-- A sequence succeeds exactly when its first part does and the rest does on what that gives. -/
@[simp] theorem bind_eq_ok {x : Except ε α} {f : α → Except ε β} {b : β} :
    (x >>= f) = .ok b ↔ ∃ a, x = .ok a ∧ f a = .ok b := by
  cases x with
  | error e => simp [bind, Except.bind]
  | ok a => simp [bind, Except.bind]

/-- A sequence is refused exactly when its first part is or the rest is on what that gives. -/
theorem bind_eq_error {x : Except ε α} {f : α → Except ε β} {e : ε} :
    (x >>= f) = .error e ↔ x = .error e ∨ ∃ a, x = .ok a ∧ f a = .error e := by
  cases x with
  | error e' => simp [bind, Except.bind]
  | ok a => simp [bind, Except.bind]

/-- A computation is refused exactly when it does not succeed. -/
theorem exists_eq_error_iff {x : Except ε α} : (∃ e, x = .error e) ↔ ¬∃ a, x = .ok a := by
  cases x with
  | error e => simp
  | ok a => simp

/-- A returned value is the only success. -/
@[simp] theorem pure_eq_ok {a b : α} : (pure a : Except ε α) = .ok b ↔ a = b := by
  simp [pure, Except.pure]

/-- A refusal is no success. -/
@[simp] theorem throw_ne_ok {e : ε} {a : α} : (throw e : Except ε α) ≠ .ok a := by
  simp [throw, throwThe, MonadExceptOf.throw]

/-- Renaming an error changes no success. -/
@[simp] theorem mapError_eq_ok {x : Except ε α} {f : ε → ε'} {a : α} :
    x.mapError f = .ok a ↔ x = .ok a := by
  cases x with
  | error e =>
    constructor
    · intro h
      cases h
    · intro h
      cases h
  | ok b =>
    constructor
    · intro h
      exact congrArg Except.ok (Except.ok.inj h)
    · intro h
      exact congrArg Except.ok (Except.ok.inj h)

/-- A sequence has a value if its first part does and the rest does on that. -/
theorem bind_eq_some_of {x : Option α} {f : α → Option β} {a : α} {b : β} (hx : x = some a)
    (hf : f a = some b) : (x >>= f) = some b :=
  Option.bind_eq_some_iff.mpr ⟨a, hx, hf⟩

/-- The value of a sequence comes from the value of its first part. -/
theorem toOption_bind (x : Except ε α) (f : α → Except ε β) :
    (x >>= f).toOption = x.toOption.bind fun a => (f a).toOption := by
  cases x with
  | error e => rfl
  | ok a => rfl

/-- A computation with a value is the success with that value. -/
theorem eq_ok_of_toOption {x : Except ε α} {a : α} (h : x.toOption = some a) : x = .ok a := by
  cases x with
  | error e => cases h
  | ok b => exact congrArg Except.ok (Option.some.inj h)

/-- A computation has the successes that its value has. -/
theorem exists_eq_ok_iff {x : Except ε α} {o : Option α} (h : x.toOption = o) {p : α → Prop} :
    (∃ a, x = .ok a ∧ p a) ↔ ∃ a, o = some a ∧ p a := by
  constructor
  · rintro ⟨a, rfl, ha⟩
    exact ⟨a, h.symm, ha⟩
  · rintro ⟨a, ho, ha⟩
    exact ⟨a, eq_ok_of_toOption (h.trans ho), ha⟩

/-- A computation with a value succeeds. -/
theorem exists_eq_ok_of_isSome {x : Except ε α} (h : x.toOption.isSome = true) :
    ∃ a, x = .ok a := by
  cases x with
  | error e => cases h
  | ok a => exact ⟨a, rfl⟩

/-- A computation whose value passes a test succeeds with a value that does. -/
theorem exists_eq_ok_of_any {x : Except ε α} {p : α → Bool} (h : x.toOption.any p = true) :
    ∃ a, x = .ok a ∧ p a = true := by
  cases x with
  | error e => cases h
  | ok a => exact ⟨a, rfl, h⟩

/-- What the start of a fold has and each of its steps keeps, its result has. -/
theorem foldlM_induction {p : β → Prop} {f : β → α → Except ε β} {items : List α} {b b' : β}
    (h : items.foldlM f b = .ok b') (hb : p b)
    (hstep : ∀ a ∈ items, ∀ b b', p b → f b a = .ok b' → p b') : p b' := by
  induction items generalizing b with
  | nil =>
    rw [List.foldlM_nil, pure_eq_ok] at h
    exact h ▸ hb
  | cons a items ih =>
    rw [List.foldlM_cons, bind_eq_ok] at h
    obtain ⟨next, hnext, h⟩ := h
    exact ih h (hstep a List.mem_cons_self b next hb hnext) fun a' ha' =>
      hstep a' (List.mem_cons_of_mem a ha')

/-- A fold is refused where one of its steps is. -/
theorem exists_of_foldlM_eq_error {f : β → α → Except ε β} {items : List α} {b : β} {e : ε}
    (h : items.foldlM f b = .error e) : ∃ a ∈ items, ∃ b, f b a = .error e := by
  induction items generalizing b with
  | nil => cases h
  | cons a items ih =>
    rw [List.foldlM_cons, bind_eq_error] at h
    rcases h with h | ⟨next, -, h⟩
    · exact ⟨a, List.mem_cons_self, b, h⟩
    · obtain ⟨a', ha', b', h⟩ := ih h
      exact ⟨a', List.mem_cons_of_mem a ha', b', h⟩

/-- A fold whose steps succeed exactly on some items succeeds exactly on lists of these. -/
theorem exists_foldlM {q : α → Prop} {f : β → α → Except ε β} {items : List α} {b : β}
    (h : ∀ b a, (∃ b', f b a = .ok b') ↔ q a) :
    (∃ b', items.foldlM f b = .ok b') ↔ ∀ a ∈ items, q a := by
  induction items generalizing b with
  | nil => exact iff_of_true ⟨b, rfl⟩ (List.forall_mem_nil _)
  | cons a items ih =>
    simp only [List.foldlM_cons, bind_eq_ok, List.forall_mem_cons, ← h b a]
    constructor
    · rintro ⟨last, next, hnext, hlast⟩
      exact ⟨⟨next, hnext⟩, ih.mp ⟨last, hlast⟩⟩
    · rintro ⟨⟨next, hnext⟩, hall⟩
      obtain ⟨last, hlast⟩ := ih.mpr hall
      exact ⟨last, next, hnext, hlast⟩

/-- A fold whose steps do what a total function does, on the items that they succeed on, does what
its fold does. -/
theorem foldlM_eq_ok {p : β → Prop} {q : α → Prop} {f : β → α → Except ε β}
    {g : β → α → β} {items : List α} {b b' : β}
    (h : ∀ b a b', p b → (f b a = .ok b' ↔ q a ∧ b' = g b a)) (hkeep : ∀ b a, p b → p (g b a))
    (hb : p b) : items.foldlM f b = .ok b' ↔ (∀ a ∈ items, q a) ∧ b' = items.foldl g b := by
  induction items generalizing b with
  | nil =>
    rw [List.foldlM_nil, pure_eq_ok, List.foldl_nil]
    exact ⟨fun h => ⟨List.forall_mem_nil _, h.symm⟩, fun h => h.2.symm⟩
  | cons a items ih =>
    simp only [List.foldlM_cons, bind_eq_ok, List.forall_mem_cons, List.foldl_cons]
    constructor
    · rintro ⟨next, hnext, hlast⟩
      obtain ⟨ha, rfl⟩ := (h b a next hb).mp hnext
      obtain ⟨hall, hlast⟩ := (ih (hkeep b a hb)).mp hlast
      exact ⟨⟨ha, hall⟩, hlast⟩
    · rintro ⟨⟨ha, hall⟩, hlast⟩
      exact ⟨g b a, (h b a _ hb).mpr ⟨ha, rfl⟩, (ih (hkeep b a hb)).mpr ⟨hall, hlast⟩⟩

end MailTemplate
