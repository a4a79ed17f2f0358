import RouterConfig.Selection

/-!
# Readers that gave something

A reader is a chain of smaller ones, and what it gives was given by each of them.
The lemmas here take such a chain apart from the outside.
-/

namespace RouterConfig

variable {ε α β : Type}

theorem map_eq_ok_iff {f : α → β} {r : Except ε α} {b : β} :
    r.map f = .ok b ↔ ∃ a, r = .ok a ∧ f a = b := by
  cases r with
  | error e => simp [Except.map]
  | ok a => simp [Except.map]

theorem bind_eq_ok_iff {f : α → Except ε β} {r : Except ε α} {b : β} :
    (r >>= f) = .ok b ↔ ∃ a, r = .ok a ∧ f a = .ok b := by
  cases r with
  | error e => simp [bind, Except.bind]
  | ok a => simp [bind, Except.bind]

@[simp] theorem pure_eq_ok_iff {a b : α} : (pure a : Except ε α) = .ok b ↔ a = b := by
  simp [pure, Except.pure]

@[simp] theorem ok_bind (a : α) (f : α → Except ε β) : ((.ok a : Except ε α) >>= f) = f a := rfl

/-- A list is read one entry after the other. -/
theorem mapM_cons_of_ok {f : α → Except ε β} {a : α} {b : β} {as : List α} {bs : List β}
    (hfirst : f a = .ok b) (hrest : as.mapM f = .ok bs) : (a :: as).mapM f = .ok (b :: bs) := by
  rw [List.mapM_cons, hfirst, hrest]
  rfl

/-- A list is read when it is known what each entry gives. -/
theorem mapM_eq_ok_map {f : α → Except ε β} {g : α → β} {as : List α}
    (h : ∀ a ∈ as, f a = .ok (g a)) : as.mapM f = .ok (as.map g) := by
  induction as with
  | nil => rfl
  | cons a as ih =>
    exact mapM_cons_of_ok (h a (List.mem_cons_self ..))
      (ih fun b hb => h b (List.mem_cons_of_mem _ hb))

/-- A list is read when each entry is. -/
theorem exists_mapM_iff {f : α → Except ε β} {as : List α} :
    (∃ bs, as.mapM f = .ok bs) ↔ ∀ a ∈ as, ∃ b, f a = .ok b := by
  induction as with
  | nil => exact iff_of_true ⟨[], rfl⟩ (by simp)
  | cons a as ih =>
    rw [List.forall_mem_cons, ← ih]
    constructor
    · rintro ⟨bs, h⟩
      rw [List.mapM_cons] at h
      obtain ⟨b, hfirst, h⟩ := bind_eq_ok_iff.mp h
      obtain ⟨rest, hrest, -⟩ := bind_eq_ok_iff.mp h
      exact ⟨⟨b, hfirst⟩, rest, hrest⟩
    · rintro ⟨⟨b, hfirst⟩, rest, hrest⟩
      exact ⟨_, mapM_cons_of_ok hfirst hrest⟩

@[simp] theorem refuse_ok (a : α) : refuse (.ok a : Except LineFault α) = .ok a := rfl

@[simp] theorem refuse_error (fault : LineFault) :
    refuse (.error fault : Except LineFault α) = .error (.fault fault) := rfl

theorem refuse_eq_ok_iff {r : Except LineFault α} {a : α} : refuse r = .ok a ↔ r = .ok a := by
  cases r with
  | error fault => simp
  | ok a => simp

/-- A command that is wrong does not stop the reading. -/
theorem refuse_ne_stop (r : Except LineFault α) (stop : ReadStop) :
    refuse r ≠ .error (.stop stop) := by
  cases r with
  | error fault => simp
  | ok a => simp

end RouterConfig
