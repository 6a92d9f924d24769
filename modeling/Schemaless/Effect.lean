import Schemaless.Failure

/-!
# Computations that may fail

Binding takes parameters, a store changes its documents, a client uses its sessions: each works on a
state of its own, and each may fail. They share one shape, `Effect`. What an effect did before it
failed stays done, so a result always comes with the state after it (`Effect.on`), and the laws
here say what both are for effects put together.
-/

namespace Schemaless

/-- A computation on a state that may fail. What it did before failing stays. -/
abbrev Effect (σ α : Type) : Type := ExceptT Failure (StateM σ) α

namespace Effect

variable {σ α β : Type}

/-- Runs a computation: its result, and the state after it. -/
def on (m : Effect σ α) (s : σ) : Except Failure α × σ := m s

/-- The result of something that does not touch the state. -/
def ofExcept (r : Except Failure α) : Effect σ α := fun s => (r, s)

@[simp] theorem on_pure (a : α) (s : σ) : (pure a : Effect σ α).on s = (.ok a, s) := rfl

@[simp] theorem on_throw (e : Failure) (s : σ) :
    (throw e : Effect σ α).on s = (.error e, s) := rfl

@[simp] theorem on_get (s : σ) : (get : Effect σ σ).on s = (.ok s, s) := rfl

@[simp] theorem on_set (s t : σ) : (set t : Effect σ PUnit).on s = (.ok ⟨⟩, t) := rfl

@[simp] theorem on_ofExcept (r : Except Failure α) (s : σ) : (ofExcept r).on s = (r, s) := rfl

theorem ofExcept_ok (a : α) : (ofExcept (.ok a) : Effect σ α) = pure a := rfl

theorem on_bind (m : Effect σ α) (f : α → Effect σ β) (s : σ) :
    (m >>= f).on s = match m.on s with
      | (.ok a, t) => (f a).on t
      | (.error e, t) => (.error e, t) := by
  have h : (m >>= f).on s =
      (match m.on s with | (r, t) => (ExceptT.bindCont f r : StateM σ (Except Failure β)) t) := rfl
  rw [h]
  rcases m.on s with ⟨_ | a, t⟩ <;> rfl

theorem on_map (g : α → β) (m : Effect σ α) (s : σ) :
    (g <$> m).on s = ((m.on s).1.map g, (m.on s).2) := by
  rw [map_eq_pure_bind, on_bind]
  rcases m.on s with ⟨_ | a, t⟩ <;> rfl

theorem bind_eq_ok {m : Effect σ α} {f : α → Effect σ β} {s u : σ} {b : β} :
    (m >>= f).on s = (.ok b, u) ↔ ∃ a t, m.on s = (.ok a, t) ∧ (f a).on t = (.ok b, u) := by
  rw [on_bind]
  rcases m.on s with ⟨e | a, t⟩
  · simp
  · constructor
    · exact fun h => ⟨a, t, rfl, h⟩
    · rintro ⟨_, _, ⟨⟩, h⟩
      exact h

theorem bind_eq_error {m : Effect σ α} {f : α → Effect σ β} {s u : σ} {e : Failure} :
    (m >>= f).on s = (.error e, u) ↔
      m.on s = (.error e, u) ∨ ∃ a t, m.on s = (.ok a, t) ∧ (f a).on t = (.error e, u) := by
  rw [on_bind]
  rcases m.on s with ⟨e' | a, t⟩
  · simp
  · constructor
    · exact fun h => .inr ⟨a, t, rfl, h⟩
    · rintro (⟨⟨⟩⟩ | ⟨_, _, ⟨⟩, h⟩)
      exact h

theorem map_eq_ok {g : α → β} {m : Effect σ α} {s t : σ} {b : β} :
    (g <$> m).on s = (.ok b, t) ↔ ∃ a, m.on s = (.ok a, t) ∧ g a = b := by
  rw [on_map]
  rcases m.on s with ⟨e | a, u⟩
  · simp [Except.map]
  · constructor
    · rintro ⟨⟩
      exact ⟨a, rfl, rfl⟩
    · rintro ⟨_, ⟨⟩, rfl⟩
      rfl

theorem map_eq_error {g : α → β} {m : Effect σ α} {s t : σ} {e : Failure} :
    (g <$> m).on s = (.error e, t) ↔ m.on s = (.error e, t) := by
  rw [on_map]
  rcases m.on s with ⟨e' | a, u⟩ <;> simp [Except.map]

end Effect

end Schemaless
