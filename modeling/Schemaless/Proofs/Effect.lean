import Schemaless.Effect
import Mathlib.Order.Defs.Unbundled

/-!
# What an effect does to its state

`Moves R m` says that `m` takes every state to one that stands in relation `R` to it, however `m`
ends; `FailsWithin R m` says the same of the runs that fail. Both are put together along the steps
of a computation: a chain of moves is a move (`Moves.bind`), and work that fails only within `R`
may follow a move (`FailsWithin.bind`). `Ensures I E m` says that `m` keeps an invariant, and how it
may fail where the invariant holds; it is put together in the same way (`Ensures.bind`).
-/

namespace Schemaless.Effect

variable {σ α β : Type} {R : σ → σ → Prop}

/-- However `m` ends, the state after it stands in relation to the state before it. -/
def Moves (R : σ → σ → Prop) (m : Effect σ α) : Prop := ∀ s, R s (m.on s).2

/-- Where `m` fails, the state after it stands in relation to the state before it. -/
def FailsWithin (R : σ → σ → Prop) (m : Effect σ α) : Prop :=
  ∀ s e t, m.on s = (.error e, t) → R s t

/-! ## Moves -/

theorem moves_of_still [Std.Refl R] {m : Effect σ α} (h : ∀ s, (m.on s).2 = s) : Moves R m := by
  intro s
  rw [h]
  exact refl_of R s

theorem moves_pure [Std.Refl R] (a : α) : Moves R (pure a : Effect σ α) :=
  moves_of_still fun _ => rfl

theorem moves_throw [Std.Refl R] (e : Failure) : Moves R (throw e : Effect σ α) :=
  moves_of_still fun _ => rfl

theorem moves_get [Std.Refl R] : Moves R (get : Effect σ σ) := moves_of_still fun _ => rfl

theorem moves_ofExcept [Std.Refl R] (r : Except Failure α) : Moves R (ofExcept r : Effect σ α) :=
  moves_of_still fun _ => rfl

theorem Moves.bind [IsTrans σ R] {m : Effect σ α} {f : α → Effect σ β} (hm : Moves R m)
    (hf : ∀ a, Moves R (f a)) : Moves R (m >>= f) := by
  intro s
  have h := hm s
  rw [on_bind]
  rcases hr : m.on s with ⟨e | a, t⟩ <;> rw [hr] at h
  · exact h
  · exact trans_of R h (hf a t)

theorem Moves.map {m : Effect σ α} (h : Moves R m) (g : α → β) : Moves R (g <$> m) := by
  intro s
  rw [on_map]
  exact h s

theorem Moves.of_on {m : Effect σ α} {r : Except Failure α} {s t : σ} (h : Moves R m)
    (hrun : m.on s = (r, t)) : R s t := by
  have hmove := h s
  rwa [hrun] at hmove

/-! ## Invariants -/

/-- What holds of the state before holds of the state after. -/
def Keeping (I : σ → Prop) (s t : σ) : Prop := I s → I t

instance {I : σ → Prop} : Std.Refl (Keeping I) := ⟨fun _ h => h⟩

/-! ## Failures -/

theorem Moves.failsWithin {m : Effect σ α} (h : Moves R m) : FailsWithin R m := by
  intro s e t hrun
  have := h s
  rwa [hrun] at this

theorem FailsWithin.bind [IsTrans σ R] {m : Effect σ α} {f : α → Effect σ β} (hm : Moves R m)
    (hf : ∀ a, FailsWithin R (f a)) : FailsWithin R (m >>= f) := by
  intro s e t hrun
  have h := hm s
  rcases bind_eq_error.1 hrun with herror | ⟨a, u, hok, hrest⟩
  · rwa [herror] at h
  · rw [hok] at h
    exact trans_of R h (hf a u e t hrest)

theorem FailsWithin.map {m : Effect σ α} (h : FailsWithin R m) (g : α → β) :
    FailsWithin R (g <$> m) := fun s e t hrun => h s e t (map_eq_error.1 hrun)

/-! ## Invariants and failures -/

/-- However `m` ends, the invariant holds after it where it held before; and where `m` fails, the state
it leaves and the failure are related. -/
def Ensures (I : σ → Prop) (E : σ → Failure → Prop) (m : Effect σ α) : Prop :=
  ∀ s, I s → I (m.on s).2 ∧ ∀ e, (m.on s).1 = .error e → E (m.on s).2 e

section

variable {I : σ → Prop} {E : σ → Failure → Prop}

theorem ensures_pure (a : α) : Ensures I E (pure a : Effect σ α) :=
  fun _ hs => ⟨hs, fun _ h => by cases h⟩

theorem ensures_ofExcept {r : Except Failure α} (h : ∀ e, r = .error e → ∀ s, E s e) :
    Ensures I E (ofExcept r : Effect σ α) :=
  fun s hs => ⟨hs, fun e he => h e he s⟩

theorem ensures_throw {e : Failure} (h : ∀ s, E s e) : Ensures I E (throw e : Effect σ α) :=
  fun s hs => ⟨hs, fun _ he => by cases he; exact h s⟩

theorem Ensures.bind {m : Effect σ α} {f : α → Effect σ β} (hm : Ensures I E m)
    (hf : ∀ a, Ensures I E (f a)) : Ensures I E (m >>= f) := by
  intro s hs
  have h := hm s hs
  rw [on_bind]
  rcases hr : m.on s with ⟨e | a, t⟩ <;> rw [hr] at h
  · exact ⟨h.1, fun e' he => h.2 e' (by cases he; rfl)⟩
  · exact hf a t h.1

/-- What is read satisfies the invariant. -/
theorem ensures_get_bind {f : σ → Effect σ β} (hf : ∀ s, I s → Ensures I E (f s)) :
    Ensures I E (get >>= f) :=
  fun s hs => hf s hs s hs

theorem Ensures.map {m : Effect σ α} (h : Ensures I E m) (g : α → β) : Ensures I E (g <$> m) := by
  rw [map_eq_pure_bind]
  exact h.bind fun a => ensures_pure (g a)

end

end Schemaless.Effect
