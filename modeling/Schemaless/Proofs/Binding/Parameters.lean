import Schemaless.Binding.Expression

/-!
# Which parameters a binding takes

A binding reads its parameters in a row, from where the cursor stands. `Yields m vs a` says that `m`
takes the values `vs` and answers `a`, whatever parameters are in front of them and behind.
`Takes m n` says that `m`, where it succeeds, takes the next `n` parameters and depends on nothing
else, and `Lacks m n` that it misses a parameter only where fewer than `n` are left. Bindings are put
together of steps (`Spends`), and both follow along them (`Spends.takes`, `Spends.lacks`).
-/

namespace Schemaless.Binding

variable {α β : Type} {m : Binding α} {f : α → Binding β} {vs us : List Value} {a : α} {b : β}
  {n k : Nat}

/-- Takes the parameters `vs` and answers `a`, wherever they stand. -/
def Yields (m : Binding α) (vs : List Value) (a : α) : Prop :=
  ∀ before after, m.on ⟨before ++ (vs ++ after), before.length⟩ =
    (.ok a, ⟨before ++ (vs ++ after), before.length + vs.length⟩)

theorem yields_pure (a : α) : Yields (pure a) [] a := fun _ _ => rfl

theorem Yields.bind (hm : Yields m vs a) (hf : Yields (f a) us b) :
    Yields (m >>= f) (vs ++ us) b := by
  intro before after
  have hfirst := hm before (us ++ after)
  have hrest := hf (before ++ vs) after
  rw [List.append_assoc, List.length_append] at hrest
  rw [List.append_assoc, List.length_append, ← Nat.add_assoc]
  exact Effect.bind_eq_ok.2 ⟨a, _, hfirst, hrest⟩

theorem Yields.map (hm : Yields m vs a) (g : α → β) : Yields (g <$> m) vs (g a) := by
  intro before after
  exact Effect.map_eq_ok.2 ⟨a, hm before after, rfl⟩

theorem yields_next (v : Value) : Yields next [v] v := by
  intro before after
  have hget : (before ++ ([v] ++ after))[before.length]? = some v := by simp
  show next ⟨_, before.length⟩ = _
  simp only [next, hget]
  rfl

/-- From the first parameter on. -/
theorem Yields.on (hm : Yields m vs a) (after : List Value) :
    m.on { parameters := vs ++ after } =
      (.ok a, { parameters := vs ++ after, position := vs.length }) := by
  simpa using hm [] after

/-- Takes the next `n` parameters where it succeeds. -/
def Takes (m : Binding α) (n : Nat) : Prop :=
  ∀ before rest a cursor, m.on ⟨before ++ rest, before.length⟩ = (.ok a, cursor) →
    ∃ vs after, rest = vs ++ after ∧ vs.length = n ∧ Yields m vs a

theorem Takes.on_of_ok {ps : List Value} (h : Takes m n)
    (hok : (m.on { parameters := ps }).1 = .ok a) :
    m.on { parameters := ps } = (.ok a, { parameters := ps, position := n }) := by
  rcases hrun : m.on { parameters := ps } with ⟨r, cursor⟩
  obtain rfl : r = .ok a := by rwa [hrun] at hok
  obtain ⟨vs, after, rfl, rfl, hyields⟩ := h [] ps a cursor hrun
  rw [← hrun]
  exact hyields.on after

theorem takes_pure (a : α) : Takes (pure a) 0 := by
  intro before rest b cursor h
  cases h
  exact ⟨[], rest, rfl, rfl, yields_pure a⟩

theorem takes_ofExcept (r : Except Failure α) : Takes (Effect.ofExcept r) 0 := by
  intro before rest b cursor h
  cases h
  exact ⟨[], rest, rfl, rfl, yields_pure b⟩

theorem takes_next : Takes next 1 := by
  intro before rest v cursor h
  cases rest with
  | nil =>
    change next ⟨before ++ [], before.length⟩ = _ at h
    simp only [next, List.append_nil, List.getElem?_eq_none (Nat.le_refl _)] at h
    cases h
  | cons w after =>
    have hv : next ⟨before ++ ([w] ++ after), before.length⟩ = _ := yields_next w before after
    change next ⟨before ++ ([w] ++ after), before.length⟩ = _ at h
    rw [hv] at h
    cases h
    exact ⟨[v], after, rfl, rfl, yields_next v⟩

theorem Takes.bind (hm : Takes m n) (hf : ∀ a, Takes (f a) k) : Takes (m >>= f) (n + k) := by
  intro before rest b cursor h
  obtain ⟨a, middle, hfirst, hrest⟩ := Effect.bind_eq_ok.1 h
  obtain ⟨vs, after, rfl, hvs, hyields⟩ := hm before rest a middle hfirst
  rw [hyields before after] at hfirst
  cases hfirst
  rw [← List.append_assoc, ← List.length_append] at hrest
  obtain ⟨us, after, rfl, hus, hyields'⟩ := hf a (before ++ vs) after b cursor hrest
  exact ⟨vs ++ us, after, by simp, by simp [hvs, hus], hyields.bind hyields'⟩

/-- Fails for want of a parameter only where fewer than `n` are left, and then names the end of the
parameters. -/
def Lacks (m : Binding α) (n : Nat) : Prop :=
  ∀ before rest i k cursor,
    m.on ⟨before ++ rest, before.length⟩ = (.error (.binding i k), cursor) →
      rest.length < n ∧ i = (before ++ rest).length ∧ k = (before ++ rest).length

theorem lacks_next : Lacks next 1 := by
  intro before rest i k cursor h
  cases rest with
  | nil =>
    change next ⟨before ++ [], before.length⟩ = _ at h
    simp only [next, List.append_nil, List.getElem?_eq_none (Nat.le_refl _)] at h
    cases h
    simp
  | cons v after =>
    have hv : next ⟨before ++ ([v] ++ after), before.length⟩ = _ := yields_next v before after
    change next ⟨before ++ ([v] ++ after), before.length⟩ = _ at h
    rw [hv] at h
    cases h

/-- What is behind the parameters taken is what the rest may lack. -/
theorem Lacks.bind (hm : Lacks m n) (htakes : Takes m n) (hf : ∀ a, Lacks (f a) k) :
    Lacks (m >>= f) (n + k) := by
  intro before rest i l cursor h
  rcases Effect.bind_eq_error.1 h with hfirst | ⟨a, middle, hfirst, hrest⟩
  · obtain ⟨hlt, hi, hl⟩ := hm before rest i l cursor hfirst
    exact ⟨by omega, hi, hl⟩
  · obtain ⟨vs, after, rfl, hvs, hyields⟩ := htakes before rest a middle hfirst
    rw [hyields before after] at hfirst
    cases hfirst
    rw [← List.append_assoc, ← List.length_append] at hrest
    obtain ⟨hlt, hi, hl⟩ := hf a (before ++ vs) after i l cursor hrest
    rw [List.append_assoc] at hi hl
    refine ⟨?_, hi, hl⟩
    rw [List.length_append]
    omega

/-! ## Bindings step by step -/

/-- Put together of steps that take `n` parameters in all. What does not take any does not fail for want
of one. -/
inductive Spends : {α : Type} → Binding α → Nat → Prop
  | ofExcept {α : Type} {r : Except Failure α} : (∀ i k, r ≠ .error (.binding i k)) →
      Spends (Effect.ofExcept r) 0
  | next : Spends next 1
  | bind {α β : Type} {m : Binding α} {f : α → Binding β} {n k : Nat} : Spends m n →
      (∀ a, Spends (f a) k) → Spends (m >>= f) (n + k)

theorem Spends.takes (h : Spends m n) : Takes m n := by
  induction h with
  | ofExcept => exact takes_ofExcept _
  | next => exact takes_next
  | bind _ _ hm hf => exact hm.bind hf

theorem Spends.lacks (h : Spends m n) : Lacks m n := by
  induction h with
  | ofExcept hr =>
    intro before rest i k cursor hrun
    cases hrun
    exact absurd rfl (hr i k)
  | next => exact lacks_next
  | bind hm _ hm' hf => exact hm'.bind hm.takes hf

/-- From the first parameter on, it takes its own or fails. -/
theorem Spends.on (h : Spends m n) (ps : List Value) :
    (∃ vs after a, ps = vs ++ after ∧ vs.length = n ∧ Yields m vs a ∧
        m.on { parameters := ps } = (.ok a, { parameters := ps, position := n })) ∨
      ∃ e cursor, m.on { parameters := ps } = (.error e, cursor) ∧
        ∀ i k, e = .binding i k → ps.length < n ∧ i = ps.length ∧ k = ps.length := by
  rcases hrun : m.on { parameters := ps } with ⟨_ | a, cursor⟩
  · refine .inr ⟨_, _, rfl, fun i k he => ?_⟩
    exact h.lacks [] ps i k cursor (he ▸ hrun)
  · obtain ⟨vs, after, rfl, hvs, hyields⟩ := h.takes [] ps a cursor hrun
    refine .inl ⟨vs, after, a, rfl, hvs, hyields, ?_⟩
    rw [← hrun, ← hvs]
    exact hyields.on after

theorem spends_pure (a : α) : Spends (pure a) 0 := .ofExcept nofun

theorem Spends.map (h : Spends m n) (g : α → β) : Spends (g <$> m) n := by
  rw [map_eq_pure_bind]
  exact h.bind fun a => spends_pure (g a)

theorem spends_take (n : Nat) : Spends (take n) n := by
  induction n with
  | zero => exact spends_pure []
  | succ n ih =>
    have hstep := Spends.next.bind fun v => ih.bind fun vs => spends_pure (v :: vs)
    rwa [Nat.add_zero, Nat.add_comm] at hstep

theorem literalValue_ne_binding (membership : Bool) (text : String) (i k : Nat) :
    literalValue membership text ≠ .error (.binding i k) := by
  have hne (r : Except CoercionFault Value) :
      r.mapError Failure.coercion ≠ .error (.binding i k) := by
    cases r <;> nofun
  exact hne _

theorem spends_bindExpression (membership : Bool) (text : String) :
    Spends (bindExpression membership text) (placeholderCount text) := by
  unfold bindExpression
  cases placeholderCount text with
  | zero => exact .ofExcept (literalValue_ne_binding membership text)
  | succ n =>
    cases n with
    | zero => exact Spends.next.bind fun v => spends_pure (filled text v)
    | succ n => exact (spends_take (n + 2)).bind fun vs => spends_pure (Value.arr vs)

/-- The operand that is a placeholder has the value of its parameter. -/
theorem yields_parameter (membership : Bool) (v : Value) :
    Yields (bindExpression membership "?") [v] v := by
  have hone : placeholderCount "?" = 1 := by decide +kernel
  have hfilled : filled "?" v = v := by
    cases v with
    | str s =>
      have htemplate : template "?" = ['?'] := by decide +kernel
      simp [filled, htemplate, substituted, placeholder]
    | null | bool _ | num _ | arr _ | obj _ => rfl
  have hbind : Yields (next >>= fun v => pure (filled "?" v)) [v] (filled "?" v) :=
    (yields_next v).bind (f := fun v => pure (filled "?" v)) (yields_pure _)
  rw [hfilled] at hbind
  unfold bindExpression
  rw [hone]
  exact hbind

end Schemaless.Binding
