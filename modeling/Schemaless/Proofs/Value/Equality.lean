import Schemaless.Value.Basic

/-!
# Equality of values

The store's equality of values is an equivalence. Reflexivity stands beside its definition; here are
symmetry and transitivity (`Value.equal_symm`, `Value.equal_trans`), each from the same law of strict
equality. Two numbers are equal when their ranks are, so whole and other numbers mix freely; a
number never equals anything else, so the two halves of `Value.equal` do not meet.
-/

namespace Schemaless.Value

/-! ## Strict equality -/

mutual

theorem same_symm : (a b : Value) → same a b = true → same b a = true
  | .null, b, h => by cases b <;> simp_all [same]
  | .bool _, b, h => by cases b <;> simp_all [same]
  | .num x, b, h => by
    cases b with
    | num y => rw [same, Number.same_symm]; rwa [same] at h
    | _ => simp [same] at h
  | .str _, b, h => by cases b <;> simp_all [same]
  | .arr items, b, h => by
    cases b with
    | arr others => rw [same] at h ⊢; exact sameItems_symm items others h
    | _ => simp [same] at h
  | .obj fields, b, h => by
    cases b with
    | obj others => rw [same] at h ⊢; exact sameFields_symm fields others h
    | _ => simp [same] at h

theorem sameItems_symm : (as bs : List Value) → sameItems as bs = true → sameItems bs as = true
  | [], [], _ => rfl
  | [], _ :: _, h => by simp [sameItems] at h
  | _ :: _, [], h => by simp [sameItems] at h
  | a :: as, b :: bs, h => by
    rw [sameItems, Bool.and_eq_true] at h ⊢
    exact ⟨same_symm a b h.1, sameItems_symm as bs h.2⟩

theorem sameFields_symm : (as bs : List (String × Value)) → sameFields as bs = true →
    sameFields bs as = true
  | [], [], _ => rfl
  | [], _ :: _, h => by simp [sameFields] at h
  | _ :: _, [], h => by simp [sameFields] at h
  | a :: as, b :: bs, h => by
    rw [sameFields, Bool.and_eq_true] at h ⊢
    exact ⟨sameField_symm a b h.1, sameFields_symm as bs h.2⟩

theorem sameField_symm : (f g : String × Value) → sameField f g = true → sameField g f = true
  | (m, a), (n, b), h => by
    rw [sameField, Bool.and_eq_true, beq_iff_eq] at h ⊢
    exact ⟨h.1.symm, same_symm a b h.2⟩

end

mutual

theorem same_trans : (a b c : Value) → same a b = true → same b c = true → same a c = true
  | .null, b, c, h, h' => by cases b <;> cases c <;> simp_all [same]
  | .bool _, b, c, h, h' => by cases b <;> cases c <;> simp_all [same]
  | .num x, b, c, h, h' => by
    cases b with
    | num y =>
      cases c with
      | num z => rw [same] at h h' ⊢; exact Number.same_trans h h'
      | _ => simp [same] at h'
    | _ => simp [same] at h
  | .str _, b, c, h, h' => by cases b <;> cases c <;> simp_all [same]
  | .arr as, b, c, h, h' => by
    cases b with
    | arr bs =>
      cases c with
      | arr cs => rw [same] at h h' ⊢; exact sameItems_trans as bs cs h h'
      | _ => simp [same] at h'
    | _ => simp [same] at h
  | .obj as, b, c, h, h' => by
    cases b with
    | obj bs =>
      cases c with
      | obj cs => rw [same] at h h' ⊢; exact sameFields_trans as bs cs h h'
      | _ => simp [same] at h'
    | _ => simp [same] at h

theorem sameItems_trans : (as bs cs : List Value) → sameItems as bs = true →
    sameItems bs cs = true → sameItems as cs = true
  | [], [], cs, _, h' => h'
  | [], _ :: _, _, h, _ => by simp [sameItems] at h
  | _ :: _, [], _, h, _ => by simp [sameItems] at h
  | _ :: _, _ :: _, [], _, h' => by simp [sameItems] at h'
  | a :: as, b :: bs, c :: cs, h, h' => by
    rw [sameItems, Bool.and_eq_true] at h h' ⊢
    exact ⟨same_trans a b c h.1 h'.1, sameItems_trans as bs cs h.2 h'.2⟩

theorem sameFields_trans : (as bs cs : List (String × Value)) → sameFields as bs = true →
    sameFields bs cs = true → sameFields as cs = true
  | [], [], cs, _, h' => h'
  | [], _ :: _, _, h, _ => by simp [sameFields] at h
  | _ :: _, [], _, h, _ => by simp [sameFields] at h
  | _ :: _, _ :: _, [], _, h' => by simp [sameFields] at h'
  | a :: as, b :: bs, c :: cs, h, h' => by
    rw [sameFields, Bool.and_eq_true] at h h' ⊢
    exact ⟨sameField_trans a b c h.1 h'.1, sameFields_trans as bs cs h.2 h'.2⟩

theorem sameField_trans : (f g k : String × Value) → sameField f g = true →
    sameField g k = true → sameField f k = true
  | (l, a), (m, b), (n, c), h, h' => by
    rw [sameField, Bool.and_eq_true, beq_iff_eq] at h h' ⊢
    exact ⟨h.1.trans h'.1, same_trans a b c h.2 h'.2⟩

end

/-! ## The store's equality -/

theorem eq_num_of_same {x : Number} {b : Value} (h : same (.num x) b = true) :
    ∃ y, b = .num y ∧ x.rank = y.rank := by
  cases b with
  | num y => rw [same] at h; exact ⟨y, rfl, Number.rank_eq_of_same h⟩
  | _ => simp [same] at h

/-- Equal values are two numbers of one rank, or strictly equal. -/
theorem equal_iff {a b : Value} :
    a.equal b = true ↔
      (∃ x y, a = .num x ∧ b = .num y ∧ x.rank = y.rank) ∨ same a b = true := by
  refine ⟨fun h => ?_, ?_⟩
  · cases a with
    | num x =>
      cases b with
      | num y => exact .inl ⟨x, y, rfl, rfl, by simpa [equal] using h⟩
      | _ => simp [equal, same] at h
    | _ => exact .inr (by simpa [equal] using h)
  · rintro (⟨x, y, rfl, rfl, h⟩ | h)
    · simpa [equal] using h
    · exact equal_of_same h

theorem equal_symm {a b : Value} (h : a.equal b = true) : b.equal a = true := by
  rw [equal_iff] at h ⊢
  rcases h with ⟨x, y, rfl, rfl, h⟩ | h
  · exact .inl ⟨y, x, rfl, rfl, h.symm⟩
  · exact .inr (same_symm _ _ h)

theorem equal_trans {a b c : Value} (h : a.equal b = true) (h' : b.equal c = true) :
    a.equal c = true := by
  rw [equal_iff] at h h' ⊢
  rcases h with ⟨x, y, rfl, rfl, h⟩ | h
  · rcases h' with ⟨y', z, hy, rfl, h'⟩ | h'
    · cases hy
      exact .inl ⟨x, z, rfl, rfl, h.trans h'⟩
    · obtain ⟨z, rfl, hrank⟩ := eq_num_of_same h'
      exact .inl ⟨x, z, rfl, rfl, h.trans hrank⟩
  · rcases h' with ⟨y, z, rfl, rfl, h'⟩ | h'
    · obtain ⟨x, rfl, hrank⟩ := eq_num_of_same (same_symm _ _ h)
      exact .inl ⟨x, z, rfl, rfl, hrank.symm.trans h'⟩
    · exact .inr (same_trans _ _ _ h h')

end Schemaless.Value
