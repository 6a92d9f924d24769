import Schemaless.Store.Selection
import Schemaless.Proofs.Binding.Condition
import Schemaless.Proofs.Value.Equality
import Schemaless.Proofs.Store.Catalog
import Schemaless.Proofs.Store.Modification
import Schemaless.Proofs.Store.Reachable

/-!
# Keys tell documents apart

In every store that is reached each document has a key, no two documents of a collection have equal
keys, and no database is empty (`Store.Sound`). The step that could break this is a replacement, whose
document may bring a key that is only equal to the old one, `1.0` for `1`: equality of values is an
equivalence, so the new key differs from whatever the old one differed from
(`Collection.WellKeyed.replace`).

A comparison of the key with a value therefore selects one document at most
(`WellKeyed.length_filter_le_one`), and so does a statement whose criteria are such a comparison, be
it written with the native key or with the table's key column.
-/

namespace Schemaless

/-- No key of the one document equals a key of the other. -/
def Document.KeysDiffer (a b : Document) : Prop :=
  ∀ k l, a.get? nativeKey = some k → b.get? nativeKey = some l → k.equal l = false

namespace Collection

open Document (KeysDiffer)

/-- Every document has a key, and no two documents have equal keys. -/
structure WellKeyed (ds : Collection) : Prop where
  keyed : ∀ d ∈ ds, ∃ key, d.get? nativeKey = some key
  differ : ds.Pairwise KeysDiffer

namespace WellKeyed

variable {ds before after : Collection} {d old new : Document} {key : Value}

theorem nil : WellKeyed [] := ⟨by simp, .nil⟩

theorem filter (h : WellKeyed ds) (kept : Document → Bool) : WellKeyed (ds.filter kept) :=
  ⟨fun d hd => h.keyed d (List.mem_filter.1 hd).1, h.differ.filter kept⟩

theorem append (h : WellKeyed ds) (hkey : d.get? nativeKey = some key)
    (hnew : ds.any (Store.hasKey key) = false) : WellKeyed (ds ++ [d]) := by
  refine ⟨fun x hx => ?_, ?_⟩
  · rcases List.mem_append.1 hx with hx | hx
    · exact h.keyed x hx
    · rw [List.mem_singleton] at hx
      exact ⟨key, hx ▸ hkey⟩
  · refine List.pairwise_append.2 ⟨h.differ, List.pairwise_singleton _ _, fun x hx y hy => ?_⟩
    rw [List.mem_singleton] at hy
    subst hy
    intro k l hk hl
    have hx' : Store.hasKey key x = false := Bool.eq_false_iff.2 (List.any_eq_false.1 hnew x hx)
    rw [hkey] at hl
    cases hl
    simpa [Store.hasKey, hk] using hx'

/-- What an old key differs from, an equal new one differs from. -/
theorem keysDiffer_of_equal (hnew : new.get? nativeKey = some key) {k : Value}
    (hold : old.get? nativeKey = some k) (hsame : key.equal k = true) {x : Document} :
    (KeysDiffer x old → KeysDiffer x new) ∧ (KeysDiffer old x → KeysDiffer new x) := by
  refine ⟨fun h a b ha hb => ?_, fun h a b ha hb => ?_⟩
  · rw [hnew] at hb
    cases hb
    refine Bool.eq_false_iff.2 fun hab => ?_
    have := h a k ha hold
    rw [Value.equal_trans hab hsame] at this
    cases this
  · rw [hnew] at ha
    cases ha
    refine Bool.eq_false_iff.2 fun hab => ?_
    have := h k b hold hb
    rw [Value.equal_trans (Value.equal_symm hsame) hab] at this
    cases this

theorem replace (h : WellKeyed (before ++ old :: after)) (hkey : new.get? nativeKey = some key)
    (hsame : key.equal ((old.get? nativeKey).getD .null) = true) :
    WellKeyed (before ++ new :: after) := by
  obtain ⟨k, hold⟩ := h.keyed old (by simp)
  rw [hold, Option.getD_some] at hsame
  obtain ⟨hbefore, hrest, hcross⟩ := List.pairwise_append.1 h.differ
  obtain ⟨hafter, hrest⟩ := List.pairwise_cons.1 hrest
  refine ⟨fun x hx => ?_, List.pairwise_append.2 ⟨hbefore, List.pairwise_cons.2 ⟨?_, hrest⟩, ?_⟩⟩
  · rcases List.mem_append.1 hx with hx | hx
    · exact h.keyed x (by simp [hx])
    · rcases List.mem_cons.1 hx with rfl | hx
      · exact ⟨key, hkey⟩
      · exact h.keyed x (by simp [hx])
  · exact fun x hx => (keysDiffer_of_equal hkey hold hsame).2 (hafter x hx)
  · intro x hx y hy
    rcases List.mem_cons.1 hy with rfl | hy
    · exact (keysDiffer_of_equal hkey hold hsame).1 (hcross x hx old (by simp))
    · exact hcross x hx y (by simp [hy])

/-- Documents that all have a key equal to one value are one at most. -/
theorem length_filter_le_one (h : WellKeyed ds) (v : Value) :
    (ds.filter fun d => Predicate.fieldEquals (d.get? nativeKey) v).length ≤ 1 := by
  have hdiffer := (h.filter fun d => Predicate.fieldEquals (d.get? nativeKey) v).differ
  have hequal : ∀ d ∈ ds.filter fun d => Predicate.fieldEquals (d.get? nativeKey) v,
      ∃ k, d.get? nativeKey = some k ∧ k.equal v = true := by
    intro d hd
    obtain ⟨k, hk⟩ := h.keyed d (List.mem_filter.1 hd).1
    have hv := (List.mem_filter.1 hd).2
    rw [hk] at hv
    exact ⟨k, hk, by simpa [Predicate.fieldEquals] using hv⟩
  revert hdiffer hequal
  generalize (ds.filter fun d => Predicate.fieldEquals (d.get? nativeKey) v) = found
  intro hdiffer hequal
  match found, hdiffer, hequal with
  | [], _, _ => simp
  | [_], _, _ => simp
  | a :: b :: _, hdiffer, hequal =>
    obtain ⟨k, hk, hkv⟩ := hequal a (by simp)
    obtain ⟨l, hl, hlv⟩ := hequal b (by simp)
    have hfalse := (List.pairwise_cons.1 hdiffer).1 b (by simp) k l hk hl
    rw [Value.equal_trans hkv (Value.equal_symm hlv)] at hfalse
    cases hfalse

end WellKeyed

end Collection

/-! ## The invariant -/

namespace Store

/-- Keys tell the documents of each collection apart, and no database is empty. -/
structure Sound (s : Store) : Prop where
  wellKeyed : ∀ p, Collection.WellKeyed (s.documentsAt p)
  inhabited : Catalog.Inhabited s.catalog

theorem Sound.put {s : Store} (h : Sound s) (p : Place) {ds : Collection}
    (hds : Collection.WellKeyed ds) : Sound { s with catalog := s.catalog.put p ds } := by
  refine ⟨fun q => ?_, h.inhabited.put p ds⟩
  rw [documentsAt, Catalog.documents_put]
  split
  · exact hds
  · exact h.wellKeyed q

theorem Sound.step {s t : Store} (hstep : Step s t) (h : Sound s) : Sound t := by
  cases hstep with
  | spend _ => exact ⟨h.wellKeyed, h.inhabited⟩
  | append _ p hkey hnew => exact h.put p ((h.wellKeyed p).append hkey hnew)
  | replace _ p hat hkey hsame =>
    have hold := h.wellKeyed p
    rw [hat] at hold
    exact h.put p (hold.replace hkey hsame)
  | remove _ p kept => exact h.put p ((h.wellKeyed p).filter kept)
  | drop _ p =>
    refine ⟨fun q => ?_, h.inhabited.drop p⟩
    rw [documentsAt, Catalog.documents, Catalog.collection?_drop]
    split
    · exact .nil
    · exact h.wellKeyed q

theorem Sound.empty (address : String) (users : SortedMap String) : Sound { address, users } :=
  ⟨fun _ => .nil, fun _ _ h => nomatch h⟩

theorem Reachable.sound {s : Store} (h : Reachable s) : Sound s :=
  h.keeps Sound.empty (fun _ _ => Sound.step) fun _ _ h => ⟨h.wellKeyed, h.inhabited⟩

end Store

/-! ## Asking for a key -/

open Sql

/-- The criteria are one comparison with an operand: of the native key, or of the table's key
column. -/
def Sql.Statement.AsksForKey (c : Config) (t : Statement) : Prop :=
  ∃ column operand, t.criteria.items = [.condition (equalCondition column operand)] ∧
    (column = nativeKey ∨
      column = c.keyOf t.table ∧ hasPlaceholder column = false ∧ Text.trim column = column)

theorem Sql.Statement.AsksForKey.predicate {c : Config} {t : Statement} (h : t.AsksForKey c)
    {cursor after : Cursor} {p : Predicate} (hp : (keyedPredicate c t).on cursor = (.ok p, after)) :
    ∃ v, p = Predicate.single nativeKey (Operator.equal.build v) := by
  obtain ⟨column, operand, hitems, hcolumn⟩ := h
  have hkeyed : keyedPredicate c t =
      (fun v => Predicate.single nativeKey (Operator.equal.build v)) <$>
        bindExpression false operand := by
    rcases hcolumn with rfl | ⟨hkey, hmark, htrim⟩
    · exact keyedPredicate_of_equal hitems (.inl rfl) (by decide +kernel) (by decide +kernel)
    · exact keyedPredicate_of_equal hitems (.inr hkey) hmark htrim
  rw [hkeyed, Effect.map_eq_ok] at hp
  obtain ⟨v, -, rfl⟩ := hp
  exact ⟨v, rfl⟩

variable {s : Store} {c : Config} {t : Statement}

theorem Store.Sound.length_selected_le_one (hs : s.Sound) (h : t.AsksForKey c)
    {cursor after : Cursor} {p : Predicate} (hp : (keyedPredicate c t).on cursor = (.ok p, after)) :
    ((s.documentsAt (t.place c)).filter p.holds).length ≤ 1 := by
  obtain ⟨v, rfl⟩ := h.predicate hp
  have hholds : (Predicate.single nativeKey (Operator.equal.build v)).holds =
      fun d => Predicate.fieldEquals (d.get? nativeKey) v := by
    funext d
    exact holds_single_build (by decide) (by decide) .equal v d
  rw [hholds]
  exact (hs.wellKeyed _).length_filter_le_one v

theorem Store.Sound.length_select_le_one (hs : s.Sound) (h : t.AsksForKey c)
    {parameters : List Value} {rows : List Row} (hrows : select c t parameters s = .ok rows) :
    rows.length ≤ 1 := by
  rw [select] at hrows
  split at hrows
  · cases hrows
  · rcases hrun : (keyedPredicate c t).on { parameters } with ⟨e | p, after⟩
    · rw [hrun] at hrows
      cases hrows
    · rw [hrun] at hrows
      have hle := hs.length_selected_le_one h hrun
      obtain ⟨v, rfl⟩ := h.predicate hrun
      cases hrows
      rw [List.length_map]
      exact hle

theorem Store.Sound.affected_le_one (hs : s.Sound) (h : t.AsksForKey c) {parameters : List Value}
    {n : Nat} {s' : Store} (hrun : (modify c t parameters).on s = (.ok n, s')) : n ≤ 1 := by
  rw [modify] at hrun
  cases hkind : t.kind with
  | insert =>
    simp only [hkind, on_runInsert] at hrun
    split at hrun
    · cases hrun
    · split at hrun
      · cases hrun
        omega
      · cases hrun
  | update =>
    simp only [hkind, on_runUpdate] at hrun
    split at hrun
    · cases hrun
    · exact Store.affected_of_replace (Store.onTable_eq_ok.1 hrun)
  | delete =>
    have ⟨_, _, hitems, _⟩ := h
    have hne : t.criteria.items.isEmpty = false := by rw [hitems]; rfl
    simp only [hkind, on_runDelete, hne] at hrun
    rcases hp : (keyedPredicate c t).on { parameters } with ⟨e | p, after⟩
    · simp [hp] at hrun
    · simp only [hp] at hrun
      rw [Store.affected_of_remove (Store.onTable_eq_ok.1 hrun)]
      exact hs.length_selected_le_one h hp
  | select =>
    simp only [hkind] at hrun
    cases hrun

/-- In every store that is reached, each document has a key, no two documents of a collection have
equal keys, no database is empty, and a statement that asks for a key selects one document at most:
it answers one row at most, and affects one document at most. -/
theorem keys_tell_documents_apart (h : s.Reachable) :
    (∀ p, ∀ d ∈ s.documentsAt p, ∃ key, d.get? nativeKey = some key) ∧
    (∀ p, (s.documentsAt p).Pairwise Document.KeysDiffer) ∧
    (∀ name database, s.catalog.get? name = some database → database.isEmpty = false) ∧
    ∀ (c : Config) (t : Statement), t.AsksForKey c →
      (∀ cursor p after, (keyedPredicate c t).on cursor = (.ok p, after) →
        ((s.documentsAt (t.place c)).filter p.holds).length ≤ 1) ∧
      (∀ parameters rows, select c t parameters s = .ok rows → rows.length ≤ 1) ∧
      ∀ parameters n s', (modify c t parameters).on s = (.ok n, s') → n ≤ 1 := by
  have hs := h.sound
  refine ⟨fun p => (hs.wellKeyed p).keyed, fun p => (hs.wellKeyed p).differ, hs.inhabited,
    fun c t ht => ⟨?_, ?_, ?_⟩⟩
  · exact fun _ _ _ hp => hs.length_selected_le_one ht hp
  · exact fun _ _ hrows => hs.length_select_le_one ht hrows
  · exact fun _ _ _ hrun => hs.affected_le_one ht hrun

/-- `DELETE FROM users WHERE id = ?`. -/
def deleteUser : Statement :=
  { kind := .delete, table := "users",
    criteria := { items := [.condition (equalCondition "id" "?")] }, placeholders := 1 }

theorem keys_tell_two_users_apart :
    twoUsers.Reachable ∧ deleteUser.AsksForKey Workspace.local.client.config ∧
      (twoUsers.documentsAt ⟨"mydb", "users"⟩).length = 2 ∧
      (twoUsers.documentsAt ⟨"mydb", "users"⟩).Pairwise Document.KeysDiffer ∧
      ((modify Workspace.local.client.config deleteUser [.ofInt 1]).on twoUsers).1.toOption = some 1 ∧
      ∀ n s', (modify Workspace.local.client.config deleteUser [.ofInt 1]).on twoUsers = (.ok n, s') →
        n ≤ 1 := by
  have hasks : deleteUser.AsksForKey Workspace.local.client.config :=
    ⟨"id", "?", rfl, .inr (by decide +kernel)⟩
  obtain ⟨-, hdiffer, -, hone⟩ := keys_tell_documents_apart reachable_twoUsers
  exact ⟨reachable_twoUsers, hasks, by decide +kernel, hdiffer _, by decide +kernel,
    fun n s' => (hone _ _ hasks).2.2 _ n s'⟩

end Schemaless
