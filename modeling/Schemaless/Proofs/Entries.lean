import Schemaless.SortedMap.Basic
import Mathlib.Data.List.Nodup

/-!
# What the entries of a list give

In a list with one entry of each name, a look-up finds an entry exactly if it is there
(`lookup_eq_some_iff_mem`), so the order of such a list does not matter (`lookup_perm`). The entries of a
map are such a list, and a map that is built from entries has the last one of each name
(`SortedMap.get?_foldl_insert`).
-/

namespace Schemaless

variable {α : Type} {entries others : List (String × α)} {name : String} {v : α}

/-! ## The last entry of a name -/

theorem lookup_reverse_cons (e : String × α) (rest : List (String × α)) (name : String) :
    (e :: rest).reverse.lookup name =
      (rest.reverse.lookup name).or (if name = e.1 then some e.2 else none) := by
  have hlast : List.lookup name [e] = if name = e.1 then some e.2 else none :=
    lookup_entry_cons name e.1 e.2 []
  rw [List.reverse_cons, List.lookup_append, hlast]

/-! ## Entries of distinct names -/

theorem lookup_eq_some_iff_mem (hdistinct : (entries.map fun e => e.1).Nodup) :
    entries.lookup name = some v ↔ (name, v) ∈ entries := by
  induction entries with
  | nil => simp
  | cons e rest ih =>
    obtain ⟨m, w⟩ := e
    obtain ⟨hm, hrest⟩ := List.nodup_cons.1 hdistinct
    rw [lookup_entry_cons, List.mem_cons, Prod.mk.injEq]
    by_cases hname : name = m
    · subst hname
      have hnot : (name, v) ∉ rest := fun hmem => hm (List.mem_map.2 ⟨(name, v), hmem, rfl⟩)
      simp [hnot, eq_comm]
    · simp [hname, ih hrest]

theorem lookup_perm (hdistinct : (entries.map fun e => e.1).Nodup) (h : entries.Perm others)
    (name : String) : others.lookup name = entries.lookup name := by
  have hothers : (others.map fun e => e.1).Nodup := (h.map _).nodup_iff.1 hdistinct
  refine Option.ext fun v => ?_
  rw [lookup_eq_some_iff_mem hothers, lookup_eq_some_iff_mem hdistinct, h.mem_iff]

theorem Ascending.nodup_names (h : Ascending entries) : (entries.map fun e => e.1).Nodup := by
  refine List.pairwise_map.2 (h.imp fun {a b} hlt heq => ?_)
  rw [heq] at hlt
  exact String.lt_irrefl b.1 hlt

theorem Ascending.lookup_eq_some_iff (h : Ascending entries) :
    entries.lookup name = some v ↔ (name, v) ∈ entries :=
  lookup_eq_some_iff_mem h.nodup_names

/-! ## The entries of a map -/

namespace SortedMap

theorem mem_names_iff {m : SortedMap α} : name ∈ m.names ↔ ∃ v, m.get? name = some v := by
  constructor
  · intro h
    obtain ⟨e, he, rfl⟩ := List.mem_map.1 h
    exact ⟨e.2, (Ascending.lookup_eq_some_iff m.ascending).2 he⟩
  · rintro ⟨v, hv⟩
    exact List.mem_map.2 ⟨(name, v), (Ascending.lookup_eq_some_iff m.ascending).1 hv, rfl⟩

/-- Of several entries of one name written into a map, the last one counts. -/
theorem get?_foldl_insert (entries : List (String × α)) (m : SortedMap α) (name : String) :
    (entries.foldl (fun m e => m.insert e.1 e.2) m).get? name =
      (entries.reverse.lookup name).or (m.get? name) := by
  induction entries generalizing m with
  | nil => rfl
  | cons e rest ih =>
    rw [List.foldl_cons, ih, lookup_reverse_cons, get?_insert, Option.or_assoc]
    split <;> rfl

theorem get?_ofList_eq_lookup (hdistinct : (entries.map fun e => e.1).Nodup) (name : String) :
    (ofList entries).get? name = entries.lookup name := by
  rw [ofList, get?_foldl_insert, get?_empty, Option.or_none,
    lookup_perm hdistinct (List.reverse_perm entries).symm]

theorem get?_ofList (hdistinct : (entries.map fun e => e.1).Nodup) :
    (ofList entries).get? name = some v ↔ (name, v) ∈ entries := by
  rw [get?_ofList_eq_lookup hdistinct, lookup_eq_some_iff_mem hdistinct]

/-- The entries of a map written into another stand over those that were there. -/
theorem get?_foldl_insert_entries (m fields : SortedMap α) (name : String) :
    (fields.entries.foldl (fun m e => m.insert e.1 e.2) m).get? name =
      (fields.get? name).or (m.get? name) := by
  rw [get?_foldl_insert, lookup_perm fields.ascending.nodup_names (List.reverse_perm _).symm]
  rfl

theorem ofList_entries (m : SortedMap α) : ofList m.entries = m :=
  ext_get? fun name => get?_ofList_eq_lookup m.ascending.nodup_names name

end SortedMap

end Schemaless
