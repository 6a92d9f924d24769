/-!
# Maps kept in key order

A document, a database and a configuration section are all maps from names to something, and each
shows its entries in the order of the names. `SortedMap` keeps the entries in that order, so two
maps with the same look-ups are the same map (`SortedMap.ext_get?`); `get?_insert` and `get?_erase`
say what the two writes do to a look-up.
-/

namespace Schemaless

variable {α : Type}

/-- Entries whose names strictly increase. -/
def Ascending (entries : List (String × α)) : Prop :=
  entries.Pairwise (fun a b => a.1 < b.1)

/-! ## Entry lists -/

/-- Writes one entry into an ordered list, in its place or over the entry of the same name. -/
def insertEntry (name : String) (value : α) : List (String × α) → List (String × α)
  | [] => [(name, value)]
  | (n, v) :: rest =>
    if name < n then (name, value) :: (n, v) :: rest
    else if name = n then (name, value) :: rest
    else (n, v) :: insertEntry name value rest

/-- Drops every entry of one name. -/
def eraseEntry (name : String) (entries : List (String × α)) : List (String × α) :=
  entries.filter (fun e => e.1 != name)

theorem lookup_entry_cons (n m : String) (v : α) (rest : List (String × α)) :
    ((m, v) :: rest).lookup n = if n = m then some v else rest.lookup n := by
  by_cases h : n = m
  · simp [h]
  · have : (n == m) = false := by simpa using h
    simp [List.lookup_cons, this, h]

theorem lookup_insertEntry (name n : String) (value : α) (entries : List (String × α)) :
    (insertEntry name value entries).lookup n =
      if n = name then some value else entries.lookup n := by
  induction entries with
  | nil => rw [insertEntry, lookup_entry_cons]
  | cons e rest ih =>
    obtain ⟨m, v⟩ := e
    rw [insertEntry]
    split
    · rw [lookup_entry_cons]
    · split
      · next h => subst h; grind [lookup_entry_cons]
      · grind [lookup_entry_cons]

theorem mem_insertEntry {name : String} {value : α} {entries : List (String × α)}
    {e : String × α} (h : e ∈ insertEntry name value entries) :
    e = (name, value) ∨ e ∈ entries := by
  induction entries with
  | nil => simp_all [insertEntry]
  | cons x rest ih =>
    obtain ⟨m, v⟩ := x
    rw [insertEntry] at h
    split at h
    · simp_all
    · split at h <;> simp_all <;> grind

theorem Ascending.insertEntry {entries : List (String × α)} (h : Ascending entries)
    (name : String) (value : α) : Ascending (insertEntry name value entries) := by
  induction entries with
  | nil => simp [Schemaless.insertEntry, Ascending]
  | cons x rest ih =>
    obtain ⟨m, v⟩ := x
    obtain ⟨hm, hr⟩ := List.pairwise_cons.1 h
    rw [Schemaless.insertEntry]
    split
    · next hlt =>
      refine List.pairwise_cons.2 ⟨fun e he => ?_, h⟩
      rcases List.mem_cons.1 he with rfl | he
      · exact hlt
      · exact String.lt_trans hlt (hm e he)
    · split
      · next heq => subst heq; exact List.pairwise_cons.2 ⟨hm, hr⟩
      · next hnlt hne =>
        refine List.pairwise_cons.2 ⟨fun e he => ?_, ih hr⟩
        rcases mem_insertEntry he with rfl | he
        · exact Std.not_le.1 fun hle => hne (String.le_antisymm hle (Std.not_lt.1 hnlt))
        · exact hm e he

theorem lookup_eraseEntry (name n : String) (entries : List (String × α)) :
    (eraseEntry name entries).lookup n = if n = name then none else entries.lookup n := by
  induction entries with
  | nil => simp [eraseEntry]
  | cons e rest ih =>
    obtain ⟨m, v⟩ := e
    have step : eraseEntry name ((m, v) :: rest) =
        if m = name then eraseEntry name rest else (m, v) :: eraseEntry name rest := by
      by_cases hm : m = name <;> simp [eraseEntry, hm]
    rw [step, lookup_entry_cons]
    split
    · grind
    · grind [lookup_entry_cons]

theorem Ascending.eraseEntry {entries : List (String × α)} (h : Ascending entries)
    (name : String) : Ascending (eraseEntry name entries) :=
  h.filter _

theorem Ascending.lookup_eq_none {name : String} {entries : List (String × α)}
    (h : ∀ e ∈ entries, name < e.1) : entries.lookup name = none := by
  rw [List.lookup_eq_none_iff]
  intro e he
  have := h e he
  have : ¬name = e.1 := fun heq => String.lt_irrefl e.1 (heq ▸ this)
  simpa using this

/-- Ordered entry lists with the same look-ups are the same list. -/
theorem Ascending.eq_of_lookup {a b : List (String × α)} (ha : Ascending a) (hb : Ascending b)
    (h : ∀ n, a.lookup n = b.lookup n) : a = b := by
  induction a generalizing b with
  | nil =>
    cases b with
    | nil => rfl
    | cons e _ =>
      obtain ⟨m, v⟩ := e
      have := h m
      simp at this
  | cons e a ih =>
    obtain ⟨m, v⟩ := e
    obtain ⟨hm, ha'⟩ := List.pairwise_cons.1 ha
    cases b with
    | nil =>
      have := h m
      simp at this
    | cons e' b =>
      obtain ⟨m', v'⟩ := e'
      obtain ⟨hm', hb'⟩ := List.pairwise_cons.1 hb
      have hmm : m = m' := by
        refine String.le_antisymm (Std.not_lt.1 fun hlt => ?_) (Std.not_lt.1 fun hlt => ?_)
        · have hn : a.lookup m' = none := Ascending.lookup_eq_none
            fun e he => String.lt_trans hlt (hm e he)
          have hne : m' ≠ m := fun e => String.lt_irrefl m (e ▸ hlt)
          have := h m'
          simp [lookup_entry_cons, hn, hne] at this
        · have hn : b.lookup m = none := Ascending.lookup_eq_none
            fun e he => String.lt_trans hlt (hm' e he)
          have hne : m ≠ m' := fun e => String.lt_irrefl m' (e ▸ hlt)
          have := h m
          simp [lookup_entry_cons, hn, hne] at this
      subst hmm
      have hv : v = v' := by simpa [lookup_entry_cons] using h m
      subst hv
      congr 1
      refine ih ha' hb' fun n => ?_
      by_cases hn : n = m
      · subst hn
        rw [Ascending.lookup_eq_none hm, Ascending.lookup_eq_none hm']
      · simpa [lookup_entry_cons, hn] using h n

/-! ## The map -/

/-- A map from names, its entries in the order of the names. -/
structure SortedMap (α : Type) where
  entries : List (String × α) := []
  ascending : Ascending entries := by exact List.Pairwise.nil

namespace SortedMap

/-- The map without entries. -/
def empty : SortedMap α := {}

instance : Inhabited (SortedMap α) := ⟨empty⟩

def get? (m : SortedMap α) (name : String) : Option α := m.entries.lookup name

def contains (m : SortedMap α) (name : String) : Bool := (m.get? name).isSome

def isEmpty (m : SortedMap α) : Bool := m.entries.isEmpty

def names (m : SortedMap α) : List String := m.entries.map (·.1)

/-- Sets one entry. -/
def insert (m : SortedMap α) (name : String) (value : α) : SortedMap α :=
  ⟨insertEntry name value m.entries, m.ascending.insertEntry name value⟩

/-- Removes one entry, if it is there. -/
def erase (m : SortedMap α) (name : String) : SortedMap α :=
  ⟨eraseEntry name m.entries, m.ascending.eraseEntry name⟩

/-- Sets one entry unless the name has one already. -/
def insertNew (m : SortedMap α) (name : String) (value : α) : SortedMap α :=
  if m.contains name then m else m.insert name value

/-- The map of a list of entries; the last entry of a name counts. -/
def ofList (entries : List (String × α)) : SortedMap α :=
  entries.foldl (fun m e => m.insert e.1 e.2) empty

theorem ext_get? {a b : SortedMap α} (h : ∀ n, a.get? n = b.get? n) : a = b := by
  obtain ⟨ea, ha⟩ := a
  obtain ⟨eb, hb⟩ := b
  have : ea = eb := Ascending.eq_of_lookup ha hb h
  subst this
  rfl

@[simp] theorem get?_empty (n : String) : (empty : SortedMap α).get? n = none := rfl

theorem get?_insert (m : SortedMap α) (name n : String) (value : α) :
    (m.insert name value).get? n = if n = name then some value else m.get? n :=
  lookup_insertEntry name n value m.entries

theorem get?_erase (m : SortedMap α) (name n : String) :
    (m.erase name).get? n = if n = name then none else m.get? n :=
  lookup_eraseEntry name n m.entries

theorem get?_insertNew (m : SortedMap α) (name n : String) (value : α) :
    (m.insertNew name value).get? n =
      if n = name then some ((m.get? n).getD value) else m.get? n := by
  unfold insertNew contains
  cases hm : m.get? name with
  | none => by_cases h : n = name <;> simp [get?_insert, h, hm]
  | some v => by_cases h : n = name <;> simp [h, hm]

end SortedMap

end Schemaless
