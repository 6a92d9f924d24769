import Schemaless.Proofs.Store.Selection

/-!
# What the columns of a row show

A row is laid out column by column. Each column takes its field out of the document and puts the value
under its output name, over what an earlier column put there. So a name shows what the last column of that
name found (`Row.get?_project_of_last`), and a column finds its field unless a column before it took the
same one (`SortedMap.get?_foldl_erase`). Rows are what their columns declare, for every document, exactly
if no column that is shown repeats a field (`rows_show_columns_iff`).
-/

namespace Schemaless

open Sql

/-! ## Fields taken -/

namespace SortedMap

variable {α : Type}

/-- Of several names removed, none is there any more, and the others are as they were. -/
theorem get?_foldl_erase (m : SortedMap α) (names : List String) (name : String) :
    (names.foldl erase m).get? name = if name ∈ names then none else m.get? name := by
  induction names generalizing m with
  | nil => rfl
  | cons n rest ih =>
    rw [List.foldl_cons, ih, get?_erase]
    by_cases hrest : name ∈ rest
    · rw [if_pos hrest, if_pos (List.mem_cons_of_mem _ hrest)]
    · by_cases hn : name = n
      · rw [if_neg hrest, if_pos hn, if_pos (hn ▸ List.mem_cons_self)]
      · rw [if_neg hrest, if_neg hn, if_neg (by simp [hn, hrest])]

end SortedMap

/-! ## Columns of one name -/

/-- `c` stands behind the columns `before`, and no column behind it has its output name. -/
def LastShown (columns before : List Column) (c : Column) : Prop :=
  ∃ after, columns = before ++ c :: after ∧ c.output ∉ after.map fun e => e.output

/-- No column that is the last of its output name has the field of a column before it. -/
def ReadsOnce (columns : List Column) : Prop :=
  ∀ before c, LastShown columns before c → c.name ∉ before.map fun e => e.name

theorem exists_lastShown {columns : List Column} {name : String}
    (h : name ∈ columns.map fun c => c.output) :
    ∃ before c, LastShown columns before c ∧ c.output = name := by
  induction columns with
  | nil => cases h
  | cons c rest ih =>
    by_cases hrest : name ∈ rest.map fun e => e.output
    · obtain ⟨before, e, ⟨after, hat, hlast⟩, hname⟩ := ih hrest
      exact ⟨c :: before, e, ⟨after, by rw [hat, List.cons_append], hlast⟩, hname⟩
    · have hname : name = c.output := (List.mem_cons.1 h).resolve_right hrest
      subst hname
      exact ⟨[], c, ⟨rest, rfl, hrest⟩, rfl⟩

namespace Row

/-- The row has the output names of the columns, in their order, and shows under each of them the field of
the last column of that name, null where the document lacks it. -/
structure Shows (columns : List Column) (d : Document) (r : Row) : Prop where
  outputs : r.columns = columns.map fun c => c.output
  names : ∀ name, name ∈ r.values.names ↔ name ∈ columns.map fun c => c.output
  values : ∀ before c, LastShown columns before c →
    r.values.get? c.output = some ((d.get? c.name).getD .null)

/-! ## Laying out a row -/

theorem project_append (before after : List Column) (d values : Document) :
    project (before ++ after) d values =
      project after ((before.map fun c => c.name).foldl SortedMap.erase d)
        (project before d values) := by
  induction before generalizing d values with
  | nil => rfl
  | cons c rest ih =>
    rw [List.cons_append, project, ih]
    rfl

theorem get?_project_of_not_mem {columns : List Column} {name : String}
    (h : name ∉ columns.map fun c => c.output) (d values : Document) :
    (project columns d values).get? name = values.get? name := by
  induction columns generalizing d values with
  | nil => rfl
  | cons c rest ih =>
    rw [List.map_cons, List.mem_cons, not_or] at h
    rw [project, ih h.2, SortedMap.get?_insert, if_neg h.1]

/-- The last column of a name shows its field, unless the field was taken before. -/
theorem get?_project_of_last {columns before : List Column} {c : Column}
    (h : LastShown columns before c) (d values : Document) :
    (project columns d values).get? c.output =
      some (if c.name ∈ before.map fun e => e.name then .null else (d.get? c.name).getD .null) := by
  obtain ⟨after, rfl, hlast⟩ := h
  rw [project_append, project, get?_project_of_not_mem hlast, SortedMap.get?_insert, if_pos rfl,
    SortedMap.get?_foldl_erase]
  split <;> rfl

theorem mem_names_project (columns : List Column) (d : Document) (name : String) :
    name ∈ (project columns d SortedMap.empty).names ↔ name ∈ columns.map fun c => c.output := by
  rw [SortedMap.mem_names_iff]
  constructor
  · rintro ⟨v, hv⟩
    apply Decidable.byContradiction
    intro hnone
    rw [get?_project_of_not_mem hnone] at hv
    cases hv
  · intro hmem
    obtain ⟨before, c, hlast, rfl⟩ := exists_lastShown hmem
    exact ⟨_, get?_project_of_last hlast d _⟩

theorem ofDocument_of_ne_nil {s : Statement} (h : s.columns ≠ []) (d : Document) :
    ofDocument s d = ⟨s.outputs, project s.columns d SortedMap.empty⟩ := by
  rw [ofDocument]
  split
  · next hnone => exact absurd hnone h
  · rfl

/-- Where each column that is shown finds its field, the row is what the columns declare. -/
theorem shows_ofDocument_iff {s : Statement} (h : s.columns ≠ []) (d : Document) :
    (ofDocument s d).Shows s.columns d ↔
      ∀ before c, LastShown s.columns before c → (c.name ∈ before.map fun e => e.name) →
        (d.get? c.name).getD .null = .null := by
  have hvalue {before : List Column} {c : Column} (hlast : LastShown s.columns before c) :=
    get?_project_of_last hlast d SortedMap.empty
  rw [ofDocument_of_ne_nil h]
  constructor
  · intro hshows before c hlast htaken
    have hshown := (hvalue hlast).symm.trans (hshows.values before c hlast)
    rw [if_pos htaken] at hshown
    exact (Option.some.inj hshown).symm
  · intro hnull
    refine ⟨rfl, mem_names_project s.columns d, fun before c hlast => ?_⟩
    rw [hvalue hlast]
    split
    · next htaken => rw [hnull before c hlast htaken]
    · rfl

end Row

/-! ## Rows of a statement -/

/-- A row has the output names of its columns in declared order, its values stand under exactly these names,
and under each name stands the field of the last column of that name, or null if the document lacks the
field or a column before took it. So the rows of all documents are what the columns declare exactly if no
column that is shown repeats the field of one before it. The rows that a `SELECT` answers are such rows of
documents of its table, in their order. -/
theorem rows_show_columns_iff {s : Statement} (h : s.columns ≠ []) :
    (∀ d, (Row.ofDocument s d).columns = s.columns.map (fun c => c.output) ∧
      (∀ name, name ∈ (Row.ofDocument s d).values.names ↔ name ∈ s.columns.map fun c => c.output) ∧
      ∀ before c, LastShown s.columns before c →
        (Row.ofDocument s d).values.get? c.output =
          some (if c.name ∈ before.map fun e => e.name then .null
            else (d.get? c.name).getD .null)) ∧
      ((∀ d, (Row.ofDocument s d).Shows s.columns d) ↔ ReadsOnce s.columns) ∧
      ∀ c parameters store rows, select c s parameters store = .ok rows →
        ∃ ds : Collection, ds.Sublist (store.documentsAt (s.place c)) ∧ rows = ds.map (Row.ofDocument s) := by
  refine ⟨fun d => ?_, ⟨fun hshows before c hlast htaken => ?_, fun honce d => ?_⟩, ?_⟩
  · rw [Row.ofDocument_of_ne_nil h]
    exact ⟨rfl, Row.mem_names_project s.columns d, fun before c hlast =>
      Row.get?_project_of_last hlast d _⟩
  · -- a document that has the field shows that it was taken
    have hnull := (Row.shows_ofDocument_iff h _).1 (hshows (SortedMap.empty.insert c.name (.bool true)))
      before c hlast htaken
    rw [SortedMap.get?_insert, if_pos rfl] at hnull
    cases hnull
  · exact (Row.shows_ofDocument_iff h d).2 fun before c hlast htaken =>
      absurd htaken (honce before c hlast)
  · intro c parameters store rows hrows
    by_cases hkind : s.kind = .select
    · rw [select_eq hkind] at hrows
      cases hbound : ((keyedPredicate c s).on { parameters }).1 with
      | error e =>
        rw [hbound] at hrows
        cases hrows
      | ok p =>
        rw [hbound] at hrows
        cases hrows
        exact ⟨_, List.filter_sublist, rfl⟩
    · rw [select, if_pos hkind] at hrows
      cases hrows

/-- `SELECT name AS label, id AS label, id FROM users`. -/
def relabelledUsers : Statement :=
  { kind := .select, table := "users",
    columns := [{ name := "name", label := some "label" }, { name := "id", label := some "label" },
      { name := "id" }] }

/-- A user with a key and a name. -/
def userAda : Document := SortedMap.ofList [("id", .ofInt 1), ("name", .str "Ada")]

theorem rows_show_columns_iff_relabelledUsers :
    relabelledUsers.columns ≠ [] ∧ ¬ReadsOnce relabelledUsers.columns ∧
      (Row.ofDocument relabelledUsers userAda).columns = ["label", "label", "id"] ∧
      (Row.ofDocument relabelledUsers userAda).values.get? "label" = some (.ofInt 1) ∧
      (Row.ofDocument relabelledUsers userAda).values.get? "id" = some .null := by
  have hne : relabelledUsers.columns ≠ [] := List.cons_ne_nil _ _
  obtain ⟨hrow, honce, -⟩ := rows_show_columns_iff hne
  obtain ⟨hcolumns, -, hvalues⟩ := hrow userAda
  have hlabel : LastShown relabelledUsers.columns [{ name := "name", label := some "label" }]
      { name := "id", label := some "label" } := ⟨[{ name := "id" }], rfl, by decide⟩
  have hid : LastShown relabelledUsers.columns
      [{ name := "name", label := some "label" }, { name := "id", label := some "label" }]
      { name := "id" } := ⟨[], rfl, by decide⟩
  refine ⟨hne, fun h => h _ _ hid (by decide), hcolumns, ?_, ?_⟩
  · exact (hvalues _ _ hlabel).trans (congrArg some (if_neg (by decide)))
  · exact (hvalues _ _ hid).trans (congrArg some (if_pos (by decide)))

/-- `SELECT name, name AS label FROM users`. -/
def nameTwice : Statement :=
  { kind := .select, table := "users",
    columns := [{ name := "name" }, { name := "name", label := some "label" }] }

/-- The second of two columns on one field shows null, though the document has the field. -/
theorem repeated_column_reads_null :
    ¬∀ (s : Statement) (d : Document), s.kind = .select → s.columns ≠ [] →
      (Row.ofDocument s d).Shows s.columns d := by
  intro h
  have hshows := h nameTwice userAda rfl (List.cons_ne_nil _ _)
  have hlast : LastShown nameTwice.columns [{ name := "name" }]
      { name := "name", label := some "label" } := ⟨[], rfl, by decide⟩
  have hlabel : (Row.ofDocument nameTwice userAda).values.get? "label" = some (.str "Ada") :=
    hshows.values _ _ hlast
  cases hlabel

end Schemaless
