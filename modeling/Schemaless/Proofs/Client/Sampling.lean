import Mathlib.Data.List.Induction
import Schemaless.Proofs.Client.Persistence
import Schemaless.Proofs.Store.Projection

/-!
# What a sample shows

The columns of a table are those of its first documents. Names are gathered document by document; one more
document adds, behind the names that are there, those of its fields that are new, in their order
(`sampledNames_concat`). Two facts follow by induction from the end of the sample: every name that occurs
stands there once, by the document that has it first (`pairwise_sampledNames`), and a longer sample only
goes on with the names (`sampledNames_isPrefix`).
-/

namespace Schemaless

open ClientM

variable {documents : List Document} {names more : List String} {name : String}

/-! ## Names -/

/-- One name is met before another: in an earlier document, or earlier in the same one. -/
def SeenBefore (documents : List Document) (a b : String) : Prop :=
  documents.findIdx (·.contains a) < documents.findIdx (·.contains b) ∨
    documents.findIdx (·.contains a) = documents.findIdx (·.contains b) ∧ a < b

theorem SeenBefore.ne {a b : String} (h : SeenBefore documents a b) : a ≠ b := by
  rintro rfl
  rcases h with hlt | ⟨-, hlt⟩
  · exact Nat.lt_irrefl _ hlt
  · exact String.lt_irrefl _ hlt

/-- Names that differ from each other are added in their order, but for those that are there. -/
theorem addNames_eq (h : more.Nodup) :
    addNames names more = names ++ more.filter fun n => !names.contains n := by
  induction more generalizing names with
  | nil => simp [addNames]
  | cons n more ih =>
    obtain ⟨hn, hmore⟩ := List.nodup_cons.1 h
    rw [addNames, List.foldl_cons, ← addNames, ih hmore]
    by_cases hin : names.contains n = true
    · rw [if_pos hin, List.filter_cons_of_neg (by simpa using hin)]
    · have hsame : more.filter (fun m => !(names ++ [n]).contains m) =
          more.filter fun m => !names.contains m := by
        refine List.filter_congr fun m hm => ?_
        have hne : m ≠ n := by
          rintro rfl
          exact hn hm
        simp [hne]
      rw [if_neg hin, List.filter_cons_of_pos (by simpa using hin), hsame, List.append_assoc]
      rfl

/-- The names of a document's fields stand in their order. -/
theorem pairwise_names (d : Document) : d.names.Pairwise (· < ·) :=
  List.pairwise_map.2 d.ascending

theorem mem_names_iff_contains {d : Document} : name ∈ d.names ↔ d.contains name = true := by
  rw [SortedMap.mem_names_iff, SortedMap.contains, Option.isSome_iff_exists]

/-- One more document adds the names of its fields that are new. -/
theorem sampledNames_concat (documents : List Document) (d : Document) :
    sampledNames (documents ++ [d]) =
      sampledNames documents ++ d.names.filter fun n => !(sampledNames documents).contains n := by
  have hnodup : d.names.Nodup := (pairwise_names d).imp fun h => String.ne_of_lt h
  rw [← addNames_eq hnodup, sampledNames, List.foldl_concat, ← sampledNames]

theorem mem_sampledNames_iff :
    name ∈ sampledNames documents ↔ ∃ d ∈ documents, d.contains name = true := by
  induction documents using List.reverseRecOn with
  | nil => simp [sampledNames]
  | append_singleton documents d ih =>
    rw [sampledNames_concat, List.mem_append, List.mem_filter, mem_names_iff_contains, ih]
    by_cases hbefore : ∃ e ∈ documents, e.contains name = true
    · obtain ⟨e, he, hname⟩ := hbefore
      exact iff_of_true (.inl ⟨e, he, hname⟩) ⟨e, List.mem_append_left _ he, hname⟩
    · have hnew : name ∉ sampledNames documents := mt ih.1 hbefore
      simp [hbefore, hnew, or_and_right, exists_or]

theorem findIdx_lt_of_mem (h : name ∈ sampledNames documents) :
    documents.findIdx (·.contains name) < documents.length :=
  List.findIdx_lt_length_of_exists (mem_sampledNames_iff.1 h)

theorem findIdx_eq_of_not_mem (h : name ∉ sampledNames documents) :
    documents.findIdx (·.contains name) = documents.length := by
  rw [List.findIdx_eq_length]
  intro d hd
  rw [Bool.eq_false_iff]
  exact fun hname => h (mem_sampledNames_iff.2 ⟨d, hd, hname⟩)

/-- The names stand in the order in which they are met. -/
theorem pairwise_sampledNames (documents : List Document) :
    (sampledNames documents).Pairwise (SeenBefore documents) := by
  induction documents using List.reverseRecOn with
  | nil => exact List.Pairwise.nil
  | append_singleton documents d ih =>
    -- a name that is there was met in an earlier document, a new one is met in the last
    have hold {n : String} (hn : n ∈ sampledNames documents) :
        (documents ++ [d]).findIdx (·.contains n) = documents.findIdx (·.contains n) := by
      rw [List.findIdx_append, if_pos (findIdx_lt_of_mem hn)]
    have hnew {n : String} (hn : n ∈ d.names.filter fun n => !(sampledNames documents).contains n) :
        (documents ++ [d]).findIdx (·.contains n) = documents.length := by
      obtain ⟨hd, hn⟩ := List.mem_filter.1 hn
      have hnot : n ∉ sampledNames documents := by simpa using hn
      rw [List.findIdx_append, findIdx_eq_of_not_mem hnot, if_neg (Nat.lt_irrefl _)]
      simp [List.findIdx_cons, mem_names_iff_contains.1 hd]
    rw [sampledNames_concat, List.pairwise_append]
    refine ⟨?_, ?_, ?_⟩
    · refine ih.imp_of_mem fun ha hb hab => ?_
      rwa [SeenBefore, hold ha, hold hb]
    · refine ((pairwise_names d).filter _).imp_of_mem fun ha hb hab => ?_
      exact .inr ⟨(hnew ha).trans (hnew hb).symm, hab⟩
    · intro a ha b hb
      refine .inl ?_
      rw [hold ha, hnew hb]
      exact findIdx_lt_of_mem ha

theorem sampledNames_isPrefix {documents longer : List Document} (h : documents <+: longer) :
    sampledNames documents <+: sampledNames longer := by
  obtain ⟨rest, rfl⟩ := h
  induction rest using List.reverseRecOn with
  | nil => simp
  | append_singleton rest d ih =>
    rw [← List.append_assoc, sampledNames_concat]
    exact ih.trans (List.prefix_append _ _)

/-! ## Columns -/

/-- These are the columns of a sample: each name of a field once, in the order in which the names are met,
with the kind of its value in the last document, or none if it has no value there. -/
structure ShowSample (documents : List Document) (columns : List SampledColumn) : Prop where
  mem_iff : ∀ name, name ∈ columns.map (·.name) ↔ ∃ d ∈ documents, d.contains name = true
  nodup : (columns.map (·.name)).Nodup
  ordered : (columns.map (·.name)).Pairwise (SeenBefore documents)
  kind_eq : ∀ column ∈ columns, ∀ before last, documents = before ++ [last] →
    column.kind = (last.get? column.name).map Value.kind

theorem names_sampledColumns (documents : List Document) :
    (sampledColumns documents).map (·.name) = sampledNames documents := by
  rw [sampledColumns, List.map_map]
  exact List.map_id _

theorem showSample_sampledColumns (documents : List Document) :
    ShowSample documents (sampledColumns documents) := by
  have hordered := pairwise_sampledNames documents
  rw [← names_sampledColumns] at hordered
  refine ⟨fun name => ?_, hordered.imp SeenBefore.ne, hordered, ?_⟩
  · rw [names_sampledColumns, mem_sampledNames_iff]
  · rintro column hcolumn before last rfl
    obtain ⟨name, -, rfl⟩ := List.mem_map.1 hcolumn
    rw [List.getLast?_concat]
    rfl

/-- The kind is that of the last document, also where a name was met before. -/
example : sampledColumns
    [.ofList [("id", .ofInt 1), ("name", .str "Ada")], .ofList [("id", .str "b"), ("at", .null)]] =
      [⟨"id", some .string⟩, ⟨"name", none⟩, ⟨"at", some .null⟩] := by decide

/-! ## Samples of a table -/

namespace Client

/-- The client with another bound of its samples. -/
def sampling (c : Client) (limit : Nat) : Client :=
  { c with config := { c.config with maxSampled := limit } }

/-- The bound of samples does not matter for a session. -/
theorem acquire_sampling (c : Client) (limit : Nat) :
    acquire.on (c.sampling limit) = ((acquire.on c).1, (acquire.on c).2.sampling limit) := by
  have hconnect : (c.sampling limit).connect = c.connect := rfl
  have hpool : (c.sampling limit).pool = c.pool := rfl
  show acquire (c.sampling limit) = ((acquire c).1, (acquire c).2.sampling limit)
  unfold acquire
  rw [hconnect, hpool]
  cases c.pool.take? with
  | some taken => rfl
  | none => cases c.connect <;> rfl

theorem on_columns_sampling (c : Client) (table : String) (limit : Nat) :
    ((columns table).on (c.sampling limit)).1 =
      (acquire.on c).1.map fun _ =>
        sampledColumns ((c.store.documentsAt (c.placeOf table)).take limit) := by
  obtain ⟨r, pool, hacquire⟩ := on_acquire c
  rw [columns, Effect.on_bind, Effect.on_get]
  dsimp only
  rw [on_withSession, acquire_sampling, hacquire]
  cases r <;> rfl

/-- Whoever gets a session sees the columns of the first documents of a table, up to the bound. A larger
bound goes on with the names, and past the last document it changes nothing. -/
theorem columns_of_first_documents (c : Client) (table : String) :
    ∃ shown : Nat → List SampledColumn,
      (∀ limit, ((columns table).on (c.sampling limit)).1 = (acquire.on c).1.map fun _ => shown limit) ∧
        (∀ limit, ShowSample ((c.store.documentsAt (c.placeOf table)).take limit) (shown limit)) ∧
        (∀ limit, (shown limit).map (·.name) <+: (shown (limit + 1)).map (·.name)) ∧
        ∀ limit larger, (c.store.documentsAt (c.placeOf table)).length ≤ limit → limit ≤ larger →
          shown larger = shown limit := by
  refine ⟨fun limit => sampledColumns ((c.store.documentsAt (c.placeOf table)).take limit),
    c.on_columns_sampling table, fun limit => showSample_sampledColumns _, fun limit => ?_, ?_⟩
  · rw [names_sampledColumns, names_sampledColumns]
    exact sampledNames_isPrefix (List.take_prefix_take_left (Nat.le_succ limit))
  · intro limit larger hall hlarger
    simp only [List.take_of_length_le hall, List.take_of_length_le (Nat.le_trans hall hlarger)]

end Client

end Schemaless
