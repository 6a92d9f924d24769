import Schemaless.Shell.Command
import Schemaless.Proofs.Client.Rows

/-!
# Seeds and insertions

A seed is loaded past the client: each document gets its logical key and goes to the store. Inserted
by a client, the same document becomes the text of an `INSERT` and a list of parameters, is parsed and
bound, and gets its logical key there. Both come to one insertion in the store (`loadRow`): seeding is
a list of them by the way its tables are loaded (`seedTables_tablesOf`), and the statements of a client
that can connect are the same list (`Client.on_insertRow`, `Client.on_insertRows`). So they agree on
every document, on every generated key, and on the document at which they stop.
-/

namespace Schemaless

open Sql

/-! ## What a seed holds -/

/-- The tables of a seed as values, each an array of its documents. -/
def tablesOf (entries : List (String × List Document)) : List (String × Value) :=
  entries.map fun e => (e.1, .arr (e.2.map Document.toValue))

/-- The documents of a seed with their tables, in the order in which they are loaded. -/
def seedRows (entries : List (String × List Document)) : List (String × Document) :=
  entries.flatMap fun e => e.2.map fun d => (e.1, d)

theorem seedRows_append (entries more : List (String × List Document)) :
    seedRows (entries ++ more) = seedRows entries ++ seedRows more := List.flatMap_append

theorem seedRows_singleton (table : String) (ds : List Document) :
    seedRows [(table, ds)] = ds.map fun d => (table, d) := List.append_nil _

/-- A place among the documents is a place in a table. -/
theorem exists_of_seedRows_eq {entries : List (String × List Document)}
    {before after : List (String × Document)} {table : String} {d : Document}
    (h : seedRows entries = before ++ (table, d) :: after) :
    ∃ earlier ds ds' later, entries = earlier ++ (table, ds ++ d :: ds') :: later ∧
      before = seedRows (earlier ++ [(table, ds)]) := by
  induction entries generalizing before with
  | nil =>
    cases before with
    | nil => cases h
    | cons row before => cases h
  | cons entry rest ih =>
    obtain ⟨name, docs⟩ := entry
    have hrows : (docs.map fun d => (name, d)) ++ seedRows rest = before ++ (table, d) :: after := h
    have hlater {before' : List (String × Document)}
        (hbefore : before = (docs.map fun d => (name, d)) ++ before')
        (hrest : seedRows rest = before' ++ (table, d) :: after) :
        ∃ earlier ds ds' later, (name, docs) :: rest = earlier ++ (table, ds ++ d :: ds') :: later ∧
          before = seedRows (earlier ++ [(table, ds)]) := by
      obtain ⟨earlier, ds, ds', later, rfl, rfl⟩ := ih hrest
      exact ⟨(name, docs) :: earlier, ds, ds', later, rfl, hbefore⟩
    rcases List.append_eq_append_iff.1 hrows with ⟨before', hbefore, hrest⟩ | ⟨left, hdocs, hrest⟩
    · exact hlater hbefore hrest
    · cases left with
      | nil =>
        rw [List.append_nil] at hdocs
        have hbefore : before = (docs.map fun d => (name, d)) ++ [] :=
          hdocs.symm.trans (List.append_nil _).symm
        exact hlater hbefore hrest.symm
      | cons row left =>
        obtain ⟨rfl, -⟩ := List.cons.inj hrest
        obtain ⟨ds, right, rfl, rfl, hright⟩ := List.map_eq_append_iff.1 hdocs
        obtain ⟨d', ds', rfl, hd, -⟩ := List.map_eq_cons_iff.1 hright
        cases hd
        refine ⟨[], ds, ds', rest, rfl, ?_⟩
        rw [List.nil_append, seedRows_singleton]

/-! ## Loading documents -/

variable {c : Config} {s s' : Store} {e : Failure}

/-- Loads a document into a table, under its logical key. -/
def loadRow (c : Config) (row : String × Document) : StoreM Unit :=
  Store.insert ⟨c.database, row.1⟩ (resolveKey c row.1 false row.2)

/-- Loads documents up to the first that is refused. -/
def loadRows (c : Config) : List (String × Document) → StoreM Unit
  | [] => pure ()
  | row :: rest => do
    loadRow c row
    loadRows c rest

theorem loadRows_append (before after : List (String × Document)) :
    loadRows c (before ++ after) = loadRows c before >>= fun _ => loadRows c after := by
  induction before with
  | nil => rw [List.nil_append, loadRows, pure_bind]
  | cons row rest ih => simp only [List.cons_append, loadRows, ih, bind_assoc]

theorem seedTable_eq (table : String) (ds : List Document) :
    seedTable c table ds = loadRows c (ds.map fun d => (table, d)) := by
  unfold seedTable
  induction ds with
  | nil => rfl
  | cons d ds ih =>
    rw [List.map_cons, List.map_cons, Store.insertAll, loadRows, ih]
    rfl

theorem seedDocuments_arr (table : String) (ds : List Document) :
    seedDocuments table (.arr (ds.map Document.toValue)) = .ok ds := by
  have hvalues : (ds.map Document.toValue).mapM Document.ofValue? = some ds := by
    induction ds with
    | nil => rfl
    | cons d ds ih =>
      have hd : Document.ofValue? d.toValue = some d := congrArg some d.ofList_entries
      rw [List.map_cons, List.mapM_cons, hd, ih]
      rfl
  simp only [seedDocuments, hvalues]

/-- The tables of a seed are loaded document by document. -/
theorem seedTables_tablesOf (entries : List (String × List Document)) (s : Store) :
    seedTables c (tablesOf entries) s =
      (((loadRows c (seedRows entries)).on s).1.mapError .failure,
        ((loadRows c (seedRows entries)).on s).2) := by
  induction entries generalizing s with
  | nil => rfl
  | cons e rest ih =>
    obtain ⟨table, ds⟩ := e
    have hrows : seedRows ((table, ds) :: rest) = (ds.map fun d => (table, d)) ++ seedRows rest := rfl
    have htables : tablesOf ((table, ds) :: rest) =
        (table, .arr (ds.map Document.toValue)) :: tablesOf rest := rfl
    rw [hrows, loadRows_append, htables, seedTables, seedDocuments_arr, Effect.on_bind]
    simp only [seedTable_eq]
    rcases (loadRows c (ds.map fun d => (table, d))).on s with ⟨e | _, t⟩
    · rfl
    · exact ih t

/-- Where documents are not all loaded, there is a first one that is refused. -/
theorem loadRows_eq_error {rows : List (String × Document)}
    (h : (loadRows c rows).on s = (.error e, s')) :
    ∃ before row after t, rows = before ++ row :: after ∧
      (loadRows c before).on s = (.ok (), t) ∧ (loadRow c row).on t = (.error e, s') := by
  induction rows generalizing s with
  | nil => cases h
  | cons row rest ih =>
    rcases Effect.bind_eq_error.1 h with hfirst | ⟨_, t, hfirst, hrest⟩
    · exact ⟨[], row, rest, s, rfl, rfl, hfirst⟩
    · obtain ⟨before, row', after, u, rfl, hbefore, hrow⟩ := ih hrest
      exact ⟨row :: before, row', after, u, rfl, Effect.bind_eq_ok.2 ⟨_, t, hfirst, hbefore⟩, hrow⟩

theorem moves_loadRow (row : String × Document) : (loadRow c row).Moves Store.Steps :=
  Store.moves_insert _ _

theorem moves_loadRows (rows : List (String × Document)) : (loadRows c rows).Moves Store.Steps := by
  induction rows with
  | nil => exact Effect.moves_pure _
  | cons row rest ih => exact (moves_loadRow row).bind fun _ => ih

/-- A writable store refuses a document for its key only, and keeps its databases. -/
theorem loadRow_eq_error (hw : s.readOnly = false) {row : String × Document}
    (h : (loadRow c row).on s = (.error e, s')) :
    (∃ key, e = .duplicateKey row.1 key) ∧ s'.catalog = s.catalog := by
  have happend {t : Store} {key : Value} {d : Document}
      (hrun : (Store.append ⟨c.database, row.1⟩ key d).on t = (.error e, s')) :
      (∃ key, e = .duplicateKey row.1 key) ∧ s'.catalog = t.catalog := by
    rw [Store.on_append] at hrun
    split at hrun
    · cases hrun
      exact ⟨⟨key, rfl⟩, rfl⟩
    · cases hrun
  rw [loadRow, Store.on_insert, if_neg (by simp [hw])] at h
  cases hkey : (resolveKey c row.1 false row.2).get? nativeKey with
  | some key =>
    simp only [hkey] at h
    exact happend h
  | none =>
    simp only [hkey] at h
    exact happend (t := { s with nextKey := s.nextKey + 1 }) h

/-! ## Inserting documents -/

namespace Client

open ClientM

/-- Inserts a document with the parameterized statement of its fields. -/
def insertRow (row : String × Document) : ClientM Nat :=
  execute (insertText row.1 row.2.names) (row.2.entries.map fun e => e.2)

/-- Inserts documents up to the first that is refused. -/
def insertRows : List (String × Document) → ClientM Unit
  | [] => pure ()
  | row :: rest => do
    let _ ← insertRow row
    insertRows rest

theorem insertRows_append (before after : List (String × Document)) :
    insertRows (before ++ after) = insertRows before >>= fun _ => insertRows after := by
  induction before with
  | nil => rw [List.nil_append, insertRows, pure_bind]
  | cons row rest ih => simp only [List.cons_append, insertRows, ih, bind_assoc]

/-- The client can connect, and reads statements as they are written. -/
structure Ready (k : Client) : Prop where
  parser : k.parser = Statement.parse
  connect : k.connect = .ok ()

variable {k : Client} {row : String × Document} {rows : List (String × Document)}

/-- A client stays ready when its store changes. -/
theorem Ready.after (h : k.Ready) (hsteps : Store.Steps k.store s) (pool : Pool) :
    Ready { k with store := s, pool } := by
  have hrest := Store.rest_of_steps hsteps
  refine ⟨h.parser, ?_⟩
  rw [← h.connect]
  refine connect_congr rfl rfl rfl ?_ ?_
  · show s.address = k.store.address
    rw [hrest]
  · show s.users = k.store.users
    rw [hrest]

/-- An `INSERT` of the fields of a document is the insertion of the document. -/
theorem on_insertRow (h : k.Ready) (hrow : row.2.isEmpty = false) :
    ∃ pool, (insertRow row).on k =
      ((((loadRow k.config row).on k.store).1.map fun _ => 1).mapError (.store row.1),
        { k with store := ((loadRow k.config row).on k.store).2, pool }) := by
  obtain ⟨name, names, hnames⟩ := names_ne_nil hrow
  have hparse : k.parser (insertText row.1 row.2.names) = .ok (insertStatement row.1 row.2.names) := by
    rw [h.parser, hnames, parse_insertText]
  have hbound := (yields_bindRecord (t := insertStatement row.1 row.2.names) row.2 rfl).on []
  rw [List.append_nil] at hbound
  have hmodify : (modify k.config (insertStatement row.1 row.2.names)
      (row.2.entries.map fun e => e.2)).on k.store =
        ((((loadRow k.config row).on k.store).1.map fun _ => 1).mapError (.store row.1),
          ((loadRow k.config row).on k.store).2) := by
    show (runInsert k.config _ _).on k.store = _
    rw [runInsert, Effect.on_bind, on_bound, hbound]
    show ((loadRow k.config row).onTable row.1 >>= fun _ => pure 1).on k.store = _
    rw [Effect.on_bind, Store.on_onTable]
    rcases (loadRow k.config row).on k.store with ⟨e | _, s⟩ <;> rfl
  obtain ⟨before, pool, hsession⟩ := on_withSession_of_connect h.connect
    (modifyStore (insertStatement row.1 row.2.names) (row.2.entries.map fun e => e.2))
  refine ⟨pool, ?_⟩
  rw [insertRow, on_execute hparse, hsession, on_modifyStore]
  show (((modify k.config _ _).on k.store).1,
    { k with store := ((modify k.config _ _).on k.store).2, pool }) = _
  rw [hmodify]

/-- Documents that can be loaded can be inserted, and come to the same store. -/
theorem on_insertRows (h : k.Ready) (hrows : ∀ row ∈ rows, row.2.isEmpty = false)
    (hload : (loadRows k.config rows).on k.store = (.ok (), s)) :
    ∃ pool, (insertRows rows).on k = (.ok (), { k with store := s, pool }) := by
  induction rows generalizing k with
  | nil =>
    cases hload
    exact ⟨k.pool, rfl⟩
  | cons row rest ih =>
    obtain ⟨_, t, hfirst, hrest⟩ := Effect.bind_eq_ok.1 hload
    obtain ⟨pool, hrow⟩ := on_insertRow h (hrows row List.mem_cons_self)
    rw [hfirst] at hrow
    have hready : Ready { k with store := t, pool } := h.after ((moves_loadRow row).of_on hfirst) pool
    obtain ⟨pool', hinsert⟩ := ih hready (fun r hr => hrows r (List.mem_cons_of_mem _ hr)) hrest
    exact ⟨pool', Effect.bind_eq_ok.2 ⟨1, _, hrow, hinsert⟩⟩

/-- The first document that cannot be loaded cannot be inserted. -/
theorem on_insertRows_of_error (h : k.Ready) (hrows : ∀ row ∈ rows, row.2.isEmpty = false)
    (hload : (loadRows k.config rows).on k.store = (.error e, s)) :
    ∃ before row after k₁ k₂, rows = before ++ row :: after ∧
      (insertRows before).on k = (.ok (), k₁) ∧
      (loadRows k.config before).on k.store = (.ok (), k₁.store) ∧
      (insertRow row).on k₁ = (.error (.store row.1 e), k₂) ∧
      (insertRows rows).on k = (.error (.store row.1 e), k₂) ∧
      (loadRow k.config row).on k₁.store = (.error e, k₂.store) ∧ k₂.store = s := by
  obtain ⟨before, row, after, t, rfl, hbefore, hrow⟩ := loadRows_eq_error hload
  have hsteps : Store.Steps k.store t := (moves_loadRows before).of_on hbefore
  obtain ⟨pool, hinsert⟩ := on_insertRows h (fun r hr => hrows r (by simp [hr])) hbefore
  obtain ⟨pool', hfails⟩ := on_insertRow (h.after hsteps pool) (hrows row (by simp))
  change (insertRow row).on { k with store := t, pool } =
    ((((loadRow k.config row).on t).1.map fun _ => 1).mapError (.store row.1),
      { k with store := ((loadRow k.config row).on t).2, pool := pool' }) at hfails
  rw [hrow] at hfails
  refine ⟨before, row, after, _, _, rfl, hinsert, hbefore, hfails, ?_, hrow, rfl⟩
  rw [insertRows_append]
  exact Effect.bind_eq_error.2 (.inr ⟨_, _, hinsert, Effect.bind_eq_error.2 (.inl hfails)⟩)

end Client

/-! ## Seeds of a command -/

open Client

/-- The file that a command is given as seed holds these tables. -/
def Command.GivenSeed (command : Command) (files : Files) (tables : List (String × Value)) : Prop :=
  ∃ path text, command.seed = some path ∧ files path = .ok text ∧
    Value.parse? text = some (.obj tables)

theorem Command.seeded_of_givenSeed {command : Command} {files : Files}
    {tables : List (String × Value)} (hgiven : command.GivenSeed files tables)
    {r : Except CommandFault Unit} (h : seedTables c tables { address := c.address } = (r, s)) :
    command.seeded c files = r.map fun _ => s := by
  obtain ⟨path, text, hseed, hpath, htext⟩ := hgiven
  have hread : readText files path = .ok text := by rw [readText, hpath]; rfl
  unfold seeded
  cases r <;> simp only [hseed, hread, htext, h, Except.map]

/-- A client of a fresh store without credentials is ready. -/
theorem Client.ready_of_fresh {k : Client} (hvalid : k.config.IsValid)
    (hcredentials : k.config.credentials.getD "" = "") (houtage : k.outage = none)
    (hstore : k.store = { address := k.config.address }) (hparser : k.parser = Statement.parse) :
    k.Ready := by
  refine ⟨hparser, ?_⟩
  have hcredential : k.config.credential k.files = .ok none := by
    have hnone : k.config.credentials.filter (· ≠ "") = none := by
      cases hpath : k.config.credentials with
      | none => rfl
      | some path =>
        rw [hpath] at hcredentials
        cases hcredentials
        rfl
    rw [Config.credential, hnone]
  unfold connect
  rw [(Config.validate_eq_ok_iff _).2 hvalid, hcredential, houtage, hstore]
  show Store.permit { address := k.config.address } k.config.address none = _
  rw [Store.permit, if_neg (by simp)]
  rfl

theorem isEmpty_of_mem_seedRows {entries : List (String × List Document)}
    (h : ∀ entry ∈ entries, ∀ d ∈ entry.2, d.isEmpty = false) :
    ∀ row ∈ seedRows entries, row.2.isEmpty = false := by
  intro row hrow
  obtain ⟨entry, hentry, hrow⟩ := List.mem_flatMap.1 hrow
  obtain ⟨d, hd, rfl⟩ := List.mem_map.1 hrow
  exact h entry hentry d hd

/-- Loading a seed into a fresh store comes to the same as executing, table by table in the order of
their names and document by document, the parameterized `INSERT` of the fields of each: all are inserted
and the stores are the same, or both stop at the same document, for the same duplicate key and with the
same store. -/
theorem seeding_is_inserting {k : Client} (hvalid : k.config.IsValid)
    (hcredentials : k.config.credentials.getD "" = "") (houtage : k.outage = none)
    (hstore : k.store = { address := k.config.address }) (hparser : k.parser = Statement.parse)
    (seed : SortedMap (List Document))
    (hseed : ∀ entry ∈ seed.entries, ∀ d ∈ entry.2, d.isEmpty = false) :
    (∃ k', (insertRows (seedRows seed.entries)).on k = (.ok (), k') ∧
        seedTables k.config (tablesOf seed.entries) k.store = (.ok (), k'.store) ∧
        ∀ (command : Command) files, command.GivenSeed files (tablesOf seed.entries) →
          command.seeded k.config files = .ok k'.store) ∨
      ∃ earlier table ds d ds' later key k₁ k₂,
        seed.entries = earlier ++ (table, ds ++ d :: ds') :: later ∧
        (insertRows (seedRows (earlier ++ [(table, ds)]))).on k = (.ok (), k₁) ∧
        seedTables k.config (tablesOf (earlier ++ [(table, ds)])) k.store = (.ok (), k₁.store) ∧
        (insertRow (table, d)).on k₁ = (.error (.store table (.duplicateKey table key)), k₂) ∧
        seedTables k.config (tablesOf (earlier ++ [(table, ds ++ [d])])) k.store =
          (.error (.failure (.duplicateKey table key)), k₂.store) ∧
        k₂.store.catalog = k₁.store.catalog ∧
        (insertRows (seedRows seed.entries)).on k =
          (.error (.store table (.duplicateKey table key)), k₂) ∧
        seedTables k.config (tablesOf seed.entries) k.store =
          (.error (.failure (.duplicateKey table key)), k₂.store) ∧
        ∀ (command : Command) files, command.GivenSeed files (tablesOf seed.entries) →
          command.seeded k.config files = .error (.failure (.duplicateKey table key)) := by
  have hready := ready_of_fresh hvalid hcredentials houtage hstore hparser
  have hrows := isEmpty_of_mem_seedRows hseed
  have hseeded {r : Except CommandFault Unit} {s : Store}
      (h : seedTables k.config (tablesOf seed.entries) k.store = (r, s)) (command : Command) files
      (hgiven : command.GivenSeed files (tablesOf seed.entries)) :
      command.seeded k.config files = r.map fun _ => s :=
    command.seeded_of_givenSeed hgiven (hstore ▸ h)
  rcases hload : (loadRows k.config (seedRows seed.entries)).on k.store with ⟨e | _, s⟩
  · right
    obtain ⟨before, row, after, k₁, k₂, hsplit, hinsert, hbefore, hfails, hall, hrow, rfl⟩ :=
      on_insertRows_of_error hready hrows hload
    obtain ⟨table, d⟩ := row
    obtain ⟨earlier, ds, ds', later, hentries, rfl⟩ := exists_of_seedRows_eq hsplit
    have hwritable : k₁.store.readOnly = false := by
      rw [Store.rest_of_steps ((moves_loadRows _).of_on hbefore), hstore]
    obtain ⟨⟨key, rfl⟩, hcatalog⟩ := loadRow_eq_error hwritable hrow
    have hseedAll : seedTables k.config (tablesOf seed.entries) k.store =
        (.error (.failure (.duplicateKey table key)), k₂.store) := by
      rw [seedTables_tablesOf, hload]
      rfl
    refine ⟨earlier, table, ds, d, ds', later, key, k₁, k₂, hentries, hinsert, ?_, hfails, ?_, hcatalog,
      hall, hseedAll, hseeded hseedAll⟩
    · rw [seedTables_tablesOf, hbefore]
      rfl
    · have hlast : seedRows (earlier ++ [(table, ds ++ [d])]) =
          seedRows (earlier ++ [(table, ds)]) ++ [(table, d)] := by
        simp only [seedRows_append, seedRows_singleton, List.map_append, List.append_assoc,
          List.map_cons, List.map_nil]
      have hfail : (loadRows k.config [(table, d)]).on k₁.store =
          (.error (.duplicateKey table key), k₂.store) := Effect.bind_eq_error.2 (.inl hrow)
      have hupto : (loadRows k.config (seedRows (earlier ++ [(table, ds ++ [d])]))).on k.store =
          (.error (.duplicateKey table key), k₂.store) := by
        rw [hlast, loadRows_append]
        exact Effect.bind_eq_error.2 (.inr ⟨_, _, hbefore, hfail⟩)
      rw [seedTables_tablesOf, hupto]
      rfl
  · left
    obtain ⟨pool, hinsert⟩ := on_insertRows hready hrows hload
    have hseedAll : seedTables k.config (tablesOf seed.entries) k.store = (.ok (), s) := by
      rw [seedTables_tablesOf, hload]
      rfl
    exact ⟨_, hinsert, hseedAll, hseeded hseedAll⟩

/-- A note, and two users of one key. -/
def twinSeed : SortedMap (List Document) :=
  SortedMap.ofList
    [("users", [SortedMap.ofList [("id", .ofInt 1), ("name", .str "Ada")],
        SortedMap.ofList [("id", .ofInt 1)]]),
      ("notes", [SortedMap.ofList [("text", .str "Hello")]])]

theorem seeding_is_inserting_twinSeed :
    (∀ entry ∈ twinSeed.entries, ∀ d ∈ entry.2, d.isEmpty = false) ∧
      ∃ k', (insertRows (seedRows twinSeed.entries)).on Workspace.local.client =
          (.error (.store "users" (.duplicateKey "users" (.ofInt 1))), k') ∧
        seedTables Workspace.local.client.config (tablesOf twinSeed.entries)
          Workspace.local.client.store =
            (.error (.failure (.duplicateKey "users" (.ofInt 1))), k'.store) := by
  have hvalid : Workspace.local.client.config.IsValid := ⟨by decide, by decide⟩
  have hseed : ∀ entry ∈ twinSeed.entries, ∀ d ∈ entry.2, d.isEmpty = false := by decide
  have hrefused : (seedTables Workspace.local.client.config (tablesOf twinSeed.entries)
      Workspace.local.client.store).1 = .error (.failure (.duplicateKey "users" (.ofInt 1))) := rfl
  refine ⟨hseed, ?_⟩
  rcases seeding_is_inserting (k := Workspace.local.client) hvalid rfl rfl rfl rfl twinSeed hseed with
    ⟨k', -, hloaded, -⟩ | ⟨_, table, _, _, _, _, key, _, k₂, -, -, -, -, -, -, hinsert, hload, -⟩
  · rw [hloaded] at hrefused
    cases hrefused
  · rw [hload] at hrefused
    cases hrefused
    exact ⟨k₂, hinsert, hload⟩

end Schemaless
