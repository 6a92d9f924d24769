import Schemaless.Proofs.Client.Persistence
import Schemaless.Proofs.Store.Selection

/-!
# Whole rows

`SELECT * FROM` and `DELETE FROM` are read alike: behind these words both take a table, the criteria and
the end of the statement, and where the one is refused the other is, for the same reason
(`parse_rowsOf`). A client with a session answers a `SELECT *` with the documents that the predicate of
the criteria selects, each as it is (`on_query_rowsOf`), and after its work it has a session again,
unless it keeps none and could not dial (`acquire_release`).
-/

namespace Schemaless

open Sql Grammar

/-! ## Two readings of one text -/

/-- A statement on the documents of a table that criteria select, with all their fields. -/
def rowsOf (kind : StatementKind) (table : String) (criteria : Criteria) (placeholders : Nat) :
    Statement :=
  { kind, table, criteria, placeholders }

/-- After `FROM` the two kinds of statements are read alike: the table, the criteria and the end. -/
theorem ofTokens_rowsOf (ts : List Token) :
    (∃ e, Statement.ofTokens (.keyword .SELECT :: .mark .star :: .keyword .FROM :: ts) = .error e ∧
        Statement.ofTokens (.keyword .DELETE :: .keyword .FROM :: ts) = .error e) ∨
      ∃ table criteria n,
        Statement.ofTokens (.keyword .SELECT :: .mark .star :: .keyword .FROM :: ts) =
            .ok (rowsOf .select table criteria n) ∧
          Statement.ofTokens (.keyword .DELETE :: .keyword .FROM :: ts) =
            .ok (rowsOf .delete table criteria n) := by
  have hselect : parseBody (.keyword .SELECT :: .mark .star :: .keyword .FROM :: ts) =
      (parseIdentifier ts).finish fun table us =>
        (parseWhere us).map fun read => (rowsOf .select table read.1 0, read.2) := rfl
  have hdelete : parseBody (.keyword .DELETE :: .keyword .FROM :: ts) =
      (parseIdentifier ts).finish fun table us =>
        (parseWhere us).map fun read => (rowsOf .delete table read.1 0, read.2) := rfl
  rw [Statement.ofTokens, Statement.ofTokens, hselect, hdelete]
  rcases parseIdentifier ts with e | ⟨table, r⟩
  · exact .inl ⟨e, rfl, rfl⟩
  · show (∃ e, _) ∨ ∃ _ _ _, _
    simp only [Parsed.finish]
    rcases parseWhere r.tokens with e | ⟨criteria, us⟩
    · exact .inl ⟨e, rfl, rfl⟩
    · simp only [Except.map]
      rcases parseEnd us with e | _
      · exact .inl ⟨e, rfl, rfl⟩
      · exact .inr ⟨table, criteria, _, rfl, rfl⟩

theorem lex_behind {cs : List Char} {ts : List Token} (h : Spells cs ts) (rest : List Char) :
    lex (cs ++ ' ' :: rest) = (lex rest).map (ts ++ ·) := by
  rw [h _ (setOff_space rest), lex_congr (skipTrivia_of_isBlank (by decide) rest)]

theorem spells_star : Spells ['*'] [.mark .star] := by
  refine spells_of_scan ⟨by decide, by decide, by decide⟩ fun z _ => ?_
  rw [List.nil_append, scan_of_mark rfl (startsWord_of_offRanges rfl) rfl]
  rfl

theorem spells_keyword {word : String} {k : Keyword} (hk : (word, k) ∈ Keyword.table) :
    Spells word.toList [.keyword k] := by
  have h := spells_nil.keyword setOff_nil hk
  rwa [List.append_nil] at h

theorem lex_selectFrom (rest : String) :
    lex ("SELECT * FROM " ++ rest).toList =
      (lex rest.toList).map ([.keyword .SELECT, .mark .star, .keyword .FROM] ++ ·) := by
  have htext : ("SELECT * FROM " ++ rest).toList =
      ("SELECT".toList ++ ' ' :: (['*'] ++ ' ' :: "FROM".toList)) ++ ' ' :: rest.toList := by
    simp
  have hfrom : Spells "FROM".toList [.keyword .FROM] := spells_keyword (by simp [Keyword.table])
  have hstar : Spells (['*'] ++ ' ' :: "FROM".toList) [.mark .star, .keyword .FROM] :=
    spells_star.append hfrom.space (setOff_space _)
  rw [htext]
  apply lex_behind
  exact hstar.spacedKeyword (by simp [Keyword.table])

theorem lex_deleteFrom (rest : String) :
    lex ("DELETE FROM " ++ rest).toList =
      (lex rest.toList).map ([.keyword .DELETE, .keyword .FROM] ++ ·) := by
  have htext : ("DELETE FROM " ++ rest).toList =
      ("DELETE".toList ++ ' ' :: "FROM".toList) ++ ' ' :: rest.toList := by
    simp
  have hfrom : Spells "FROM".toList [.keyword .FROM] := spells_keyword (by simp [Keyword.table])
  rw [htext]
  apply lex_behind
  exact hfrom.spacedKeyword (by simp [Keyword.table])

/-- The two texts are refused for one reason, or they mean the same rows. -/
theorem parse_rowsOf (rest : String) :
    (∃ e, Statement.parse ("SELECT * FROM " ++ rest) = .error e ∧
        Statement.parse ("DELETE FROM " ++ rest) = .error e) ∨
      ∃ table criteria n,
        Statement.parse ("SELECT * FROM " ++ rest) = .ok (rowsOf .select table criteria n) ∧
          Statement.parse ("DELETE FROM " ++ rest) = .ok (rowsOf .delete table criteria n) := by
  rw [Statement.parse, Statement.parse, lex_selectFrom, lex_deleteFrom]
  cases lex rest.toList with
  | error e => exact .inl ⟨e, rfl, rfl⟩
  | ok ts => exact ofTokens_rowsOf ts

theorem parse_deleteFrom_of_selectFrom {rest table : String} {criteria : Criteria} {n : Nat}
    (h : Statement.parse ("SELECT * FROM " ++ rest) = .ok (rowsOf .select table criteria n)) :
    Statement.parse ("DELETE FROM " ++ rest) = .ok (rowsOf .delete table criteria n) := by
  obtain ⟨_, hread, -⟩ | ⟨_, _, _, hread, hdelete⟩ := parse_rowsOf rest
  · rw [h] at hread
    cases hread
  · rw [h] at hread
    cases hread
    exact hdelete

/-! ## Texts of criteria -/

/-- A table and the text of its criteria. -/
def rowsText (table criteria : String) : String :=
  quotedIdentifier table ++ " WHERE " ++ criteria

theorem spells_rowsText {criteria : String} {ts : List Token} (h : Spells criteria.toList ts)
    (table : String) :
    Spells (rowsText table criteria).toList (.identifier table :: .keyword .WHERE :: ts) := by
  have htext : (rowsText table criteria).toList =
      (quotedIdentifier table).toList ++ (' ' :: ("WHERE".toList ++ (' ' :: criteria.toList))) := by
    simp [rowsText]
  rw [htext]
  refine Spells.name ?_ (setOff_space _) table
  exact (h.spacedKeyword (by simp [Keyword.table])).space

theorem parse_selectFrom_rowsText {criteria : String} {ts : List Token}
    {conjunctions : List (List Criterion)} (hspells : Spells criteria.toList ts)
    (h : Disjunction ts conjunctions) (table : String) :
    Statement.parse ("SELECT * FROM " ++ rowsText table criteria) =
      .ok (rowsOf .select table (Grammar.criteria conjunctions) (ts.count (.mark .placeholder))) := by
  have hcount : ([Token.keyword .SELECT, Token.mark .star, Token.keyword .FROM] ++
      Token.identifier table :: Token.keyword .WHERE :: ts).count (Token.mark .placeholder) =
      ts.count (Token.mark .placeholder) := by simp
  have hderives := Derives.mk (Body.selectAll table (.present h)) .bare
  rw [List.append_nil] at hderives
  rw [Statement.parse, lex_selectFrom, lex_of_spells (spells_rowsText hspells table), ← hcount]
  apply ofTokens_of_derives
  exact hderives

/-- The criteria that a column equals a parameter. -/
def askText (column : String) : String := quotedIdentifier column ++ " = ?"

theorem spells_askText (column : String) :
    Spells (askText column).toList (equalsTokens column) := by
  have htext : (askText column).toList = equalsText column := by simp [askText, equalsText]
  rw [htext]
  exact spells_equalsText column

theorem parse_selectFrom_askText (table column : String) :
    Statement.parse ("SELECT * FROM " ++ rowsText table (askText column)) =
      .ok (rowsOf .select table (keyCriteria column) 1) := by
  have hcondition : Grammar.Condition (equalsTokens column) (equalCondition column "?") :=
    .comparison (.name (name_identifier column)) (by decide) .placeholder
  exact parse_selectFrom_rowsText (spells_askText column) (.one (.one (.condition hcondition))) table

theorem parse_deleteFrom_askText (table column : String) :
    Statement.parse ("DELETE FROM " ++ rowsText table (askText column)) =
      .ok (rowsOf .delete table (keyCriteria column) 1) :=
  parse_deleteFrom_of_selectFrom (parse_selectFrom_askText table column)

/-! ## The client -/

/-- The row that shows a document as it is. -/
def Row.whole (d : Document) : Row := ⟨d.names, d⟩

theorem deliver_all (number : Nat) (rows : List Row) :
    deliver Receiver.all number rows = { rows } := by
  induction rows generalizing number with
  | nil => rfl
  | cons r rest ih =>
    have hmore : deliver Receiver.all number (r :: rest) =
        let d := deliver Receiver.all (number + 1) rest
        { d with rows := r :: d.rows } := rfl
    rw [hmore, ih]

namespace Client

open ClientM

variable {c : Client} {sql : String} {t : Statement}

theorem on_query (hparse : c.parser sql = .ok t) (parameters : List Value) (receiver : Receiver) :
    (query sql parameters receiver).on c = (withSession (deliverRows t parameters receiver)).on c :=
  on_parse_bind hparse _

theorem on_execute (hparse : c.parser sql = .ok t) (parameters : List Value) :
    (execute sql parameters).on c = (withSession (modifyStore t parameters)).on c :=
  on_parse_bind hparse _

/-- With a session, a client runs a modifying statement on its store. -/
theorem on_execute_of_acquire {session : Session} {pool : Pool} (hparse : c.parser sql = .ok t)
    (hacquire : acquire.on c = (.ok session, { c with pool })) (parameters : List Value) :
    (execute sql parameters).on c =
      (((modify c.config t parameters).on c.store).1,
        Client.release { c with pool, store := ((modify c.config t parameters).on c.store).2 }
          session) := by
  rw [on_execute hparse, on_withSession_of_acquire hacquire, on_modifyStore]

/-- The pool of a client that may keep a session has one after work. -/
theorem acquire_release (c : Client) (session : Session)
    (h : c.connect = .ok () ∨ 0 < c.config.maxPoolSize) :
    ∃ next pool, acquire.on (c.release session) = (.ok next, { c with pool }) := by
  change ∃ next pool, acquire (c.release session) = (.ok next, { c with pool })
  unfold acquire
  cases hidle : (c.release session).pool.idle with
  | cons first rest =>
    have htake : (c.release session).pool.take? =
        some (first, { (c.release session).pool with idle := rest }) := by
      rw [Pool.take?, hidle]
    rw [htake]
    exact ⟨_, _, rfl⟩
  | nil =>
    have htake : (c.release session).pool.take? = none := by
      rw [Pool.take?, hidle]
    have hconnect : (c.release session).connect = .ok () := by
      rcases h with h | h
      · exact h
      · -- a pool that keeps one has kept this session, or has been full
        change (c.pool.release c.config.maxPoolSize session).idle = [] at hidle
        rw [Pool.release] at hidle
        split at hidle
        · cases hidle
        · next hfull =>
          rw [hidle] at hfull
          exact absurd h hfull
    rw [htake, hconnect]
    exact ⟨_, _, rfl⟩

/-- So has a client after work on one collection. -/
theorem acquire_release_of_onlyAt {p : Place} {s : Store} (h : Store.OnlyAt p c.store s) (pool : Pool)
    (session : Session) (hc : c.connect = .ok () ∨ 0 < c.config.maxPoolSize) :
    ∃ next pool', acquire.on (Client.release { c with pool, store := s } session) =
      (.ok next, { c with pool := pool', store := s }) := by
  have hconnect : Client.connect { c with pool, store := s } = c.connect := by
    rw [connect, connect, h.rest]
    rfl
  apply acquire_release { c with pool, store := s } session
  rwa [hconnect]

section

variable {table : String} {criteria : Criteria} {n : Nat} {parameters : List Value}

/-- All rows are those of the documents that the predicate of the criteria holds of. -/
theorem on_deliverRows (hkind : t.kind = .select) (c : Client) :
    (deliverRows t parameters Receiver.all).on c =
      (((keyedPredicate c.config t).on { parameters }).1.map fun p =>
        { rows := ((c.store.documentsAt (t.place c.config)).filter p.holds).map (Row.ofDocument t) },
        c) := by
  show ((select c.config t parameters c.store).map (deliver Receiver.all 1), c) = _
  rw [select_eq hkind]
  cases ((keyedPredicate c.config t).on { parameters }).1 with
  | error e => rfl
  | ok p => simp only [Except.map, deliver_all]

theorem on_deliverRows_rowsOf (c : Client) :
    (deliverRows (rowsOf .select table criteria n) parameters Receiver.all).on c =
      (((keyedPredicate c.config (rowsOf .delete table criteria n)).on { parameters }).1.map fun p =>
        { rows := ((c.store.documentsAt (c.placeOf table)).filter p.holds).map Row.whole }, c) :=
  on_deliverRows rfl c

/-- Without criteria, all documents of a table are handed out. -/
theorem on_deliverRows_all (c : Client) (table : String) :
    (deliverRows (rowsOf .select table {} 0) [] Receiver.all).on c =
      (.ok { rows := (c.store.documentsAt (c.placeOf table)).map Row.whole }, c) := by
  have hselect : select c.config (rowsOf .select table {} 0) [] c.store =
      .ok ((c.store.documentsAt (c.placeOf table)).map Row.whole) := rfl
  show ((select c.config _ [] c.store).map (deliver Receiver.all 1), c) = _
  rw [hselect, Except.map, deliver_all]

/-- With a session, a client reads all rows of a statement, or fails as its predicate does. -/
theorem on_query_of_acquire {session : Session} {pool : Pool} (hparse : c.parser sql = .ok t)
    (hacquire : acquire.on c = (.ok session, { c with pool })) (hkind : t.kind = .select) :
    (query sql parameters Receiver.all).on c =
      (((keyedPredicate c.config t).on { parameters }).1.map fun p =>
        { rows := ((c.store.documentsAt (t.place c.config)).filter p.holds).map (Row.ofDocument t) },
        Client.release { c with pool } session) := by
  rw [on_query hparse, on_withSession_of_acquire hacquire, on_deliverRows hkind]

/-- With a session, a client reads the documents that a predicate selects. -/
theorem on_query_rowsOf {session : Session} {pool : Pool} {p : Predicate}
    (hparse : c.parser sql = .ok (rowsOf .select table criteria n))
    (hacquire : acquire.on c = (.ok session, { c with pool }))
    (hp : ((keyedPredicate c.config (rowsOf .delete table criteria n)).on { parameters }).1 = .ok p) :
    (query sql parameters Receiver.all).on c =
      (.ok { rows := ((c.store.documentsAt (c.placeOf table)).filter p.holds).map Row.whole },
        Client.release { c with pool } session) := by
  have hkeyed : ((keyedPredicate c.config (rowsOf .select table criteria n)).on { parameters }).1 =
      .ok p := hp
  rw [on_query_of_acquire hparse hacquire rfl, hkeyed]
  rfl

end

end Client

end Schemaless
