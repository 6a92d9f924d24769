import Schemaless.Proofs.Binding.Literals
import Schemaless.Proofs.Client.Persistence
import Schemaless.Proofs.Sql.Splitting
import Schemaless.Proofs.Store.Dependence

/-!
# Literals for parameters

A parameter may be written into the statement. Where a `?` is a whole operand in the place of a value
(`Sql.PlacedAt`), what stands in front of it and behind it is lexed the same with a literal there, the
grammar puts the operand of the literal in the same place, and the binding awaits its value there after
the same parameters. So the statement with the literal binds what the statement with the parameter
bound, and does the same (`literal_for_parameter`). A whole number beyond 64 bits has no value, and the
statement fails without having done anything.
-/

namespace Schemaless

open Sql Grammar

variable {pre post lit gap : List Char} {f : String → Statement} {us : List Token}
  {x : String}

/-! ## Putting an operand in the place of a placeholder -/

/-- Between `pre` and `post` stands a `?` that is a whole operand in the place of a value; `f` is the
statement for whatever operand stands there. -/
def Sql.PlacedAt (pre post : List Char) (f : String → Statement) : Prop :=
  ∃ before after, Comes (pre ++ '?' :: post) before ('?' :: post) ∧ lex post = .ok after ∧
    ValuePlace before after f

/-- One blank or more. -/
def Gap (gap : List Char) : Prop := gap ≠ [] ∧ ∀ c ∈ gap, Text.isBlank c = true

/-- A literal with blanks on both sides. -/
inductive BetweenBlanks (lit : List Char) : List Char → Prop
  | mk {left right : List Char} : Gap left → Gap right → BetweenBlanks lit (left ++ lit ++ right)

theorem Gap.setOff (h : Gap gap) (z : List Char) : SetOff (gap ++ z) := by
  obtain ⟨c, rest, rfl⟩ := List.exists_cons_of_ne_nil h.1
  exact setOff_cons (setsOff_of_isBlank (h.2 c List.mem_cons_self)) _

/-- A literal set off by blanks is lexed in the place of the placeholder. -/
theorem lex_replaced {before after : List Token} {text : List Char}
    (hcomes : Comes (pre ++ '?' :: post) before ('?' :: post)) (hafter : lex post = .ok after)
    (hspells : Spells lit us) (htext : BetweenBlanks lit text) :
    lex (pre ++ text ++ post) = .ok (before ++ us ++ after) := by
  obtain @⟨left, right, hleft, hright⟩ := htext
  have hshape : pre ++ (left ++ lit ++ right) ++ post = pre ++ (left ++ lit ++ (right ++ post)) := by
    simp
  have hset : SetOff (left ++ lit ++ (right ++ post)) := by
    rw [List.append_assoc]
    exact hleft.setOff _
  rw [hshape, spells_of_comes (by decide) hcomes _ hset, (hspells.blanks hleft.2) _ (hright.setOff post),
    lex_append_of_blank hright.2, hafter]
  simp [Except.map]

theorem lex_placed {before after : List Token} (hcomes : Comes (pre ++ '?' :: post) before ('?' :: post))
    (hafter : lex post = .ok after) :
    lex (pre ++ '?' :: post) = .ok (before ++ [.mark .placeholder] ++ after) := by
  rw [spells_of_comes (by decide) hcomes _ (setOff_separator (by decide) post), lex_placeholder, hafter]
  simp [Except.map]

section

variable {before after : List Token}

theorem parse_of_place (hplace : ValuePlace before after f) (hx : Operand us x) {cs : List Char}
    (hlex : lex cs = .ok (before ++ us ++ after)) :
    ∃ count, Statement.parse (String.ofList cs) = .ok (withPlaceholders (f x) count) := by
  refine ⟨(before ++ us ++ after).count (.mark .placeholder), ?_⟩
  rw [Statement.parse, String.toList_ofList, hlex]
  exact ofTokens_of_derives (derives_of_valuePlace hplace hx)

theorem formed_of_open (h : OpenBody before after f) (hx : Operand us x) (count : Nat) :
    (withPlaceholders (f x) count).Formed := by
  obtain ⟨hinsertion, hselection⟩ := formed_of_body (body_of_open h hx)
  exact ⟨hinsertion, hselection⟩

theorem isEmpty_criteria_append (lefts rights : List (List Criterion)) (links more : List Criterion)
    (c : Criterion) :
    (criteria (lefts ++ (links ++ c :: more) :: rights)).items.isEmpty = false := by
  match lefts, rights with
  | [], [] => simp [criteria]
  | [], _ :: _ => rfl
  | [_], rights => rfl
  | _ :: _ :: _, rights => rfl

theorem alike_of_open (h : OpenBody before after f) (x y : String) (m n : Nat) :
    (withPlaceholders (f x) m).Alike (withPlaceholders (f y) n) := by
  cases h with
  | inserted => exact ⟨rfl, rfl, rfl, nofun⟩
  | assigned => exact ⟨rfl, rfl, rfl, nofun⟩
  | compared _ _ _ hopen =>
    obtain ⟨-, -, -⟩ := hopen
    refine ⟨rfl, rfl, ?_, fun _ => rfl⟩
    show (criteria _).items.isEmpty = (criteria _).items.isEmpty
    rw [isEmpty_criteria_append, isEmpty_criteria_append]

end

/-! ## Binding the operand -/

/-- The operands in front of the open one take `n` parameters. -/
def Sql.OpensAfter (f : String → Statement) (n : Nat) : Prop :=
  ∃ taken later, (∀ x, (f x).operands = taken ++ x :: later) ∧ Binding.placeholders taken = n

/-- The open operand has one position among the others. -/
theorem eq_of_append_open {as bs as' bs' : List String} (h : ∀ x, as ++ x :: bs = as' ++ x :: bs') :
    as = as' := by
  have hnot {cs ds cs' ds' : List String} (h : ∀ x, cs ++ x :: ds = cs' ++ x :: ds') :
      ¬cs.length < cs'.length := by
    intro hlt
    have hat (x : String) : cs'[cs.length]? = some x := by
      have hx := congrArg (fun l => l[cs.length]?) (h x)
      simpa [List.getElem?_append_left hlt] using hx.symm
    have hsame := (hat "").symm.trans (hat "?")
    simp at hsame
  have hle := hnot h
  have hge := hnot fun x => (h x).symm
  exact List.append_inj_left (h "") (by omega)

theorem exists_opensAfter {before after : List Token} (h : OpenBody before after f) :
    ∃ n, OpensAfter f n := by
  obtain ⟨taken, later, hoperands, -⟩ := opens_body h
  exact ⟨_, taken, later, hoperands, rfl⟩

/-- A statement with a place left open awaits the operand of that place. -/
theorem awaits_of_open {before after : List Token} {n : Nat} (hopen : OpenBody before after f)
    (hafter : OpensAfter f n) : Binding.Awaits n (fun x => bindStatement (f x)) := by
  obtain ⟨taken, later, hoperands, hawaits⟩ := opens_body hopen
  obtain ⟨taken', later', hoperands', rfl⟩ := hafter
  have htaken : taken' = taken :=
    eq_of_append_open fun x => (hoperands' x).symm.trans (hoperands x)
  exact htaken ▸ hawaits

theorem on_bindStatement_replaced {before after : List Token} {ps qs : List Value} {v : Value}
    {values : Document × Predicate} {cursor : Cursor} {r : Except Failure Value}
    (hopen : OpenBody before after f) (hafter : OpensAfter f ps.length)
    (hbound : (bindStatement (f "?")).on { parameters := ps ++ v :: qs } = (.ok values, cursor))
    (hx : bindExpression false x = Effect.ofExcept r) (hr : ∀ w, r = .ok w → w = v) :
    ((bindStatement (f x)).on { parameters := ps ++ qs }).1 = r.map fun _ => values := by
  have hon : (bindStatement (f "?")).on ⟨[] ++ (ps ++ v :: qs), ([] : List Value).length⟩ =
      (.ok values, cursor) := hbound
  exact (awaits_of_open hopen hafter).on_replaced rfl hon hx hr

/-! ## Running the statement -/

namespace Client

open ClientM

variable {α : Type} {k : Client}

/-- Work that is the same whatever the pool is the same with a session. -/
theorem on_withSession_congr {work work' : ClientM α}
    (h : ∀ pool, work'.on { k with pool } = work.on { k with pool }) :
    (withSession work').on k = (withSession work).on k := by
  obtain ⟨r, pool, hacquire⟩ := on_acquire k
  rw [on_withSession, on_withSession, hacquire]
  cases r with
  | error e => rfl
  | ok session =>
    show ((work'.on { k with pool }).1, _) = ((work.on { k with pool }).1, _)
    rw [h pool]

variable {sql sql' : String} {s t : Statement} {ps qs : List Value}

theorem on_execute_congr (hsql : k.parser sql = .ok s) (hsql' : k.parser sql' = .ok t)
    (h : ∀ store, (modify k.config t qs).on store = (modify k.config s ps).on store) :
    (execute sql' qs).on k = (execute sql ps).on k := by
  rw [execute, execute, Effect.on_bind, Effect.on_bind, on_parse hsql, on_parse hsql']
  refine on_withSession_congr fun pool => ?_
  rw [on_modifyStore, on_modifyStore]
  dsimp only
  rw [h k.store]

theorem on_query_congr (hsql : k.parser sql = .ok s) (hsql' : k.parser sql' = .ok t)
    (h : ∀ store, select k.config t qs store = select k.config s ps store) (receiver : Receiver) :
    (query sql' qs receiver).on k = (query sql ps receiver).on k := by
  rw [query, query, Effect.on_bind, Effect.on_bind, on_parse hsql, on_parse hsql']
  refine on_withSession_congr fun pool => ?_
  show ((select k.config t qs k.store).map (deliver receiver 1), _) =
    ((select k.config s ps k.store).map (deliver receiver 1), _)
  rw [h k.store]

end Client

/-! ## The agreement -/

/-- A statement runs the same with a parameter and with the literal of its value in the place of the
placeholder. A whole number that 64 bits do not hold is refused there and in every list. -/
theorem literal_for_parameter {k : Client} {pre post : List Char} {f : String → Statement}
    {s : Statement} {ps qs : List Value} {v : Value} {values : Document × Predicate} {cursor : Cursor}
    (hparser : k.parser = Statement.parse)
    (hparse : Statement.parse (String.ofList (pre ++ '?' :: post)) = .ok s)
    (hplace : PlacedAt pre post f) (hafter : OpensAfter f ps.length)
    (hbound : (bindStatement s).on { parameters := ps ++ v :: qs } = (.ok values, cursor)) :
    (∀ lit text, Writes v lit → BetweenBlanks lit text →
      ∃ t, Statement.parse (String.ofList (pre ++ text ++ post)) = .ok t ∧
        ((bindStatement t).on { parameters := ps ++ qs }).1 = .ok values ∧
        (Client.execute (String.ofList (pre ++ text ++ post)) (ps ++ qs)).on k =
          (Client.execute (String.ofList (pre ++ '?' :: post)) (ps ++ v :: qs)).on k ∧
        ∀ receiver, (Client.query (String.ofList (pre ++ text ++ post)) (ps ++ qs) receiver).on k =
          (Client.query (String.ofList (pre ++ '?' :: post)) (ps ++ v :: qs) receiver).on k) ∧
      (∀ n lit text, Numeral n lit → fitsInt64 n = false → BetweenBlanks lit text →
        ∃ t, Statement.parse (String.ofList (pre ++ text ++ post)) = .ok t ∧
          ((bindStatement t).on { parameters := ps ++ qs }).1 =
            .error (.coercion (.notInteger (String.ofList lit))) ∧
          ∀ store,
            (s.kind ≠ .select → (modify k.config t (ps ++ qs)).on store =
              (.error (.coercion (.notInteger (String.ofList lit))), store)) ∧
            (s.kind = .select → select k.config t (ps ++ qs) store =
              .error (.coercion (.notInteger (String.ofList lit))))) ∧
      ∀ n lit text, Numeral n lit → fitsInt64 n = false → '?' ∉ text.toList →
        lit ∈ (Literal.items text.toList).map Text.trimmed →
          ∃ fault, bindExpression true text = Effect.ofExcept (.error (.coercion fault)) := by
  obtain ⟨before, after, hcomes, hpost, hvalue⟩ := hplace
  obtain ⟨m, hs⟩ := parse_of_place hvalue .placeholder (lex_placed hcomes hpost)
  obtain rfl : s = withPlaceholders (f "?") m := Except.ok.inj (hparse.symm.trans hs)
  obtain ⟨tokens, hopen⟩ : ∃ tokens, OpenBody before tokens f := by
    obtain ⟨hopen, -⟩ := hvalue
    exact ⟨_, hopen⟩
  have hformed := formed_of_open hopen .placeholder m
  -- a literal in the place of the placeholder, with a value or without
  have hreplaced {lit text : List Char} {r : Except Failure Value} (htext : BetweenBlanks lit text)
      (hlit : Denotes lit r) (hr : ∀ w, r = .ok w → w = v) :
      ∃ t, Statement.parse (String.ofList (pre ++ text ++ post)) = .ok t ∧
        t.Formed ∧ (withPlaceholders (f "?") m).Alike t ∧
        ((bindStatement t).on { parameters := ps ++ qs }).1 = r.map fun _ => values := by
    obtain ⟨us, x, hspells, hx, hbind⟩ := hlit
    obtain ⟨n, ht⟩ := parse_of_place hvalue hx (lex_replaced hcomes hpost hspells htext)
    exact ⟨_, ht, formed_of_open hopen hx n, alike_of_open hopen _ _ m n,
      on_bindStatement_replaced hopen hafter hbound hbind hr⟩
  refine ⟨fun lit text hlit htext => ?_, fun n lit text hlit hfits htext => ?_,
    fun n lit text hlit hfits hmark hmem => ?_⟩
  · obtain ⟨t, ht, htformed, halike, hvalues⟩ :=
      hreplaced htext (denotes_of_writes hlit) fun w hw => (Except.ok.inj hw).symm
    have hsame : ((bindStatement t).on { parameters := ps ++ qs }).1 =
        ((bindStatement (withPlaceholders (f "?") m)).on { parameters := ps ++ v :: qs }).1 := by
      rw [hvalues, hbound]
      rfl
    rw [← hparser] at hparse ht
    refine ⟨t, hparser ▸ ht, hvalues, ?_, fun receiver => ?_⟩
    · exact Client.on_execute_congr hparse ht (on_modify_congr hformed htformed halike hsame)
    · exact Client.on_query_congr hparse ht (select_congr hformed htformed halike hsame) receiver
  · have hnumeral := denotes_numeral hlit
    rw [wholeValue, if_neg (by simp [hfits])] at hnumeral
    obtain ⟨t, ht, htformed, halike, hvalues⟩ := hreplaced htext hnumeral fun w hw => by cases hw
    refine ⟨t, ht, hvalues, fun store => ⟨fun hkind => ?_, fun hkind => ?_⟩⟩
    · rw [← halike.kind] at hkind
      exact on_modify_of_error htformed hkind hvalues store
    · rw [← halike.kind] at hkind
      exact select_of_error htformed hkind hvalues store
  · exact bindExpression_of_numeral_in_list hmark hmem hlit hfits

/-- `UPDATE users SET name = ? WHERE id = ?` up to the place of the key. -/
def renamePrefix : List Char := "UPDATE users SET name = ? WHERE id = ".toList

/-- The statement that gives a new name to the user of a key. -/
def renameBy (key : String) : Statement :=
  { kind := .update, table := "users", columns := [parameterColumn "name"],
    criteria := criteria [[.condition { left := "id", operator := "=", right := key }]] }

theorem placedAt_renamePrefix : PlacedAt renamePrefix [] renameBy := by
  have htext : renamePrefix ++ ['?'] = "UPDATE".toList ++ (' ' :: ("users".toList ++ (' ' ::
      ("SET".toList ++ (' ' :: ("name".toList ++ (' ' :: '=' :: ' ' :: '?' :: ' ' ::
        ("WHERE".toList ++ (' ' :: ("id".toList ++ (' ' :: '=' :: ' ' :: '?' :: []))))))))))) := by
    decide
  have hblank : Text.isBlank ' ' = true := by decide
  have hcomes : Comes (renamePrefix ++ ['?'])
      (["UPDATE", "users", "SET", "name"].map wordToken ++ .mark .equal :: .mark .placeholder ::
        ["WHERE", "id"].map wordToken ++ [.mark .equal]) ['?'] := by
    rw [htext]
    refine .spacedWord (by decide) (.spacedWord (by decide) ?_)
    refine .spacedWord (by decide) (.spacedWord (by decide) ?_)
    refine .mark (by decide) (.blank hblank (.mark (by decide) (.blank hblank ?_)))
    refine .spacedWord (by decide) (.spacedWord (by decide) ?_)
    refine .mark (by decide) (.blank hblank ?_)
    exact comes_separator (by decide) []
  have hwords : ["UPDATE", "users", "SET", "name"].map wordToken =
        [.keyword .UPDATE, .identifier "users", .keyword .SET, .identifier "name"] ∧
      ["WHERE", "id"].map wordToken = [.keyword .WHERE, .identifier "id"] := by decide +kernel
  rw [hwords.1, hwords.2] at hcomes
  have hassignment : Grammar.Assignment [.identifier "name", .mark .equal, .mark .placeholder]
      (parameterColumn "name") := .mk (name_identifier "name") .placeholder
  have hbody := Body.update "users" (.one hassignment) .absent
  have hkey : OpenUnary [.identifier "id", .mark .equal] [] (fun key =>
      .condition { left := "id", operator := "=", right := key }) :=
    .comparison (.name (name_identifier "id")) (by decide) (by decide)
  have hopen := OpenBody.compared hbody (by simp) rfl (.mk hkey ⟨.nil, .nil⟩ ⟨.nil, .nil⟩)
  have hnil : lex [] = .ok [] := lex_of_skipTrivia_eq_nil skipTrivia_nil
  exact ⟨_, _, hcomes, hnil, .mk hopen .bare⟩

theorem opensAfter_renameBy : OpensAfter renameBy 1 := by
  refine ⟨["?"], [], fun key => ?_, by decide⟩
  have hleft : hasPlaceholder "id" = false := by decide
  simp [Statement.operands, renameBy, parameterColumn, criteria, Criteria.conditions, itemConditions,
    Criterion.conditions, Condition.expression, Condition.isSwapped, hleft]

theorem literal_for_parameter_rename :
    ∃ s values cursor, localClient.parser = Statement.parse ∧
      Statement.parse (String.ofList (renamePrefix ++ '?' :: [])) = .ok s ∧
      PlacedAt renamePrefix [] renameBy ∧ OpensAfter renameBy [Value.str "Lady"].length ∧
      (bindStatement s).on { parameters := [.str "Lady"] ++ .ofInt 1 :: [] } = (.ok values, cursor) ∧
      (Client.execute (String.ofList (renamePrefix ++ ([' '] ++ ['1'] ++ [' ']) ++ []))
          [.str "Lady"]).on localClient =
        (Client.execute (String.ofList (renamePrefix ++ '?' :: []))
          [.str "Lady", .ofInt 1]).on localClient ∧
      (∃ t, Statement.parse (String.ofList
            (renamePrefix ++ ([' '] ++ "9223372036854775808".toList ++ [' ']) ++ [])) = .ok t ∧
          (modify localClient.config t [.str "Lady"]).on twoUsers =
            (.error (.coercion (.notInteger "9223372036854775808")), twoUsers)) ∧
      ∃ fault, bindExpression true "1, 9223372036854775808" =
        Effect.ofExcept (.error (.coercion fault)) := by
  obtain ⟨before, after, hcomes, hpost, hvalue⟩ := placedAt_renamePrefix
  obtain ⟨count, hparse⟩ := parse_of_place hvalue .placeholder (lex_placed hcomes hpost)
  obtain ⟨values, cursor, hbound⟩ : ∃ values cursor,
      (bindStatement (withPlaceholders (renameBy "?") count)).on
        { parameters := [.str "Lady"] ++ .ofInt 1 :: [] } = (.ok values, cursor) := ⟨_, _, rfl⟩
  have hblank : Text.isBlank ' ' = true := by decide
  have hgap : Gap [' '] := ⟨by simp, by simp [hblank]⟩
  have hafter : OpensAfter renameBy [Value.str "Lady"].length := opensAfter_renameBy
  obtain ⟨hwritten, hrefused, hlisted⟩ :=
    literal_for_parameter (k := localClient) rfl hparse placedAt_renamePrefix hafter hbound
  have hone : Writes (.ofInt 1) ['1'] := .whole 1 (by decide)
  obtain ⟨-, -, -, hexecute, -⟩ := hwritten ['1'] _ hone (.mk hgap hgap)
  have hdigits : Number.render (.int 0x8000000000000000) = "9223372036854775808".toList := by
    decide
  have hbeyond := hdigits ▸ numeral_render 0x8000000000000000
  obtain ⟨t, ht, -, hmodify⟩ := hrefused _ _ _ hbeyond (by decide) (.mk hgap hgap)
  refine ⟨_, values, cursor, rfl, hparse, placedAt_renamePrefix, hafter, hbound, hexecute,
    ⟨t, ht, (hmodify twoUsers).1 nofun⟩, ?_⟩
  exact hlisted _ _ _ hbeyond (by decide) (by decide) (by decide)

end Schemaless
