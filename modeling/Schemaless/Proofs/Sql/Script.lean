import Schemaless.Proofs.Sql.Splitting
import Schemaless.Sql.Script

/-!
# The statements of a script

A script is cut at its semicolons by a search that knows three quotes and neither comments nor escapes.
Lexing knows them all. `splittable` says where the two agree: comments and names in brackets hold no
semicolon and no quote, and no text escapes its own quote. There every token but the semicolon passes the
search (`passes_of_scan`), so the first cut is at the first semicolon that is a token (`first_cut`), and
the statements have the tokens that stand between the semicolons (`statements_are_runs`). Where the two
do not agree, one statement is cut in two (`escaped_quote_is_cut`).
-/

namespace Schemaless.Sql

open Text (Passes isBlank_of_trimmed)

variable {c : Char} {cs r rest text : List Char} {t : Token} {ts : List Token}

/-! ## Where lexing and the search for semicolons agree -/

/-- Whether a text holds no semicolon and no quote of a script. -/
def unmarked (cs : List Char) : Bool := cs.all fun c => c != ';' && !scriptQuotes.contains c

/-- Whether quoted text, from behind its opening character, ends at the same character for the search: a
text escapes no quote of its own, and a name in brackets, which the search does not know, is unmarked. -/
def Delimiter.splittable (d : Delimiter) : List Char → Bool
  | [] => true
  | c :: r =>
    if c = d.closing then
      match r with
      | x :: r => if x = d.closing then splittable d r else true
      | [] => true
    else if c = '\\' && d.escapes then
      match r with
      | x :: r => x != d.closing && splittable d r
      | [] => true
    else (scriptQuotes.contains d.opening || unmarked [c]) && splittable d r

/-- The blanks and comments in front of the first token. -/
def trivia (cs : List Char) : List Char := cs.take (cs.length - (skipTrivia cs).length)

/-- Whether all blanks and comments of a script are unmarked, and all its quoted texts and names mean the
same to the search. What lexing does not come to is not looked at. -/
def splittable (cs : List Char) : Bool :=
  unmarked (trivia cs) &&
    match _skipped : skipTrivia cs with
    | [] => true
    | c :: r =>
      (Delimiter.ofOpening? c).all (·.splittable r) &&
        match _scanned : scan c r with
        | .error _ => true
        | .ok (_, rest) => splittable rest
termination_by cs.length
decreasing_by
  have hskipped := length_skipTrivia_le cs
  have hrest := length_scan_le _scanned
  rw [_skipped, List.length_cons] at hskipped
  omega

theorem splittable_trivia (h : splittable cs = true) : unmarked (trivia cs) = true := by
  rw [splittable, Bool.and_eq_true] at h
  exact h.1

theorem splittable_token (h : splittable cs = true) (hskip : skipTrivia cs = c :: r) :
    (∀ d, Delimiter.ofOpening? c = some d → d.splittable r = true) ∧
      ∀ t rest, scan c r = .ok (t, rest) → splittable rest = true := by
  rw [splittable, Bool.and_eq_true] at h
  obtain ⟨-, h⟩ := h
  split at h
  · next hnil =>
    rw [hskip] at hnil
    cases hnil
  · next hcons =>
    rw [hskip] at hcons
    cases hcons
    rw [Bool.and_eq_true] at h
    refine ⟨fun d hd => by simpa [hd] using h.1, fun t rest hscan => ?_⟩
    obtain ⟨-, h⟩ := h
    split at h
    · next herror =>
      rw [hscan] at herror
      cases herror
    · next hok =>
      rw [hscan] at hok
      cases hok
      exact h

theorem afterComment_suffix (cs : List Char) : afterComment cs <:+ cs := by
  fun_induction afterComment cs with
  | case1 => exact List.suffix_rfl
  | case2 r => exact ⟨['*', '/'], rfl⟩
  | case3 c r _ ih => exact ih.trans (List.suffix_cons c r)

theorem skipTrivia_suffix (cs : List Char) : skipTrivia cs <:+ cs := by
  fun_induction skipTrivia cs with
  | case1 => exact List.suffix_rfl
  | case2 r ih => exact ih.trans ((List.dropWhile_suffix _).trans ⟨['-', '-'], rfl⟩)
  | case3 r ih => exact ih.trans ((afterComment_suffix r).trans ⟨['/', '*'], rfl⟩)
  | case4 c r _ _ _ ih => exact ih.trans (List.suffix_cons c r)
  | case5 => exact List.suffix_rfl

theorem trivia_append (cs : List Char) : trivia cs ++ skipTrivia cs = cs :=
  List.suffix_iff_eq_append.1 (skipTrivia_suffix cs)

/-! ## What the search passes over -/

theorem passes_of_unmarked (h : unmarked cs = true) : Passes ';' scriptQuotes none none cs := by
  apply Text.passes_plain
  simpa [unmarked] using h

namespace Delimiter

variable {d : Delimiter}

/-- The quote that the search takes for open behind the opening character. -/
def opened (d : Delimiter) : Option Char := Text.nextQuote scriptQuotes none d.opening

theorem opened_eq (d : Delimiter) :
    d.opened = some d.closing ∧ d.closing ∈ scriptQuotes ∧ d.opening ∈ scriptQuotes ∨
      d.opened = none ∧ d.escapes = false ∧ d.opening ∉ scriptQuotes := by
  cases d <;> decide

theorem passes_closing (d : Delimiter) : Passes ';' scriptQuotes d.opened none [d.closing] := by
  have hcut : ¬(d.closing = ';' ∧ d.opened = none) := by cases d <;> decide
  have hnext : Text.nextQuote scriptQuotes d.opened d.closing = none := by cases d <;> decide
  exact hnext ▸ Text.passes_char hcut

/-- A closing character opens what it closes, or means nothing to the search. -/
theorem passes_reopening (d : Delimiter) : Passes ';' scriptQuotes none d.opened [d.closing] := by
  have hcut : ¬(d.closing = ';' ∧ (none : Option Char) = none) := by cases d <;> decide
  have hnext : Text.nextQuote scriptQuotes none d.closing = d.opened := by cases d <;> decide
  exact hnext ▸ Text.passes_char hcut

theorem passes_opening (d : Delimiter) : Passes ';' scriptQuotes none d.opened [d.opening] := by
  have hcut : ¬(d.opening = ';' ∧ (none : Option Char) = none) := by cases d <;> decide
  exact Text.passes_char hcut

theorem passes_inner (hc : c ≠ d.closing)
    (h : (scriptQuotes.contains d.opening || unmarked [c]) = true) :
    Passes ';' scriptQuotes d.opened d.opened [c] := by
  rcases d.opened_eq with ⟨hopened, -, -⟩ | ⟨hopened, -, hopening⟩
  · rw [hopened]
    exact Text.passes_inside hc
  · have hunmarked : unmarked [c] = true := by simpa [hopening] using h
    rw [hopened]
    exact passes_of_unmarked hunmarked

theorem passes_escape (hescapes : d.escapes = true) (hc : c ≠ d.closing) :
    Passes ';' scriptQuotes d.opened d.opened ['\\', c] := by
  have hbackslash : '\\' ≠ d.closing := by cases d <;> decide
  rcases d.opened_eq with ⟨hopened, -⟩ | ⟨-, hescapes', -⟩
  · rw [hopened]
    exact .append (Text.passes_inside hbackslash) (Text.passes_inside hc)
  · rw [hescapes] at hescapes'
    cases hescapes'

/-- Quoted text that is splittable takes the search from behind its opening character to its end. -/
theorem passes_body (hbody : d.body? cs = some (text, rest)) (h : d.splittable cs = true) :
    ∃ body, cs = body ++ rest ∧ Passes ';' scriptQuotes d.opened none body := by
  fun_induction body? d cs generalizing text with
  | case1 => cases hbody
  | case2 r ih =>
    obtain ⟨inner, -, hinner⟩ := Text.prepend_eq_some_iff.1 hbody
    have hr : d.splittable r = true := by simpa [splittable] using h
    obtain ⟨body, rfl, hpasses⟩ := ih hinner hr
    have hpair := d.passes_closing.append d.passes_reopening
    exact ⟨d.closing :: d.closing :: body, rfl, hpair.append hpasses⟩
  | case3 x r hx =>
    cases hbody
    exact ⟨[d.closing], rfl, d.passes_closing⟩
  | case4 =>
    cases hbody
    exact ⟨[d.closing], rfl, d.passes_closing⟩
  | case5 c hclosing hescape x r ih =>
    obtain ⟨rfl, hescapes⟩ : c = '\\' ∧ d.escapes = true := by simpa using hescape
    obtain ⟨inner, -, hinner⟩ := Text.prepend_eq_some_iff.1 hbody
    obtain ⟨hx, hr⟩ : x ≠ d.closing ∧ d.splittable r = true := by
      simpa [splittable, hclosing, hescapes] using h
    obtain ⟨body, rfl, hpasses⟩ := ih hinner hr
    exact ⟨'\\' :: x :: body, rfl, (passes_escape hescapes hx).append hpasses⟩
  | case6 => cases hbody
  | case7 c r hclosing hescape ih =>
    obtain ⟨inner, -, hinner⟩ := Text.prepend_eq_some_iff.1 hbody
    rw [splittable.eq_def] at h
    simp only [if_neg hclosing] at h
    rw [if_neg hescape, Bool.and_eq_true] at h
    obtain ⟨body, rfl, hpasses⟩ := ih hinner h.2
    exact ⟨c :: body, rfl, (passes_inner hclosing h.1).append hpasses⟩

theorem eq_opening (h : ofOpening? c = some d) : c = d.opening := by
  unfold ofOpening? at h
  repeat' split at h
  all_goals cases h
  all_goals assumption

end Delimiter

/-! ### Tokens -/

theorem unmarked_append (cs r : List Char) : unmarked (cs ++ r) = (unmarked cs && unmarked r) :=
  List.all_append

theorem unmarked_of_inWord (h : ∀ c ∈ cs, Text.inWord c = true) : unmarked cs = true := by
  have hmarks : (';' :: scriptQuotes).all
      (fun m => offRanges m.toNat && !(m.isAlpha || m.isDigit || m == '_')) = true := by decide
  rw [unmarked, List.all_eq_true]
  intro c hc
  have hne : c ∉ ';' :: scriptQuotes := by
    intro hmem
    have hmark := List.all_eq_true.1 hmarks c hmem
    rw [Bool.and_eq_true, Bool.not_eq_true'] at hmark
    have hword := h c hc
    rw [inWord_of_offRanges hmark.1, hmark.2] at hword
    cases hword
  simpa using hne

theorem unmarked_of_isDigit (h : ∀ c ∈ cs, c.isDigit = true) : unmarked cs = true :=
  unmarked_of_inWord fun c hc => by simp [Text.inWord, Text.isNumeral_of_isDigit (h c hc)]

theorem spanFraction_append_eq (cs : List Char) :
    (spanFraction cs).1 ++ (spanFraction cs).2 = cs ∧ unmarked (spanFraction cs).1 = true := by
  cases cs with
  | nil => exact ⟨rfl, rfl⟩
  | cons c r =>
    by_cases hc : c = '.'
    · rw [hc, spanFraction_point]
      split
      · have hdigits : unmarked (r.takeWhile Char.isDigit) = true :=
          unmarked_of_isDigit fun d hd => List.all_eq_true.1 List.all_takeWhile d hd
        refine ⟨by simp, ?_⟩
        rw [← List.singleton_append, unmarked_append, hdigits]
        rfl
      · exact ⟨rfl, rfl⟩
    · rw [spanFraction_of_ne (by simpa using hc)]
      exact ⟨rfl, rfl⟩

theorem unmarked_of_scanNumber (h : scanNumber cs = .ok (t, rest)) :
    ∃ digits, cs = digits ++ rest ∧ unmarked digits = true := by
  have hdigits : unmarked (cs.takeWhile Char.isDigit) = true :=
    unmarked_of_isDigit fun d hd => List.all_eq_true.1 List.all_takeWhile d hd
  obtain ⟨hfraction, hplain⟩ := spanFraction_append_eq (cs.dropWhile Char.isDigit)
  refine ⟨cs.takeWhile Char.isDigit ++ (spanFraction (cs.dropWhile Char.isDigit)).1, ?_, ?_⟩
  · rw [eq_of_numberToken h, List.append_assoc, hfraction, List.takeWhile_append_dropWhile]
  · rw [unmarked_append, hdigits, hplain]
    rfl

theorem unmarked_of_scanMark (h : scanMark c r = .ok (t, rest)) (ht : t ≠ .mark .semicolon) :
    ∃ more, r = more ++ rest ∧ unmarked (c :: more) = true := by
  unfold scanMark at h
  split at h <;> cases h
  all_goals first
    | exact ⟨[], rfl, rfl⟩
    | exact ⟨['='], rfl, rfl⟩
    | exact ⟨['>'], rfl, rfl⟩
    | exact absurd rfl ht

theorem unmarked_of_scan (hopening : Delimiter.ofOpening? c = none) (h : scan c r = .ok (t, rest))
    (ht : t ≠ .mark .semicolon) : ∃ more, r = more ++ rest ∧ unmarked (c :: more) = true := by
  have hlength := length_scan_le h
  unfold scan at h
  split at h
  · obtain ⟨digits, hcs, hdigits⟩ := unmarked_of_scanNumber h
    cases digits with
    | nil =>
      rw [← show c :: r = rest from hcs, List.length_cons] at hlength
      omega
    | cons d more =>
      cases hcs
      exact ⟨more, rfl, hdigits⟩
  · split at h
    · next hstart =>
      cases h
      refine ⟨r.takeWhile Text.inWord, List.takeWhile_append_dropWhile.symm, ?_⟩
      apply unmarked_of_inWord
      intro d hd
      rcases List.mem_cons.1 hd with rfl | hd
      · exact Text.inWord_of_startsWord hstart
      · exact List.all_eq_true.1 List.all_takeWhile d hd
    · rw [hopening] at h
      exact unmarked_of_scanMark h ht

/-- A token that is splittable passes the search, but for the semicolon. -/
theorem passes_of_scan (hquote : ∀ d, Delimiter.ofOpening? c = some d → d.splittable r = true)
    (h : scan c r = .ok (t, rest)) (ht : t ≠ .mark .semicolon) :
    ∃ more, r = more ++ rest ∧ Passes ';' scriptQuotes none none (c :: more) := by
  cases hopening : Delimiter.ofOpening? c with
  | none =>
    obtain ⟨more, hr, hunmarked⟩ := unmarked_of_scan hopening h ht
    exact ⟨more, hr, passes_of_unmarked hunmarked⟩
  | some d =>
    obtain rfl := Delimiter.eq_opening hopening
    rw [d.scan_opening] at h
    split at h
    · next text rest' hbody =>
      cases h
      obtain ⟨body, hr, hpasses⟩ := Delimiter.passes_body hbody (hquote d hopening)
      exact ⟨body, hr, d.passes_opening.append hpasses⟩
    · cases h

theorem wordToken_ne_semicolon (word : String) : wordToken word ≠ .mark .semicolon := by
  unfold wordToken
  dsimp only
  split
  · intro h
    cases h
  · split <;> intro h <;> cases h

theorem semicolon_of_scan (h : scan c r = .ok (.mark .semicolon, rest)) : c = ';' ∧ r = rest := by
  unfold scan at h
  split at h
  · unfold scanNumber numberToken at h
    dsimp only at h
    split at h
    · split at h <;> cases h
    · cases h
  · split at h
    · injection h with h
      exact absurd (congrArg Prod.fst h) (wordToken_ne_semicolon _)
    · split at h
      · next d _ =>
        split at h <;> cases d <;> cases h
      · unfold scanMark at h
        split at h <;> cases h
        exact ⟨rfl, rfl⟩

/-! ## Cuts -/

/-- Where the search first cuts a script, by the script and its tokens: nowhere, or where the first run
of tokens ends. -/
inductive FirstCut : List Char → List Token → Prop
  | whole {cs : List Char} {ts : List Token} :
      Passes ';' scriptQuotes none none cs → .mark .semicolon ∉ ts → FirstCut cs ts
  | cut {pre post : List Char} {run more : List Token} :
      Passes ';' scriptQuotes none none pre → .mark .semicolon ∉ run →
        Comes (pre ++ ';' :: post) run (';' :: post) → lex post = .ok more →
          splittable post = true → FirstCut (pre ++ ';' :: post) (run ++ .mark .semicolon :: more)

/-- A token that passes the search moves the first cut on. -/
theorem FirstCut.token {lexeme : List Char} (hlexeme : Passes ';' scriptQuotes none none lexeme)
    (hskip : skipTrivia (lexeme ++ rest) = c :: r) (hscan : scan c r = .ok (t, rest))
    (ht : t ≠ .mark .semicolon) (h : FirstCut rest ts) : FirstCut (lexeme ++ rest) (t :: ts) := by
  have hne {us : List Token} (hus : .mark .semicolon ∉ us) : .mark .semicolon ∉ t :: us := by
    rw [List.mem_cons, not_or]
    exact ⟨ht.symm, hus⟩
  cases h with
  | whole hrest hts => exact .whole (hlexeme.append hrest) (hne hts)
  | cut hpre hrun hcomes hpost hsplittable =>
    rw [← List.append_assoc] at hskip ⊢
    have hcomes' := Comes.token hskip hscan hcomes
    exact .cut (hlexeme.append hpre) (hne hrun) hcomes' hpost hsplittable

theorem first_cut (hscript : splittable cs = true) (hlex : lex cs = .ok ts) : FirstCut cs ts := by
  fun_induction lex cs generalizing ts with
  | case1 cs hskip =>
    cases hlex
    have hcs := trivia_append cs
    rw [hskip, List.append_nil] at hcs
    have htrivia := passes_of_unmarked (splittable_trivia hscript)
    rw [hcs] at htrivia
    exact .whole htrivia List.not_mem_nil
  | case2 => cases hlex
  | case3 cs c r hskip t rest hscan ih =>
    have hcs := trivia_append cs
    rw [hskip] at hcs
    have htrivia := passes_of_unmarked (splittable_trivia hscript)
    obtain ⟨hquote, hrest⟩ := splittable_token hscript hskip
    have hlater := hrest t rest hscan
    obtain ⟨us, hread, rfl⟩ := ok_of_map_cons hlex
    by_cases ht : t = .mark .semicolon
    · -- the first run ends here, and the search cuts in front of `r`
      subst ht
      obtain ⟨rfl, rfl⟩ := semicolon_of_scan hscan
      have hhere : Comes (trivia cs ++ ';' :: r) [] (';' :: r) := by
        rw [hcs, ← hskip]
        exact .here cs
      rw [← hcs]
      exact .cut htrivia List.not_mem_nil hhere hread hlater
    · obtain ⟨more, rfl, hpasses⟩ := passes_of_scan hquote hscan ht
      have htext : trivia cs ++ c :: more ++ rest = cs := by simpa using hcs
      rw [← htext] at hskip
      have hstep := FirstCut.token (htrivia.append hpasses) hskip hscan ht (ih hlater hread)
      rwa [htext] at hstep

/-- The pieces of a script have the tokens that stand between its semicolons. -/
theorem lex_scriptPieces (hscript : splittable cs = true) (hlex : lex cs = .ok ts) :
    (scriptPieces cs).map lex = (ts.splitOn (.mark .semicolon)).map .ok := by
  -- what is left behind the first cut is a shorter script of the same kind
  induction hn : cs.length using Nat.strongRecOn generalizing cs ts with
  | _ n ih =>
    subst hn
    cases first_cut hscript hlex with
    | whole hpasses hts =>
      rw [scriptPieces, Text.pieces_of_passes hpasses, List.splitOn_eq_singleton hts,
        List.map_singleton, List.map_singleton, hlex]
    | @cut pre post run more hpre hrun hcomes hpost hlater =>
      have hpieces : scriptPieces (pre ++ ';' :: post) = pre :: scriptPieces post :=
        Text.pieces_cut hpre post
      have hread : lex pre = .ok run := lex_of_spells (spells_of_comes (by decide) hcomes)
      have hmore := ih post.length (by simp; omega) hlater hpost rfl
      rw [hpieces, List.splitOn_append_cons_self_of_not_mem hrun, List.map_cons, List.map_cons, hread,
        hmore]

/-! ## Statements -/

/-- The text begins with a comment. -/
def OpensComment (cs : List Char) : Prop := ['-', '-'] <+: cs ∨ ['/', '*'] <+: cs

theorem skipTrivia_of_lex (h : lex cs = .ok []) : skipTrivia cs = [] := by
  fun_induction lex cs with
  | case1 cs hskip => exact hskip
  | case2 => cases h
  | case3 cs c r _ t rest _ _ => cases hrest : lex rest <;> rw [hrest] at h <;> cases h

/-- What has no tokens, and does not begin with a blank, begins with a comment. -/
theorem opensComment_of_lex (hblank : Text.isBlank c = false) (h : lex (c :: r) = .ok []) :
    OpensComment (c :: r) := by
  have hskip := skipTrivia_of_lex h
  unfold OpensComment
  by_contra hnot
  rw [not_or] at hnot
  have hline (w : List Char) (hc : c = '-') : r ≠ '-' :: w := by
    rintro rfl
    exact hnot.1 (hc ▸ ⟨w, rfl⟩)
  have hblock (w : List Char) (hc : c = '/') : r ≠ '*' :: w := by
    rintro rfl
    exact hnot.2 (hc ▸ ⟨w, rfl⟩)
  rw [skipTrivia_cons hline hblock, hblank] at hskip
  cases hskip

/-- Trimming and dropping what is blank leaves all tokens. -/
theorem lex_kept {pieces : List (List Char)} {runs : List (List Token)}
    (h : pieces.map lex = runs.map .ok) :
    ∃ read : List (List Token),
      ((pieces.map Text.trimmed).filter (· ≠ [])).map lex = read.map .ok ∧
        read.filter (· ≠ []) = runs.filter (· ≠ []) := by
  induction pieces generalizing runs with
  | nil =>
    cases runs with
    | nil => exact ⟨[], rfl, rfl⟩
    | cons run more => cases h
  | cons piece pieces ih =>
    cases runs with
    | nil => cases h
    | cons run more =>
      rw [List.map_cons, List.map_cons, List.cons.injEq] at h
      obtain ⟨hpiece, hpieces⟩ := h
      obtain ⟨read, hread, hfilter⟩ := ih hpieces
      rw [← lex_trimmed] at hpiece
      by_cases hblank : Text.trimmed piece = []
      · have hnil : lex [] = .ok [] := lex_of_skipTrivia_eq_nil skipTrivia_nil
        rw [hblank, hnil] at hpiece
        cases hpiece
        exact ⟨read, by simpa [hblank] using hread, by simpa using hfilter⟩
      · refine ⟨run :: read, by simp [hblank, hpiece, ← hread], ?_⟩
        rw [List.filter_cons, List.filter_cons, hfilter]

/-- In a script where lexing and the search agree, each statement has the tokens of one run between two
semicolons, in order, and no run is left out. A statement without tokens is a comment. -/
theorem statements_are_runs {script : String} (hscript : splittable script.toList = true)
    (hlex : lex script.toList = .ok ts) :
    ∃ runs : List (List Token),
      (statementsOf script).map (fun statement => lex statement.toList) = runs.map .ok ∧
        runs.filter (· ≠ []) = (ts.splitOn (.mark .semicolon)).filter (· ≠ []) ∧
        ∀ statement ∈ statementsOf script, lex statement.toList = .ok [] →
          OpensComment statement.toList := by
  obtain ⟨read, hread, hfilter⟩ := lex_kept (lex_scriptPieces hscript hlex)
  refine ⟨read, ?_, hfilter, ?_⟩
  · rw [statementsOf, List.map_map, ← hread]
    congr 1
    funext piece
    exact congrArg lex String.toList_ofList
  · intro statement hstatement hnone
    obtain ⟨kept, hkept, rfl⟩ := List.mem_map.1 hstatement
    rw [String.toList_ofList] at hnone ⊢
    obtain ⟨hmem, hne⟩ := List.mem_filter.1 hkept
    obtain ⟨piece, -, rfl⟩ := List.mem_map.1 hmem
    cases htrimmed : Text.trimmed piece with
    | nil => simp [htrimmed] at hne
    | cons c r =>
      rw [htrimmed] at hnone
      exact opensComment_of_lex (isBlank_of_trimmed htrimmed) hnone

/-- A quoted semicolon, and a comment behind each statement. -/
def commentedScript : String := "DELETE FROM [a b]; -- one\nSELECT 'a;b'; -- two"

theorem statements_are_runs_commented :
    splittable commentedScript.toList = true ∧
      ∃ runs : List (List Token),
        (statementsOf commentedScript).map (fun statement => lex statement.toList) = runs.map .ok ∧
          runs.filter (· ≠ []) =
            [[.keyword .DELETE, .keyword .FROM, .identifier "a b"],
              [.keyword .SELECT, .text "a;b"]] := by
  have hscript : splittable commentedScript.toList = true := by decide +kernel
  have hlex : lex commentedScript.toList =
      .ok [.keyword .DELETE, .keyword .FROM, .identifier "a b", .mark .semicolon, .keyword .SELECT,
        .text "a;b", .mark .semicolon] := by decide +kernel
  obtain ⟨runs, hruns, hfilter, -⟩ := statements_are_runs hscript hlex
  exact ⟨hscript, runs, hruns, hfilter.trans (by decide)⟩

/-- Lexing reads `'a\';b'` as one text. The search takes the quote behind the backslash for the end of
the text, and cuts at the semicolon, where neither half is read. -/
theorem escaped_quote_is_cut :
    lex "SELECT * FROM t WHERE n = 'a\\';b'".toList =
        .ok [.keyword .SELECT, .mark .star, .keyword .FROM, .identifier "t", .keyword .WHERE,
          .identifier "n", .mark .equal, .text "a';b"] ∧
      statementsOf "SELECT * FROM t WHERE n = 'a\\';b'" = ["SELECT * FROM t WHERE n = 'a\\'", "b'"] ∧
      lex "SELECT * FROM t WHERE n = 'a\\'".toList = .error .unterminatedText ∧
      lex "b'".toList = .error .unterminatedText := by
  refine ⟨?_, ?_, ?_, ?_⟩ <;> decide +kernel

end Schemaless.Sql
