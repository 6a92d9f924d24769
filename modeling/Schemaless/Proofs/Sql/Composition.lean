import Schemaless.Proofs.Sql.Splitting
import Mathlib.Data.List.Basic

/-!
# The tokens of two texts, one under the other

Every token ends at a line's end, or inside its quotes. So a text that is lexed on its own is lexed the
same way with other text under it, and that text is lexed as if it stood alone (`lex_append_newline`).
Only a block comment can reach over the line's end without being a fault: `commentsClosed` says that
lexing comes to the end of every block comment it opens. Where it does not, the comment goes on, and
what is lexed is the text behind it (`lex_append_newline_open`).
-/

namespace Schemaless.Sql

variable {a b cs p r z : List Char} {c : Char} {ts : List Token}

/-! ## Open comments -/

/-- Whether a block comment, from behind its opening, comes to its end. -/
def commentCloses : List Char → Bool
  | [] => false
  | '*' :: '/' :: _ => true
  | _ :: r => commentCloses r

/-- Whether each block comment in front of the first token is closed. -/
def triviaClosed : List Char → Bool
  | [] => true
  | '-' :: '-' :: r => triviaClosed (r.dropWhile (· != '\n'))
  | '/' :: '*' :: r => commentCloses r && triviaClosed (afterComment r)
  | c :: r => if Text.isBlank c then triviaClosed r else true
termination_by cs => cs.length
decreasing_by
  · have := length_dropWhile_le_length (· != '\n') r
    simp
    omega
  · have := length_afterComment_le r
    simp
    omega
  · simp

/-- Whether each block comment that lexing opens is closed. What stands in quotes or behind two dashes
opens none. -/
def commentsClosed (cs : List Char) : Bool :=
  triviaClosed cs &&
    match _skipped : skipTrivia cs with
    | [] => true
    | c :: r =>
      match _scanned : scan c r with
      | .error _ => true
      | .ok (_, rest) => commentsClosed rest
termination_by cs.length
decreasing_by
  have hskipped := length_skipTrivia_le cs
  have hrest := length_scan_le _scanned
  rw [_skipped, List.length_cons] at hskipped
  omega

theorem triviaClosed_nil : triviaClosed [] = true := by
  rw [triviaClosed.eq_def]

theorem triviaClosed_line (r : List Char) :
    triviaClosed ('-' :: '-' :: r) = triviaClosed (r.dropWhile (· != '\n')) := by
  rw [triviaClosed.eq_def]
  rfl

theorem triviaClosed_block (r : List Char) :
    triviaClosed ('/' :: '*' :: r) = (commentCloses r && triviaClosed (afterComment r)) := by
  rw [triviaClosed.eq_def]
  rfl

theorem triviaClosed_cons (hline : ∀ z, c = '-' → r ≠ '-' :: z)
    (hblock : ∀ z, c = '/' → r ≠ '*' :: z) :
    triviaClosed (c :: r) = if Text.isBlank c then triviaClosed r else true := by
  rw [triviaClosed.eq_def (c :: r)]
  split
  · next h => cases h
  · next z h =>
    cases h
    exact absurd rfl (hline z rfl)
  · next z h =>
    cases h
    exact absurd rfl (hblock z rfl)
  · next h =>
    cases h
    rfl

theorem commentsClosed_of_skipTrivia_eq_nil (h : skipTrivia cs = []) :
    commentsClosed cs = triviaClosed cs := by
  rw [commentsClosed]
  split
  · exact Bool.and_true _
  · next hcons =>
    rw [h] at hcons
    cases hcons

theorem commentsClosed_of_scan {rest : List Char} {t : Token} (h : skipTrivia cs = c :: r)
    (hscan : scan c r = .ok (t, rest)) :
    commentsClosed cs = (triviaClosed cs && commentsClosed rest) := by
  rw [commentsClosed]
  split
  · next hnil =>
    rw [h] at hnil
    cases hnil
  · next hcons =>
    rw [h] at hcons
    cases hcons
    split
    · next herror =>
      rw [hscan] at herror
      cases herror
    · next hok =>
      rw [hscan] at hok
      cases hok
      rfl

/-! ## Comments and the text under them -/

theorem afterComment_cons (h : ∀ w, c = '*' → r ≠ '/' :: w) :
    afterComment (c :: r) = afterComment r := by
  rw [afterComment]
  rintro w rfl hw
  exact h w rfl hw

/-- A block comment that is closed ends where it ended, whatever comes after it. -/
theorem afterComment_of_closes (h : commentCloses p = true) (z : List Char) :
    afterComment (p ++ z) = afterComment p ++ z := by
  fun_induction commentCloses p with
  | case1 => cases h
  | case2 r => rfl
  | case3 c r hopen ih =>
    have hhere : ∀ w, c = '*' → r ++ z ≠ '/' :: w := by
      -- the comment goes on to its end in `r`, so `r` does not end here
      cases r with
      | nil => cases h
      | cons d r =>
        rintro w rfl ⟨⟩
        exact hopen r rfl rfl
    rw [List.cons_append, afterComment_cons hhere, ih h, afterComment_cons fun w hc hr => hopen w hc hr]

/-- A block comment that is not closed takes all that comes after it, up to the next end of a comment. -/
theorem afterComment_of_open (h : commentCloses p = false) (hz : z.head? ≠ some '/') :
    afterComment p = [] ∧ afterComment (p ++ z) = afterComment z := by
  fun_induction commentCloses p with
  | case1 => exact ⟨rfl, rfl⟩
  | case2 r => cases h
  | case3 c r hopen ih =>
    obtain ⟨hend, hon⟩ := ih h
    have hhere : ∀ w, c = '*' → r ++ z ≠ '/' :: w :=
      fun w hc => append_ne_cons hz (fun v hr => hopen v hc hr) w
    exact ⟨(afterComment_cons fun w hc hr => hopen w hc hr).trans hend,
      (afterComment_cons hhere).trans hon⟩

theorem skipTrivia_newline (b : List Char) : skipTrivia ('\n' :: b) = skipTrivia b :=
  skipTrivia_of_isBlank (by decide) b

theorem dropWhile_append_newline (p b : List Char) :
    (p ++ '\n' :: b).dropWhile (· != '\n') = p.dropWhile (· != '\n') ++ '\n' :: b :=
  dropWhile_append_eq (by simp)

/-- Closed comments end on their own or at the line's end, so blanks and comments in front are the same
with a text under them. -/
theorem skipTrivia_append_newline (h : triviaClosed p = true) (b : List Char) :
    skipTrivia (p ++ '\n' :: b) = skipTrivia (skipTrivia p ++ '\n' :: b) := by
  fun_induction skipTrivia p with
  | case1 => rfl
  | case2 r ih =>
    rw [triviaClosed_line] at h
    rw [List.cons_append, List.cons_append, skipTrivia_line, dropWhile_append_newline, ih h]
  | case3 r ih =>
    rw [triviaClosed_block, Bool.and_eq_true] at h
    rw [List.cons_append, List.cons_append, skipTrivia_block, afterComment_of_closes h.1, ih h.2]
  | case4 c r hline hblock hblank ih =>
    rw [triviaClosed_cons hline hblock, if_pos hblank] at h
    rw [List.cons_append, skipTrivia_of_isBlank hblank, ih h]
  | case5 c r hline hblock hblank => rfl

/-- An open comment takes the text under it, up to the next end of a comment. -/
theorem skipTrivia_append_newline_open (h : triviaClosed p = false) (b : List Char) :
    skipTrivia p = [] ∧ skipTrivia (p ++ '\n' :: b) = skipTrivia (afterComment b) := by
  fun_induction skipTrivia p with
  | case1 =>
    rw [triviaClosed_nil] at h
    cases h
  | case2 r ih =>
    rw [triviaClosed_line] at h
    rw [List.cons_append, List.cons_append, skipTrivia_line, dropWhile_append_newline]
    exact ih h
  | case3 r ih =>
    rw [triviaClosed_block, Bool.and_eq_false_iff] at h
    rw [List.cons_append, List.cons_append, skipTrivia_block]
    rcases Bool.eq_false_or_eq_true (commentCloses r) with hcloses | hopen
    · rw [afterComment_of_closes hcloses]
      exact ih (h.resolve_left (by simp [hcloses]))
    · obtain ⟨hend, hon⟩ := afterComment_of_open hopen (z := '\n' :: b) (by simp)
      rw [hend, skipTrivia_nil, hon, afterComment_cons (by simp)]
      exact ⟨rfl, rfl⟩
  | case4 c r hline hblock hblank ih =>
    rw [triviaClosed_cons hline hblock, if_pos hblank] at h
    rw [List.cons_append, skipTrivia_of_isBlank hblank]
    exact ih h
  | case5 c r hline hblock hblank =>
    rw [triviaClosed_cons hline hblock, if_neg hblank] at h
    cases h

/-! ## Lexing two texts -/

theorem setOff_newline (b : List Char) : SetOff ('\n' :: b) := setOff_cons (by decide) b

/-- Where a text comes to its first token, that token is read with another text under it, too. -/
theorem lex_token_newline {rest : List Char} {t : Token} (hclosed : triviaClosed a = true)
    (hskip : skipTrivia a = c :: r) (hscan : scan c r = .ok (t, rest)) (b : List Char) :
    lex (a ++ '\n' :: b) = (lex (rest ++ '\n' :: b)).map (t :: ·) := by
  have hstart : skipTrivia (a ++ '\n' :: b) = c :: (r ++ '\n' :: b) := by
    rw [skipTrivia_append_newline hclosed, hskip, List.cons_append,
      skipTrivia_skipped hskip (setOff_newline b)]
  exact lex_of_scan hstart (scan_append hscan (setOff_newline b))

/-- A text that is lexed and closes its comments, and under it any other text: first come the tokens of
the one, then those of the other, or its fault. -/
theorem lex_append_newline (hlex : lex a = .ok ts) (hclosed : commentsClosed a = true)
    (b : List Char) : lex (a ++ '\n' :: b) = (lex b).map (ts ++ ·) := by
  fun_induction lex a generalizing ts with
  | case1 a hskip =>
    cases hlex
    rw [commentsClosed_of_skipTrivia_eq_nil hskip] at hclosed
    have hunder : skipTrivia (a ++ '\n' :: b) = skipTrivia b := by
      rw [skipTrivia_append_newline hclosed, hskip, List.nil_append, skipTrivia_newline]
    rw [lex_congr hunder, map_nil_append]
  | case2 => cases hlex
  | case3 a c r hskip t rest hscan ih =>
    rw [commentsClosed_of_scan hskip hscan, Bool.and_eq_true] at hclosed
    obtain ⟨us, hrest, rfl⟩ := ok_of_map_cons hlex
    rw [lex_token_newline hclosed.1 hskip hscan, ih hrest hclosed.2, map_cons_append]

/-- A closed comment with a quote in it, and one behind two dashes that is none. -/
def commentedLine : List Char := "SELECT 1 /* it's */ -- a /*".toList

theorem lex_append_newline_commented :
    lex commentedLine = .ok [.keyword .SELECT, .number "1"] ∧ commentsClosed commentedLine = true ∧
      lex (commentedLine ++ '\n' :: "FROM 't".toList) = .error .unterminatedText ∧
      lex (commentedLine ++ '\n' :: ", '*/'".toList) =
        .ok [.keyword .SELECT, .number "1", .mark .comma, .text "*/"] := by
  have hlex : lex commentedLine = .ok [.keyword .SELECT, .number "1"] := by decide +kernel
  have hclosed : commentsClosed commentedLine = true := by decide +kernel
  have hopen : lex "FROM 't".toList = .error .unterminatedText := by decide +kernel
  have hread : lex ", '*/'".toList = .ok [.mark .comma, .text "*/"] := by decide +kernel
  refine ⟨hlex, hclosed, ?_, ?_⟩
  · rw [lex_append_newline hlex hclosed, hopen]
    rfl
  · rw [lex_append_newline hlex hclosed, hread]
    rfl

/-- Under an open comment, the tokens are those behind the next end of a comment. -/
theorem lex_append_newline_open (hlex : lex a = .ok ts) (hopen : commentsClosed a = false)
    (b : List Char) : lex (a ++ '\n' :: b) = (lex (afterComment b)).map (ts ++ ·) := by
  fun_induction lex a generalizing ts with
  | case1 a hskip =>
    cases hlex
    rw [commentsClosed_of_skipTrivia_eq_nil hskip] at hopen
    rw [lex_congr (skipTrivia_append_newline_open hopen b).2, map_nil_append]
  | case2 => cases hlex
  | case3 a c r hskip t rest hscan ih =>
    rw [commentsClosed_of_scan hskip hscan] at hopen
    have hclosed : triviaClosed a = true := by
      rw [← Bool.not_eq_false]
      intro hnot
      have hnil := (skipTrivia_append_newline_open hnot b).1
      rw [hskip] at hnil
      cases hnil
    rw [hclosed, Bool.true_and] at hopen
    obtain ⟨us, hrest, rfl⟩ := ok_of_map_cons hlex
    rw [lex_token_newline hclosed hskip hscan, ih hrest hopen, map_cons_append]

end Schemaless.Sql
