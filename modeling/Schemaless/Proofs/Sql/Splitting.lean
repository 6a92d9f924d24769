import Schemaless.Proofs.Sql.Lexing
import Schemaless.Proofs.Text.Pieces

/-!
# Splitting a text at a mark

Lexing goes from left to right and looks no further than the character after a token. What was read
in front of a text that is set off is therefore read in front of every such text, and what does not
end there, an open quote or an open comment, goes on in that text (`scan_append`, `scan_append_error`,
`skipTrivia_append`). So blanks at the ends of a text change none of its tokens (`lex_trimmed`). And
once lexing comes to a mark that sets off, such as `?` or a semicolon, the part in front of it spells
its tokens on its own, whatever is put in the place of the mark (`spells_of_comes`).
-/

namespace Schemaless.Sql

variable {c m : Char} {cs p q r z rest out text pre post : List Char} {t : Token} {ts us : List Token}

/-! ## Separators -/

/-- The marks that set off whatever is in front of them. -/
def separators : List Char := ['(', ')', ',', ';', '?']

/-- What holds of each separator is checked on the list of them. -/
theorem all_of_separator {p : Char → Bool} (hall : separators.all p = true) (hm : m ∈ separators) :
    p m = true :=
  List.all_eq_true.1 hall m hm

theorem setsOff_of_separator (hm : m ∈ separators) : setsOff m = true :=
  all_of_separator (by decide) hm

theorem setOff_separator (hm : m ∈ separators) (post : List Char) : SetOff (m :: post) :=
  setOff_cons (setsOff_of_separator hm) post

theorem starts_of_separator (hm : m ∈ separators) : Starts m := by
  have hstarts := all_of_separator (p := fun m => !Text.isBlank m && m != '-' && m != '/') (by decide) hm
  simpa [Starts, and_assoc] using hstarts

/-- What sets tokens off neither closes quotes nor escapes. -/
theorem ne_of_setsOff (hm : setsOff m = true) : (∀ d : Delimiter, m ≠ d.closing) ∧ m ≠ '\\' := by
  have hescape := all_of_setsOff (p := fun d => d != '\\') (by decide) hm
  refine ⟨?_, by simpa using hescape⟩
  rintro d rfl
  have hclosing : d.closing ∈ continuing := by cases d <;> decide
  exact not_continuing_of_setsOff hm hclosing

/-! ## Tokens -/

theorem head?_ne_of_setOff (hz : SetOff z) (hc : c ∈ continuing) : z.head? ≠ some c := by
  intro hhead
  exact not_continuing_of_setsOff (hz c hhead) hc

theorem takeWhile_append_eq {f : Char → Bool} (hz : ∀ d ∈ z.head?, f d = false) :
    (p ++ z).takeWhile f = p.takeWhile f := by
  induction p with
  | nil => exact takeWhile_append_of_head (by simp) hz
  | cons d p ih =>
    by_cases hd : f d = true
    · rw [List.cons_append, List.takeWhile_cons_of_pos hd, List.takeWhile_cons_of_pos hd, ih]
    · rw [List.cons_append, List.takeWhile_cons_of_neg hd, List.takeWhile_cons_of_neg hd]

theorem dropWhile_append_eq {f : Char → Bool} (hz : ∀ d ∈ z.head?, f d = false) :
    (p ++ z).dropWhile f = p.dropWhile f ++ z := by
  induction p with
  | nil => exact dropWhile_append_of_head (by simp) hz
  | cons d p ih =>
    by_cases hd : f d = true
    · rw [List.cons_append, List.dropWhile_cons_of_pos hd, List.dropWhile_cons_of_pos hd, ih]
    · rw [List.cons_append, List.dropWhile_cons_of_neg hd, List.dropWhile_cons_of_neg hd,
        List.cons_append]

theorem spanFraction_point (p : List Char) :
    spanFraction ('.' :: p) =
      if p.head?.any Char.isDigit then ('.' :: p.takeWhile Char.isDigit, p.dropWhile Char.isDigit)
      else ([], '.' :: p) := by
  cases p with
  | nil => rfl
  | cons d p => cases hd : d.isDigit <;> simp [spanFraction, hd]

theorem spanFraction_append (hz : SetOff z) :
    spanFraction (p ++ z) = ((spanFraction p).1, (spanFraction p).2 ++ z) := by
  have hhead : ∀ d ∈ z.head?, d.isDigit = false := fun d hd => isDigit_of_setsOff (hz d hd)
  cases p with
  | nil =>
    rw [List.nil_append, spanFraction_of_ne (head?_ne_point hz)]
    rfl
  | cons d p =>
    by_cases hd : d = '.'
    · have hany : (p ++ z).head?.any Char.isDigit = p.head?.any Char.isDigit := by
        cases p with
        | nil => cases z <;> simp_all
        | cons e p => rfl
      rw [hd, List.cons_append, spanFraction_point, spanFraction_point, hany,
        takeWhile_append_eq hhead, dropWhile_append_eq hhead]
      split <;> rfl
    · rw [List.cons_append, spanFraction_of_ne (by simpa using hd),
        spanFraction_of_ne (by simpa using hd)]
      rfl

theorem numberToken_append {digits : List Char} (h : numberToken digits p = .ok (t, q))
    (hz : SetOff z) : numberToken digits (p ++ z) = .ok (t, q ++ z) := by
  cases p with
  | cons d p =>
    rw [List.cons_append]
    unfold numberToken at h ⊢
    simp only at h ⊢
    split at h <;> cases h
    next hd =>
      rw [if_neg hd]
      rfl
  | nil =>
    cases h
    exact numberToken_of_setOff digits hz

/-- A number that is no number stays none, whatever comes after it. -/
theorem numberToken_append_error {digits : List Char} {e : ParseFault}
    (h : numberToken digits p = .error e) (z : List Char) : numberToken digits (p ++ z) = .error e := by
  cases p with
  | nil => cases h
  | cons d p =>
    rw [List.cons_append]
    unfold numberToken at h ⊢
    simp only at h ⊢
    split at h <;> cases h
    next hd => rw [if_pos hd]

theorem scanNumber_append_eq (hz : SetOff z) (p : List Char) :
    scanNumber (p ++ z) =
      numberToken (p.takeWhile Char.isDigit ++ (spanFraction (p.dropWhile Char.isDigit)).1)
        ((spanFraction (p.dropWhile Char.isDigit)).2 ++ z) := by
  have hhead : ∀ d ∈ z.head?, d.isDigit = false := fun d hd => isDigit_of_setsOff (hz d hd)
  rw [scanNumber, takeWhile_append_eq hhead, dropWhile_append_eq hhead, spanFraction_append hz]

namespace Delimiter

variable {d : Delimiter}

theorem body?_append (h : d.body? p = some (text, rest)) (hz : z.head? ≠ some d.closing) :
    d.body? (p ++ z) = some (text, rest ++ z) := by
  fun_induction body? d p generalizing text with
  | case1 => cases h
  | case2 r ih =>
    obtain ⟨inner, rfl, hinner⟩ := Text.prepend_eq_some_iff.1 h
    show d.body? (d.closing :: d.closing :: (r ++ z)) = _
    rw [body?_closing_closing, ih hinner]
    rfl
  | case3 x r hx =>
    cases h
    exact d.body?_closing (by simpa using hx)
  | case4 =>
    cases h
    exact d.body?_closing hz
  | case5 c _ hescape x r ih =>
    obtain ⟨rfl, hescapes⟩ : c = '\\' ∧ d.escapes = true := by simpa using hescape
    obtain ⟨inner, rfl, hinner⟩ := Text.prepend_eq_some_iff.1 h
    show d.body? ('\\' :: x :: (r ++ z)) = _
    rw [body?_backslash hescapes, ih hinner]
    rfl
  | case6 => cases h
  | case7 c r hclosing hescape ih =>
    obtain ⟨inner, rfl, hinner⟩ := Text.prepend_eq_some_iff.1 h
    have hplain : ¬(d.escapes ∧ c = '\\') := by simpa [and_comm] using hescape
    rw [List.cons_append, body?_cons hclosing hplain, ih hinner]
    rfl

theorem prepend_eq_none {c : Char} {read : Option (List Char × List Char)}
    (h : Text.prepend c read = none) : read = none := Option.map_eq_none_iff.1 h

/-- A quote that is still open goes on behind a character that neither closes it nor escapes. -/
theorem body?_append_open (hm : setsOff m = true) (h : d.body? p = none) :
    ∃ w, ∀ post, d.body? (p ++ m :: post) = (d.body? post).map fun read => (w ++ read.1, read.2) := by
  obtain ⟨hclosing, hbackslash⟩ := ne_of_setsOff hm
  have hprepend (c : Char) (w : List Char) (read : Option (List Char × List Char)) :
      Text.prepend c (read.map fun read => (w ++ read.1, read.2)) =
        read.map fun read => (c :: w ++ read.1, read.2) := by
    cases read <;> rfl
  fun_induction body? d p with
  | case1 =>
    refine ⟨[m], fun post => ?_⟩
    rw [List.nil_append, body?_cons (hclosing d) (fun hescape => hbackslash hescape.2)]
    rfl
  | case2 r ih =>
    obtain ⟨w, hw⟩ := ih (prepend_eq_none h)
    refine ⟨d.closing :: w, fun post => ?_⟩
    show d.body? (d.closing :: d.closing :: (r ++ m :: post)) = _
    rw [body?_closing_closing, hw, hprepend]
  | case3 x r hx => cases h
  | case4 => cases h
  | case5 c _ hescape x r ih =>
    obtain ⟨rfl, hescapes⟩ : c = '\\' ∧ d.escapes = true := by simpa using hescape
    obtain ⟨w, hw⟩ := ih (prepend_eq_none h)
    refine ⟨unescaped x :: w, fun post => ?_⟩
    show d.body? ('\\' :: x :: (r ++ m :: post)) = _
    rw [body?_backslash hescapes, hw, hprepend]
  | case6 c _ hescape =>
    obtain ⟨rfl, hescapes⟩ : c = '\\' ∧ d.escapes = true := by simpa using hescape
    refine ⟨[unescaped m], fun post => ?_⟩
    show d.body? ('\\' :: m :: post) = _
    rw [body?_backslash hescapes]
    rfl
  | case7 c r hnot hescape ih =>
    obtain ⟨w, hw⟩ := ih (prepend_eq_none h)
    have hplain : ¬(d.escapes ∧ c = '\\') := by simpa [and_comm] using hescape
    refine ⟨c :: w, fun post => ?_⟩
    rw [List.cons_append, body?_cons hnot hplain, hw, hprepend]

end Delimiter

theorem append_ne_cons (hz : z.head? ≠ some c) (hp : ∀ w, p ≠ c :: w) (w : List Char) :
    p ++ z ≠ c :: w := by
  cases p with
  | nil =>
    rintro rfl
    exact hz rfl
  | cons d p =>
    rintro ⟨⟩
    exact hp p rfl

theorem scanMark_append (h : scanMark c p = .ok (t, q)) (hz : SetOff z) :
    scanMark c (p ++ z) = .ok (t, q ++ z) := by
  have hequal : z.head? ≠ some '=' := head?_ne_of_setOff hz (by decide)
  have hgreater : z.head? ≠ some '>' := head?_ne_of_setOff hz (by decide)
  unfold scanMark at h
  split at h
  -- the marks that a second character would change
  case h_2 hp =>
    cases h
    exact scanMark.eq_2 _ (append_ne_cons hequal hp)
  case h_5 hp hp' =>
    cases h
    exact scanMark.eq_5 _ (append_ne_cons hequal hp) (append_ne_cons hgreater hp')
  case h_7 hp =>
    cases h
    exact scanMark.eq_7 _ (append_ne_cons hequal hp)
  all_goals first
    | (cases h; rfl)
    | cases h

theorem scanMark_error {e : ParseFault} (h : scanMark c p = .error e) (r : List Char) :
    scanMark c r = .error e := by
  unfold scanMark at h
  split at h <;> cases h
  unfold scanMark
  split <;> simp_all

/-- What is scanned in front of a text that is set off is scanned in front of every such text. -/
theorem scan_append (h : scan c p = .ok (t, q)) (hz : SetOff z) :
    scan c (p ++ z) = .ok (t, q ++ z) := by
  unfold scan at h ⊢
  split at h
  · next hdigit =>
    rw [if_pos hdigit, ← List.cons_append, scanNumber_append_eq hz]
    exact numberToken_append h hz
  · next hdigit =>
    rw [if_neg hdigit]
    split at h
    · next hstart =>
      have hhead : ∀ d ∈ z.head?, Text.inWord d = false := fun d hd => inWord_of_setsOff (hz d hd)
      cases h
      rw [if_pos hstart, takeWhile_append_eq hhead, dropWhile_append_eq hhead]
    · next hstart =>
      rw [if_neg hstart]
      split at h
      · next d _ =>
        have hclosing : z.head? ≠ some d.closing :=
          head?_ne_of_setOff hz (by cases d <;> decide)
        split at h
        · next text rest hbody =>
          cases h
          rw [Delimiter.body?_append hbody hclosing]
        · cases h
      · exact scanMark_append h hz

/-- What cannot be scanned in front of the end cannot be scanned at all, or it is an open quote that
the text behind closes. -/
theorem scan_append_error (hm : setsOff m = true) {e : ParseFault} (h : scan c p = .error e)
    (post : List Char) :
    scan c (p ++ m :: post) = .error e ∨
      ∃ (d : Delimiter) (text rest : List Char) (t : Token),
        d.body? post = some (text, rest) ∧ scan c (p ++ m :: post) = .ok (t, rest) := by
  have hz : SetOff (m :: post) := setOff_cons hm post
  unfold scan at h ⊢
  split at h
  · next hdigit =>
    rw [if_pos hdigit, ← List.cons_append, scanNumber_append_eq hz, numberToken_append_error h]
    exact .inl rfl
  · next hdigit =>
    rw [if_neg hdigit]
    split at h
    · cases h
    · next hstart =>
      rw [if_neg hstart]
      split at h
      · next d _ =>
        split at h
        · cases h
        · next hbody =>
          obtain ⟨w, hw⟩ := Delimiter.body?_append_open hm hbody
          cases h
          rw [hw]
          cases hread : d.body? post with
          | none => exact .inl rfl
          | some read => exact .inr ⟨d, read.1, read.2, _, hread, rfl⟩
      · exact .inl (scanMark_error h _)

theorem ok_of_map_cons {read : Except ParseFault (List Token)} (h : read.map (t :: ·) = .ok ts) :
    ∃ us, read = .ok us ∧ ts = t :: us := by
  cases read with
  | error e => cases h
  | ok us =>
    cases h
    exact ⟨us, rfl, rfl⟩

/-- What cannot be scanned in front of the end takes the separator that follows it. -/
theorem length_scan_append_le (hm : m ∈ separators) {e : ParseFault} (h : scan c p = .error e)
    (hscan : scan c (p ++ m :: post) = .ok (t, rest)) : rest.length ≤ post.length := by
  rcases scan_append_error (setsOff_of_separator hm) h post with herror | ⟨d, _, _, _, hbody, hok⟩
  · rw [herror] at hscan
    cases hscan
  · rw [hok] at hscan
    cases hscan
    exact length_body_le d hbody

/-! ## Blanks and comments -/

/-- A block comment is closed, or it goes on. -/
theorem afterComment_append (p : List Char) :
    (∀ z, afterComment (p ++ z) = afterComment p ++ z) ∨
      afterComment p = [] ∧ ∀ z, z.head? ≠ some '/' → afterComment (p ++ z) = afterComment z := by
  fun_induction afterComment p with
  | case1 => exact .inr ⟨rfl, fun _ _ => rfl⟩
  | case2 r => exact .inl fun _ => rfl
  | case3 c r hopen ih =>
    have hskip {z : List Char} (hclose : ∀ w, c = '*' → r ++ z ≠ '/' :: w) :
        afterComment (c :: r ++ z) = afterComment (r ++ z) := by
      rw [List.cons_append, afterComment]
      rintro w rfl hw
      exact hclose w rfl hw
    cases r with
    | nil =>
      refine .inr ⟨rfl, fun z hz => hskip fun w _ => append_ne_cons hz ?_ w⟩
      rintro w ⟨⟩
    | cons d r =>
      have hinner (z : List Char) : afterComment (c :: d :: r ++ z) = afterComment (d :: r ++ z) := by
        refine hskip ?_
        rintro w rfl ⟨⟩
        exact hopen r rfl rfl
      rcases ih with h | ⟨h, hpost⟩
      · exact .inl fun z => (hinner z).trans (h z)
      · exact .inr ⟨h, fun z hz => (hinner z).trans (hpost z hz)⟩

/-- Trivia end where they end on their own, or an open comment goes on. -/
theorem skipTrivia_append (p : List Char) :
    (∀ z, skipTrivia (p ++ z) = skipTrivia (skipTrivia p ++ z)) ∨
      skipTrivia p = [] ∧
        ((∀ z, skipTrivia (p ++ z) = skipTrivia (z.dropWhile (· != '\n'))) ∨
          ∀ z, z.head? ≠ some '/' → skipTrivia (p ++ z) = skipTrivia (afterComment z)) := by
  fun_induction skipTrivia p with
  | case1 => exact .inl fun _ => rfl
  | case2 r ih =>
    have hcomment (z : List Char) :
        skipTrivia ('-' :: '-' :: r ++ z) = skipTrivia ((r ++ z).dropWhile (· != '\n')) :=
      skipTrivia_line (r ++ z)
    by_cases hend : r.dropWhile (· != '\n') = []
    · have hdrop (z : List Char) : (r ++ z).dropWhile (· != '\n') = z.dropWhile (· != '\n') := by
        simp [List.dropWhile_append, hend]
      refine .inr ⟨by rw [hend, skipTrivia_nil], .inl fun z => ?_⟩
      rw [hcomment, hdrop]
    · have hdrop (z : List Char) :
          (r ++ z).dropWhile (· != '\n') = r.dropWhile (· != '\n') ++ z := by
        rw [List.dropWhile_append, if_neg (by simpa using hend)]
      simpa only [hcomment, hdrop] using ih
  | case3 r ih =>
    have hcomment (z : List Char) :
        skipTrivia ('/' :: '*' :: r ++ z) = skipTrivia (afterComment (r ++ z)) :=
      skipTrivia_block (r ++ z)
    rcases afterComment_append r with h | ⟨h, hpost⟩
    · simpa only [hcomment, h] using ih
    · refine .inr ⟨by rw [h, skipTrivia_nil], .inr fun z hz => ?_⟩
      rw [hcomment, hpost z hz]
  | case4 c r _ _ hblank ih =>
    simpa only [List.cons_append, skipTrivia_of_isBlank hblank] using ih
  | case5 => exact .inl fun _ => rfl

/-- An open comment takes the separator that follows it. -/
theorem length_skipTrivia_append_le (hm : m ∈ separators) (post : List Char)
    (h : (∀ z, skipTrivia (pre ++ z) = skipTrivia (z.dropWhile (· != '\n'))) ∨
      ∀ z, z.head? ≠ some '/' → skipTrivia (pre ++ z) = skipTrivia (afterComment z)) :
    (skipTrivia (pre ++ m :: post)).length ≤ post.length := by
  have hne := all_of_separator (p := fun m => m != '\n' && m != '*' && m != '/') (by decide) hm
  obtain ⟨⟨hnewline, hstar⟩, hslash⟩ : (m ≠ '\n' ∧ m ≠ '*') ∧ m ≠ '/' := by simpa using hne
  rcases h with hline | hblock
  · have hdrop : (m :: post).dropWhile (· != '\n') = post.dropWhile (· != '\n') :=
      List.dropWhile_cons_of_pos (by simpa using hnewline)
    rw [hline, hdrop]
    exact Nat.le_trans (length_skipTrivia_le _) (length_dropWhile_le_length _ _)
  · have hafter : afterComment (m :: post) = afterComment post := by
      rw [afterComment]
      intro r hm _
      exact hstar hm
    rw [hblock _ (by simpa using hslash), hafter]
    exact Nat.le_trans (length_skipTrivia_le _) (length_afterComment_le _)

/-- What begins with a token goes on to do so in front of a text that is set off. -/
theorem skipTrivia_skipped (h : skipTrivia p = c :: r) (hz : SetOff z) :
    skipTrivia (c :: (r ++ z)) = c :: (r ++ z) := by
  have hminus : z.head? ≠ some '-' := head?_ne_of_setOff hz (by decide)
  have hstar : z.head? ≠ some '*' := head?_ne_of_setOff hz (by decide)
  fun_induction skipTrivia p with
  | case1 => cases h
  | case2 r ih => exact ih h
  | case3 r ih => exact ih h
  | case4 c r _ _ _ ih => exact ih h
  | case5 c r hline hblock hblank =>
    cases h
    have hline' (w : List Char) (hc : c = '-') : r ++ z ≠ '-' :: w :=
      append_ne_cons hminus (fun v hv => hline v hc hv) w
    have hblock' (w : List Char) (hc : c = '/') : r ++ z ≠ '*' :: w :=
      append_ne_cons hstar (fun v hv => hblock v hc hv) w
    rw [skipTrivia_cons hline' hblock', if_neg hblank]

/-- A blank at the end belongs to what is in front of it. -/
theorem skipTrivia_append_blank (hm : Text.isBlank m = true) (p : List Char) :
    skipTrivia (p ++ [m]) = if skipTrivia p = [] then [] else skipTrivia p ++ [m] := by
  have hset : SetOff [m] := setOff_cons (setsOff_of_isBlank hm) []
  have hblank : skipTrivia [m] = [] := by rw [skipTrivia_of_isBlank hm, skipTrivia_nil]
  rcases skipTrivia_append p with happend | ⟨hp, hline | hblock⟩
  · cases hp : skipTrivia p with
    | nil => rw [happend, hp, List.nil_append, hblank, if_pos rfl]
    | cons c r =>
      rw [happend, hp, List.cons_append, skipTrivia_skipped hp hset, if_neg (List.cons_ne_nil c r)]
  · have hdrop : [m].dropWhile (· != '\n') = [] ∨ [m].dropWhile (· != '\n') = [m] := by
      cases hnewline : m != '\n' <;> simp [hnewline]
    rw [if_pos hp, hline]
    rcases hdrop with hdrop | hdrop
    · rw [hdrop, skipTrivia_nil]
    · rw [hdrop, hblank]
  · have hslash : [m].head? ≠ some '/' := by
      rintro ⟨⟩
      cases hm
    have hafter : afterComment [m] = [] := by
      rw [afterComment]
      · rfl
      · rintro r _ ⟨⟩
    rw [if_pos hp, hblock _ hslash, hafter, skipTrivia_nil]

/-- Where trivia leave a separator behind `pre` alone, `pre` is trivia or begins with a token, whatever
comes after it. -/
theorem skipTrivia_of_leaves (hm : m ∈ separators)
    (h : post.length < (skipTrivia (pre ++ m :: post)).length) :
    (∀ z, skipTrivia (pre ++ z) = skipTrivia z) ∨
      ∃ c r, ∀ z, SetOff z → skipTrivia (pre ++ z) = c :: (r ++ z) := by
  rcases skipTrivia_append pre with happend | ⟨-, hopen⟩
  · cases hpre : skipTrivia pre with
    | nil =>
      left
      intro z
      rw [happend, hpre, List.nil_append]
    | cons c r =>
      right
      refine ⟨c, r, fun z hz => ?_⟩
      rw [happend, hpre, List.cons_append, skipTrivia_skipped hpre hz]
  · have := length_skipTrivia_append_le hm post hopen
    omega

/-! ## Blanks at both ends -/

theorem lex_append_of_blank (hcs : ∀ c ∈ cs, Text.isBlank c = true) (z : List Char) :
    lex (cs ++ z) = lex z := by
  induction cs with
  | nil => rfl
  | cons c r ih =>
    rw [List.cons_append, lex_congr (skipTrivia_of_isBlank (hcs c List.mem_cons_self) _)]
    exact ih fun d hd => hcs d (List.mem_cons_of_mem c hd)

theorem lex_append_blank (hm : Text.isBlank m = true) (cs : List Char) :
    lex (cs ++ [m]) = lex cs := by
  have hsets : setsOff m = true := setsOff_of_isBlank hm
  fun_induction lex cs with
  | case1 cs hskip =>
    apply lex_of_skipTrivia_eq_nil
    rw [skipTrivia_append_blank hm, if_pos hskip]
  | case2 cs c r hskip e hscan =>
    have hend : skipTrivia (cs ++ [m]) = c :: (r ++ [m]) := by
      simp [skipTrivia_append_blank hm, hskip]
    rcases scan_append_error hsets hscan [] with herror | ⟨d, _, _, _, hbody, _⟩
    · exact lex_of_scan_error hend herror
    · cases hbody
  | case3 cs c r hskip t rest hscan ih =>
    have hend : skipTrivia (cs ++ [m]) = c :: (r ++ [m]) := by
      simp [skipTrivia_append_blank hm, hskip]
    rw [lex_of_scan hend (scan_append hscan (setOff_cons hsets [])), ih]

theorem lex_append_blanks (hz : ∀ c ∈ z, Text.isBlank c = true) (cs : List Char) :
    lex (cs ++ z) = lex cs := by
  induction z generalizing cs with
  | nil => rw [List.append_nil]
  | cons c r ih =>
    rw [← List.singleton_append, ← List.append_assoc, ih (fun d hd => hz d (List.mem_cons_of_mem c hd)),
      lex_append_blank (hz c List.mem_cons_self)]

/-- Trimming a text changes nothing about its tokens. -/
theorem lex_trimmed (cs : List Char) : lex (Text.trimmed cs) = lex cs := by
  obtain ⟨front, back, hfront, hback, hcs⟩ := Text.exists_blanks_trimmed cs
  calc lex (Text.trimmed cs)
      = lex (Text.trimmed cs ++ back) := (lex_append_blanks hback _).symm
    _ = lex (front ++ (Text.trimmed cs ++ back)) := (lex_append_of_blank hfront _).symm
    _ = lex cs := congrArg lex hcs

/-! ## Coming to a separator -/

/-- Lexing a text comes to `out`, trivia dropped, after the tokens `ts`. -/
inductive Comes : List Char → List Token → List Char → Prop
  | here (cs : List Char) : Comes cs [] (skipTrivia cs)
  | token {cs r rest out : List Char} {c : Char} {t : Token} {ts : List Token} :
      skipTrivia cs = c :: r → scan c r = .ok (t, rest) → Comes rest ts out → Comes cs (t :: ts) out

theorem Comes.length_le (h : Comes cs ts out) : out.length ≤ cs.length := by
  induction h with
  | here cs => exact length_skipTrivia_le cs
  | @token cs r rest out c t ts hskip hscan _ ih =>
    have hcs := length_skipTrivia_le cs
    have hrest := length_scan_le hscan
    rw [hskip, List.length_cons] at hcs
    omega

theorem Comes.scanned (hc : Starts c) (hscan : scan c r = .ok (t, rest)) (h : Comes rest ts out) :
    Comes (c :: r) (t :: ts) out :=
  .token (skipTrivia_of_starts hc r) hscan h

theorem Comes.word (hcs : isWord cs = true) (hz : SetOff z) (h : Comes z ts out) :
    Comes (cs ++ z) (wordToken (String.ofList cs) :: ts) out := by
  cases cs with
  | nil => cases hcs
  | cons c r => exact .scanned (starts_of_isWord hcs) (scan_word hcs hz) h

theorem Comes.mark {m : Mark} (hm : (c, m) ∈ plainMarks) (h : Comes cs ts out) :
    Comes (c :: cs) (.mark m :: ts) out :=
  .scanned (starts_of_plainMark hm) (scan_plainMark hm cs) h

theorem Comes.blank (hc : Text.isBlank c = true) (h : Comes cs ts out) : Comes (c :: cs) ts out := by
  have hskip := skipTrivia_of_isBlank hc cs
  cases h with
  | here => exact hskip ▸ .here (c :: cs)
  | token hcs hscan h => exact .token (hskip.trans hcs) hscan h

theorem Comes.spacedWord {word : String} (hword : isWord word.toList = true)
    (h : Comes cs ts out) : Comes (word.toList ++ ' ' :: cs) (wordToken word :: ts) out := by
  have hword := Comes.word hword (setOff_space cs) (h.blank (c := ' ') (by decide))
  rwa [String.ofList_toList] at hword

/-- What lexing comes to is lexed for the rest of the tokens. -/
theorem lex_of_comes (h : Comes cs ts out) (hout : skipTrivia out = out) :
    lex cs = (lex out).map (ts ++ ·) := by
  induction h with
  | here cs => rw [lex_congr hout.symm, map_nil_append]
  | token hskip hscan _ ih =>
    rw [lex_of_scan hskip hscan, ih hout, map_cons_append]

theorem skipTrivia_separator (hm : m ∈ separators) (post : List Char) :
    skipTrivia (m :: post) = m :: post :=
  skipTrivia_of_starts (starts_of_separator hm) post

theorem comes_separator (hm : m ∈ separators) (post : List Char) :
    Comes (m :: post) [] (m :: post) := by
  have hhere := Comes.here (m :: post)
  rwa [skipTrivia_separator hm] at hhere

theorem lex_placeholder (post : List Char) :
    lex ('?' :: post) = (lex post).map (.mark .placeholder :: ·) :=
  lex_of_scan (skipTrivia_separator (by decide) post) (scan_plainMark (by decide) post)

/-- What stands in front of a separator that lexing comes to spells its tokens on its own. -/
theorem spells_of_comes (hm : m ∈ separators) (h : Comes (pre ++ m :: post) ts (m :: post)) :
    Spells pre ts := by
  generalize hcs : pre ++ m :: post = cs at h
  generalize hout : m :: post = out at h
  induction h generalizing pre with
  | here cs =>
    subst hcs
    have hleaves : post.length < (skipTrivia (pre ++ m :: post)).length := by
      rw [← hout, List.length_cons]
      exact Nat.lt_succ_self _
    rcases skipTrivia_of_leaves hm hleaves with htrivia | ⟨c, r, htoken⟩
    · intro z hz
      rw [lex_congr (htrivia z)]
      exact spells_nil z hz
    · -- a token in front would leave more than the separator
      have hlength := congrArg List.length (hout.trans (htoken _ (setOff_separator hm post)))
      simp at hlength
      omega
  | @token cs r rest out c t ts hskip hscan hcomes ih =>
    subst hcs hout
    have hrest := hcomes.length_le
    have hr := length_scan_le hscan
    rw [List.length_cons] at hrest
    have hleaves : post.length < (skipTrivia (pre ++ m :: post)).length := by
      rw [hskip, List.length_cons]
      omega
    rcases skipTrivia_of_leaves hm hleaves with htrivia | ⟨c', r', htoken⟩
    · -- the token would be the separator itself
      rw [htrivia, skipTrivia_separator hm] at hskip
      cases hskip
      omega
    · rw [htoken _ (setOff_separator hm post)] at hskip
      cases hskip
      cases halone : scan c r' with
      | error e =>
        have := length_scan_append_le hm halone hscan
        omega
      | ok read =>
        obtain ⟨u, q⟩ := read
        rw [scan_append halone (setOff_separator hm post)] at hscan
        cases hscan
        intro z hz
        rw [lex_of_scan (htoken z hz) (scan_append halone hz), ih rfl rfl z hz]
        cases lex z <;> rfl

end Schemaless.Sql
