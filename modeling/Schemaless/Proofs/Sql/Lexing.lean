import Schemaless.Sql.Token.Lexer

/-!
# The tokens of written text

Text that is written piece by piece is read piece by piece, as long as each piece is set off from the
next one by a character that no token goes on with: a blank, a parenthesis, a comma, a semicolon or
`?` (`SetOff`). `Spells cs ts` says that `cs` is read as the tokens `ts` whatever is set off from
it; such pieces may be put in a row (`Spells.append`). Words, marks, digits and quoted texts are
pieces; a text in quotes is read back as it was before it was quoted (`body?_escaped`).
-/

namespace Schemaless.Sql

variable {c : Char} {r cs ds rest z : List Char} {t : Token} {ts us : List Token}

/-! ## Characters that set tokens off -/

/-- A blank, or one of `( ) , ; ?`. -/
def setsOff (c : Char) : Bool := Text.isBlank c || ['(', ')', ',', ';', '?'].contains c

/-- The characters that a token or a comment may need after its first ones, but for those of words
and numbers. -/
def continuing : List Char := ['=', '>', '-', '*', ']', '\'', '"', Char.ofNat 0x60]

/-- The code points of blanks. -/
def blankCodes : List Nat :=
  List.range' 0x9 5 ++ List.range' 0x2000 11 ++
    [0x20, 0x85, 0xA0, 0x1680, 0x2028, 0x2029, 0x202F, 0x205F, 0x3000]

theorem mem_blankCodes (h : Text.isBlank c = true) : c.toNat ∈ blankCodes := by
  simp only [Text.isBlank, Bool.or_eq_true, Bool.and_eq_true, beq_iff_eq, decide_eq_true_eq] at h
  simp only [blankCodes, List.mem_append, List.mem_range'_1, List.mem_cons, List.not_mem_nil, or_false]
  omega

/-- What holds of each character that sets tokens off is checked on a list of them. -/
theorem all_of_setsOff {p : Char → Bool}
    (hall : (blankCodes.map Char.ofNat ++ ['(', ')', ',', ';', '?']).all p = true)
    (h : setsOff c = true) : p c = true := by
  refine List.all_eq_true.1 hall c (List.mem_append.2 ?_)
  rcases Bool.or_eq_true_iff.1 h with h | h
  · exact .inl (List.mem_map.2 ⟨c.toNat, mem_blankCodes h, Char.ofNat_toNat c⟩)
  · exact .inr (List.contains_iff_mem.1 h)

/-- Code points off the ranges of letters and numerals beyond ASCII. Every blank is at one. -/
def offRanges (n : Nat) : Bool :=
  n < 0xAA || n == 0x1680 || (0x2000 ≤ n && n ≤ 0x205F) || n == 0x3000

/-- Whether none of these code points lies in a range. -/
def leavesOff (r : Nat × Nat) : Bool :=
  0xAA ≤ r.1 && (r.2 < 0x1680 || 0x1680 < r.1) && (r.2 < 0x2000 || 0x205F < r.1) &&
    (r.2 < 0x3000 || 0x3000 < r.1)

theorem inRanges_of_offRanges {ranges : List (Nat × Nat)} (hranges : ranges.all leavesOff = true)
    (h : offRanges c.toNat = true) : Text.inRanges ranges c = false := by
  rw [Bool.eq_false_iff]
  intro hc
  obtain ⟨r, hr, hlow, hhigh⟩ := Text.inRanges_iff.1 hc
  have hrange := List.all_eq_true.1 hranges r hr
  simp only [offRanges, leavesOff, Bool.or_eq_true, Bool.and_eq_true, beq_iff_eq,
    decide_eq_true_eq] at h hrange
  omega

theorem isLetter_of_offRanges (h : offRanges c.toNat = true) : Text.isLetter c = c.isAlpha := by
  rw [Text.isLetter, inRanges_of_offRanges (by decide +kernel) h, Bool.or_false]

theorem isNumeral_of_offRanges (h : offRanges c.toNat = true) : Text.isNumeral c = c.isDigit := by
  rw [Text.isNumeral, inRanges_of_offRanges (by decide +kernel) h, Bool.or_false]

theorem inWord_of_offRanges (h : offRanges c.toNat = true) :
    Text.inWord c = (c.isAlpha || c.isDigit || c == '_') := by
  rw [Text.inWord, isLetter_of_offRanges h, isNumeral_of_offRanges h]

theorem startsWord_of_offRanges (h : offRanges c.toNat = true) :
    Text.startsWord c = (c.isAlpha || c == '_') := by
  rw [Text.startsWord, isLetter_of_offRanges h]

theorem inWord_of_setsOff (h : setsOff c = true) : Text.inWord c = false := by
  have hoff := all_of_setsOff (p := fun d => offRanges d.toNat) (by decide) h
  have hword := all_of_setsOff (p := fun d => !(d.isAlpha || d.isDigit || d == '_')) (by decide) h
  rw [inWord_of_offRanges hoff]
  simpa using hword

theorem not_continuing_of_setsOff (h : setsOff c = true) : c ∉ continuing := by
  have hcontinuing := all_of_setsOff (p := fun d => !continuing.contains d) (by decide) h
  simpa using hcontinuing

theorem setsOff_of_isBlank (h : Text.isBlank c = true) : setsOff c = true := by simp [setsOff, h]

theorem isDigit_of_setsOff (h : setsOff c = true) : c.isDigit = false := by
  have hword := inWord_of_setsOff h
  rw [Bool.eq_false_iff] at hword ⊢
  intro hdigit
  exact hword (by simp [Text.inWord, Text.isNumeral_of_isDigit hdigit])

theorem startsWord_of_setsOff (h : setsOff c = true) : Text.startsWord c = false := by
  have hword := inWord_of_setsOff h
  rw [Bool.eq_false_iff] at hword ⊢
  exact fun hstart => hword (Text.inWord_of_startsWord hstart)

/-- The end of the text, or a character that sets off what follows it. -/
def SetOff (z : List Char) : Prop := ∀ c ∈ z.head?, setsOff c = true

theorem setOff_nil : SetOff [] := by simp [SetOff]

theorem setOff_cons (h : setsOff c = true) (z : List Char) : SetOff (c :: z) := by
  simpa [SetOff] using h

theorem setOff_space (z : List Char) : SetOff (' ' :: z) := setOff_cons (by decide) z

theorem SetOff.append (hcs : SetOff cs) (hz : SetOff z) : SetOff (cs ++ z) := by
  cases cs with
  | nil => exact hz
  | cons c r => exact setOff_cons (hcs c rfl) _

/-! ## One token after another -/

theorem skipTrivia_nil : skipTrivia [] = [] := by rw [skipTrivia.eq_def]

theorem skipTrivia_line (r : List Char) :
    skipTrivia ('-' :: '-' :: r) = skipTrivia (r.dropWhile (· != '\n')) := by
  rw [skipTrivia.eq_def]
  rfl

theorem skipTrivia_block (r : List Char) :
    skipTrivia ('/' :: '*' :: r) = skipTrivia (afterComment r) := by
  rw [skipTrivia.eq_def]
  rfl

theorem skipTrivia_cons (hline : ∀ r, c = '-' → z ≠ '-' :: r) (hblock : ∀ r, c = '/' → z ≠ '*' :: r) :
    skipTrivia (c :: z) = if Text.isBlank c then skipTrivia z else c :: z := by
  rw [skipTrivia.eq_def (c :: z)]
  split
  · next h => cases h
  · next r h =>
    cases h
    exact absurd rfl (hline r rfl)
  · next r h =>
    cases h
    exact absurd rfl (hblock r rfl)
  · next h =>
    cases h
    rfl

theorem skipTrivia_cons_of_ne (hminus : c ≠ '-') (hslash : c ≠ '/') (z : List Char) :
    skipTrivia (c :: z) = if Text.isBlank c then skipTrivia z else c :: z :=
  skipTrivia_cons (fun _ h => absurd h hminus) fun _ h => absurd h hslash

theorem skipTrivia_of_isBlank (h : Text.isBlank c = true) (z : List Char) :
    skipTrivia (c :: z) = skipTrivia z := by
  have hstart := all_of_setsOff (p := fun d => d != '-' && d != '/') (by decide)
    (setsOff_of_isBlank h)
  simp only [Bool.and_eq_true, bne_iff_ne] at hstart
  rw [skipTrivia_cons_of_ne hstart.1 hstart.2, if_pos h]

/-- A character that starts a token and no comment. -/
def Starts (c : Char) : Prop := Text.isBlank c = false ∧ c ≠ '-' ∧ c ≠ '/'

theorem skipTrivia_of_starts (h : Starts c) (z : List Char) : skipTrivia (c :: z) = c :: z := by
  rw [skipTrivia_cons_of_ne h.2.1 h.2.2, if_neg (by simp [h.1])]

theorem lex_of_skipTrivia_eq_nil (h : skipTrivia cs = []) : lex cs = .ok [] := by
  unfold lex
  split
  · rfl
  · next heq =>
    rw [h] at heq
    cases heq

theorem lex_of_scan (h : skipTrivia cs = c :: r) (hscan : scan c r = .ok (t, rest)) :
    lex cs = (lex rest).map (t :: ·) := by
  rw [lex]
  split
  · next heq =>
    rw [h] at heq
    cases heq
  · next heq =>
    rw [h] at heq
    cases heq
    split
    · next heq' =>
      rw [hscan] at heq'
      cases heq'
    · next heq' =>
      rw [hscan] at heq'
      cases heq'
      rfl

theorem lex_of_scan_error {e : ParseFault} (h : skipTrivia cs = c :: r) (hscan : scan c r = .error e) :
    lex cs = .error e := by
  rw [lex]
  split
  · next heq =>
    rw [h] at heq
    cases heq
  · next heq =>
    rw [h] at heq
    cases heq
    split
    · next heq' =>
      rw [hscan] at heq'
      cases heq'
      rfl
    · next heq' =>
      rw [hscan] at heq'
      cases heq'

theorem lex_congr (h : skipTrivia cs = skipTrivia ds) : lex cs = lex ds := by
  rw [lex, lex, h]

theorem map_cons_append (t : Token) (us : List Token) (read : Except ParseFault (List Token)) :
    (read.map (us ++ ·)).map (t :: ·) = read.map (t :: us ++ ·) := by
  cases read <;> rfl

theorem map_nil_append (read : Except ParseFault (List Token)) : read.map ([] ++ ·) = read := by
  cases read <;> rfl

theorem starts_of_inWord (h : Text.inWord c = true) : Starts c := by
  have hminus : Text.inWord '-' = false := inWord_of_offRanges rfl
  have hslash : Text.inWord '/' = false := inWord_of_offRanges rfl
  refine ⟨?_, ?_, ?_⟩
  · rw [Bool.eq_false_iff]
    intro hblank
    rw [inWord_of_setsOff (setsOff_of_isBlank hblank)] at h
    cases h
  · rintro rfl
    rw [hminus] at h
    cases h
  · rintro rfl
    rw [hslash] at h
    cases h

/-! ## Pieces of text -/

/-- Whatever is set off from `cs`, its tokens come after the tokens `ts`. -/
def Spells (cs : List Char) (ts : List Token) : Prop :=
  ∀ z, SetOff z → lex (cs ++ z) = (lex z).map (ts ++ ·)

theorem lex_of_spells (h : Spells cs ts) : lex cs = .ok ts := by
  have hnil : lex [] = .ok [] := lex_of_skipTrivia_eq_nil skipTrivia_nil
  have hlex := h [] setOff_nil
  rw [List.append_nil, hnil] at hlex
  rw [hlex, Except.map, List.append_nil]

theorem spells_nil : Spells [] [] := by
  intro z _
  cases hlex : lex z <;> simp [hlex, Except.map]

theorem Spells.append (h : Spells cs ts) (h' : Spells ds us) (hds : SetOff ds) :
    Spells (cs ++ ds) (ts ++ us) := by
  intro z hz
  rw [List.append_assoc, h _ (hds.append hz), h' z hz]
  cases lex z <;> simp [Except.map]

theorem Spells.blank (h : Spells cs ts) (hc : Text.isBlank c = true) : Spells (c :: cs) ts := by
  intro z hz
  rw [List.cons_append, lex_congr (skipTrivia_of_isBlank hc _)]
  exact h z hz

theorem Spells.space (h : Spells cs ts) : Spells (' ' :: cs) ts := h.blank (by decide)

theorem Spells.blanks (h : Spells cs ts) (hds : ∀ c ∈ ds, Text.isBlank c = true) :
    Spells (ds ++ cs) ts := by
  induction ds with
  | nil => exact h
  | cons c r ih => exact (ih fun d hd => hds d (by simp [hd])).blank (hds c (by simp))

theorem spells_of_scan (hc : Starts c) (hscan : ∀ z, SetOff z → scan c (r ++ z) = .ok (t, z)) :
    Spells (c :: r) [t] := by
  intro z hz
  rw [List.cons_append, lex_of_scan (skipTrivia_of_starts hc _) (hscan z hz)]
  rfl

/-! ### Words -/

theorem takeWhile_append_of_head {p : Char → Bool} (hcs : ∀ c ∈ cs, p c = true)
    (hz : ∀ c ∈ z.head?, p c = false) : (cs ++ z).takeWhile p = cs := by
  rw [List.takeWhile_append_of_pos hcs]
  cases z with
  | nil => simp
  | cons c w => simp [hz c rfl]

theorem dropWhile_append_of_head {p : Char → Bool} (hcs : ∀ c ∈ cs, p c = true)
    (hz : ∀ c ∈ z.head?, p c = false) : (cs ++ z).dropWhile p = z := by
  rw [List.dropWhile_append_of_pos hcs]
  cases z with
  | nil => rfl
  | cons c w => simp [hz c rfl]

/-- A word, a keyword or not. -/
def isWord : List Char → Bool
  | [] => false
  | c :: r => !c.isDigit && Text.startsWord c && r.all Text.inWord

theorem scan_word (h : isWord (c :: r) = true) (hz : SetOff z) :
    scan c (r ++ z) = .ok (wordToken (String.ofList (c :: r)), z) := by
  simp only [isWord, Bool.and_eq_true, Bool.not_eq_true', List.all_eq_true] at h
  obtain ⟨⟨hdigit, hstart⟩, hr⟩ := h
  have hhead : ∀ d ∈ z.head?, Text.inWord d = false := fun d hd => inWord_of_setsOff (hz d hd)
  rw [scan, if_neg (by simp [hdigit]), if_pos hstart, takeWhile_append_of_head hr hhead,
    dropWhile_append_of_head hr hhead]

theorem starts_of_isWord (h : isWord (c :: r) = true) : Starts c := by
  simp only [isWord, Bool.and_eq_true] at h
  exact starts_of_inWord (Text.inWord_of_startsWord h.1.2)

theorem spells_word (h : isWord cs = true) : Spells cs [wordToken (String.ofList cs)] := by
  cases cs with
  | nil => cases h
  | cons c r => exact spells_of_scan (starts_of_isWord h) fun z hz => scan_word h hz

/-! ### Marks -/

/-- The marks of one character that neither a longer mark nor a comment begins with. -/
def plainMarks : List (Char × Mark) :=
  [('(', .leftParen), (')', .rightParen), (',', .comma), ('?', .placeholder), ('=', .equal),
   (';', .semicolon)]

theorem scan_of_mark (hdigit : c.isDigit = false) (hstart : Text.startsWord c = false)
    (hopening : Delimiter.ofOpening? c = none) (r : List Char) : scan c r = scanMark c r := by
  simp only [scan, hdigit, hstart, hopening]
  rfl

theorem scan_plainMark {m : Mark} (h : (c, m) ∈ plainMarks) (r : List Char) :
    scan c r = .ok (.mark m, r) := by
  have hother : ∀ p ∈ plainMarks, offRanges p.1.toNat = true ∧ p.1.isDigit = false ∧
      (p.1.isAlpha || p.1 == '_') = false ∧ Delimiter.ofOpening? p.1 = none := by decide
  obtain ⟨hoff, hdigit, hletter, hopening⟩ := hother (c, m) h
  rw [scan_of_mark hdigit ((startsWord_of_offRanges hoff).trans hletter) hopening]
  simp only [plainMarks, List.mem_cons, Prod.mk.injEq, List.not_mem_nil, or_false] at h
  rcases h with ⟨rfl, rfl⟩ | ⟨rfl, rfl⟩ | ⟨rfl, rfl⟩ | ⟨rfl, rfl⟩ | ⟨rfl, rfl⟩ | ⟨rfl, rfl⟩ <;> rfl

theorem starts_of_plainMark {m : Mark} (h : (c, m) ∈ plainMarks) : Starts c := by
  have hstarts : ∀ p ∈ plainMarks, Text.isBlank p.1 = false ∧ p.1 ≠ '-' ∧ p.1 ≠ '/' := by
    decide
  exact hstarts (c, m) h

theorem Spells.mark (h : Spells cs ts) {m : Mark} (hm : (c, m) ∈ plainMarks) :
    Spells (c :: cs) (.mark m :: ts) := by
  intro z hz
  rw [List.cons_append, lex_of_scan (skipTrivia_of_starts (starts_of_plainMark hm) _)
    (scan_plainMark hm _), h z hz]
  cases lex z <;> rfl

/-! ### Numbers -/

theorem spanFraction_of_ne (h : cs.head? ≠ some '.') : spanFraction cs = ([], cs) := by
  unfold spanFraction
  split
  · exact absurd rfl h
  · rfl

theorem numberToken_of_setOff (digits : List Char) (hz : SetOff z) :
    numberToken digits z = .ok (.number (String.ofList digits), z) := by
  cases z with
  | nil => rfl
  | cons d w => simp [numberToken, startsWord_of_setsOff (hz d rfl)]

theorem head?_ne_point (hz : SetOff z) : z.head? ≠ some '.' := by
  intro hhead
  exact absurd (hz '.' hhead) (by decide)

theorem scan_digits (hdigits : ∀ d ∈ c :: r, d.isDigit = true) (hz : SetOff z) :
    scan c (r ++ z) = .ok (.number (String.ofList (c :: r)), z) := by
  have hhead : ∀ d ∈ z.head?, d.isDigit = false := fun d hd => isDigit_of_setsOff (hz d hd)
  rw [scan, if_pos (hdigits c (by simp)), scanNumber, ← List.cons_append,
    takeWhile_append_of_head hdigits hhead, dropWhile_append_of_head hdigits hhead,
    spanFraction_of_ne (head?_ne_point hz), List.append_nil, numberToken_of_setOff _ hz]

theorem starts_of_isDigit (h : c.isDigit = true) : Starts c :=
  starts_of_inWord (by simp [Text.inWord, Text.isNumeral_of_isDigit h])

theorem spells_digits (hne : cs ≠ []) (hdigits : ∀ d ∈ cs, d.isDigit = true) :
    Spells cs [.number (String.ofList cs)] := by
  cases cs with
  | nil => exact absurd rfl hne
  | cons c r =>
    exact spells_of_scan (starts_of_isDigit (hdigits c (by simp))) fun z hz => scan_digits hdigits hz

theorem spells_negative (hne : cs ≠ []) (hdigits : ∀ d ∈ cs, d.isDigit = true) :
    Spells ('-' :: cs) [.mark .minus, .number (String.ofList cs)] := by
  intro z hz
  cases cs with
  | nil => exact absurd rfl hne
  | cons c r =>
    have hc : c ≠ '-' := (starts_of_isDigit (hdigits c (by simp))).2.1
    have hskip : skipTrivia ('-' :: (c :: (r ++ z))) = '-' :: (c :: (r ++ z)) := by
      have hline (w : List Char) (_ : '-' = '-') : c :: (r ++ z) ≠ '-' :: w :=
        fun h => hc (List.cons.inj h).1
      have hblock (w : List Char) (h : '-' = '/') : c :: (r ++ z) ≠ '*' :: w := by cases h
      rw [skipTrivia_cons hline hblock]
      rfl
    have hminus : scan '-' (c :: (r ++ z)) = .ok (.mark .minus, c :: (r ++ z)) :=
      scan_of_mark rfl (startsWord_of_offRanges rfl) rfl _
    show lex ('-' :: (c :: (r ++ z))) = _
    rw [lex_of_scan hskip hminus]
    have hnumber := spells_digits hne hdigits z hz
    rw [List.cons_append] at hnumber
    rw [hnumber]
    cases lex z <;> rfl

/-! ### Quoted text -/

namespace Delimiter

/-- A text as it is written between quotes. -/
def escaped (d : Delimiter) (s : List Char) : List Char :=
  s.flatMap fun c => if c = d.closing ∨ (d.escapes ∧ c = '\\') then [c, c] else [c]

theorem quote_eq (d : Delimiter) (s : List Char) :
    d.quote s = d.opening :: (d.escaped s ++ [d.closing]) := rfl

theorem body?_closing (d : Delimiter) (hrest : rest.head? ≠ some d.closing) :
    d.body? (d.closing :: rest) = some ([], rest) := by
  cases rest with
  | nil => simp [body?.eq_def]
  | cons x w =>
    have hne : x ≠ d.closing := by
      rintro rfl
      exact hrest rfl
    rw [body?.eq_def]
    simp [hne]

theorem body?_closing_closing (d : Delimiter) (r : List Char) :
    d.body? (d.closing :: d.closing :: r) = Text.prepend d.closing (d.body? r) := by
  rw [body?.eq_def]
  simp

theorem body?_backslash {d : Delimiter} (h : d.escapes = true) (c : Char) (r : List Char) :
    d.body? ('\\' :: c :: r) = Text.prepend (unescaped c) (d.body? r) := by
  have hne : '\\' ≠ d.closing := by cases d <;> decide
  rw [body?.eq_def]
  simp [hne, h]

theorem body?_cons {d : Delimiter} (hclosing : c ≠ d.closing) (hescape : ¬(d.escapes ∧ c = '\\'))
    (r : List Char) : d.body? (c :: r) = Text.prepend c (d.body? r) := by
  rw [body?.eq_def]
  simp only [if_neg hclosing]
  rw [if_neg (by simpa [and_comm] using hescape)]

/-- A character is read as it was before it was written between quotes. -/
theorem body?_written (d : Delimiter) (c : Char) (r : List Char) :
    d.body? ((if c = d.closing ∨ (d.escapes ∧ c = '\\') then [c, c] else [c]) ++ r) =
      Text.prepend c (d.body? r) := by
  by_cases hclosing : c = d.closing
  · rw [if_pos (.inl hclosing), hclosing]
    exact d.body?_closing_closing r
  · by_cases hescape : d.escapes = true ∧ c = '\\'
    · rw [if_pos (.inr hescape), hescape.2]
      exact body?_backslash hescape.1 '\\' r
    · rw [if_neg (not_or.2 ⟨hclosing, hescape⟩)]
      exact body?_cons hclosing hescape r

/-- What is quoted is read back, and the text after the closing character is left. -/
theorem body?_escaped (d : Delimiter) (s : List Char) (hrest : rest.head? ≠ some d.closing) :
    d.body? (d.escaped s ++ d.closing :: rest) = some (s, rest) := by
  induction s with
  | nil => exact d.body?_closing hrest
  | cons c s ih =>
    rw [escaped, List.flatMap_cons, ← escaped, List.append_assoc, body?_written, ih]
    rfl

theorem scan_opening (d : Delimiter) (r : List Char) :
    scan d.opening r =
      match d.body? r with
      | some (text, rest) => .ok (d.token (String.ofList text), rest)
      | none => .error d.fault := by
  have hword : ∀ d : Delimiter, d.opening.isDigit = false ∧ Text.startsWord d.opening = false ∧
      ofOpening? d.opening = some d := by
    intro d
    cases d <;> exact ⟨rfl, startsWord_of_offRanges rfl, rfl⟩
  obtain ⟨hdigit, hstart, hopening⟩ := hword d
  simp only [scan, hdigit, hstart, hopening]
  rfl

theorem starts_opening (d : Delimiter) : Starts d.opening := by
  cases d <;> exact ⟨by decide, by decide, by decide⟩

/-- What is quoted is one token, unless another closing character is right behind it. -/
theorem scan_quoted (d : Delimiter) (s : List Char) (hrest : rest.head? ≠ some d.closing) :
    scan d.opening (d.escaped s ++ [d.closing] ++ rest) =
      .ok (d.token (String.ofList s), rest) := by
  rw [scan_opening, List.append_assoc, List.singleton_append, d.body?_escaped s hrest]

theorem lex_quote (d : Delimiter) (s : List Char) (hrest : rest.head? ≠ some d.closing) :
    lex (d.quote s ++ rest) = (lex rest).map (d.token (String.ofList s) :: ·) :=
  lex_of_scan (skipTrivia_of_starts d.starts_opening _) (d.scan_quoted s hrest)

theorem spells_quote (d : Delimiter) (s : List Char) :
    Spells (d.quote s) [d.token (String.ofList s)] := by
  have hclosing : d.closing ∈ continuing := by cases d <;> decide
  rw [quote_eq]
  refine spells_of_scan d.starts_opening fun z hz => d.scan_quoted s fun hhead => ?_
  exact not_continuing_of_setsOff (hz _ hhead) hclosing

end Delimiter

end Schemaless.Sql
