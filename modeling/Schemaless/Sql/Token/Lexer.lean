import Schemaless.Sql.Fault
import Schemaless.Text.Blank
import Schemaless.Text.Letter
import Schemaless.Text.Reader

/-!
# From text to tokens

`lex` splits a statement's text into tokens. Blanks and comments separate tokens and are dropped.
Quoted text runs to its closing quote, a doubled closing quote standing for one; in quoted texts,
but not in quoted names, a backslash escapes the next character. `length_scan_le` says that a token
never gives back more text than came after its first character, so lexing ends.
-/

namespace Schemaless.Sql

/-- The four ways to quote: names in backticks or brackets, texts in single or double quotes. -/
inductive Delimiter where
  | backtick
  | bracket
  | single
  | double
deriving DecidableEq

namespace Delimiter

/-- The character that opens quoted text. -/
def opening : Delimiter → Char
  | backtick => Char.ofNat 0x60
  | bracket => '['
  | single => '\''
  | double => '"'

/-- The character that closes quoted text. -/
def closing : Delimiter → Char
  | backtick => Char.ofNat 0x60
  | bracket => ']'
  | single => '\''
  | double => '"'

/-- Whether a backslash escapes the next character. -/
def escapes : Delimiter → Bool
  | backtick => false
  | bracket => false
  | single => true
  | double => true

/-- The way of quoting that a character opens. -/
def ofOpening? (c : Char) : Option Delimiter :=
  if c = Char.ofNat 0x60 then some backtick
  else if c = '[' then some bracket
  else if c = '\'' then some single
  else if c = '"' then some double
  else none

/-- The token of quoted text. -/
def token (d : Delimiter) (s : String) : Token := if d.escapes then .text s else .identifier s

/-- The fault of a missing closing quote. -/
def fault (d : Delimiter) : ParseFault :=
  if d.escapes then .unterminatedText else .unterminatedIdentifier

/-- The character that stands for itself and a backslash in front. -/
def unescaped (c : Char) : Char :=
  match c with
  | 'n' => '\n'
  | 't' => '\t'
  | 'r' => '\r'
  | c => c

/-- Reads quoted text after its opening character up to the closing one. -/
def body? (d : Delimiter) : Text.Reader (List Char)
  | [] => none
  | c :: r =>
    if c = d.closing then
      match r with
      | x :: r =>
        if x = d.closing then Text.prepend d.closing (body? d r)
        else some ([], x :: r)
      | [] => some ([], [])
    else if c = '\\' && d.escapes then
      match r with
      | x :: r => Text.prepend (unescaped x) (body? d r)
      | [] => none
    else Text.prepend c (body? d r)

/-- Writes text in quotes: the closing character doubled, and the backslash where it escapes. -/
def quote (d : Delimiter) (text : List Char) : List Char :=
  d.opening ::
    (text.flatMap (fun c => if c = d.closing ∨ (d.escapes ∧ c = '\\') then [c, c] else [c]) ++
      [d.closing])

end Delimiter

/-! ## Blanks and comments -/

/-- What follows a block comment after its opening; a comment that is not closed takes all. -/
def afterComment : List Char → List Char
  | [] => []
  | '*' :: '/' :: r => r
  | _ :: r => afterComment r

theorem length_afterComment_le (cs : List Char) : (afterComment cs).length ≤ cs.length := by
  fun_induction afterComment cs <;> simp <;> omega

theorem length_dropWhile_le_length (p : Char → Bool) (cs : List Char) :
    (cs.dropWhile p).length ≤ cs.length :=
  (List.dropWhile_sublist p).length_le

/-- Drops blanks and comments in front. -/
def skipTrivia : List Char → List Char
  | [] => []
  | '-' :: '-' :: r => skipTrivia (r.dropWhile (· != '\n'))
  | '/' :: '*' :: r => skipTrivia (afterComment r)
  | c :: r => if Text.isBlank c then skipTrivia r else c :: r
termination_by cs => cs.length
decreasing_by
  · have := length_dropWhile_le_length (· != '\n') r; simp; omega
  · have := length_afterComment_le r; simp; omega
  · simp

/-! ## Tokens -/

/-- The token of a word: a keyword in any case, or a name. -/
def wordToken (word : String) : Token :=
  let capitals := word.map Char.toUpper
  match Keyword.table.lookup capitals with
  | some k => .keyword k
  | none =>
    if Keyword.unsupported.contains capitals then .unsupported capitals else .identifier word

/-- Splits off a point and the digits after it, if a digit follows the point. -/
def spanFraction : List Char → List Char × List Char
  | '.' :: d :: r =>
    if d.isDigit then ('.' :: (d :: r).takeWhile Char.isDigit, (d :: r).dropWhile Char.isDigit)
    else ([], '.' :: d :: r)
  | r => ([], r)

/-- The token of a number's digits. A letter may not follow them. -/
def numberToken (digits rest : List Char) : Except ParseFault (Token × List Char) :=
  match rest with
  | c :: r =>
    if Text.startsWord c then .error (.badNumber (String.ofList digits) c)
    else .ok (.number (String.ofList digits), c :: r)
  | [] => .ok (.number (String.ofList digits), [])

/-- Reads a number: digits, and a point with digits after it. -/
def scanNumber (cs : List Char) : Except ParseFault (Token × List Char) :=
  let fraction := spanFraction (cs.dropWhile Char.isDigit)
  numberToken (cs.takeWhile Char.isDigit ++ fraction.1) fraction.2

/-- Reads a mark of one or two characters. -/
def scanMark (c : Char) (r : List Char) : Except ParseFault (Token × List Char) :=
  match c, r with
  | '!', '=' :: r => .ok (.mark .notEqual, r)
  | '!', r => .ok (.keyword .NOT, r)
  | '<', '=' :: r => .ok (.mark .lessEqual, r)
  | '<', '>' :: r => .ok (.mark .notEqual, r)
  | '<', r => .ok (.mark .less, r)
  | '>', '=' :: r => .ok (.mark .greaterEqual, r)
  | '>', r => .ok (.mark .greater, r)
  | '?', r => .ok (.mark .placeholder, r)
  | '=', r => .ok (.mark .equal, r)
  | '-', r => .ok (.mark .minus, r)
  | '*', r => .ok (.mark .star, r)
  | ',', r => .ok (.mark .comma, r)
  | '.', r => .ok (.mark .dot, r)
  | '(', r => .ok (.mark .leftParen, r)
  | ')', r => .ok (.mark .rightParen, r)
  | ';', r => .ok (.mark .semicolon, r)
  | c, _ => .error (.unexpectedCharacter c)

/-- Reads the token that starts with `c`. -/
def scan (c : Char) (r : List Char) : Except ParseFault (Token × List Char) :=
  if c.isDigit then scanNumber (c :: r)
  else if Text.startsWord c then
    .ok (wordToken (String.ofList (c :: r.takeWhile Text.inWord)), r.dropWhile Text.inWord)
  else
    match Delimiter.ofOpening? c with
    | some d =>
      match d.body? r with
      | some (text, rest) => .ok (d.token (String.ofList text), rest)
      | none => .error d.fault
    | none => scanMark c r

theorem length_body_le (d : Delimiter) {cs text rest : List Char}
    (h : d.body? cs = some (text, rest)) : rest.length ≤ cs.length := by
  fun_induction d.body? cs generalizing text rest <;>
    grind [Text.prepend_eq_some_iff]

theorem length_spanFraction_le (cs : List Char) : (spanFraction cs).2.length ≤ cs.length := by
  unfold spanFraction
  split
  · next d r =>
    have := length_dropWhile_le_length Char.isDigit (d :: r)
    split <;> grind
  · simp

theorem eq_of_numberToken {digits cs rest : List Char} {t : Token}
    (h : numberToken digits cs = .ok (t, rest)) : rest = cs := by
  unfold numberToken at h
  split at h
  · split at h <;> simp_all
  · simp_all

theorem length_scanNumber_le {c : Char} {r rest : List Char} {t : Token} (hc : c.isDigit)
    (h : scanNumber (c :: r) = .ok (t, rest)) : rest.length ≤ r.length := by
  rw [eq_of_numberToken h, List.dropWhile_cons_of_pos hc]
  exact Nat.le_trans (length_spanFraction_le _) (length_dropWhile_le_length _ _)

theorem length_scanMark_le {c : Char} {r rest : List Char} {t : Token}
    (h : scanMark c r = .ok (t, rest)) : rest.length ≤ r.length := by
  unfold scanMark at h
  split at h <;> grind

theorem length_scan_le {c : Char} {r rest : List Char} {t : Token} (h : scan c r = .ok (t, rest)) :
    rest.length ≤ r.length := by
  unfold scan at h
  split at h
  · next hc => exact length_scanNumber_le hc h
  · split at h
    · have := length_dropWhile_le_length Text.inWord r
      simp_all
    · split at h
      · next d _ =>
        split at h
        · next text rest' hb => have := length_body_le d hb; simp_all
        · simp at h
      · exact length_scanMark_le h

theorem length_skipTrivia_le (cs : List Char) : (skipTrivia cs).length ≤ cs.length := by
  fun_induction skipTrivia cs with
  | case1 => simp
  | case2 r ih => have := length_dropWhile_le_length (· != '\n') r; simp; omega
  | case3 r ih => have := length_afterComment_le r; simp; omega
  | case4 c r _ _ _ ih => simp; omega
  | case5 => simp

/-- The tokens of a text. -/
def lex (cs : List Char) : Except ParseFault (List Token) :=
  match _skipped : skipTrivia cs with
  | [] => .ok []
  | c :: r =>
    match _scanned : scan c r with
    | .error e => .error e
    | .ok (t, rest) => (lex rest).map (t :: ·)
termination_by cs.length
decreasing_by
  have h := length_skipTrivia_le cs
  have h' := length_scan_le _scanned
  rw [_skipped] at h
  simp only [List.length_cons] at h
  omega

end Schemaless.Sql
