import Schemaless.Proofs.Sql.Lexing
import Schemaless.Text.Quoted

/-!
# Quoted text is read back

A name stands in backticks or brackets with its closing character doubled, a text in quotes of either kind
with its quotes and its backslashes doubled. Both are what `Delimiter.escaped` writes (`escaped_of_name`,
`escaped_of_text`), so what is written is one token, and lexing goes on behind it as if it began there
(`quoted_is_read_back`). A closing character that is doubled never closes, so what is written and not
closed has no token (`body?_escaped_eq_none`).
-/

namespace Schemaless.Sql

open Text (doubled)

namespace Delimiter

variable {d : Delimiter}

/-- What is written between quotes does not close them. -/
theorem body?_escaped_eq_none (d : Delimiter) (s : List Char) : d.body? (d.escaped s) = none := by
  induction s with
  | nil => rw [escaped, List.flatMap_nil, body?]
  | cons c s ih =>
    rw [escaped, List.flatMap_cons, ← escaped, body?_written, ih]
    rfl

theorem lex_open (d : Delimiter) (s : List Char) :
    lex (d.opening :: d.escaped s) = .error d.fault := by
  have hscan : scan d.opening (d.escaped s) = .error d.fault := by
    rw [scan_opening, body?_escaped_eq_none]
  exact lex_of_scan_error (skipTrivia_of_starts d.starts_opening _) hscan

/-- In a name the closing character is doubled. -/
theorem escaped_of_name (h : d.escapes = false) (s : List Char) :
    d.escaped s = doubled d.closing s := by
  induction s with
  | nil => rfl
  | cons c s ih =>
    rw [escaped, List.flatMap_cons, ← escaped, ih, doubled, h]
    by_cases hclosing : c = d.closing
    · rw [if_pos (.inl hclosing), if_pos hclosing, hclosing]
      rfl
    · rw [if_neg (by simp [hclosing]), if_neg hclosing]
      rfl

/-- In a text the quote and the backslash are doubled. -/
theorem escaped_of_text (h : d.escapes = true) (s : List Char) :
    d.escaped s = doubled d.closing (doubled '\\' s) := by
  have hne : '\\' ≠ d.closing := by cases d <;> decide
  induction s with
  | nil => rfl
  | cons c s ih =>
    rw [escaped, List.flatMap_cons, ← escaped, ih, doubled, h]
    by_cases hescape : c = '\\'
    · rw [if_pos (.inr ⟨rfl, hescape⟩), if_pos hescape, hescape, doubled, if_neg hne, doubled,
        if_neg hne]
      rfl
    · rw [if_neg hescape, doubled]
      by_cases hclosing : c = d.closing
      · rw [if_pos (.inl hclosing), if_pos hclosing, hclosing]
        rfl
      · rw [if_neg (by simp [hclosing, hescape]), if_neg hclosing]
        rfl

end Delimiter

/-- What is written between two characters is read as one token, and what follows as it is on its own,
unless that begins with another closing character. Without its closing character it is a fault. -/
structure ReadBack (opening closing : Char) (written : List Char) (t : Token) (e : ParseFault) :
    Prop where
  closed : ∀ rest : List Char, rest.head? ≠ some closing →
    lex (opening :: (written ++ closing :: rest)) = (lex rest).map (t :: ·)
  left_open : lex (opening :: written) = .error e

theorem Delimiter.readBack (d : Delimiter) (s : String) :
    ReadBack d.opening d.closing (d.escaped s.toList) (d.token s) d.fault := by
  refine ⟨fun rest hrest => ?_, d.lex_open s.toList⟩
  have hlex := d.lex_quote s.toList hrest
  rwa [d.quote_eq, List.cons_append, List.append_assoc, List.singleton_append,
    String.ofList_toList] at hlex

/-- Any text whatever can be written in each of the four ways, and is read back as a name or as a text. -/
theorem quoted_is_read_back (s : String) :
    ReadBack (Char.ofNat 0x60) (Char.ofNat 0x60) (doubled (Char.ofNat 0x60) s.toList) (.identifier s)
        .unterminatedIdentifier ∧
      ReadBack '[' ']' (doubled ']' s.toList) (.identifier s) .unterminatedIdentifier ∧
      ReadBack '\'' '\'' (doubled '\'' (doubled '\\' s.toList)) (.text s) .unterminatedText ∧
      ReadBack '"' '"' (doubled '"' (doubled '\\' s.toList)) (.text s) .unterminatedText := by
  have hbacktick := Delimiter.readBack .backtick s
  have hbracket := Delimiter.readBack .bracket s
  have hsingle := Delimiter.readBack .single s
  have hdouble := Delimiter.readBack .double s
  rw [Delimiter.escaped_of_name rfl] at hbacktick hbracket
  rw [Delimiter.escaped_of_text rfl] at hsingle hdouble
  exact ⟨hbacktick, hbracket, hsingle, hdouble⟩

/-- A text that ends in a quote and a backslash, right in front of a name in brackets. -/
theorem quoted_is_read_back_in_front :
    "[a]]]".toList.head? ≠ some '\'' ∧
      lex "'it''s ''\\\\'[a]]]".toList = .ok [.text "it's '\\", .identifier "a]"] := by
  have hfront : "[a]]]".toList.head? ≠ some '\'' := by decide
  have hname := (quoted_is_read_back "a]").2.1.closed [] (by decide)
  rw [lex_of_skipTrivia_eq_nil skipTrivia_nil] at hname
  have htext := (quoted_is_read_back "it's '\\").2.2.1.closed "[a]]]".toList hfront
  rw [show lex "[a]]]".toList = .ok [.identifier "a]"] from hname] at htext
  exact ⟨hfront, htext⟩

end Schemaless.Sql
