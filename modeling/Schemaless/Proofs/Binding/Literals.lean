import Schemaless.Proofs.Sql.Lexing
import Schemaless.Proofs.Sql.Parsing
import Schemaless.Binding.Expression

/-!
# Literals and their values

A literal of a statement is lexed, written back as the text of an operand, and bound from that text.
`Denotes lit r` says what comes out in the end: the value or the failure `r`. A text between single
quotes denotes that text, whatever it looks like without them; `true` and `false` denote the truth
values; the digits of a whole number denote the number where 64 bits hold it and are refused where
they do not (`denotes_of_writes`, `denotes_numeral`).
-/

namespace Schemaless

open Sql Grammar

variable {cs lit digits : List Char} {c : Char}

/-! ## Blanks at the ends -/

theorem Text.trimmed_of_ends (hhead : ∀ c ∈ cs.head?, Text.isBlank c = false)
    (hlast : ∀ c ∈ cs.getLast?, Text.isBlank c = false) : Text.trimmed cs = cs := by
  rcases List.eq_nil_or_concat cs with rfl | ⟨front, last, rfl⟩
  · rfl
  · have hdrop : (front.concat last).dropWhile Text.isBlank = front.concat last := by
      cases front with
      | nil => simp [hhead last rfl]
      | cons first front => simp [hhead first rfl]
    rw [Text.trimmed, hdrop, List.concat_eq_append]
    exact Text.dropTrailing_append_of_not_isBlank front (hlast last (by simp))

/-! ## Numerals -/

/-- The decimal digits. -/
def decimals : List Char := ['0', '1', '2', '3', '4', '5', '6', '7', '8', '9']

theorem mem_decimals (h : c.isDigit = true) : c ∈ decimals := by
  have hall : ∀ n ∈ List.range' 0x30 10, Char.ofNat n ∈ decimals := by decide
  have hrange : 0x30 ≤ c.toNat ∧ c.toNat ≤ 0x39 := by
    simpa [Char.isDigit, UInt32.le_iff_toNat_le] using h
  rw [← Char.ofNat_toNat c]
  exact hall c.toNat (by rw [List.mem_range'_1]; omega)

/-- Digits, with a minus in front or without, and the number that they write. -/
inductive Numeral : Int → List Char → Prop
  | plain {digits : List Char} : digits ≠ [] → (∀ d ∈ digits, d.isDigit = true) →
      Numeral (ofDigits digits) digits
  | negative {digits : List Char} : digits ≠ [] → (∀ d ∈ digits, d.isDigit = true) →
      Numeral (-ofDigits digits) ('-' :: digits)

theorem ofDigits_toDigits (n : Nat) : ofDigits (toDigits n) = n := Nat.ofDigitChars_ten_toDigits

theorem numeral_render (n : Int) : Numeral n (Number.render (.int n)) := by
  have hdigits (k : Nat) : toDigits k ≠ [] ∧ ∀ d ∈ toDigits k, d.isDigit = true :=
    ⟨Nat.toDigits_ne_nil, fun d hd => Nat.isDigit_of_mem_toDigits (by decide) (by decide) hd⟩
  obtain ⟨hne, hall⟩ := hdigits n.natAbs
  by_cases hn : n < 0
  · have hvalue : -(ofDigits (toDigits n.natAbs) : Int) = n := by rw [ofDigits_toDigits]; omega
    have hnumeral := Numeral.negative hne hall
    rw [hvalue] at hnumeral
    simpa [Number.render, hn] using hnumeral
  · have hvalue : (ofDigits (toDigits n.natAbs) : Int) = n := by rw [ofDigits_toDigits]; omega
    have hnumeral := Numeral.plain hne hall
    rw [hvalue] at hnumeral
    simpa [Number.render, hn] using hnumeral

theorem Numeral.mem {n : Int} (h : Numeral n lit) : ∀ d ∈ lit, d ∈ '-' :: decimals := by
  cases h with
  | plain _ hall => exact fun d hd => List.mem_cons_of_mem _ (mem_decimals (hall d hd))
  | negative _ hall =>
    intro d hd
    rcases List.mem_cons.1 hd with rfl | hd
    · exact List.mem_cons_self
    · exact List.mem_cons_of_mem _ (mem_decimals (hall d hd))

/-- That a numeral has no blank, no quote and no letter is checked on the list of its characters. -/
theorem Numeral.all {n : Int} {p : Char → Bool} (h : Numeral n lit)
    (hall : ('-' :: decimals).all p = true) : ∀ d ∈ lit, p d = true :=
  fun d hd => List.all_eq_true.1 hall d (h.mem d hd)

theorem Numeral.ne_nil {n : Int} (h : Numeral n lit) : lit ≠ [] := by
  cases h with
  | plain hne _ => exact hne
  | negative => exact List.cons_ne_nil _ _

theorem Numeral.not_mem {n : Int} (h : Numeral n lit) (hc : c ∉ '-' :: decimals) : c ∉ lit :=
  fun hmem => hc (h.mem c hmem)

theorem Numeral.trimmed {n : Int} (h : Numeral n lit) : Text.trimmed lit = lit := by
  have hblank := h.all (p := fun d => !Text.isBlank d) (by decide)
  simp only [Bool.not_eq_true'] at hblank
  refine Text.trimmed_of_ends (fun d hd => ?_) fun d hd => ?_
  · exact hblank d (List.mem_of_head? hd)
  · exact hblank d (List.mem_of_getLast? hd)

/-- A numeral is no truth value: it does not begin with a letter. -/
theorem Numeral.equalsIgnoringCase_eq_false {n : Int} (h : Numeral n lit) {word : List Char}
    (hword : ('-' :: decimals).all (fun d => word.head?.map Char.toLower != some d.toLower) = true) :
    equalsIgnoringCase lit word = false := by
  obtain ⟨d, rest, rfl⟩ := List.exists_cons_of_ne_nil h.ne_nil
  have hne := h.all hword d List.mem_cons_self
  rw [equalsIgnoringCase, beq_eq_false_iff_ne]
  intro heq
  rw [← List.head?_map, ← heq] at hne
  simp at hne

theorem Numeral.parseWhole?_eq {n : Int} (h : Numeral n lit) : parseWhole? lit = some n := by
  cases h with
  | @plain digits hne hall =>
    have hsign : spanSign lit = (false, lit) := by
      unfold spanSign
      split
      · exact absurd (hall '-' List.mem_cons_self) (by decide)
      · exact absurd (hall '+' List.mem_cons_self) (by decide)
      · rfl
    simp [parseWhole?, hsign, hne, List.all_eq_true.2 hall]
  | @negative digits hne hall =>
    have hsign : spanSign ('-' :: digits) = (true, digits) := rfl
    simp [parseWhole?, hsign, hne, List.all_eq_true.2 hall]

/-- The value of a whole number, where 64 bits hold it. -/
def wholeValue (n : Int) (lit : List Char) : Except Failure Value :=
  if fitsInt64 n then .ok (.num (.int n)) else .error (.coercion (.notInteger (String.ofList lit)))

theorem Numeral.literal {n : Int} (h : Numeral n lit) :
    (Literal.value lit).mapError Failure.coercion = wholeValue n lit := by
  have hquote : lit.head? ≠ some '\'' := fun hhead =>
    h.not_mem (by decide) (List.mem_of_head? hhead)
  have htrue : equalsIgnoringCase lit "true".toList = false :=
    h.equalsIgnoringCase_eq_false (by decide)
  have hfalse : equalsIgnoringCase lit "false".toList = false :=
    h.equalsIgnoringCase_eq_false (by decide)
  have hpoint : lit.contains '.' = false := by simpa using h.not_mem (c := '.') (by decide)
  rw [Literal.value, h.trimmed, Literal.ofTrimmed, if_neg hquote]
  simp only [htrue, hfalse, hpoint, h.parseWhole?_eq, wholeValue]
  cases hfits : fitsInt64 n <;> simp only [Option.filter, hfits] <;> rfl

/-! ## What a literal denotes -/

/-- A literal is lexed as an operand, and this is what the operand is bound to. -/
def Denotes (lit : List Char) (r : Except Failure Value) : Prop :=
  ∃ us text, Spells lit us ∧ Operand us text ∧ bindExpression false text = Effect.ofExcept r

/-- How values are written: a text between single quotes, each single quote and each backslash in it
doubled; a whole number that 64 bits hold in decimal digits; a truth value by its name. -/
inductive Writes : Value → List Char → Prop
  | text (s : String) : '?' ∉ s.toList → Writes (.str s) (Delimiter.single.quote s.toList)
  | whole (n : Int) : fitsInt64 n = true → Writes (.num (.int n)) (Number.render (.int n))
  | truth : Writes (.bool true) "true".toList
  | falsehood : Writes (.bool false) "false".toList

theorem bindExpression_of_not_mem {text : String} (h : '?' ∉ text.toList) (membership : Bool) :
    bindExpression membership text = Effect.ofExcept (literalValue membership text) := by
  have hcount : placeholderCount text = 0 := List.count_eq_zero.2 h
  unfold bindExpression
  rw [hcount]
  rfl

theorem bindExpression_of_value {text : String} {r : Except CoercionFault Value} (h : '?' ∉ text.toList)
    (hvalue : Literal.value text.toList = r) :
    bindExpression false text = Effect.ofExcept (r.mapError .coercion) := by
  rw [bindExpression_of_not_mem h, ← hvalue]
  rfl

theorem not_mem_doubled (h : c ∉ cs) (q : Char) : c ∉ Text.doubled q cs := by
  induction cs with
  | nil => exact List.not_mem_nil
  | cons d r ih =>
    obtain ⟨hd, hr⟩ : c ≠ d ∧ c ∉ r := by simpa using h
    rw [Text.doubled]
    split
    · next heq =>
      subst heq
      simp [hd, ih hr]
    · simp [hd, ih hr]

theorem toList_singleQuoted (s : String) :
    (Text.singleQuoted s).toList = '\'' :: (Text.doubled '\'' s.toList ++ ['\'']) := by
  simp [Text.singleQuoted]

/-- What is between single quotes has blanks in it, if any, but none at its ends. -/
theorem trimmed_singleQuoted (s : String) :
    Text.trimmed (Text.singleQuoted s).toList = (Text.singleQuoted s).toList := by
  have hblank : Text.isBlank '\'' = false := by decide
  refine Text.trimmed_of_ends ?_ ?_ <;> simp [toList_singleQuoted, List.getLast?_cons, hblank]

theorem literal_singleQuoted (s : String) :
    Literal.value (Text.singleQuoted s).toList = .ok (.str s) := by
  have hhead : (Text.singleQuoted s).toList.head? = some '\'' := by
    rw [toList_singleQuoted]
    rfl
  rw [Literal.value, trimmed_singleQuoted, Literal.ofTrimmed, if_pos hhead,
    Text.unquoted_singleQuoted]
  simp only [String.ofList_toList]

theorem denotes_text {s : String} (h : '?' ∉ s.toList) :
    Denotes (Delimiter.single.quote s.toList) (.ok (.str s)) := by
  have hspells : Spells (Delimiter.single.quote s.toList) [.text s] := by
    simpa [Delimiter.token, Delimiter.escapes] using Delimiter.single.spells_quote s.toList
  have hmark : '?' ∉ (Text.singleQuoted s).toList := by
    simp [Text.singleQuoted, not_mem_doubled h]
  refine ⟨_, Text.singleQuoted s, hspells, ?_, ?_⟩
  · rw [singleQuoted_eq]
    exact .text s
  · exact bindExpression_of_value hmark (literal_singleQuoted s)

theorem denotes_numeral {n : Int} (h : Numeral n lit) : Denotes lit (wholeValue n lit) := by
  have hmark : '?' ∉ (String.ofList lit).toList := by
    simpa using h.not_mem (c := '?') (by decide)
  have hbind : bindExpression false (String.ofList lit) = Effect.ofExcept (wholeValue n lit) := by
    rw [bindExpression_of_value hmark rfl, ← h.literal, String.toList_ofList]
  cases h with
  | plain hne hall => exact ⟨_, _, spells_digits hne hall, .number _, hbind⟩
  | @negative digits hne hall =>
    have htext : "-" ++ String.ofList digits = String.ofList ('-' :: digits) := by simp
    refine ⟨_, _, spells_negative hne hall, .negative _, ?_⟩
    rwa [htext]

theorem denotes_word {word : String} {k : Keyword} {v : Value} (hword : isWord word.toList = true)
    (hkeyword : wordToken word = .keyword k) (hoperand : Operand [.keyword k] word)
    (hmark : '?' ∉ word.toList) (hvalue : Literal.value word.toList = .ok v) :
    Denotes word.toList (.ok v) := by
  have hspells := spells_word hword
  rw [String.ofList_toList, hkeyword] at hspells
  exact ⟨_, _, hspells, hoperand, bindExpression_of_value hmark hvalue⟩

/-- What is written for a value denotes the value. -/
theorem denotes_of_writes {v : Value} (h : Writes v lit) : Denotes lit (.ok v) := by
  cases h with
  | text s hmark => exact denotes_text hmark
  | whole n hfits =>
    have hvalue : wholeValue n (Number.render (.int n)) = .ok (.num (.int n)) := if_pos hfits
    exact hvalue ▸ denotes_numeral (numeral_render n)
  | truth =>
    exact denotes_word (by decide +kernel) (by decide +kernel) .truth (by decide +kernel) rfl
  | falsehood =>
    exact denotes_word (by decide +kernel) (by decide +kernel) .falsehood (by decide +kernel) rfl

/-! ### Lists of literals -/

theorem mapM_eq_error {α β ε : Type} {f : α → Except ε β} {as : List α} {a : α} {e : ε} (ha : a ∈ as)
    (he : f a = .error e) : ∃ e', as.mapM f = .error e' := by
  induction as with
  | nil => cases ha
  | cons b as ih =>
    rw [List.mapM_cons]
    cases hb : f b with
    | error e' => exact ⟨e', rfl⟩
    | ok v =>
      have hrest : a ∈ as := by
        rcases List.mem_cons.1 ha with rfl | hrest
        · rw [he] at hb
          cases hb
        · exact hrest
      obtain ⟨e', hrest⟩ := ih hrest
      exact ⟨e', by rw [hrest]; rfl⟩

/-- A list with a numeral in it that 64 bits do not hold has no value. -/
theorem bindExpression_of_numeral_in_list {text : String} {n : Int} (hmark : '?' ∉ text.toList)
    (hlit : lit ∈ (Literal.items text.toList).map Text.trimmed) (h : Numeral n lit)
    (hfits : fitsInt64 n = false) :
    ∃ fault, bindExpression true text = Effect.ofExcept (.error (.coercion fault)) := by
  obtain ⟨piece, hpiece, rfl⟩ := List.mem_map.1 hlit
  have hvalue : ∃ fault, Literal.value piece = .error fault := by
    have hnumeral := h.literal
    rw [Literal.value, h.trimmed, wholeValue, if_neg (by simp [hfits])] at hnumeral
    rw [Literal.value]
    cases hp : Literal.ofTrimmed (Text.trimmed piece) with
    | error fault => exact ⟨fault, rfl⟩
    | ok v =>
      rw [hp] at hnumeral
      cases hnumeral
  obtain ⟨fault, hfault⟩ := hvalue
  have hlist : ∃ fault, Literal.listValue text.toList = .error fault := by
    unfold Literal.listValue
    split
    · next single hsingle =>
      rw [hsingle] at hpiece
      obtain rfl := List.mem_singleton.1 hpiece
      exact ⟨fault, hfault⟩
    · obtain ⟨fault', hmany⟩ := mapM_eq_error hpiece hfault
      exact ⟨fault', by rw [hmany]; rfl⟩
  obtain ⟨fault, hfault⟩ := hlist
  refine ⟨fault, ?_⟩
  rw [bindExpression_of_not_mem hmark, literalValue, if_pos rfl, hfault]
  rfl

end Schemaless
