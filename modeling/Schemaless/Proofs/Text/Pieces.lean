import Schemaless.Text.Blank
import Schemaless.Text.Pieces
import Schemaless.Text.Quoted
import Mathlib.Data.List.Basic

/-!
# What is passed over in search of a separator

A text is cut at a separator outside quotes by a scan that remembers the open quote. `Passes` says what a
part of the text does to this scan: it is not cut, and takes the scan from one open quote, or none, to
another. Parts that pass may be put in a row (`Passes.append`); a text in quotes passes, whatever stands
in it, when its quotes are doubled (`passes_quoted`). So a text whose parts pass is cut between them and
nowhere else (`pieces_intercalate`).
-/

namespace Schemaless.Text

variable {separator c q : Char} {quotes cs ds rest : List Char} {opened middle closed : Option Char}

theorem pieces_separator (rest : List Char) :
    pieces separator quotes none (separator :: rest) = [] :: pieces separator quotes none rest := by
  rw [pieces, if_pos ⟨rfl, rfl⟩]

theorem pieces_cons (h : ¬(c = separator ∧ opened = none)) (rest : List Char) :
    pieces separator quotes opened (c :: rest) =
      (pieces separator quotes (nextQuote quotes opened c) rest).modifyHead (c :: ·) := by
  rw [pieces, if_neg h]
  cases hrest : pieces separator quotes (nextQuote quotes opened c) rest with
  | nil => exact absurd hrest (pieces_ne_nil _ _ _ _)
  | cons first more => rfl

/-- The text is not cut, and takes the scan from `opened` to `closed`. -/
def Passes (separator : Char) (quotes : List Char) (opened closed : Option Char) (cs : List Char) :
    Prop :=
  ∀ rest, pieces separator quotes opened (cs ++ rest) =
    (pieces separator quotes closed rest).modifyHead (cs ++ ·)

theorem passes_nil (opened : Option Char) : Passes separator quotes opened opened [] := by
  intro rest
  cases hrest : pieces separator quotes opened rest with
  | nil => exact absurd hrest (pieces_ne_nil _ _ _ _)
  | cons first more => simp [hrest]

theorem Passes.append (h : Passes separator quotes opened middle cs)
    (h' : Passes separator quotes middle closed ds) :
    Passes separator quotes opened closed (cs ++ ds) := by
  intro rest
  rw [List.append_assoc, h, h', List.modifyHead_modifyHead]
  congr 1
  funext piece
  simp

theorem passes_char (h : ¬(c = separator ∧ opened = none)) :
    Passes separator quotes opened (nextQuote quotes opened c) [c] :=
  fun rest => pieces_cons h rest

theorem Passes.cons (h : ¬(c = separator ∧ opened = none))
    (hrest : Passes separator quotes (nextQuote quotes opened c) closed cs) :
    Passes separator quotes opened closed (c :: cs) :=
  (passes_char h).append hrest

/-- Outside quotes, what is neither a separator nor a quote passes. -/
theorem passes_plain (h : ∀ c ∈ cs, c ≠ separator ∧ c ∉ quotes) :
    Passes separator quotes none none cs := by
  induction cs with
  | nil => exact passes_nil none
  | cons c r ih =>
    obtain ⟨hseparator, hquote⟩ := h c List.mem_cons_self
    have hnext : nextQuote quotes none c = none := by
      rw [nextQuote, if_neg]
      simpa using hquote
    refine .cons (fun hcut => hseparator hcut.1) ?_
    rw [hnext]
    exact ih fun d hd => h d (List.mem_cons_of_mem _ hd)

/-- Inside quotes, a pair of quotes closes and opens. -/
theorem passes_pair (hseparator : q ≠ separator) (hquote : q ∈ quotes) :
    Passes separator quotes (some q) (some q) [q, q] := by
  have hclose : nextQuote quotes (some q) q = none := if_pos rfl
  have hopen : nextQuote quotes none q = some q := if_pos (by simpa using hquote)
  refine .cons (fun hcut => hseparator hcut.1) ?_
  rw [hclose]
  refine .cons (fun hcut => hseparator hcut.1) ?_
  rw [hopen]
  exact passes_nil _

theorem passes_inside (hc : c ≠ q) : Passes separator quotes (some q) (some q) [c] := by
  have hnext : nextQuote quotes (some q) c = some q := if_neg (Ne.symm hc)
  refine .cons (fun hcut => nomatch hcut.2) ?_
  rw [hnext]
  exact passes_nil _

theorem passes_doubled (hseparator : q ≠ separator) (hquote : q ∈ quotes) (cs : List Char) :
    Passes separator quotes (some q) (some q) (doubled q cs) := by
  induction cs with
  | nil => exact passes_nil _
  | cons c r ih =>
    rw [doubled]
    split
    · exact (passes_pair hseparator hquote).append ih
    · next hc => exact (passes_inside hc).append ih

/-- What stands between the two quotes takes the scan from the one to the other. -/
theorem passes_enclosed (hseparator : q ≠ separator) (hquote : q ∈ quotes)
    (h : Passes separator quotes (some q) (some q) cs) :
    Passes separator quotes none none (q :: (cs ++ [q])) := by
  have hopen : nextQuote quotes none q = some q := if_pos (by simpa using hquote)
  have hclose : nextQuote quotes (some q) q = none := if_pos rfl
  refine .cons (fun hcut => hseparator hcut.1) ?_
  rw [hopen]
  refine h.append (.cons (fun hcut => hseparator hcut.1) ?_)
  rw [hclose]
  exact passes_nil _

theorem passes_quoted (hseparator : q ≠ separator) (hquote : q ∈ quotes) (cs : List Char) :
    Passes separator quotes none none (q :: (doubled q cs ++ [q])) :=
  passes_enclosed hseparator hquote (passes_doubled hseparator hquote cs)

/-! ## Trimming -/

theorem trimmed_cons_of_isBlank (h : isBlank c = true) (cs : List Char) :
    trimmed (c :: cs) = trimmed cs := by
  rw [trimmed, List.dropWhile_cons_of_pos h, ← trimmed]

/-- Only blanks are trimmed, in front and behind. -/
theorem exists_blanks_trimmed (cs : List Char) :
    ∃ front back : List Char, (∀ c ∈ front, isBlank c = true) ∧ (∀ c ∈ back, isBlank c = true) ∧
      front ++ (trimmed cs ++ back) = cs := by
  obtain ⟨back, hback, hdropped⟩ := dropTrailing_append_blanks (cs.dropWhile isBlank)
  refine ⟨cs.takeWhile isBlank, back, fun c hc => List.all_eq_true.1 List.all_takeWhile c hc, hback, ?_⟩
  rw [trimmed, hdropped, List.takeWhile_append_dropWhile]

/-- A trimmed text does not begin with a blank. -/
theorem isBlank_of_trimmed (h : trimmed cs = c :: rest) : isBlank c = false := by
  obtain ⟨blanks, -, hdropped⟩ := dropTrailing_append_blanks (cs.dropWhile isBlank)
  have hcons : cs.dropWhile isBlank = c :: (rest ++ blanks) := by
    rw [← hdropped]
    exact congrArg (· ++ blanks) h
  have hhead := List.head?_dropWhile_not isBlank cs
  rw [hcons] at hhead
  simpa using hhead

theorem dropTrailing_dropTrailing (cs : List Char) :
    dropTrailing (dropTrailing cs) = dropTrailing cs := by
  induction cs with
  | nil => rfl
  | cons c r ih =>
    cases hr : dropTrailing r with
    | nil => by_cases hc : isBlank c = true <;> simp [dropTrailing, hr, hc]
    | cons d kept =>
      rw [hr] at ih
      have hstep : dropTrailing (c :: r) = c :: d :: kept := by rw [dropTrailing, hr]
      rw [hstep, dropTrailing, ih]

theorem trimmed_trimmed (cs : List Char) : trimmed (trimmed cs) = trimmed cs := by
  have hfront : (trimmed cs).dropWhile isBlank = trimmed cs := by
    cases h : trimmed cs with
    | nil => rfl
    | cons c r => rw [List.dropWhile_cons_of_neg (by simp [isBlank_of_trimmed h])]
  calc trimmed (trimmed cs)
      = dropTrailing (trimmed cs) := congrArg dropTrailing hfront
    _ = trimmed cs := dropTrailing_dropTrailing _

/-! ## Cuts -/

theorem pieces_of_passes (h : Passes separator quotes none closed cs) :
    pieces separator quotes none cs = [cs] := by
  have hall := h []
  rw [List.append_nil] at hall
  rw [hall]
  simp [pieces]

/-- Behind a text that passes, a separator cuts. -/
theorem pieces_cut (h : Passes separator quotes none none cs) (rest : List Char) :
    pieces separator quotes none (cs ++ separator :: rest) =
      cs :: pieces separator quotes none rest := by
  rw [h, pieces_separator, List.modifyHead_cons, List.append_nil]

/-- Texts with separators and blanks between them are cut there and nowhere else. -/
theorem trimmed_pieces_intercalate {blank : Char} {texts : List (List Char)}
    (hblank : isBlank blank = true) (hplain : blank ≠ separator ∧ blank ∉ quotes) (hne : texts ≠ [])
    (h : ∀ t ∈ texts, Passes separator quotes none none t) :
    (pieces separator quotes none ([separator, blank].intercalate texts)).map trimmed =
      texts.map trimmed := by
  induction texts with
  | nil => exact absurd rfl hne
  | cons t more ih =>
    have ht := h t List.mem_cons_self
    cases more with
    | nil => simp [pieces_of_passes ht]
    | cons u more =>
      have hmore := ih (List.cons_ne_nil u more) fun t ht => h t (List.mem_cons_of_mem _ ht)
      have hgap : Passes separator quotes none none [blank] := passes_plain (by simpa using hplain)
      have hcons : [separator, blank].intercalate (t :: u :: more) =
          t ++ separator :: ([blank] ++ [separator, blank].intercalate (u :: more)) := by simp
      have hskip : ∀ found : List (List Char),
          (found.modifyHead ([blank] ++ ·)).map trimmed = found.map trimmed := by
        intro found
        cases found with
        | nil => rfl
        | cons first rest => simp [trimmed_cons_of_isBlank hblank]
      rw [hcons, pieces_cut ht, hgap, List.map_cons, hskip, hmore, ← List.map_cons]

/-! ## Counting a character -/

theorem count_intercalate {gap : List Char} (h : c ∉ gap) (texts : List (List Char)) :
    (gap.intercalate texts).count c = texts.flatten.count c := by
  induction texts with
  | nil => rfl
  | cons t more ih =>
    cases more with
    | nil => simp
    | cons u more =>
      have hflatten : (t :: u :: more).flatten = t ++ (u :: more).flatten := List.flatten_cons
      rw [List.intercalate_cons_cons, List.count_append, List.count_append, List.count_eq_zero.2 h, ih,
        hflatten, List.count_append, Nat.add_zero]

theorem joined_eq_intercalate (separator : Char) (parts : List (List Char)) :
    joined separator parts = [separator].intercalate parts := by
  induction parts with
  | nil => rfl
  | cons first rest ih =>
    cases rest with
    | nil => simp [joined]
    | cons next rest =>
      rw [joined_cons separator first (List.cons_ne_nil next rest), ih, List.intercalate_cons_cons]
      simp

theorem count_pieces (h : c ≠ separator) (opened : Option Char) (cs : List Char) :
    (pieces separator quotes opened cs).flatten.count c = cs.count c := by
  have hgap : c ∉ [separator] := by simpa using h
  rw [← count_intercalate hgap, ← joined_eq_intercalate, joined_pieces]

theorem count_trimmed (h : isBlank c = false) (cs : List Char) :
    (trimmed cs).count c = cs.count c := by
  have hnone {blanks : List Char} (hblanks : ∀ d ∈ blanks, isBlank d = true) : blanks.count c = 0 := by
    rw [List.count_eq_zero]
    intro hmem
    rw [hblanks c hmem] at h
    cases h
  obtain ⟨front, back, hfront, hback, hcs⟩ := exists_blanks_trimmed cs
  have hcount := congrArg (List.count c) hcs
  rw [List.count_append, List.count_append, hnone hfront, hnone hback, Nat.zero_add, Nat.add_zero]
    at hcount
  exact hcount

theorem count_doubled (q : Char) (cs : List Char) : (doubled q cs).count q = 2 * cs.count q := by
  induction cs with
  | nil => rfl
  | cons d r ih =>
    rw [doubled]
    split
    · next hd =>
      subst hd
      simp [ih]
      omega
    · next hd => simp [hd, ih]

theorem count_doubled_of_ne {q : Char} (h : c ≠ q) (cs : List Char) :
    (doubled q cs).count c = cs.count c := by
  induction cs with
  | nil => rfl
  | cons d r ih =>
    rw [doubled]
    split
    · next hd => simp [hd, ih, h.symm]
    · rw [List.count_cons, ih, ← List.count_cons]

theorem count_collapsed_of_ne {q : Char} (h : c ≠ q) (cs : List Char) :
    (collapsed q cs).count c = cs.count c := by
  fun_induction collapsed q cs with
  | case1 => rfl
  | case2 => rfl
  | case3 d e r hpair ih => simp [hpair.1, hpair.2, ih, h.symm]
  | case4 d e r hpair ih => rw [List.count_cons, ih, ← List.count_cons]

/-- Half of the quotes are left at least. -/
theorem count_le_collapsed (q : Char) (cs : List Char) :
    cs.count q ≤ 2 * (collapsed q cs).count q := by
  fun_induction collapsed q cs with
  | case1 => exact Nat.le_refl 0
  | case2 d => omega
  | case3 d e r hpair ih =>
    simp only [hpair.1, hpair.2, List.count_cons_self]
    omega
  | case4 d e r hpair ih =>
    rw [List.count_cons, List.count_cons (a := q) (b := d)]
    split <;> omega

theorem unquoted_eq_some {w : List Char} (h : unquoted cs = some w) :
    ∃ inner, cs = '\'' :: (inner ++ ['\'']) ∧ w = collapsed '\'' inner := by
  unfold unquoted at h
  split at h
  · next r =>
    split at h
    · next inner hreverse =>
      cases h
      refine ⟨inner.reverse, ?_, rfl⟩
      rw [← List.reverse_cons, ← hreverse, List.reverse_reverse]
    · cases h
  · cases h

end Schemaless.Text
