import Mathlib.Data.List.Induction
import Schemaless.Proofs.Text.Pieces
import Schemaless.Sql.Script

/-!
# Where scripts are cut

A semicolon cuts a script where all quotes in front of it are closed (`Balanced`). So the parts of a script
(`CutInto`) are told without the search that finds them, and the search finds just these parts
(`cutInto_iff`). Blanks neither open nor close a quote: a part stays without a cut when it is trimmed, and
stays balanced. Only the last part may leave a quote open, and when blank parts are left out it is still
the last, or all parts that are left are balanced. Therefore the statements of a script, each on its own or
joined again, are cut as they are (`statements_split_again`).
-/

namespace Schemaless.Text

variable {separator c q : Char} {quotes cs ds : List Char} {parts : List (List Char)}
  {opened : Option Char}

/-! ## Quotes -/

/-- Text in which every quote that is opened is closed. -/
inductive Balanced (quotes : List Char) : List Char → Prop
  | nil : Balanced quotes []
  | plain {c : Char} {cs : List Char} : c ∉ quotes → Balanced quotes cs → Balanced quotes (c :: cs)
  | quoted {q : Char} {body cs : List Char} :
      q ∈ quotes → q ∉ body → Balanced quotes cs → Balanced quotes (q :: (body ++ q :: cs))

/-- The quote that is open behind a text. -/
def openedBehind (quotes : List Char) (opened : Option Char) (cs : List Char) : Option Char :=
  cs.foldl (nextQuote quotes) opened

theorem openedBehind_cons :
    openedBehind quotes opened (c :: cs) = openedBehind quotes (nextQuote quotes opened c) cs := rfl

theorem openedBehind_append :
    openedBehind quotes opened (cs ++ ds) = openedBehind quotes (openedBehind quotes opened cs) ds :=
  List.foldl_append

theorem nextQuote_of_mem (h : q ∈ quotes) : nextQuote quotes none q = some q :=
  if_pos (List.contains_iff_mem.2 h)

theorem nextQuote_of_not_mem (h : c ∉ quotes) : nextQuote quotes none c = none :=
  if_neg fun hmem => h (List.contains_iff_mem.1 hmem)

theorem nextQuote_self : nextQuote quotes (some q) q = none := if_pos rfl

theorem nextQuote_of_ne (h : q ≠ c) : nextQuote quotes (some q) c = some q := if_neg h

/-- A quote stays open up to its like. -/
theorem openedBehind_of_not_mem (h : q ∉ cs) : openedBehind quotes (some q) cs = some q := by
  induction cs with
  | nil => rfl
  | cons c r ih =>
    rw [List.mem_cons, not_or] at h
    rw [openedBehind_cons, nextQuote_of_ne h.1, ih h.2]

theorem mem_of_openedBehind (h : openedBehind quotes none cs = some q) : q ∈ quotes := by
  induction cs using List.reverseRecOn with
  | nil => cases h
  | append_singleton front c ih =>
    rw [openedBehind_append, openedBehind_cons] at h
    cases hfront : openedBehind quotes none front with
    | none =>
      rw [hfront] at h
      by_cases hc : c ∈ quotes
      · rw [nextQuote_of_mem hc] at h
        cases h
        exact hc
      · rw [nextQuote_of_not_mem hc] at h
        cases h
    | some p =>
      rw [hfront] at h
      by_cases hc : p = c
      · subst hc
        rw [nextQuote_self] at h
        cases h
      · rw [nextQuote_of_ne hc] at h
        cases h
        exact ih hfront

theorem openedBehind_of_balanced (h : Balanced quotes cs) : openedBehind quotes none cs = none := by
  induction h with
  | nil => rfl
  | plain hc _ ih => rw [openedBehind_cons, nextQuote_of_not_mem hc, ih]
  | quoted hq hbody _ ih =>
    rw [openedBehind_cons, nextQuote_of_mem hq, openedBehind_append, openedBehind_of_not_mem hbody,
      openedBehind_cons, nextQuote_self, ih]

/-- A text is balanced exactly if no quote is open behind it. -/
theorem balanced_iff : Balanced quotes cs ↔ openedBehind quotes none cs = none := by
  refine ⟨openedBehind_of_balanced, ?_⟩
  -- behind an open quote, the text goes on up to the quote that closes it
  suffices hboth : (openedBehind quotes none cs = none → Balanced quotes cs) ∧
      ∀ q, openedBehind quotes (some q) cs = none →
        ∃ body rest, cs = body ++ q :: rest ∧ q ∉ body ∧ Balanced quotes rest from hboth.1
  induction cs with
  | nil => exact ⟨fun _ => .nil, fun q h => by cases h⟩
  | cons c r ih =>
    obtain ⟨houtside, hinside⟩ := ih
    constructor
    · intro h
      rw [openedBehind_cons] at h
      by_cases hc : c ∈ quotes
      · rw [nextQuote_of_mem hc] at h
        obtain ⟨body, rest, rfl, hbody, hrest⟩ := hinside c h
        exact .quoted hc hbody hrest
      · rw [nextQuote_of_not_mem hc] at h
        exact .plain hc (houtside h)
    · intro q h
      rw [openedBehind_cons] at h
      by_cases hc : q = c
      · subst hc
        rw [nextQuote_self] at h
        exact ⟨[], r, rfl, List.not_mem_nil, houtside h⟩
      · rw [nextQuote_of_ne hc] at h
        obtain ⟨body, rest, rfl, hbody, hrest⟩ := hinside q h
        refine ⟨c :: body, rest, rfl, ?_, hrest⟩
        rw [List.mem_cons, not_or]
        exact ⟨hc, hbody⟩

/-! ## Parts -/

/-- No separator stands outside quotes. -/
def Uncut (separator : Char) (quotes cs : List Char) : Prop :=
  ∀ pre post, cs = pre ++ separator :: post → ¬Balanced quotes pre

/-- The parts of a text between the separators outside quotes. -/
inductive CutInto (separator : Char) (quotes : List Char) : List Char → List (List Char) → Prop
  | whole {cs : List Char} : Uncut separator quotes cs → CutInto separator quotes cs [cs]
  | cut {pre post : List Char} {parts : List (List Char)} :
      Balanced quotes pre → Uncut separator quotes pre → CutInto separator quotes post parts →
        CutInto separator quotes (pre ++ separator :: post) (pre :: parts)

theorem CutInto.uncut (h : CutInto separator quotes cs parts) :
    ∀ part ∈ parts, Uncut separator quotes part := by
  induction h with
  | whole hcs => simpa using hcs
  | cut _ hpre _ ih => exact List.forall_mem_cons.2 ⟨hpre, ih⟩

theorem CutInto.ne_nil (h : CutInto separator quotes cs parts) : parts ≠ [] := by
  cases h <;> exact List.cons_ne_nil _ _

theorem passes_openedBehind
    (h : ∀ pre post, cs = pre ++ separator :: post → openedBehind quotes opened pre ≠ none) :
    Passes separator quotes opened (openedBehind quotes opened cs) cs := by
  induction cs generalizing opened with
  | nil => exact passes_nil opened
  | cons c r ih =>
    have hc : ¬(c = separator ∧ opened = none) := by
      rintro ⟨rfl, hnone⟩
      exact h [] r rfl hnone
    rw [openedBehind_cons]
    refine .cons hc (ih fun pre post hr => ?_)
    exact h (c :: pre) post (congrArg (c :: ·) hr)

theorem Uncut.passes (h : Uncut separator quotes cs) :
    Passes separator quotes none (openedBehind quotes none cs) cs :=
  passes_openedBehind fun pre post hcs => mt balanced_iff.2 (h pre post hcs)

theorem Uncut.pieces_eq (h : Uncut separator quotes cs) :
    pieces separator quotes none cs = [cs] :=
  pieces_of_passes h.passes

theorem CutInto.pieces_eq (h : CutInto separator quotes cs parts) :
    pieces separator quotes none cs = parts := by
  induction h with
  | whole hcs => exact hcs.pieces_eq
  | cut hbalanced hpre _ ih =>
    have hpasses := hpre.passes
    rw [openedBehind_of_balanced hbalanced] at hpasses
    rw [pieces_cut hpasses, ih]

/-- A text has a first separator outside quotes, or none. -/
theorem uncut_or_cut (separator : Char) (quotes cs : List Char) :
    Uncut separator quotes cs ∨
      ∃ pre post, cs = pre ++ separator :: post ∧ Balanced quotes pre ∧ Uncut separator quotes pre := by
  induction cs using List.reverseRecOn with
  | nil => exact .inl fun pre post h => by simp at h
  | append_singleton front c ih =>
    rcases ih with huncut | ⟨pre, post, rfl, hbalanced, hpre⟩
    · by_cases hc : c = separator ∧ Balanced quotes front
      · exact .inr ⟨front, [], by rw [hc.1], hc.2, huncut⟩
      · refine .inl fun pre post h hbalanced => ?_
        rcases List.eq_nil_or_concat post with rfl | ⟨more, last, rfl⟩
        · obtain ⟨rfl, hlast⟩ := List.append_inj' h rfl
          exact hc ⟨List.singleton_inj.1 hlast, hbalanced⟩
        · have hfront : front = pre ++ separator :: more :=
            (List.append_inj' (h.trans (by simp : _ = pre ++ separator :: more ++ [last])) rfl).1
          exact huncut pre more hfront hbalanced
    · exact .inr ⟨pre, post ++ [c], by simp, hbalanced, hpre⟩

/-- The search finds the parts between the separators outside quotes. -/
theorem cutInto_iff : CutInto separator quotes cs parts ↔ parts = pieces separator quotes none cs := by
  refine ⟨fun h => h.pieces_eq.symm, ?_⟩
  rintro rfl
  suffices hexists : ∃ parts, CutInto separator quotes cs parts by
    obtain ⟨parts, hparts⟩ := hexists
    rwa [hparts.pieces_eq]
  induction hn : cs.length using Nat.strongRecOn generalizing cs with
  | _ n ih =>
    subst hn
    rcases uncut_or_cut separator quotes cs with huncut | ⟨pre, post, rfl, hbalanced, hpre⟩
    · exact ⟨[cs], .whole huncut⟩
    · obtain ⟨parts, hparts⟩ := ih post.length (by simp; omega) rfl
      exact ⟨pre :: parts, .cut hbalanced hpre hparts⟩

/-! ## Parts that are trimmed -/

section Trimmed

variable (hblank : ∀ q ∈ quotes, isBlank q = false)

include hblank

theorem not_mem_of_isBlank (hc : isBlank c = true) : c ∉ quotes := by
  intro hmem
  rw [hblank c hmem] at hc
  cases hc

theorem Balanced.append_blanks (h : Balanced quotes cs) {blanks : List Char}
    (hblanks : ∀ c ∈ blanks, isBlank c = true) : Balanced quotes (blanks ++ cs) := by
  induction blanks with
  | nil => exact h
  | cons c r ih =>
    obtain ⟨hc, hr⟩ := List.forall_mem_cons.1 hblanks
    exact .plain (not_mem_of_isBlank hblank hc) (ih hr)

theorem uncut_trimmed (h : Uncut separator quotes cs) : Uncut separator quotes (trimmed cs) := by
  intro pre post hcut hbalanced
  obtain ⟨front, back, hfront, -, hcs⟩ := exists_blanks_trimmed cs
  rw [hcut] at hcs
  exact h (front ++ pre) (post ++ back) (by simp [← hcs]) (hbalanced.append_blanks hblank hfront)

theorem balanced_trimmed (h : Balanced quotes cs) : Balanced quotes (trimmed cs) := by
  obtain ⟨front, back, hfront, hback, hcs⟩ := exists_blanks_trimmed cs
  have hopen : openedBehind quotes none front = none := by
    have hblanks := Balanced.nil.append_blanks hblank hfront
    rw [List.append_nil] at hblanks
    exact openedBehind_of_balanced hblanks
  have hend := openedBehind_of_balanced h
  rw [← hcs, openedBehind_append, hopen, openedBehind_append] at hend
  rw [balanced_iff]
  cases hquote : openedBehind quotes none (trimmed cs) with
  | none => rfl
  | some q =>
    -- a quote that is open in front of the blanks is open behind them
    have hq : q ∉ back := by
      intro hmem
      exact not_mem_of_isBlank hblank (hback q hmem) (mem_of_openedBehind hquote)
    rw [hquote, openedBehind_of_not_mem hq] at hend
    cases hend

end Trimmed

/-- The parts that are not blank, trimmed. -/
def keptParts (parts : List (List Char)) : List (List Char) := (parts.map trimmed).filter (· ≠ [])

theorem keptParts_cons_of_eq_nil {part : List Char} (h : trimmed part = []) :
    keptParts (part :: parts) = keptParts parts := by
  rw [keptParts, List.map_cons, List.filter_cons_of_neg (by simpa using h), ← keptParts]

theorem keptParts_cons_of_ne_nil {part : List Char} (h : trimmed part ≠ []) :
    keptParts (part :: parts) = trimmed part :: keptParts parts := by
  rw [keptParts, List.map_cons, List.filter_cons_of_pos (by simpa using h), ← keptParts]

theorem exists_of_mem_keptParts {kept : List Char} (h : kept ∈ keptParts parts) :
    kept ≠ [] ∧ ∃ part ∈ parts, trimmed part = kept := by
  obtain ⟨hmem, hne⟩ := List.mem_filter.1 h
  exact ⟨by simpa using hne, List.mem_map.1 hmem⟩

theorem keptParts_of_trimmed (h : ∀ part ∈ parts, trimmed part = part ∧ part ≠ []) :
    keptParts parts = parts := by
  have hmap : parts.map trimmed = parts := (List.map_congr_left fun part hpart => (h part hpart).1).trans
    (List.map_id parts)
  rw [keptParts, hmap, List.filter_eq_self]
  intro part hpart
  simpa using (h part hpart).2

theorem keptParts_keptParts (parts : List (List Char)) :
    keptParts (keptParts parts) = keptParts parts := by
  refine keptParts_of_trimmed fun kept hkept => ?_
  obtain ⟨hne, part, -, rfl⟩ := exists_of_mem_keptParts hkept
  exact ⟨trimmed_trimmed part, hne⟩

/-- Joined again, the parts that are kept are cut as they are. -/
theorem cutInto_keptParts (hblank : ∀ q ∈ quotes, isBlank q = false)
    (h : CutInto separator quotes cs parts) :
    keptParts parts = [] ∨ CutInto separator quotes (joined separator (keptParts parts)) (keptParts parts) := by
  induction h with
  | @whole cs hcs =>
    by_cases hnil : trimmed cs = []
    · exact .inl (keptParts_cons_of_eq_nil hnil)
    · rw [keptParts_cons_of_ne_nil hnil]
      exact .inr (.whole (uncut_trimmed hblank hcs))
  | @cut pre post parts hbalanced hpre _ ih =>
    by_cases hnil : trimmed pre = []
    · rwa [keptParts_cons_of_eq_nil hnil]
    · have hfirst := uncut_trimmed hblank hpre
      rw [keptParts_cons_of_ne_nil hnil]
      rcases ih with hnone | hkept
      · rw [hnone]
        exact .inr (.whole hfirst)
      · rw [joined_cons separator _ hkept.ne_nil]
        exact .inr (.cut (balanced_trimmed hblank hbalanced) hfirst hkept)

end Schemaless.Text

namespace Schemaless.Sql

open Text

theorem statementsOf_eq (script : String) :
    statementsOf script = (keptParts (scriptPieces script.toList)).map String.ofList := rfl

/-- A script has one way to be cut at its semicolons outside quotes. Joined by semicolons the parts are the
script, and its statements are the parts, trimmed, without the blank ones. A statement is cut into itself
alone, and the statements joined by semicolons are cut into themselves, whatever the script leaves open. -/
theorem statements_split_again (script : String) :
    ∃ parts : List (List Char),
      (∀ other, CutInto ';' scriptQuotes script.toList other ↔ other = parts) ∧
        [';'].intercalate parts = script.toList ∧
        statementsOf script = ((parts.map trimmed).filter (· ≠ [])).map String.ofList ∧
        (∀ statement ∈ statementsOf script, statementsOf statement = [statement]) ∧
        statementsOf (";".intercalate (statementsOf script)) = statementsOf script := by
  have hblank : ∀ q ∈ scriptQuotes, isBlank q = false := by simp [scriptQuotes, isBlank]
  have hcut : CutInto ';' scriptQuotes script.toList (scriptPieces script.toList) :=
    cutInto_iff.2 rfl
  refine ⟨scriptPieces script.toList, fun other => cutInto_iff, ?_, rfl, ?_, ?_⟩
  · rw [← joined_eq_intercalate]
    exact joined_pieces ';' scriptQuotes none script.toList
  · intro statement hstatement
    obtain ⟨kept, hkept, rfl⟩ := List.mem_map.1 hstatement
    obtain ⟨hne, part, hpart, rfl⟩ := exists_of_mem_keptParts hkept
    have huncut := uncut_trimmed hblank (hcut.uncut part hpart)
    have hself : keptParts [trimmed part] = [trimmed part] :=
      keptParts_of_trimmed (by simpa using ⟨trimmed_trimmed part, hne⟩)
    rw [statementsOf_eq, String.toList_ofList, scriptPieces, huncut.pieces_eq, hself]
    rfl
  · have hback : String.toList ∘ String.ofList = id := funext fun cs => String.toList_ofList
    have hjoined : (";".intercalate (statementsOf script)).toList =
        joined ';' (keptParts (scriptPieces script.toList)) := by
      rw [String.toList_intercalate, statementsOf_eq, List.map_map, hback, List.map_id,
        joined_eq_intercalate]
      rfl
    rw [statementsOf_eq, hjoined, statementsOf_eq]
    rcases cutInto_keptParts hblank hcut with hnone | hkept
    · rw [hnone]
      rfl
    · rw [scriptPieces, hkept.pieces_eq, keptParts_keptParts]

end Schemaless.Sql
