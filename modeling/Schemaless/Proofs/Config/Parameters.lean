import Schemaless.Config.Parameters
import Schemaless.Proofs.Entries

/-!
# The last parameter of a name counts

Whether a parameter is accepted depends on itself alone (`applyParameter_of_accepted`,
`applyParameter_of_not_accepted`), so one that is not is a fault wherever it stands
(`applyParameters_of_refused`). A parameter sets one part of a configuration and leaves the others, so
each part is what was given last under the name that sets it (`SetBy.last`). Parameters that agree on what
was given last under each name therefore make one configuration (`appliedAll_congr`), in particular those
that are left when only the last of each name is kept, in any order (`lookup_lastOccurrences`).
-/

namespace Schemaless.Config

variable {c c' : Config} {ps qs : List (String × String)} {name value text table : String} {bound : Nat}

/-! ## Numbers -/

/-- Digits of a number below a bound. -/
def DigitsBelow (bound : Nat) (digits : List Char) : Prop :=
  digits ≠ [] ∧ (∀ d ∈ digits, d.isDigit = true) ∧ ofDigits digits < bound

/-- A number below a bound, with a plus in front or without. -/
def IsNumeral (bound : Nat) (text : String) : Prop :=
  ∃ digits, DigitsBelow bound digits ∧ (text.toList = digits ∨ text.toList = '+' :: digits)

theorem isSome_digits_iff (bound : Nat) (digits : List Char) :
    (if digits.isEmpty || !digits.all Char.isDigit then none
      else if ofDigits digits < bound then some (ofDigits digits) else none).isSome = true ↔
      DigitsBelow bound digits := by
  unfold DigitsBelow
  split
  · next hform =>
    refine ⟨fun h => absurd h Bool.false_ne_true, fun h => ?_⟩
    simp only [Bool.or_eq_true, List.isEmpty_iff, Bool.not_eq_true', List.all_eq_false] at hform
    obtain hnone | ⟨d, hd, hdigit⟩ := hform
    · exact absurd hnone h.1
    · exact absurd (h.2.1 d hd) hdigit
  · next hform =>
    simp only [Bool.or_eq_true, List.isEmpty_iff, Bool.not_eq_true', not_or, Bool.not_eq_false,
      List.all_eq_true] at hform
    split
    · next hlt => exact ⟨fun _ => ⟨hform.1, hform.2, hlt⟩, fun _ => rfl⟩
    · next hlt => exact ⟨fun h => absurd h Bool.false_ne_true, fun h => absurd h.2.2 hlt⟩

theorem isSome_number?_iff : (number? bound text).isSome = true ↔ IsNumeral bound text := by
  unfold number? IsNumeral
  split
  · next r hplus =>
    rw [isSome_digits_iff]
    refine ⟨fun h => ⟨r, h, .inr hplus⟩, ?_⟩
    rintro ⟨digits, h, heq | heq⟩
    · -- a plus is no digit
      have hdigit := h.2.1 '+' (by rw [← heq, hplus]; exact List.mem_cons_self)
      cases hdigit
    · rw [hplus] at heq
      cases heq
      exact h
  · next hplain =>
    rw [isSome_digits_iff]
    refine ⟨fun h => ⟨text.toList, h, .inl rfl⟩, ?_⟩
    rintro ⟨digits, h, heq | heq⟩
    · rwa [heq]
    · exact absurd heq (hplain digits)

instance : Decidable (IsNumeral bound text) := decidable_of_iff _ isSome_number?_iff

/-! ## One parameter -/

/-- The parameters that are numbers, and their bounds. -/
def numericParameters : List (String × Nat) :=
  [("port", portBound), ("timeoutSec", countBound), ("maxPoolSize", countBound),
   ("maxSampledDocuments", countBound)]

/-- What may be given under a name: a number if the name asks for one, and anything under other names. -/
def Accepted (name value : String) : Prop :=
  ∀ bound, (name, bound) ∈ numericParameters → IsNumeral bound value

instance : Decidable (Accepted name value) :=
  decidable_of_iff (∀ e ∈ numericParameters, e.1 = name → IsNumeral e.2 value)
    ⟨fun h bound hmem => h (name, bound) hmem rfl, fun h e hmem hname => h e.2 (hname ▸ hmem)⟩

/-- The configuration after a parameter that is accepted. -/
def applied (c : Config) (name value : String) : Config where
  host := if name = "host" then value else c.host
  port := if name = "port" then (number? portBound value).getD 0 else c.port
  database := if name = "dbname" then value else c.database
  timeout := if name = "timeoutSec" then number? countBound value else c.timeout
  credentials := if name = "credentials" then some value else c.credentials
  keyColumn := if name = "keyColumn" then value else c.keyColumn
  tables := ((tableOf? name).map fun table => c.tables.insert table ⟨some value⟩).getD c.tables
  maxPoolSize := if name = "maxPoolSize" then (number? countBound value).getD 0 else c.maxPoolSize
  maxSampled := if name = "maxSampledDocuments" then (number? countBound value).getD 0 else c.maxSampled

theorem map_numeric {set : Nat → Config} (hset : ∀ n, number? bound value = some n → set n = c') :
    (numeric bound name value).map set =
      if (number? bound value).isSome then .ok c' else .error (.badParameter name value) := by
  unfold numeric
  split
  · next n hn =>
    rw [hn, ← hset n hn]
    rfl
  · next hn =>
    rw [hn]
    rfl

theorem applyParameter_numeric (hnumeric : (name, bound) ∈ numericParameters) (c : Config)
    (value : String) :
    applyParameter c name value =
      if (number? bound value).isSome then .ok (c.applied name value)
      else .error (.badParameter name value) := by
  simp only [numericParameters, List.mem_cons, List.not_mem_nil, or_false, Prod.mk.injEq] at hnumeric
  obtain ⟨rfl, rfl⟩ | ⟨rfl, rfl⟩ | ⟨rfl, rfl⟩ | ⟨rfl, rfl⟩ := hnumeric
  all_goals
    refine map_numeric fun n hn => ?_
    rw [applied, hn]
    rfl

theorem applyParameter_other (hother : ∀ bound, (name, bound) ∉ numericParameters) (c : Config)
    (value : String) : applyParameter c name value = .ok (c.applied name value) := by
  unfold applyParameter
  split
  case h_2 => exact absurd (by simp [numericParameters]) (hother portBound)
  case h_4 | h_7 | h_8 => exact absurd (by simp [numericParameters]) (hother countBound)
  case h_9 hhost hport hdatabase htimeout hcredentials hkey hpool hsampled =>
    rw [applied, if_neg hhost, if_neg hport, if_neg hdatabase, if_neg htimeout, if_neg hcredentials,
      if_neg hkey, if_neg hpool, if_neg hsampled]
    cases tableOf? name <;> rfl
  all_goals rfl

theorem applyParameter_of_accepted (h : Accepted name value) (c : Config) :
    applyParameter c name value = .ok (c.applied name value) := by
  by_cases hnumeric : ∃ bound, (name, bound) ∈ numericParameters
  · obtain ⟨bound, hmem⟩ := hnumeric
    rw [applyParameter_numeric hmem, if_pos (isSome_number?_iff.2 (h bound hmem))]
  · exact applyParameter_other (not_exists.1 hnumeric) c value

theorem applyParameter_of_not_accepted (h : ¬Accepted name value) (c : Config) :
    applyParameter c name value = .error (.badParameter name value) := by
  simp only [Accepted, not_forall] at h
  obtain ⟨bound, hmem, hnot⟩ := h
  rw [applyParameter_numeric hmem, if_neg (fun hsome => hnot (isSome_number?_iff.1 hsome))]

/-! ## The parameter of a table -/

theorem tableOf?_eq_some_iff : tableOf? name = some table ↔ table ≠ "" ∧ name = table ++ tableKeySuffix := by
  have hname : name = table ++ tableKeySuffix ↔ table.toList ++ tableKeySuffix.toList = name.toList := by
    rw [← String.toList_inj, String.toList_append, eq_comm]
  rw [hname, tableOf?]
  constructor
  · intro h
    split at h
    · next hsplit =>
      cases h
      rw [String.toList_ofList]
      refine ⟨fun hempty => hsplit.1 ?_, hsplit.2⟩
      have hnone := congrArg String.toList hempty
      rwa [String.toList_ofList] at hnone
    · cases h
  · rintro ⟨htable, hsplit⟩
    have htake : name.toList.take (name.toList.length - tableKeySuffix.toList.length) = table.toList := by
      rw [← hsplit, List.length_append, Nat.add_sub_cancel, List.take_left]
    rw [htake, if_pos ⟨fun h => htable (String.toList_eq_nil_iff.1 h), hsplit⟩, String.ofList_toList]

theorem get?_tables_applied (c : Config) (name value table : String) :
    (c.applied name value).tables.get? table =
      if table ≠ "" ∧ name = table ++ tableKeySuffix then some ⟨some value⟩ else c.tables.get? table := by
  have htables : (c.applied name value).tables =
      ((tableOf? name).map fun other => c.tables.insert other ⟨some value⟩).getD c.tables := rfl
  rw [htables]
  simp only [← tableOf?_eq_some_iff]
  cases tableOf? name with
  | none => rfl
  | some other => simp [SortedMap.get?_insert, eq_comm]

/-! ## All parameters -/

/-- The configuration after parameters that are all accepted. -/
def appliedAll (c : Config) (ps : List (String × String)) : Config :=
  ps.foldl (fun c p => c.applied p.1 (Text.trim p.2)) c

theorem applyParameters_of_accepted (h : ∀ p ∈ ps, Accepted p.1 (Text.trim p.2)) (c : Config) :
    applyParameters c ps = .ok (c.appliedAll ps) := by
  induction ps generalizing c with
  | nil => rfl
  | cons p rest ih =>
    obtain ⟨hp, hrest⟩ := List.forall_mem_cons.1 h
    rw [applyParameters, applyParameter_of_accepted hp]
    exact ih hrest (c.applied p.1 (Text.trim p.2))

/-- The first parameter that is not accepted is the fault. -/
theorem applyParameters_of_refused (h : ∃ p ∈ ps, ¬Accepted p.1 (Text.trim p.2)) (c : Config) :
    ∃ before p after, ps = before ++ p :: after ∧ (∀ q ∈ before, Accepted q.1 (Text.trim q.2)) ∧
      ¬Accepted p.1 (Text.trim p.2) ∧
      applyParameters c ps = .error (.badParameter p.1 (Text.trim p.2)) := by
  induction ps generalizing c with
  | nil =>
    obtain ⟨p, hp, -⟩ := h
    cases hp
  | cons p rest ih =>
    by_cases hp : Accepted p.1 (Text.trim p.2)
    · have hrest : ∃ q ∈ rest, ¬Accepted q.1 (Text.trim q.2) := by
        simpa [hp] using h
      obtain ⟨before, q, after, hsplit, hbefore, hq, hfault⟩ := ih hrest (c.applied p.1 (Text.trim p.2))
      refine ⟨p :: before, q, after, congrArg (p :: ·) hsplit, ?_, hq, ?_⟩
      · exact List.forall_mem_cons.2 ⟨hp, hbefore⟩
      · rw [applyParameters, applyParameter_of_accepted hp]
        exact hfault
    · refine ⟨[], p, rest, rfl, by simp, hp, ?_⟩
      rw [applyParameters, applyParameter_of_not_accepted hp]

/-! ## What was given last -/

/-- The value that was given last under a name, trimmed. -/
def lastGiven (ps : List (String × String)) (name : String) : Option String :=
  (ps.reverse.lookup name).map Text.trim

theorem lastGiven_cons (p : String × String) (ps : List (String × String)) (name : String) :
    lastGiven (p :: ps) name =
      (lastGiven ps name).or (if name = p.1 then some (Text.trim p.2) else none) := by
  rw [lastGiven, lookup_reverse_cons, Option.map_or, lastGiven]
  split <;> rfl

/-- A part of a configuration that parameters of one name set, and no others. -/
def SetBy {β : Type} (name : String) (part : Config → β) (read : String → β) : Prop :=
  ∀ c other value, part (applied c other value) = if other = name then read value else part c

theorem SetBy.last {β : Type} {part : Config → β} {read : String → β} (h : SetBy name part read)
    (c : Config) (ps : List (String × String)) :
    part (c.appliedAll ps) = ((lastGiven ps name).map read).getD (part c) := by
  induction ps generalizing c with
  | nil => rfl
  | cons p rest ih =>
    have hstep : part (c.appliedAll (p :: rest)) =
        ((lastGiven rest name).map read).getD (part (c.applied p.1 (Text.trim p.2))) :=
      ih (c.applied p.1 (Text.trim p.2))
    rw [hstep, h, lastGiven_cons]
    cases lastGiven rest name with
    | some v => rfl
    | none =>
      by_cases hname : p.1 = name
      · simp [hname]
      · rw [if_neg hname, if_neg (Ne.symm hname)]
        rfl

theorem setBy_keyColumn : SetBy "keyColumn" Config.keyColumn id := fun _ _ _ => rfl

theorem setBy_tables (htable : table ≠ "") :
    SetBy (table ++ tableKeySuffix) (fun c => c.tables.get? table) fun value => some ⟨some value⟩ := by
  intro c other value
  simp [get?_tables_applied, htable]

/-- No parameter names a table without a name. -/
theorem get?_tables_appliedAll_empty (c : Config) (ps : List (String × String)) :
    (c.appliedAll ps).tables.get? "" = c.tables.get? "" := by
  induction ps generalizing c with
  | nil => rfl
  | cons p rest ih =>
    have hstep : (c.appliedAll (p :: rest)).tables.get? "" =
        (c.applied p.1 (Text.trim p.2)).tables.get? "" := ih (c.applied p.1 (Text.trim p.2))
    rw [hstep, get?_tables_applied, if_neg (fun h => h.1 rfl)]

attribute [ext] Config

/-- Only what was given last under each name matters. -/
theorem appliedAll_congr (c : Config) (hlast : ∀ name, lastGiven ps name = lastGiven qs name) :
    c.appliedAll ps = c.appliedAll qs := by
  have agree {β : Type} {name : String} {part : Config → β} {read : String → β}
      (h : SetBy name part read) : part (c.appliedAll ps) = part (c.appliedAll qs) := by
    rw [h.last, h.last, hlast]
  have htables (table : String) :
      (c.appliedAll ps).tables.get? table = (c.appliedAll qs).tables.get? table := by
    by_cases htable : table = ""
    · rw [htable, get?_tables_appliedAll_empty, get?_tables_appliedAll_empty]
    · exact agree (setBy_tables htable)
  apply Config.ext
  case host => exact agree (fun _ _ _ => rfl : SetBy "host" Config.host id)
  case port =>
    exact agree (fun _ _ _ => rfl : SetBy "port" Config.port fun v => (number? portBound v).getD 0)
  case database => exact agree (fun _ _ _ => rfl : SetBy "dbname" Config.database id)
  case timeout =>
    exact agree (fun _ _ _ => rfl : SetBy "timeoutSec" Config.timeout (number? countBound))
  case credentials => exact agree (fun _ _ _ => rfl : SetBy "credentials" Config.credentials some)
  case keyColumn => exact agree setBy_keyColumn
  case tables => exact SortedMap.ext_get? htables
  case maxPoolSize =>
    exact agree
      (fun _ _ _ => rfl : SetBy "maxPoolSize" Config.maxPoolSize fun v => (number? countBound v).getD 0)
  case maxSampled =>
    exact agree (fun _ _ _ => rfl :
      SetBy "maxSampledDocuments" Config.maxSampled fun v => (number? countBound v).getD 0)

/-- The key column of a table is the one given last for it, else the one given last for all tables, else
the native key; one that is empty is none. -/
theorem keyOf_appliedAll (ps : List (String × String)) (htable : table ≠ "") :
    (appliedAll {} ps).keyOf table =
      ((lastGiven ps (table ++ tableKeySuffix)).filter (· ≠ "")).getD
        (((lastGiven ps "keyColumn").filter (· ≠ "")).getD nativeKey) := by
  have hown : (appliedAll {} ps).tableKey? table =
      (lastGiven ps (table ++ tableKeySuffix)).filter (· ≠ "") := by
    rw [tableKey?, (setBy_tables htable).last]
    cases lastGiven ps (table ++ tableKeySuffix) <;> rfl
  have hall : (if (appliedAll {} ps).keyColumn = "" then nativeKey else (appliedAll {} ps).keyColumn) =
      ((lastGiven ps "keyColumn").filter (· ≠ "")).getD nativeKey := by
    rw [setBy_keyColumn.last]
    cases lastGiven ps "keyColumn" with
    | none => rfl
    | some column => by_cases hcolumn : column = "" <;> simp [Option.filter, hcolumn]
  rw [keyOf, hown, hall]

/-! ## The last of each name -/

/-- The last parameter of each name. -/
def lastOccurrences : List (String × String) → List (String × String)
  | [] => []
  | p :: rest =>
    if rest.any (fun q => q.1 == p.1) then lastOccurrences rest else p :: lastOccurrences rest

theorem lastOccurrences_sublist (ps : List (String × String)) : (lastOccurrences ps).Sublist ps := by
  induction ps with
  | nil => exact List.Sublist.slnil
  | cons p rest ih =>
    rw [lastOccurrences]
    split
    · exact ih.cons p
    · exact ih.cons_cons p

theorem nodup_lastOccurrences (ps : List (String × String)) :
    ((lastOccurrences ps).map fun p => p.1).Nodup := by
  induction ps with
  | nil => exact List.nodup_nil
  | cons p rest ih =>
    rw [lastOccurrences]
    split
    · exact ih
    · next hlast =>
      refine List.nodup_cons.2 ⟨fun hmem => hlast ?_, ih⟩
      obtain ⟨q, hq, hname⟩ := List.mem_map.1 hmem
      exact List.any_eq_true.2 ⟨q, (lastOccurrences_sublist rest).subset hq, beq_iff_eq.2 hname⟩

theorem lookup_lastOccurrences (ps : List (String × String)) (name : String) :
    (lastOccurrences ps).lookup name = ps.reverse.lookup name := by
  induction ps with
  | nil => rfl
  | cons p rest ih =>
    have hnone : (lastOccurrences rest).lookup name = none ↔ ∀ q ∈ rest, q.1 ≠ name := by
      simp [ih, List.lookup_eq_none_iff, ne_comm]
    rw [lastOccurrences, lookup_reverse_cons, ← ih]
    split
    · next hlater =>
      obtain ⟨q, hq, hsame⟩ := List.any_eq_true.1 hlater
      cases hfirst : (lastOccurrences rest).lookup name with
      | some v => rfl
      | none =>
        have hother : ¬name = p.1 := fun heq =>
          hnone.1 hfirst q hq ((beq_iff_eq.1 hsame).trans heq.symm)
        rw [if_neg hother]
        rfl
    · next hlater =>
      have hcons : List.lookup name (p :: lastOccurrences rest) =
          if name = p.1 then some p.2 else (lastOccurrences rest).lookup name :=
        lookup_entry_cons name p.1 p.2 (lastOccurrences rest)
      rw [hcons]
      split
      · next heq =>
        have hfirst : (lastOccurrences rest).lookup name = none := hnone.2 fun q hq hsame =>
          hlater (List.any_eq_true.2 ⟨q, hq, beq_iff_eq.2 (hsame.trans heq)⟩)
        rw [hfirst]
        rfl
      · rw [Option.or_none]

theorem lastGiven_of_perm (h : qs.Perm (lastOccurrences ps)) (name : String) :
    lastGiven qs name = lastGiven ps name := by
  have hperm : (lastOccurrences ps).Perm qs.reverse := h.symm.trans (List.reverse_perm qs).symm
  rw [lastGiven, lookup_perm (nodup_lastOccurrences ps) hperm, lookup_lastOccurrences, lastGiven]

/-- Parameters whose numbers are all numbers make the configuration that the last of each name makes, in
any order, and its key columns are those given last; others are a fault, even if a later parameter has the
name of the one at fault. -/
theorem last_parameters_count (ps : List (String × String)) :
    ((∀ p ∈ ps, Accepted p.1 (Text.trim p.2)) →
      ∃ c, ofParameters ps = .ok c ∧
        (∀ qs, qs.Perm (lastOccurrences ps) → ofParameters qs = .ok c) ∧
        ∀ table, table ≠ "" →
          c.keyOf table =
            ((lastGiven ps (table ++ tableKeySuffix)).filter (· ≠ "")).getD
              (((lastGiven ps "keyColumn").filter (· ≠ "")).getD nativeKey)) ∧
    ((∃ p ∈ ps, ¬Accepted p.1 (Text.trim p.2)) →
      ∃ before p after, ps = before ++ p :: after ∧ (∀ q ∈ before, Accepted q.1 (Text.trim q.2)) ∧
        ¬Accepted p.1 (Text.trim p.2) ∧
        ofParameters ps = .error (.badParameter p.1 (Text.trim p.2))) := by
  constructor
  · intro haccepted
    refine ⟨appliedAll {} ps, applyParameters_of_accepted haccepted {}, ?_, ?_⟩
    · intro qs hperm
      have hqs : ∀ q ∈ qs, Accepted q.1 (Text.trim q.2) := fun q hq =>
        haccepted q ((lastOccurrences_sublist ps).subset (hperm.subset hq))
      rw [ofParameters, applyParameters_of_accepted hqs, appliedAll_congr {} (lastGiven_of_perm hperm)]
    · intro table htable
      exact keyOf_appliedAll ps htable
  · intro hrefused
    exact applyParameters_of_refused hrefused {}

/-- A table's name may have dots and the ending of a parameter, a blank key column is none, and a fault is
none the less one where it is overridden. -/
theorem last_parameters_count_of_dotted_table :
    (∃ c,
      ofParameters [("a.keyColumn.keyColumn", "x"), ("port", "+80"), ("keyColumn", " id "),
        ("a.keyColumn.keyColumn", " "), ("port", "81")] = .ok c ∧
      ofParameters [("port", "81"), ("a.keyColumn.keyColumn", " "), ("keyColumn", " id ")] = .ok c ∧
      c.keyOf "a.keyColumn" = "id") ∧
    ofParameters [("port", "80"), ("port", "-1"), ("port", "81")] = .error (.badParameter "port" "-1") := by
  constructor
  · obtain ⟨c, hc, horder, hkey⟩ := (last_parameters_count
      [("a.keyColumn.keyColumn", "x"), ("port", "+80"), ("keyColumn", " id "),
        ("a.keyColumn.keyColumn", " "), ("port", "81")]).1 (by decide)
    exact ⟨c, hc, horder _ (by decide), hkey "a.keyColumn" (by decide)⟩
  · obtain ⟨before, p, after, hsplit, -, hp, hfault⟩ := (last_parameters_count
      [("port", "80"), ("port", "-1"), ("port", "81")]).2 (by decide)
    have honly : ∀ q ∈ [("port", "80"), ("port", "-1"), ("port", "81")],
        ¬Accepted q.1 (Text.trim q.2) → q = ("port", "-1") := by decide
    have hmem : p ∈ [("port", "80"), ("port", "-1"), ("port", "81")] := by
      rw [hsplit]
      exact List.mem_append_right before List.mem_cons_self
    rw [hfault, honly p hmem hp]
    rfl

end Schemaless.Config
