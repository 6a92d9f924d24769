import Schemaless.Proofs.Binding.Layout
import Schemaless.Proofs.Client.Membership

/-!
# Lists of literals and placeholders

A list in which literals and placeholders are mixed is read without a fault and bound as one text. With
two placeholders or more their parameters are the list, and the literals are dropped. With one, a
parameter that is no text is the list, and a text goes where the placeholder stands, in a text that is cut
at its commas afterwards: then each item is a text, and every quote of a literal is still there. So the
list is never the one that was written (`mixed_list_loses_items`).
-/

namespace Schemaless

open Sql Grammar Binding

/-! ## Items -/

/-- An item of a list: the text that it is written back as, and its value if it is a literal. -/
structure MixedItem where
  operand : String
  value : Option Value

/-- The tokens of an item: a placeholder, a text without question mark, or another literal. -/
inductive MixedItem.Phrase : List Token → MixedItem → Prop
  | parameter : Phrase [.mark .placeholder] ⟨"?", none⟩
  | text (s : String) : '?' ∉ s.toList → Phrase [.text s] ⟨quotedText s, some (.str s)⟩
  | other {us : List Token} {operand : String} {v : Value} : Operand us operand →
      '?' ∉ operand.toList → Literal.value operand.toList = .ok v → (∀ s, v ≠ .str s) →
        Phrase us ⟨operand, some v⟩

/-- The values that are written: that of each literal, and one parameter after the other. -/
inductive Fills : List MixedItem → List Value → List Value → Prop
  | nil : Fills [] [] []
  | parameter {operand : String} {items : List MixedItem} {ps vs : List Value} (p : Value) :
      Fills items ps vs → Fills (⟨operand, none⟩ :: items) (p :: ps) (p :: vs)
  | literal {operand : String} {items : List MixedItem} {ps vs : List Value} (v : Value) :
      Fills items ps vs → Fills (⟨operand, some v⟩ :: items) ps (v :: vs)

/-- The text of a list. -/
def mixedText (items : List MixedItem) : String :=
  String.intercalate ", " (items.map MixedItem.operand)

/-- The value of a text with placeholders in a membership condition. -/
def takenValue (text : String) : List Value → Value
  | [p] => filled text p
  | ps => .arr ps

section

variable {us : List Token} {items : List MixedItem} {ps vs : List Value}

theorem Fills.length_le (h : Fills items ps vs) : ps.length ≤ vs.length := by
  induction h with
  | nil => exact Nat.le_refl 0
  | parameter p _ ih => exact Nat.succ_le_succ ih
  | literal v _ ih => exact Nat.le_succ_of_le ih

theorem Fills.length_lt (h : Fills items ps vs) (hliteral : ∃ item ∈ items, item.value ≠ none) :
    ps.length < vs.length := by
  induction h with
  | nil => simp at hliteral
  | parameter p _ ih => exact Nat.succ_lt_succ (ih (by simpa using hliteral))
  | literal v h _ => exact Nat.lt_succ_of_le h.length_le

theorem Fills.ne_nil (h : Fills items ps vs) (hparameter : ∃ item ∈ items, item.value = none) :
    ps ≠ [] := by
  induction h with
  | nil => simp at hparameter
  | parameter p _ _ => exact List.cons_ne_nil _ _
  | literal v _ ih => exact ih (by simpa using hparameter)

theorem Fills.mem (h : Fills items ps vs) {p : Value} (hp : p ∈ ps) : p ∈ vs := by
  induction h with
  | nil => exact hp
  | parameter q _ ih =>
    rcases List.mem_cons.1 hp with rfl | hp
    · exact List.mem_cons_self
    · exact List.mem_cons_of_mem _ (ih hp)
  | literal v _ ih => exact List.mem_cons_of_mem v (ih hp)

theorem Fills.literal_mem (h : Fills items ps vs) {item : MixedItem} (hitem : item ∈ items)
    {v : Value} (hv : item.value = some v) : v ∈ vs := by
  induction h with
  | nil => cases hitem
  | parameter q _ ih =>
    rcases List.mem_cons.1 hitem with rfl | hitem
    · cases hv
    · exact List.mem_cons_of_mem q (ih hitem)
  | literal w _ ih =>
    rcases List.mem_cons.1 hitem with rfl | hitem
    · cases hv
      exact List.mem_cons_self
    · exact List.mem_cons_of_mem w (ih hitem)

theorem listed_operand (h : Listed MixedItem.Phrase us items) :
    Listed Operand us (items.map MixedItem.operand) := by
  have hone {us : List Token} {item : MixedItem} (h : item.Phrase us) : Operand us item.operand := by
    cases h with
    | parameter => exact .placeholder
    | text s _ => exact .text s
    | other hoperand _ _ _ => exact hoperand
  induction h with
  | one hitem => exact .one (hone hitem)
  | more hitem _ ih => exact .more (hone hitem) ih

theorem phrase_of_mem (h : Listed MixedItem.Phrase us items) :
    ∀ item ∈ items, ∃ us, item.Phrase us := by
  induction h with
  | one hitem =>
    intro item hmem
    obtain rfl := List.mem_singleton.1 hmem
    exact ⟨_, hitem⟩
  | more hitem _ ih =>
    intro item hmem
    rcases List.mem_cons.1 hmem with rfl | hmem
    · exact ⟨_, hitem⟩
    · exact ih item hmem

/-! ## What is bound -/

/-- The text has a question mark for each parameter. -/
theorem placeholderCount_mixedText (hphrase : ∀ item ∈ items, ∃ us, item.Phrase us)
    (h : Fills items ps vs) : placeholderCount (mixedText items) = ps.length := by
  rw [mixedText, placeholderCount_intercalate (by decide)]
  induction h with
  | nil => rfl
  | parameter p _ ih =>
    obtain ⟨⟨_, hfirst⟩, hrest⟩ := List.forall_mem_cons.1 hphrase
    cases hfirst
    have hone : placeholderCount "?" = 1 := by decide +kernel
    rw [List.map_cons, placeholders, hone, ih hrest, List.length_cons, Nat.add_comm]
  | @literal operand _ _ _ v _ ih =>
    obtain ⟨⟨_, hfirst⟩, hrest⟩ := List.forall_mem_cons.1 hphrase
    have hnone : placeholderCount operand = 0 := by
      cases hfirst with
      | text s hmark =>
        rw [placeholderCount_quotedText]
        exact placeholderCount_eq_zero.2 hmark
      | other _ hmark _ _ => exact placeholderCount_eq_zero.2 hmark
    rw [List.map_cons, placeholders, hnone, ih hrest, Nat.zero_add]

theorem yields_takenValue {text : String} (hcount : placeholderCount text = ps.length)
    (hne : ps ≠ []) : Yields (bindExpression true text) ps (takenValue text ps) := by
  match ps with
  | [] => exact absurd rfl hne
  | [p] =>
    unfold bindExpression
    rw [hcount]
    exact (yields_next p).bind (f := fun v => pure (filled text v)) (yields_pure _)
  | p :: q :: rest =>
    have htake := (yields_take (p :: q :: rest)).bind (f := fun vs => pure (Value.arr vs)) (yields_pure _)
    rw [List.append_nil] at htake
    unfold bindExpression
    rw [hcount]
    exact htake

/-! ## Quotes

A text that takes the place of the placeholder leaves the quotes of the literals where they are. So the
items that come out have more quotes in them than those that were written. -/

/-- The characters of a text; other values have none. -/
def Value.characters : Value → List Char
  | .str s => s.toList
  | _ => []

/-- The single quotes in the texts among some values. -/
def quotesIn (vs : List Value) : Nat := (vs.flatMap Value.characters).count '\''

@[simp] theorem quotesIn_nil : quotesIn [] = 0 := rfl

@[simp] theorem quotesIn_cons (v : Value) (vs : List Value) :
    quotesIn (v :: vs) = v.characters.count '\'' + quotesIn vs := by
  rw [quotesIn, List.flatMap_cons, List.count_append, quotesIn]

/-- A text keeps its quotes when it is cut at its commas. -/
theorem quotesIn_asList (s : String) : quotesIn (Operator.asList (.str s)) = s.toList.count '\'' := by
  have hparts (parts : List (List Char)) :
      quotesIn (parts.map fun part => .str (String.ofList (Text.trimmed part))) =
        parts.flatten.count '\'' := by
    induction parts with
    | nil => rfl
    | cons part parts ih =>
      have hpart : (Value.str (String.ofList (Text.trimmed part))).characters = Text.trimmed part :=
        String.toList_ofList
      rw [List.map_cons, quotesIn_cons, ih, hpart, Text.count_trimmed (by decide), List.flatten_cons,
        List.count_append]
  rw [Operator.asList, hparts, Text.count_pieces (by decide)]

theorem count_quotedText (s : String) :
    (quotedText s).toList.count '\'' = 2 + 2 * s.toList.count '\'' := by
  rw [← singleQuoted_eq, Text.singleQuoted, String.toList_ofList, List.count_cons, List.count_append,
    Text.count_doubled]
  simp
  omega

/-- In texts as they are written every quote stands twice, and two are around each of them. -/
theorem Fills.quotes (hphrase : ∀ item ∈ items, ∃ us, item.Phrase us) (h : Fills items ps vs)
    (htexts : ∀ item ∈ items, ∀ v, item.value = some v → ∃ s, v = .str s) :
    (mixedText items).toList.count '\'' + 2 * ps.length + 2 * quotesIn ps =
      2 * vs.length + 2 * quotesIn vs := by
  have hcount : (mixedText items).toList.count '\'' =
      (items.flatMap fun item => item.operand.toList).count '\'' := by
    rw [mixedText, String.toList_intercalate, Text.count_intercalate (by decide +kernel), List.map_map,
      List.flatMap_def]
    rfl
  rw [hcount]
  clear hcount
  induction h with
  | nil => rfl
  | parameter p _ ih =>
    obtain ⟨⟨_, hfirst⟩, hrest⟩ := List.forall_mem_cons.1 hphrase
    cases hfirst
    have hnone : "?".toList.count '\'' = 0 := by decide +kernel
    have hsum := ih hrest (List.forall_mem_cons.1 htexts).2
    simp only [List.flatMap_cons, List.count_append, quotesIn_cons, List.length_cons, hnone]
    omega
  | literal v _ ih =>
    obtain ⟨⟨_, hfirst⟩, hrest⟩ := List.forall_mem_cons.1 hphrase
    obtain ⟨hv, hothers⟩ := List.forall_mem_cons.1 htexts
    obtain ⟨s, rfl⟩ := hv v rfl
    have hsum := ih hrest hothers
    cases hfirst with
    | other _ _ _ hno => exact absurd rfl (hno s)
    | text s _ =>
      simp only [List.flatMap_cons, List.count_append, quotesIn_cons, List.length_cons,
        count_quotedText, Value.characters]
      omega

theorem count_substituted {c : Char} {inserted cs : List Char} (hc : c ≠ '?') (h : '?' ∈ cs) :
    (substituted inserted cs).count c = inserted.count c + cs.count c := by
  induction cs with
  | nil => cases h
  | cons d r ih =>
    rw [substituted]
    split
    · next hd => rw [List.count_append, List.count_cons_of_ne (by rw [hd]; exact hc.symm)]
    · next hd =>
      have hr : '?' ∈ r := (List.mem_cons.1 h).resolve_left fun heq => hd heq.symm
      rw [List.count_cons, List.count_cons, ih hr, Nat.add_assoc]

theorem template_cases (text : String) :
    template text = Text.trimmed text.toList ∨
      ∃ inner, Text.trimmed text.toList = '\'' :: (inner ++ ['\'']) ∧
        template text = Text.collapsed '\'' inner := by
  have htemplate : template text =
      (Text.unquoted (Text.trimmed text.toList)).getD (Text.trimmed text.toList) := rfl
  rw [htemplate]
  cases hunquoted : Text.unquoted (Text.trimmed text.toList) with
  | none => exact .inl rfl
  | some w =>
    obtain ⟨inner, htrimmed, rfl⟩ := Text.unquoted_eq_some hunquoted
    exact .inr ⟨inner, htrimmed, rfl⟩

theorem mem_template {text : String} (h : '?' ∈ text.toList) : '?' ∈ template text := by
  have htrimmed : '?' ∈ Text.trimmed text.toList := by
    rw [← List.count_pos_iff, Text.count_trimmed (by decide)]
    exact List.count_pos_iff.2 h
  rcases template_cases text with htemplate | ⟨inner, hquoted, htemplate⟩ <;> rw [htemplate]
  · exact htrimmed
  · rw [hquoted] at htrimmed
    rw [← List.count_pos_iff, Text.count_collapsed_of_ne (by decide)]
    exact List.count_pos_iff.2 (by simpa using htrimmed)

theorem template_of_ends {text : String} {first last : Char} {middle : List Char}
    (htext : text.toList = first :: (middle ++ [last])) (hfirst : Text.isBlank first = false)
    (hlast : Text.isBlank last = false) (hne : first ≠ '\'' ∨ last ≠ '\'') :
    template text = Text.trimmed text.toList := by
  have htrimmed : Text.trimmed text.toList = text.toList := by
    refine Text.trimmed_of_ends ?_ ?_ <;> simp [htext, List.getLast?_cons, hfirst, hlast]
  refine (template_cases text).resolve_right ?_
  rintro ⟨inner, hquoted, -⟩
  rw [htrimmed, htext, List.cons.injEq] at hquoted
  obtain ⟨rfl, hback⟩ := hquoted
  obtain ⟨-, hend⟩ := List.append_inj' hback rfl
  exact hne.elim (fun h => h rfl) fun h => h (List.cons.inj hend).1

/-- A literal and a placeholder do not both begin and end with a quote. -/
theorem template_pair (hphrase : ∀ item ∈ items, ∃ us, item.Phrase us)
    (htexts : ∀ item ∈ items, ∀ v, item.value = some v → ∃ s, v = .str s) {p : Value}
    (h : Fills items [p] vs) (htwo : vs.length = 2) :
    template (mixedText items) = Text.trimmed (mixedText items).toList := by
  have hblank : Text.isBlank '?' = false ∧ Text.isBlank '\'' = false := by decide
  have hquoted (s : String) : (quotedText s).toList =
      '\'' :: (Text.doubled '\'' s.toList ++ ['\'']) := by
    simp [← singleQuoted_eq, Text.singleQuoted]
  have hliteral {operand : String} {v : Value} (hitem : ∃ us, MixedItem.Phrase us ⟨operand, some v⟩)
      (hv : ∃ s, v = .str s) : ∃ s, operand = quotedText s := by
    obtain ⟨us, hitem⟩ := hitem
    obtain ⟨s, rfl⟩ := hv
    cases hitem with
    | text s _ => exact ⟨s, rfl⟩
    | other _ _ _ hno => exact absurd rfl (hno s)
  have hparameter {operand : String} (hitem : ∃ us, MixedItem.Phrase us ⟨operand, none⟩) :
      operand = "?" := by
    obtain ⟨us, hitem⟩ := hitem
    cases hitem
    rfl
  cases h with
  | parameter _ hrest =>
    cases hrest with
    | nil => cases htwo
    | literal v hend =>
      cases hend with
      | literal => simp at htwo
      | nil =>
        obtain ⟨hfirst, hsecond⟩ := List.forall_mem_cons.1 hphrase
        obtain ⟨-, hv⟩ := List.forall_mem_cons.1 htexts
        obtain rfl := hparameter hfirst
        obtain ⟨s, rfl⟩ := hliteral (hsecond _ (List.mem_singleton_self _))
          (hv _ (List.mem_singleton_self _) v rfl)
        have htext : (mixedText [⟨"?", none⟩, ⟨quotedText s, some v⟩]).toList =
            '?' :: (',' :: ' ' :: '\'' :: Text.doubled '\'' s.toList ++ ['\'']) := by
          simp [mixedText, hquoted]
        exact template_of_ends htext hblank.1 hblank.2 (.inl (by decide))
  | literal v hrest =>
    cases hrest with
    | literal w hend =>
      have hone : 1 ≤ _ := hend.length_le
      rw [List.length_cons, List.length_cons] at htwo
      omega
    | parameter _ hend =>
      cases hend with
      | literal => simp at htwo
      | nil =>
        obtain ⟨hfirst, hsecond⟩ := List.forall_mem_cons.1 hphrase
        obtain ⟨hv, -⟩ := List.forall_mem_cons.1 htexts
        obtain rfl := hparameter (hsecond _ (List.mem_singleton_self _))
        obtain ⟨s, rfl⟩ := hliteral hfirst (hv v rfl)
        have htext : (mixedText [⟨quotedText s, some v⟩, ⟨"?", none⟩]).toList =
            '\'' :: (Text.doubled '\'' s.toList ++ ['\'', ',', ' '] ++ ['?']) := by
          simp [mixedText, hquoted]
        exact template_of_ends htext hblank.2 hblank.1 (.inr (by decide))

/-- A text in the place of the only placeholder makes another list. -/
theorem asList_filled_ne (hphrase : ∀ item ∈ items, ∃ us, item.Phrase us) {s : String}
    (h : Fills items [.str s] vs) (hliteral : ∃ item ∈ items, item.value ≠ none) :
    Operator.asList (filled (mixedText items) (.str s)) ≠ vs := by
  intro hkept
  have htwo : 2 ≤ vs.length := h.length_lt hliteral
  have htexts : ∀ item ∈ items, ∀ v, item.value = some v → ∃ t, v = .str t := by
    intro item hitem v hv
    have hmem := h.literal_mem hitem hv
    rw [← hkept] at hmem
    obtain ⟨piece, -, rfl⟩ := List.mem_map.1 hmem
    exact ⟨_, rfl⟩
  have hwritten := h.quotes hphrase htexts
  have hmark : '?' ∈ (mixedText items).toList := by
    have hone : (mixedText items).toList.count '?' = 1 := placeholderCount_mixedText hphrase h
    rw [← List.count_pos_iff, hone]
    exact Nat.one_pos
  have hbound := congrArg quotesIn hkept
  have hfilled : filled (mixedText items) (.str s) =
      .str (String.ofList (substituted s.toList (template (mixedText items)))) := rfl
  rw [hfilled, quotesIn_asList, String.toList_ofList, count_substituted (by decide) (mem_template hmark)]
    at hbound
  simp only [quotesIn_cons, quotesIn_nil, Value.characters, List.length_cons, List.length_nil] at hwritten
  have htrim := Text.count_trimmed (c := '\'') (by decide) (mixedText items).toList
  rcases template_cases (mixedText items) with htemplate | ⟨inner, hquoted, htemplate⟩
  · rw [htemplate, htrim] at hbound
    omega
  · -- two quotes may have been taken off, but of a list of three items or more
    have hthree : vs.length ≠ 2 := by
      intro heq
      have hplain := template_pair hphrase htexts h heq
      rw [hplain, htrim] at hbound
      omega
    have hhalf := Text.count_le_collapsed '\'' inner
    rw [hquoted] at htrim
    rw [htemplate] at hbound
    simp at htrim
    omega

theorem asList_takenValue_ne (hphrase : ∀ item ∈ items, ∃ us, item.Phrase us) (h : Fills items ps vs)
    (hparameter : ∃ item ∈ items, item.value = none) (hliteral : ∃ item ∈ items, item.value ≠ none) :
    Operator.asList (takenValue (mixedText items) ps) ≠ vs := by
  have hfewer := h.length_lt hliteral
  have hshorter {list : List Value} (hlist : list.length ≤ ps.length) : list ≠ vs := by
    rintro rfl
    omega
  match ps with
  | [] => exact absurd rfl (h.ne_nil hparameter)
  | p :: q :: rest => exact hshorter (Nat.le_refl _)
  | [p] =>
    cases p with
    | str s => exact asList_filled_ne hphrase h hliteral
    | null | bool _ | num _ | obj _ => exact hshorter (Nat.le_refl 1)
    | arr list =>
      -- the list would be an item of itself
      intro hkept
      have hself : list = vs := hkept
      have hmem : Value.arr list ∈ vs := h.mem List.mem_cons_self
      rw [← hself] at hmem
      have hsmaller := List.sizeOf_lt_of_mem hmem
      simp only [Value.arr.sizeOf_spec] at hsmaller
      omega

end

/-! ## Conditions -/

/-- The tokens of a membership condition: a field, `IN` or `NOT IN`, and a list in parentheses. -/
def membershipTokens (inverse : Bool) (ts us : List Token) : List Token :=
  if inverse then
    ts ++ .keyword .NOT :: .keyword .IN :: .mark .leftParen :: us ++ [.mark .rightParen]
  else ts ++ .keyword .IN :: .mark .leftParen :: us ++ [.mark .rightParen]

/-- No condition with a list of literals and placeholders asks for the list that is written, whatever the
parameters are. It is read without a fault, and takes the parameters of its placeholders. Two parameters
or more are the list. One parameter that is no text is the list, or its only item. One that is a text is
filled into the text of the whole list, and the list has the parts of that, all of them texts. -/
theorem mixed_list_loses_items {ts us : List Token} {field : String} {items : List MixedItem}
    {ps vs : List Value} (hfield : Operand ts field) (hmark : '?' ∉ field.toList)
    (hlist : Listed MixedItem.Phrase us items) (hparameter : ∃ item ∈ items, item.value = none)
    (hliteral : ∃ item ∈ items, item.value ≠ none) (hfills : Fills items ps vs) (inverse : Bool) :
    ∃ condition list, Grammar.Condition (membershipTokens inverse ts us) condition ∧
      Yields (bindCondition condition) ps (Predicate.single (Text.trim field)
        (.obj [((Operator.membership inverse).name, .arr list)])) ∧
      list ≠ vs ∧
      (2 ≤ ps.length → list = ps) ∧
      (∀ p, ps = [p] → (∀ s, p ≠ .str s) → list = Operator.asList p) ∧
      ∀ s, ps = [.str s] → list = Operator.asList (filled (mixedText items) (.str s)) ∧
        ∀ v ∈ list, ∃ part, v = .str part := by
  have hphrase := phrase_of_mem hlist
  have hnone : hasPlaceholder field = false := by
    rw [hasPlaceholder, List.contains_eq_mem]
    exact decide_eq_false hmark
  have hmember : (Operator.membership inverse).isMembership = true := by cases inverse <;> rfl
  have hbuild (v : Value) : (Operator.membership inverse).build v =
      .obj [((Operator.membership inverse).name, .arr (Operator.asList v))] := by
    rw [Operator.build, Operator.operand, if_pos hmember]
  have hyields := yields_takenValue (placeholderCount_mixedText hphrase hfills) (hfills.ne_nil hparameter)
  refine ⟨{ left := field, operator := "IN", right := mixedText items, inverse },
    Operator.asList (takenValue (mixedText items) ps), ?_, ?_,
    asList_takenValue_ne hphrase hfills hparameter hliteral, ?_, ?_, ?_⟩
  · cases inverse with
    | true => exact .notIn hfield (listed_operand hlist)
    | false => exact .isIn hfield (listed_operand hlist)
  · rw [bindCondition_of_resolve hnone (resolve_membership inverse), hmember, ← hbuild]
    exact hyields.map _
  · intro htwo
    rcases ps with _ | ⟨p, _ | ⟨q, rest⟩⟩
    · simp at htwo
    · simp at htwo
    · rfl
  · rintro p rfl hno
    cases p with
    | str s => exact absurd rfl (hno s)
    | null | bool _ | num _ | arr _ | obj _ => rfl
  · rintro s rfl
    refine ⟨rfl, fun v hv => ?_⟩
    obtain ⟨piece, -, rfl⟩ := List.mem_map.1 hv
    exact ⟨_, rfl⟩

/-- With `b` for its placeholder, the list `('a', ?)` has the texts `'a'` and `b`. -/
theorem mixed_list_loses_items_text :
    ∃ condition, Grammar.Condition (membershipTokens false [.identifier "tag"]
        [.text "a", .mark .comma, .mark .placeholder]) condition ∧
      Yields (bindCondition condition) [.str "b"]
        (Predicate.single "tag" (.obj [("$in", .arr [.str "'a'", .str "b"])])) := by
  have hfield : Operand [.identifier "tag"] "tag" := .name (name_identifier "tag")
  have hlist : Listed MixedItem.Phrase ([.text "a"] ++ .mark .comma :: [.mark .placeholder])
      [⟨quotedText "a", some (.str "a")⟩, ⟨"?", none⟩] :=
    .more (.text "a" (by decide)) (.one .parameter)
  have hfills : Fills [⟨quotedText "a", some (.str "a")⟩, ⟨"?", none⟩] [.str "b"]
      [.str "a", .str "b"] := .literal (.str "a") (.parameter (.str "b") .nil)
  obtain ⟨condition, list, hcondition, hyields, -, -, -, htext⟩ := mixed_list_loses_items hfield
    (by decide) hlist ⟨⟨"?", none⟩, by simp, rfl⟩ ⟨_, List.mem_cons_self, by simp⟩ hfills false
  refine ⟨condition, hcondition, ?_⟩
  have hparts : list = [.str "'a'", .str "b"] := (htext "b" rfl).1
  rw [hparts] at hyields
  exact hyields

theorem spells_one : Spells "1".toList [.number "1"] := by
  have hone : "1".toList = ['1'] := by decide +kernel
  rw [hone]
  exact spells_digits (by decide) (List.all_eq_true.1 (by decide))

/-- The items of `(1, ?)`. -/
def oneOrAnother : List ListItem :=
  [⟨"1", [.number "1"], "1", spells_one, .number "1"⟩, ListItem.parameter]

/-- With 2 for its placeholder, `(1, ?)` finds the user 2 and does not find the user 1. -/
theorem literal_in_mixed_list_is_dropped :
    ∃ s, Statement.parse ("SELECT * FROM " ++ rowsText "users" (memberText "id" "IN" ["1", "?"])) = .ok s ∧
      Yields (bindCriteria s.criteria) [.ofInt 2]
        (Predicate.single "id" (.obj [("$in", .arr [.ofInt 2])])) ∧
      (Predicate.single "id" (.obj [("$in", .arr [.ofInt 2])])).holds
        (SortedMap.ofList [("id", .ofInt 2)]) = true ∧
      (Predicate.single "id" (.obj [("$in", .arr [.ofInt 2])])).holds
        (SortedMap.ofList [("id", .ofInt 1)]) = false ∧
      ([.ofInt 2] : List Value) ≠ [.ofInt 1, .ofInt 2] := by
  obtain ⟨n, hparse⟩ := parse_isIn "users" "id" ⟨"1", [.number "1"], "1", spells_one, .number "1"⟩
    [ListItem.parameter]
  have hcount : placeholderCount (operandsText oneOrAnother) = 1 := by decide +kernel
  have hyields : Yields (bindExpression true (operandsText oneOrAnother)) [.ofInt 2] (.ofInt 2) :=
    yields_takenValue hcount (List.cons_ne_nil _ _)
  refine ⟨_, hparse, ?_, by decide +kernel, by decide +kernel, by simp⟩
  show Yields (bindCondition (memberCondition "id" oneOrAnother false)) _ _
  rw [memberCondition, bindCondition_of_resolve (by decide +kernel) (resolve_membership false)]
  exact hyields.map _

end Schemaless
