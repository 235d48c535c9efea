import IntentContract.Proofs.Definition.WellFormed
import IntentContract.Proofs.Text.Row
import IntentContract.Proofs.Token.Spelling

/-!
# What the text of a type says

The text of a type does not show all of its tree: a nullable type looks like its inner type, a
union inside a union like one union, several arguments of a generic like a union of them, and
several primitives have one name. What is left is a list of **items**, each a name or a generic
with items of its own in brackets.

The text says exactly that much. It is the row of the items with bars between them
(`toList_text`), and it is read in one way: a name ends where a bar or a closing bracket
follows, and the kind of a generic where a bracket opens (`items_eq_of_text_eq`). So whatever is
a function of the items can be told from the text: what a caller gets in the end
(`toList_awaitedText`), and the names at the leaves as the target has them (`leafNamesOf_items`).
-/

namespace IntentContract

open Text (row)

/-- **An item of a type's text**: a name, or a generic with items of its own. -/
inductive TypeItem where
  | leaf (name : String)
  | node (kind : String) (inner : List TypeItem)

namespace TypeItem

/-- What stands between items. -/
def bar : List Char := [' ', '|', ' ']

mutual

/-- The characters of an item. -/
def chars : TypeItem → List Char
  | .leaf name => name.toList
  | .node kind inner => kind.toList ++ '<' :: (charsOf inner ++ ['>'])

/-- The characters of items, with bars between them. -/
def charsOf : List TypeItem → List Char
  | [] => []
  | [i] => chars i
  | i :: rest => chars i ++ (bar ++ charsOf rest)

end

theorem charsOf_eq_row (items : List TypeItem) : charsOf items = row bar chars items := by
  induction items with
  | nil => rfl
  | cons i items ih =>
    cases items with
    | nil => simp [charsOf, row]
    | cons j items =>
      rw [charsOf, ih, Text.row_cons_cons]
      exact List.cons_ne_nil j items

mutual

/-- The names at the leaves of an item. -/
def leafNames : TypeItem → List String
  | .leaf name => [name]
  | .node _ inner => leafNamesOf inner

/-- The names at the leaves of items. -/
def leafNamesOf : List TypeItem → List String
  | [] => []
  | i :: rest => leafNames i ++ leafNamesOf rest

end

theorem leafNamesOf_append (is js : List TypeItem) :
    leafNamesOf (is ++ js) = leafNamesOf is ++ leafNamesOf js := by
  induction is with
  | nil => rfl
  | cons i is ih => rw [List.cons_append, leafNamesOf, leafNamesOf, ih, List.append_assoc]

/-- The items of what a caller gets in the end: those of a promise that stands alone. -/
def awaited : List TypeItem → List TypeItem
  | [.node kind inner] => if kind = "Promise" then inner else [.node kind inner]
  | items => items

theorem awaited_of_two_le {items : List TypeItem} (h : 2 ≤ items.length) :
    awaited items = items := by
  unfold awaited
  split
  · simp at h
  · rfl

end TypeItem

/-! ## The items of a type -/

namespace TypeDescriptor

mutual

/-- **The items of a type.** -/
def items : TypeDescriptor → List TypeItem
  | .primitive name => [.leaf ((targetName? name).getD name)]
  | .union members => itemsOf members
  | .generic kind args => [.node (targetKind kind) (itemsOf args)]
  | .nullable inner => items inner
  | .unknown => []

/-- The items of a list of types. -/
def itemsOf : List TypeDescriptor → List TypeItem
  | [] => []
  | d :: rest => items d ++ itemsOf rest

end

theorem itemsOf_eq_flatMap (ds : List TypeDescriptor) : itemsOf ds = ds.flatMap items := by
  induction ds with
  | nil => rfl
  | cons d ds ih => rw [itemsOf, ih, List.flatMap_cons]

theorem texts_eq_map (ds : List TypeDescriptor) : texts ds = ds.map text := by
  induction ds with
  | nil => rfl
  | cons d ds ih => rw [texts, ih, List.map_cons]

variable {L : Lexicon}

/-- A well-formed type has an item. -/
theorem WellFormed.items_ne_nil {d : TypeDescriptor} (h : d.WellFormed L) : d.items ≠ [] := by
  induction h with
  | primitive => exact List.cons_ne_nil _ _
  | @union members htwo _ ih =>
    obtain ⟨m, ms, rfl⟩ := List.exists_cons_of_length_pos (Nat.zero_lt_of_lt htwo)
    rw [items, itemsOf]
    exact List.append_ne_nil_of_left_ne_nil (ih m List.mem_cons_self) _
  | generic => exact List.cons_ne_nil _ _
  | nullable _ _ ih => exact ih

/-- Several types have several items. -/
theorem length_le_length_itemsOf {ds : List TypeDescriptor} (h : ∀ d ∈ ds, d.WellFormed L) :
    ds.length ≤ (itemsOf ds).length := by
  induction ds with
  | nil => exact Nat.le_refl 0
  | cons d ds ih =>
    rw [List.forall_mem_cons] at h
    have hd : 0 < d.items.length := List.length_pos_of_ne_nil h.1.items_ne_nil
    have hds := ih h.2
    rw [itemsOf, List.length_append, List.length_cons]
    omega

/-- The joined texts of types are the row of all their items. -/
theorem toList_join_texts {ds : List TypeDescriptor} (hds : ∀ d ∈ ds, d.WellFormed L)
    (h : ∀ d ∈ ds, d.text.toList = TypeItem.charsOf d.items) :
    (Text.join barText (texts ds)).toList = TypeItem.charsOf (itemsOf ds) := by
  calc (Text.join barText (texts ds)).toList
      = row TypeItem.bar (fun d : TypeDescriptor => d.text.toList) ds := by
        rw [texts_eq_map, Text.toList_join, Text.row_map]
        rfl
    _ = row TypeItem.bar (fun d => row TypeItem.bar TypeItem.chars d.items) ds :=
        Text.row_congr _ fun d hd => by rw [h d hd, TypeItem.charsOf_eq_row]
    _ = TypeItem.charsOf (itemsOf ds) := by
        rw [← Text.row_flatMap _ _ fun d hd => (hds d hd).items_ne_nil, itemsOf_eq_flatMap,
          TypeItem.charsOf_eq_row]

/-- **The text of a type is the row of its items.** -/
theorem toList_text {d : TypeDescriptor} (h : d.WellFormed L) :
    d.text.toList = TypeItem.charsOf d.items := by
  induction h with
  | primitive => rfl
  | @union members _ hm ih =>
    rw [text, items]
    exact toList_join_texts hm ih
  | @generic kind args _ hne ha ih =>
    have hempty : args.isEmpty = false := by simpa using hne
    rw [text, items, TypeItem.charsOf, TypeItem.chars, ← toList_join_texts ha ih]
    simp [hempty]
  | nullable _ _ ih => rwa [text, items]

/-- Only a promise is named as one. -/
theorem targetKind_eq_promise_iff {kind : String} :
    targetKind kind = "Promise" ↔ kind = "Promise" := by
  unfold targetKind
  split
  · next h =>
    rw [h]
    decide
  · exact Iff.rfl

/-- **What a caller gets in the end is told from the items.** -/
theorem toList_awaitedText {d : TypeDescriptor} (h : d.WellFormed L) :
    d.awaitedText.toList = TypeItem.charsOf (TypeItem.awaited d.items) := by
  induction h with
  | primitive => rfl
  | @union members htwo hm _ =>
    have hlen : 2 ≤ (itemsOf members).length := Nat.le_trans htwo (length_le_length_itemsOf hm)
    rw [awaitedText, toList_text (.union htwo hm), items, TypeItem.awaited_of_two_le hlen]
    all_goals exact nofun
  | @generic kind args hk hne ha _ =>
    rw [awaitedText, items, TypeItem.awaited]
    by_cases hp : kind = "Promise"
    · have hempty : args.isEmpty = false := by simpa using hne
      rw [if_pos hp, if_pos (targetKind_eq_promise_iff.mpr hp), hempty]
      exact toList_join_texts ha fun a h => toList_text (ha a h)
    · rw [if_neg hp, if_neg (mt targetKind_eq_promise_iff.mp hp), toList_text (.generic hk hne ha),
        items]
  | nullable _ _ ih => rwa [awaitedText, items]

/-! ## The names at the leaves -/

/-- The name of a type in the target. -/
def targetName (name : String) : String :=
  (targetName? name).getD name

/-- **The leaves of the items are those of the type, under the target's names.** -/
theorem leafNamesOf_items {d : TypeDescriptor} (h : d.WellFormed L) :
    TypeItem.leafNamesOf d.items = d.leaves.map targetName := by
  have hlist : ∀ ds : List TypeDescriptor,
      (∀ d ∈ ds, TypeItem.leafNamesOf d.items = d.leaves.map targetName) →
      TypeItem.leafNamesOf (itemsOf ds) = (leavesOf ds).map targetName := by
    intro ds hds
    induction ds with
    | nil => rfl
    | cons d ds ih =>
      rw [List.forall_mem_cons] at hds
      rw [itemsOf, leavesOf, TypeItem.leafNamesOf_append, List.map_append, hds.1, ih hds.2]
  induction h with
  | primitive => rfl
  | union _ _ ih => rw [items, leaves, hlist _ ih]
  | generic _ _ _ ih =>
    rw [items, leaves, TypeItem.leafNamesOf, TypeItem.leafNamesOf, TypeItem.leafNames,
      List.append_nil, hlist _ ih]
  | nullable _ _ ih => rwa [items, leaves]

/-- The leaves of a well-formed type are names of types. -/
theorem WellFormed.typeName_of_mem_leaves {d : TypeDescriptor} (h : d.WellFormed L) :
    ∀ n ∈ d.leaves, L.typeName n := by
  have hlist : ∀ ds : List TypeDescriptor, (∀ d ∈ ds, ∀ n ∈ d.leaves, L.typeName n) →
      ∀ n ∈ leavesOf ds, L.typeName n := by
    intro ds hds
    induction ds with
    | nil => exact List.forall_mem_nil _
    | cons d ds ih =>
      rw [List.forall_mem_cons] at hds
      exact List.forall_mem_append.mpr ⟨hds.1, ih hds.2⟩
  induction h with
  | primitive hn => exact List.forall_mem_singleton.mpr hn
  | union _ _ ih => rw [leaves]; exact hlist _ ih
  | generic _ _ _ ih => rw [leaves]; exact hlist _ ih
  | nullable _ _ ih => rwa [leaves]

/-- The target has three names for primitives. -/
theorem targetName?_mem {name t : String} (h : targetName? name = some t) :
    t = "boolean" ∨ t = "number" ∨ t = "string" := by
  unfold targetName? at h
  grind

/-- Names that the target uses for primitives and that a definition may still use for a type of
its own. -/
def ambiguousNames : List String := ["number", "string"]

/-- A custom name stands at a leaf just if the text shows it there, unless primitives are shown
under that name. -/
theorem mem_customLeaves_iff {d : TypeDescriptor} (h : d.WellFormed L) {n : String}
    (hn : n ∉ ambiguousNames) :
    n ∈ d.customLeaves ↔ isCustomName n = true ∧ n ∈ TypeItem.leafNamesOf d.items := by
  rw [customLeaves, List.mem_filter, and_comm, leafNamesOf_items h, List.mem_map]
  refine and_congr_right fun hc => ⟨fun hmem => ⟨n, hmem, ?_⟩, ?_⟩
  · have hnone : targetName? n = none := by simp_all [isCustomName]
    rw [targetName, hnone]
    rfl
  · rintro ⟨m, hm, rfl⟩
    cases hm' : targetName? m with
    | none => rwa [targetName, hm']
    | some t =>
      -- the name of a primitive is `boolean`, which is not custom, or ambiguous
      rw [targetName, hm', Option.getD_some] at hn hc
      obtain rfl | rfl | rfl := targetName?_mem hm'
      · exact absurd hc (by decide)
      · exact absurd (by decide) hn
      · exact absurd (by decide) hn

end TypeDescriptor

/-! ## Reading a text -/

namespace TypeItem

/-- A character of the name of a generic. -/
def isKindChar (c : Char) : Bool :=
  Scan.isWordPart c || c = ' '

/-- **An item whose text shows where it ends**: a leaf is of the characters of a word, the kind of
a generic of those and blanks, and there is something in the brackets. -/
inductive Plain : TypeItem → Prop where
  | leaf {name : String} (h : ∀ c ∈ name.toList, Scan.isWordPart c = true) : Plain (.leaf name)
  | node {kind : String} {inner : List TypeItem} (hk : ∀ c ∈ kind.toList, isKindChar c = true)
      (hne : inner ≠ []) (h : ∀ i ∈ inner, Plain i) : Plain (.node kind inner)

/-- What may follow an item: nothing, a closing bracket, or a bar. -/
def Ends (rest : List Char) : Prop :=
  rest = [] ∨ (∃ t, rest = '>' :: t) ∨ ∃ t, rest = bar ++ t

theorem Ends.head_isWordPart {rest : List Char} (h : Ends rest) :
    ∀ c ∈ rest.head?, Scan.isWordPart c = false := by
  obtain rfl | ⟨t, rfl⟩ | ⟨t, rfl⟩ := h
  · exact nofun
  · rintro _ ⟨⟩
    decide
  · rintro _ ⟨⟩
    decide

/-- No bracket opens behind an item. -/
theorem Ends.dropWhile_ne {rest : List Char} (h : Ends rest) (t : List Char) :
    rest.dropWhile isKindChar ≠ '<' :: t := by
  obtain rfl | ⟨t', rfl⟩ | ⟨t', rfl⟩ := h
  · exact nofun
  · have hgt : ¬ isKindChar '>' = true := by decide
    rw [List.dropWhile_cons_of_neg hgt]
    exact nofun
  · have hblank : isKindChar ' ' = true := by decide
    have hbar : ¬ isKindChar '|' = true := by decide
    rw [bar, List.cons_append, List.cons_append, List.dropWhile_cons_of_pos hblank,
      List.dropWhile_cons_of_neg hbar]
    exact nofun

/-- What is left of a generic's text behind its kind. -/
theorem dropWhile_chars_node {kind : String} (hk : ∀ c ∈ kind.toList, isKindChar c = true)
    (rest : List Char) :
    (kind.toList ++ '<' :: rest).takeWhile isKindChar = kind.toList
      ∧ (kind.toList ++ '<' :: rest).dropWhile isKindChar = '<' :: rest :=
  Scan.span_run hk (by rintro _ ⟨⟩; decide)

/-- A leaf is not read as a generic. -/
theorem leaf_ne_node {name kind : String} (hn : ∀ c ∈ name.toList, Scan.isWordPart c = true)
    (hk : ∀ c ∈ kind.toList, isKindChar c = true) {r t : List Char} (hr : Ends r) :
    name.toList ++ r ≠ kind.toList ++ '<' :: t := by
  intro h
  have hkind : ∀ c ∈ name.toList, isKindChar c = true := fun c hc => by
    rw [isKindChar, hn c hc, Bool.true_or]
  refine hr.dropWhile_ne t ?_
  rw [← (dropWhile_chars_node hk t).2, ← h, List.dropWhile_append_of_pos hkind]

/-- **An item is read in one way**: the item, and what follows it. -/
theorem chars_append_inj {i j : TypeItem} (hi : Plain i) (hj : Plain j) {r₁ r₂ : List Char}
    (h₁ : Ends r₁) (h₂ : Ends r₂) (h : chars i ++ r₁ = chars j ++ r₂) : i = j ∧ r₁ = r₂ := by
  induction hi generalizing j r₁ r₂ with
  | leaf hn =>
    cases hj with
    | leaf hm =>
      obtain ⟨hname, hrest⟩ := Scan.span_run hn h₁.head_isWordPart
      obtain ⟨hname', hrest'⟩ := Scan.span_run hm h₂.head_isWordPart
      rw [chars, chars] at h
      rw [h] at hname hrest
      exact ⟨congrArg leaf (String.toList_inj.mp (hname.symm.trans hname')),
        hrest.symm.trans hrest'⟩
    | node hk _ _ =>
      rw [chars, chars, List.append_assoc, List.cons_append] at h
      exact absurd h (leaf_ne_node hn hk h₁)
  | node hk hne _ ih =>
    cases hj with
    | leaf hm =>
      rw [chars, chars, List.append_assoc, List.cons_append] at h
      exact absurd h.symm (leaf_ne_node hm hk h₂)
    | node hk' hne' hj =>
      simp only [chars, List.append_assoc, List.cons_append, List.nil_append] at h
      obtain ⟨hkind, hrest⟩ := dropWhile_chars_node hk (charsOf _ ++ '>' :: r₁)
      obtain ⟨hkind', hrest'⟩ := dropWhile_chars_node hk' (charsOf _ ++ '>' :: r₂)
      rw [h] at hkind hrest
      rw [String.toList_inj.mp (hkind.symm.trans hkind')]
      have hinner := (List.cons.inj (hrest.symm.trans hrest')).2
      rw [charsOf_eq_row, charsOf_eq_row] at hinner
      obtain ⟨rfl, hr⟩ := Text.row_append_inj (fun rest => .inr (.inr ⟨rest, rfl⟩)) hne hne'
        (fun a ha b hb s₁ s₂ hs₁ hs₂ => ih a ha (hj b hb) hs₁ hs₂) (.inr (.inl ⟨r₁, rfl⟩))
        (.inr (.inl ⟨r₂, rfl⟩)) (by simp) (by simp) hinner
      exact ⟨rfl, (List.cons.inj hr).2⟩

/-- **Items are read in one way.** -/
theorem charsOf_inj {is js : List TypeItem} (his : is ≠ []) (hjs : js ≠ [])
    (hi : ∀ i ∈ is, Plain i) (hj : ∀ j ∈ js, Plain j) (h : charsOf is = charsOf js) : is = js := by
  rw [charsOf_eq_row, charsOf_eq_row, ← List.append_nil (row bar chars is),
    ← List.append_nil (row bar chars js)] at h
  exact (Text.row_append_inj (fun rest => .inr (.inr ⟨rest, rfl⟩)) his hjs
    (fun a ha b hb s₁ s₂ hs₁ hs₂ => chars_append_inj (hi a ha) (hj b hb) hs₁ hs₂) (.inl rfl)
    (.inl rfl) nofun nofun h).1

/-- The items of what a promise promises are plain as well. -/
theorem plain_of_mem_awaited {is : List TypeItem} (h : ∀ i ∈ is, Plain i) :
    ∀ i ∈ awaited is, Plain i := by
  unfold awaited
  split
  · next kind inner =>
    split
    · obtain - | ⟨-, -, hinner⟩ := h _ List.mem_cons_self
      exact hinner
    · exact h
  · exact h

/-- A character in the text of a type. -/
def isTypeChar (c : Char) : Bool :=
  isKindChar c || c = '<' || c = '>' || c = '|'

theorem isTypeChar_of_isKindChar {c : Char} (h : isKindChar c = true) : isTypeChar c = true := by
  simp [isTypeChar, h]

/-- The items of a row bring bars and blanks, and what they have themselves. -/
theorem isTypeChar_row {is : List TypeItem} (h : ∀ i ∈ is, ∀ c ∈ chars i, isTypeChar c = true) :
    ∀ c ∈ charsOf is, isTypeChar c = true := by
  have hbar : ∀ c ∈ bar, isTypeChar c = true := List.all_eq_true.mp rfl
  rw [charsOf_eq_row]
  cases is with
  | nil => exact List.forall_mem_nil _
  | cons i is =>
    rw [List.forall_mem_cons] at h
    rw [row, List.forall_mem_append, List.forall_mem_flatMap]
    exact ⟨h.1, fun j hj => List.forall_mem_append.mpr ⟨hbar, h.2 j hj⟩⟩

theorem Plain.isTypeChar_chars {i : TypeItem} (h : Plain i) :
    ∀ c ∈ chars i, isTypeChar c = true := by
  induction h with
  | leaf hn =>
    intro c hc
    rw [isTypeChar, isKindChar, hn c hc]
    rfl
  | node hk _ _ ih =>
    have hopen : isTypeChar '<' = true := by decide
    have hclose : ∀ c ∈ ['>'], isTypeChar c = true := List.all_eq_true.mp rfl
    rw [chars, List.forall_mem_append, List.forall_mem_cons, List.forall_mem_append]
    exact ⟨fun c hc => isTypeChar_of_isKindChar (hk c hc), hopen, isTypeChar_row ih, hclose⟩

/-- The text of plain items is of words, blanks, bars and brackets. -/
theorem isTypeChar_charsOf {is : List TypeItem} (h : ∀ i ∈ is, Plain i) :
    ∀ c ∈ charsOf is, isTypeChar c = true :=
  isTypeChar_row fun i hi => (h i hi).isTypeChar_chars

end TypeItem

/-- The characters of a word. -/
theorem isWordPart_of_isWord {n : String} (h : isWord n = true) :
    ∀ c ∈ n.toList, Scan.isWordPart c = true := by
  obtain ⟨c, cs, hn, hc, hcs⟩ := isWord_iff.mp h
  rw [hn, List.forall_mem_cons]
  exact ⟨Scan.isWordPart_iff.mpr (.inl hc), hcs⟩

/-- The name of a type is a word, or several. -/
theorem isWord_or_compound {n : String} (h : isTypeName n = true) :
    isWord n = true ∨ n ∈ compoundNames.map Prod.fst := by
  rw [isTypeName, Bool.or_eq_true_iff, List.lookup_isSome_iff] at h
  rcases h with ⟨p, hp, hn⟩ | h
  · rw [eq_of_beq hn]
    exact .inr (List.mem_map_of_mem hp)
  · simp only [Bool.and_eq_true_iff, isIdentifier] at h
    exact .inl h.1.1.1

/-- A name of several words has blanks between them. -/
theorem TypeItem.isKindChar_of_mem_compound :
    ∀ n ∈ compoundNames.map Prod.fst, ∀ c ∈ n.toList, isKindChar c = true := by
  have hall : ∀ n ∈ compoundNames.map Prod.fst, n.toList.all isKindChar = true := by decide
  exact fun n hn => List.all_eq_true.mp (hall n hn)

namespace TypeDescriptor

/-- A name of several words is that of a number. -/
theorem targetName?_of_compound :
    ∀ n ∈ compoundNames.map Prod.fst, targetName? n = some "number" := by
  decide

/-- A custom type has a word as its name. -/
theorem isWord_of_isCustomName {n : String} (h : isTypeName n = true)
    (hc : isCustomName n = true) : isWord n = true := by
  refine (isWord_or_compound h).resolve_right fun hcompound => ?_
  simp [isCustomName, targetName?_of_compound n hcompound] at hc

/-- The name of a type in the target is of the characters of a word. -/
theorem isWordPart_of_mem_targetName {n : String} (h : isTypeName n = true) :
    ∀ c ∈ (targetName n).toList, Scan.isWordPart c = true := by
  cases ht : targetName? n with
  | some t =>
    rw [targetName, ht, Option.getD_some]
    obtain rfl | rfl | rfl := targetName?_mem ht <;> exact List.all_eq_true.mp rfl
  | none =>
    rw [targetName, ht, Option.getD_none]
    rcases isWord_or_compound h with hw | hc
    · exact isWordPart_of_isWord hw
    · exact absurd (ht.symm.trans (targetName?_of_compound n hc)) nofun

/-- The name of a generic in the target is of words with blanks between them. -/
theorem isKindChar_of_mem_targetKind {n : String} (h : isTypeName n = true) :
    ∀ c ∈ (targetKind n).toList, TypeItem.isKindChar c = true := by
  unfold targetKind
  split
  · exact List.all_eq_true.mp rfl
  · intro c hc
    rcases isWord_or_compound h with hw | hn
    · rw [TypeItem.isKindChar, isWordPart_of_isWord hw c hc, Bool.true_or]
    · exact TypeItem.isKindChar_of_mem_compound n hn c hc

/-- The items of a type from a document are plain. -/
theorem WellFormed.plain_of_mem_items {d : TypeDescriptor} (h : d.WellFormed .parsed) :
    ∀ i ∈ d.items, i.Plain := by
  induction h with
  | primitive hn => exact List.forall_mem_singleton.mpr (.leaf (isWordPart_of_mem_targetName hn))
  | union _ _ ih =>
    rw [items, itemsOf_eq_flatMap, List.forall_mem_flatMap]
    exact ih
  | @generic kind args hk hne ha ih =>
    rw [items, List.forall_mem_singleton]
    refine .node (isKindChar_of_mem_targetKind hk) ?_ ?_
    · exact List.ne_nil_of_length_pos
        (Nat.lt_of_lt_of_le (List.length_pos_of_ne_nil hne) (length_le_length_itemsOf ha))
    · rw [itemsOf_eq_flatMap, List.forall_mem_flatMap]
      exact ih
  | nullable _ _ ih => rwa [items]

/-- **The text of a type tells its items.** -/
theorem items_eq_of_text_eq {d e : TypeDescriptor} (hd : d.WellFormed .parsed)
    (he : e.WellFormed .parsed) (h : d.text = e.text) : d.items = e.items := by
  refine TypeItem.charsOf_inj hd.items_ne_nil he.items_ne_nil hd.plain_of_mem_items
    he.plain_of_mem_items ?_
  rw [← toList_text hd, ← toList_text he, h]

/-! ## The characters of a text -/

/-- A text of a type is of words, blanks, bars and brackets. -/
theorem WellFormed.isTypeChar_text {d : TypeDescriptor} (h : d.WellFormed .parsed) :
    ∀ c ∈ d.text.toList, TypeItem.isTypeChar c = true := by
  rw [toList_text h]
  exact TypeItem.isTypeChar_charsOf h.plain_of_mem_items

/-- What a caller gets in the end is described by the same characters. -/
theorem WellFormed.isTypeChar_awaitedText {d : TypeDescriptor} (h : d.WellFormed .parsed) :
    ∀ c ∈ d.awaitedText.toList, TypeItem.isTypeChar c = true := by
  rw [toList_awaitedText h]
  exact TypeItem.isTypeChar_charsOf (TypeItem.plain_of_mem_awaited h.plain_of_mem_items)

end TypeDescriptor

end IntentContract
