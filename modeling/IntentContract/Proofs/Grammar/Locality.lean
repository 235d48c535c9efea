import IntentContract.Proofs.Grammar.Reading
import IntentContract.Proofs.Token.Spelling

/-!
# How far a reader looks

A reader takes some tokens and looks at a few of those behind to know where to
end. `Local` bounds that look: what a reader makes of its tokens is the same
before any other tokens that agree on the next `look` ones. Most readers look at
one token (`Peeks`), an unquoted value at two – a colon belongs to it only with an
identifier behind – and one that ends with a token of its own looks at none
(`Closed`). A definition ends with its semicolon, so it is closed
(`closed_definition`): nothing behind a definition has a part in how it is read.
-/

namespace IntentContract.Parser

variable {α β : Type} {p : Parser α} {f : α → Parser β} {ts : List Token}

/-! ## Local readers -/

/-- A reader is local on some tokens: it takes at least `least` of them, and of
those behind only the next `look` matter. -/
def LocalAt (look least : Nat) (p : Parser α) (ts : List Token) : Prop :=
  ∀ ⦃a rest⦄, p ts = .ok (a, rest) → ∃ used, ts = used ++ rest ∧ least ≤ used.length
    ∧ ∀ rest', rest'.take look = rest.take look → p (used ++ rest') = .ok (a, rest')

/-- **A local reader** is so on all tokens. -/
def Local (look least : Nat) (p : Parser α) : Prop :=
  ∀ ts, LocalAt look least p ts

/-- A reader that looks at one token behind those it takes. -/
abbrev Peeks (p : Parser α) : Prop := Local 1 0 p

/-- **A closed reader**: it takes a token, and looks at none behind. -/
abbrev Closed (p : Parser α) : Prop := Local 0 1 p

section Rules

variable {j k m n : Nat}

theorem take_eq_of_le {xs ys : List Token} (h : xs.take k = ys.take k) (hjk : j ≤ k) :
    xs.take j = ys.take j := by
  have := congrArg (List.take j) h
  rwa [List.take_take, List.take_take, Nat.min_eq_left hjk] at this

theorem LocalAt.mono (h : LocalAt j m p ts) (hjk : j ≤ k) (hnm : n ≤ m) :
    LocalAt k n p ts := by
  intro a rest hp
  obtain ⟨used, hts, hlen, hrun⟩ := h hp
  exact ⟨used, hts, Nat.le_trans hnm hlen,
    fun rest' hrest => hrun rest' (take_eq_of_le hrest hjk)⟩

theorem Local.mono (h : Local j m p) (hjk : j ≤ k) (hnm : n ≤ m) : Local k n p :=
  fun ts => (h ts).mono hjk hnm

/-- **Reading on.** If a reader, behind some tokens `used`, goes on like another
one, and that one is local, then it is local from the start – provided its own
look `k` falls on what the other takes or looks at. -/
theorem LocalAt.step {q : Parser β} {p : Parser β} {used : List Token}
    (hgo : ∀ ts', ts'.take k = ts.take k → p (used ++ ts') = q ts')
    (hq : LocalAt j m q ts) (hk : k ≤ j + m) :
    LocalAt j (used.length + m) p (used ++ ts) := by
  intro b rest hp
  rw [hgo ts rfl] at hp
  obtain ⟨used', rfl, hlen, hrun⟩ := hq hp
  refine ⟨used ++ used', by rw [List.append_assoc], by rw [List.length_append]; omega, ?_⟩
  intro rest' hrest
  have hagree : (used' ++ rest').take k = (used' ++ rest).take k := by
    rw [List.take_append, List.take_append,
      take_eq_of_le hrest (show k - used'.length ≤ j by omega)]
  rw [List.append_assoc, hgo _ hagree]
  exact hrun rest' hrest

/-- One local reader after another. -/
theorem LocalAt.bind (hp : LocalAt k n p ts) (hf : ∀ a, Local j m (f a)) (hk : k ≤ j + m) :
    LocalAt j (n + m) (p >>= f) ts := by
  intro b rest h
  obtain ⟨a, mid, hpts, hfmid⟩ := bind_eq_ok_iff.mp h
  obtain ⟨used, rfl, hlen, hrun⟩ := hp hpts
  have hgo : ∀ ts', ts'.take k = mid.take k → (p >>= f) (used ++ ts') = f a ts' :=
    fun ts' hts => bind_of_ok (hrun ts' hts)
  obtain ⟨used', hts, hlen', hrun'⟩ := LocalAt.step hgo (hf a mid) hk h
  exact ⟨used', hts, by omega, hrun'⟩

theorem Local.bind (hp : Local k n p) (hf : ∀ a, Local j m (f a)) (hk : k ≤ j + m) :
    Local j (n + m) (p >>= f) :=
  fun ts => (hp ts).bind hf hk

/-- One reader after another looks as far as both do. -/
theorem Local.andThen (hp : Local j 0 p) (hf : ∀ a, Local j 0 (f a)) :
    Local j 0 (p >>= f) :=
  Local.bind hp hf (Nat.le_refl j)

theorem local_pure (a : α) : Local j 0 (pure a : Parser α) := by
  intro ts b rest h
  obtain ⟨rfl, rfl⟩ := pure_eq_ok_iff.mp h
  exact ⟨[], rfl, Nat.le_refl 0, fun rest' _ => rfl⟩

theorem Local.ite {q : Parser α} {b : Bool} (hp : Local j m p) (hq : Local j m q) :
    Local j m (if b = true then p else q) := by
  cases b
  · exact hq
  · exact hp

/-- A reader that never succeeds is local. -/
theorem local_misfit (e : Expectation) : Local j m (misfit e : Parser α) :=
  fun _ _ _ h => by cases h

end Rules

/-! ## The small readers -/

/-- Agreement on the next tokens is agreement on the next one. -/
theorem head?_eq_of_take {k : Nat} {xs ys : List Token} (h : xs.take (k + 1) = ys.take (k + 1)) :
    xs.head? = ys.head? := by
  have hhead := congrArg List.head? h
  rwa [List.head?_take, List.head?_take, if_neg (Nat.succ_ne_zero k)] at hhead

theorem peeks_eat (t : Token) : Peeks (eat t) := by
  intro ts b rest h
  rcases eat_eq_ok_iff.mp h with ⟨rfl, rfl⟩ | ⟨rfl, rfl, hne⟩
  · exact ⟨[t], rfl, Nat.zero_le _, fun rest' _ => eat_eq_ok_iff.mpr (.inl ⟨rfl, rfl⟩)⟩
  · refine ⟨[], rfl, Nat.zero_le _, fun rest' hrest => ?_⟩
    refine eat_eq_ok_iff.mpr (.inr ⟨rfl, rfl, ?_⟩)
    rw [List.nil_append, head?_eq_of_take hrest]
    exact hne

theorem peeks_check (t : Token) : Peeks (check t) := by
  intro ts b rest h
  obtain ⟨rfl, rfl⟩ := check_eq_ok_iff.mp h
  refine ⟨[], rfl, Nat.zero_le _, fun rest' hrest => ?_⟩
  refine check_eq_ok_iff.mpr ⟨?_, rfl⟩
  rw [List.nil_append, head?_eq_of_take hrest]

theorem closed_symbol (s : Symbol) : Closed (symbol s) := by
  intro ts u rest h
  obtain rfl := symbol_eq_ok_iff.mp h
  exact ⟨[.symbol s], rfl, Nat.le_refl 1, fun rest' _ => symbol_eq_ok_iff.mpr rfl⟩

theorem closed_keyword (k : Keyword) : Closed (keyword k) := by
  intro ts u rest h
  obtain rfl := keyword_eq_ok_iff.mp h
  exact ⟨[.keyword k], rfl, Nat.le_refl 1, fun rest' _ => keyword_eq_ok_iff.mpr rfl⟩

theorem closed_name : Closed name := by
  intro ts n rest h
  obtain ⟨t, rfl, ht⟩ := name_eq_ok_iff.mp h
  exact ⟨[t], rfl, Nat.le_refl 1, fun rest' _ => name_eq_ok_iff.mpr ⟨t, rfl, ht⟩⟩

theorem Closed.peeks (h : Closed p) : Peeks p :=
  h.mono (Nat.zero_le 1) (Nat.zero_le 1)

/-- A closed reader behind another sees all that the other looks at. -/
theorem Peeks.closed_bind (hp : Peeks p) (hf : ∀ a, Closed (f a)) : Closed (p >>= f) :=
  Local.bind hp hf (Nat.le_refl 1)

theorem Closed.bind_pure (hp : Closed p) (g : α → β) : Closed (p >>= fun a => pure (g a)) :=
  Local.bind hp (fun a => local_pure (g a)) (Nat.le_refl 0)

/-! ## Lists of items -/

/-- A list with commas looks at the next token, for a comma, and as far as its
items do. -/
theorem local_commaList {item : Parser α} {k : Nat} (h : Local (k + 1) 0 item) :
    Local (k + 1) 0 (commaList item) := by
  intro ts
  induction hlen : ts.length using Nat.strongRecOn generalizing ts with
  | ind n ih =>
    cases hitem : item ts with
    | error e =>
      intro as rest hts
      have herr : commaList item ts = .error e := by
        show commaItems item ts = _
        rw [commaItems, hitem]
      cases herr.symm.trans hts
    | ok r =>
      obtain ⟨a, mid⟩ := r
      obtain ⟨used, rfl, -, hrun⟩ := h ts hitem
      by_cases hcomma : mid.head? = some (.symbol .comma)
      · obtain ⟨rest, rfl⟩ : ∃ rest, mid = .symbol .comma :: rest :=
          List.head?_eq_some_iff.mp hcomma
        -- behind the comma the list is read on, with fewer tokens left
        have hgo : ∀ ts', ts'.take (k + 1) = rest.take (k + 1) →
            commaList item ((used ++ [.symbol .comma]) ++ ts')
              = (commaList item >>= fun as => pure (a :: as)) ts' := by
          intro ts' hts
          rw [List.append_assoc, List.singleton_append]
          refine commaList_of_comma (hrun _ ?_) ?_
          · rw [List.take_succ_cons, List.take_succ_cons, take_eq_of_le hts (Nat.le_succ k)]
          · rw [List.length_append, List.length_cons]
            omega
        have hlt : rest.length < n := by
          rw [← hlen, List.length_append, List.length_cons]
          omega
        have hrest : LocalAt (k + 1) 0 (commaList item >>= fun as => pure (a :: as)) rest :=
          (ih rest.length hlt rest rfl).bind (fun as => local_pure (a :: as)) (Nat.le_refl _)
        have hstep := LocalAt.step hgo hrest (Nat.le_refl _)
        rw [List.append_assoc, List.singleton_append] at hstep
        exact hstep.mono (Nat.le_refl _) (Nat.zero_le _)
      · intro as rest hts
        rw [commaList_of_end hitem hcomma] at hts
        obtain ⟨rfl, rfl⟩ : [a] = as ∧ mid = rest := by simpa using hts
        refine ⟨used, rfl, Nat.zero_le _, fun rest' hrest => ?_⟩
        exact commaList_of_end (hrun rest' hrest) (by rwa [head?_eq_of_take hrest])

/-- A list of closed items looks at the next token, for its end. -/
theorem peeks_untilStop {item : Parser α} (stop : Option Token → Bool) (h : Closed item) :
    Peeks (untilStop stop item) := by
  intro ts
  induction hlen : ts.length using Nat.strongRecOn generalizing ts with
  | ind n ih =>
    cases hstop : stop ts.head? with
    | true =>
      intro as rest hts
      rw [untilStop_of_stop hstop] at hts
      obtain ⟨rfl, rfl⟩ : [] = as ∧ ts = rest := by simpa using hts
      refine ⟨[], rfl, Nat.zero_le _, fun rest' hrest => untilStop_of_stop ?_⟩
      rw [List.nil_append, head?_eq_of_take hrest]
      exact hstop
    | false =>
      cases hitem : item ts with
      | error e =>
        intro as rest hts
        have herr : untilStop stop item ts = .error e := by
          show itemsUntil stop item ts = _
          rw [itemsUntil, hstop, hitem]
          rfl
        cases herr.symm.trans hts
      | ok r =>
        obtain ⟨a, mid⟩ := r
        obtain ⟨used, rfl, hused, hrun⟩ := h ts hitem
        have hgo : ∀ ts', ts'.take 1 = mid.take 1 → untilStop stop item (used ++ ts')
            = (untilStop stop item >>= fun as => pure (a :: as)) ts' := by
          intro ts' hts
          refine untilStop_of_item ?_ (hrun ts' rfl) (by rw [List.length_append]; omega)
          obtain ⟨t, used', rfl⟩ := List.exists_cons_of_length_pos hused
          exact hstop
        have hlt : mid.length < n := by
          rw [← hlen, List.length_append]
          omega
        have hrest : LocalAt 1 0 (untilStop stop item >>= fun as => pure (a :: as)) mid :=
          (ih mid.length hlt mid rfl).bind (fun as => local_pure (a :: as)) (Nat.le_refl 1)
        exact (LocalAt.step hgo hrest (Nat.le_refl 1)).mono (Nat.le_refl 1) (Nat.zero_le _)

end IntentContract.Parser

namespace IntentContract.Grammar

open IntentContract.Parser

/-! ## Types -/

/-- The name of a type looks at the next token, for one more `long`. -/
theorem local_typeName : Local 1 1 typeName := by
  intro ts n rest h
  obtain ⟨used, more, hwords, rfl, hstop⟩ := typeWords_of_typeName h
  refine ⟨used, rfl, ?_, fun rest' hrest => typeName_append hwords fun hmore => ?_⟩
  · cases hwords <;> exact Nat.le_add_left 1 _
  · rw [head?_eq_of_take hrest]
    exact hstop hmore

/-- Reading on behind one token that says how to go on. -/
theorem localAt_cons {α : Type} {p q : Parser α} {t : Token} {ts : List Token}
    (hgo : ∀ ts', p (t :: ts') = q ts') (h : LocalAt 1 0 q ts) : LocalAt 1 0 p (t :: ts) := by
  have hgo' : ∀ ts', ts'.take 1 = ts.take 1 → p ([t] ++ ts') = q ts' := fun ts' _ => hgo ts'
  exact (LocalAt.step hgo' h (Nat.le_refl 1)).mono (Nat.le_refl 1) (Nat.zero_le _)

mutual

theorem localAt_typeStart (stack : List OpenType) (ts : List Token) :
    LocalAt 1 0 (typeStart stack) ts := by
  intro d end' hrun
  -- a union, a generic type, or a name alone: each is read on with fewer tokens left
  rcases typeStart_cases hrun with ⟨rest, hts⟩ | ⟨kind, rest, hn⟩ | ⟨n, mid, hn, hl⟩
  · have hlt : rest.length < ts.length := by rw [hts]; exact Nat.lt_succ_self _
    rw [hts] at hrun ⊢
    exact localAt_cons (typeStart_lparen stack) (localAt_typeStart (.union [] :: stack) rest) hrun
  · obtain ⟨used, hts, hused, hname⟩ := local_typeName ts hn
    have hlt : rest.length < ts.length := by
      have := length_lt_of_typeName hn
      rw [List.length_cons] at this
      omega
    have hgo : ∀ ts', ts'.take 1 = rest.take 1 →
        typeStart stack ((used ++ [.symbol .langle]) ++ ts')
          = typeStart (.generic kind [] :: stack) ts' := by
      intro ts' _
      rw [List.append_assoc]
      exact typeStart_of_langle (hname _ rfl)
    have hstep := LocalAt.step hgo (localAt_typeStart (.generic kind [] :: stack) rest)
      (Nat.le_refl 1)
    rw [List.append_assoc, List.singleton_append, ← hts] at hstep
    exact hstep.mono (Nat.le_refl 1) (Nat.zero_le _) hrun
  · obtain ⟨used, hts, hused, hname⟩ := local_typeName ts hn
    have hlt := length_lt_of_typeName hn
    have hgo : ∀ ts', ts'.take 1 = mid.take 1 →
        typeStart stack (used ++ ts') = typeMark stack (.primitive n) ts' := by
      intro ts' htake
      exact typeStart_of_name (hname ts' htake) (by rwa [head?_eq_of_take htake])
    have hstep := LocalAt.step hgo (localAt_typeMark stack (.primitive n) mid) (Nat.le_refl 1)
    rw [← hts] at hstep
    exact hstep.mono (Nat.le_refl 1) (Nat.zero_le _) hrun
termination_by (ts.length, 0)
decreasing_by
  · exact Prod.Lex.left _ _ hlt
  · exact Prod.Lex.left _ _ hlt
  · exact Prod.Lex.left _ _ hlt

theorem localAt_typeMark (stack : List OpenType) (d : TypeDescriptor) (ts : List Token) :
    LocalAt 1 0 (typeMark stack d) ts := by
  by_cases hq : ts.head? = some (.symbol .question)
  · obtain ⟨rest, rfl⟩ := List.head?_eq_some_iff.mp hq
    exact localAt_cons (typeMark_question stack d) (localAt_typeEnd stack (.nullable d) rest)
  · have hgo : ∀ ts', ts'.take 1 = ts.take 1 →
        typeMark stack d ([] ++ ts') = typeEnd stack d ts' :=
      fun ts' hts => typeMark_of_ne (by rwa [List.nil_append, head?_eq_of_take hts])
    exact LocalAt.step hgo (localAt_typeEnd stack d ts) (Nat.le_refl 1)
termination_by (ts.length, 2)

theorem localAt_typeEnd (stack : List OpenType) (d : TypeDescriptor) (ts : List Token) :
    LocalAt 1 0 (typeEnd stack d) ts := by
  intro d' rest hts
  rcases typeEnd_cases hts with rfl | ⟨ms, stack, ts, rfl, rfl⟩ | ⟨ms, stack, ts, rfl, hne, rfl⟩
    | ⟨kind, args, stack, ts, rfl, rfl⟩ | ⟨kind, args, stack, ts, rfl, rfl⟩
  · rw [typeEnd_nil] at hts
    obtain ⟨rfl, rfl⟩ : d = d' ∧ ts = rest := by simpa using hts
    exact ⟨[], rfl, Nat.le_refl 0, fun rest' _ => typeEnd_nil d rest'⟩
  · exact localAt_cons (fun _ => typeEnd_or ms) (localAt_typeStart _ ts) hts
  · exact localAt_cons (fun _ => typeEnd_rparen hne) (localAt_typeMark _ _ ts) hts
  · exact localAt_cons (fun _ => typeEnd_comma kind args) (localAt_typeStart _ ts) hts
  · exact localAt_cons (fun _ => typeEnd_rangle kind args) (localAt_typeMark _ _ ts) hts
termination_by (ts.length, 1)

end

theorem peeks_type : Peeks type :=
  localAt_typeStart []

/-! ## Extended attributes -/

/-- A colon joins a name only with an identifier behind it, so a value without
quotes looks at two tokens. -/
theorem qualifiers_append (ts : List Token) :
    ∃ used, ts = used ++ (qualifiers ts).2 ∧
      ∀ rest', rest'.take 2 = (qualifiers ts).2.take 2 →
        qualifiers (used ++ rest') = ((qualifiers ts).1, rest') := by
  fun_induction qualifiers ts with
  | case1 n rest more rest' hq ih =>
    rw [hq] at ih
    obtain ⟨used, hrest, hrun⟩ := ih
    refine ⟨.symbol .colon :: .identifier n :: used, ?_, fun ts htake => ?_⟩
    · rw [hrest]
      rfl
    · rw [List.cons_append, List.cons_append, qualifiers, hrun ts htake]
  | case2 ts hno =>
    refine ⟨[], rfl, fun ts' htake => ?_⟩
    rw [List.nil_append, qualifiers.eq_2]
    rintro n rest rfl
    -- a colon and an identifier in both of the next two places would have been taken
    rcases ts with _ | ⟨t, _ | ⟨t', ts⟩⟩
    · simp at htake
    · simp at htake
    · obtain ⟨rfl, rfl⟩ : .symbol .colon = t ∧ .identifier n = t' := by simpa using htake
      exact hno n ts rfl

/-- The tokens up to the closing parenthesis decide where it is. -/
theorem closeParens?_append {depth : Nat} {ts rest : List Token}
    (h : closeParens? depth ts = some rest) :
    ∃ used, ts = used ++ .symbol .rparen :: rest
      ∧ ∀ rest', closeParens? depth (used ++ .symbol .rparen :: rest') = some rest' := by
  fun_induction closeParens? depth ts with
  | case1 => cases h
  | case2 depth ts ih =>
    obtain ⟨used, rfl, hrun⟩ := ih h
    refine ⟨.symbol .lparen :: used, rfl, fun rest' => ?_⟩
    rw [List.cons_append, closeParens?]
    exact hrun rest'
  | case3 ts =>
    obtain rfl : ts = rest := Option.some.inj h
    exact ⟨[], rfl, fun rest' => rfl⟩
  | case4 depth ts ih =>
    obtain ⟨used, rfl, hrun⟩ := ih h
    exact ⟨.symbol .rparen :: used, rfl, hrun⟩
  | case5 depth t ts hl h0 hr ih =>
    obtain ⟨used, rfl, hrun⟩ := ih h
    refine ⟨t :: used, rfl, fun rest' => ?_⟩
    rw [List.cons_append, closeParens?]
    · exact hrun rest'
    · exact hl
    · exact h0
    · exact hr

/-- **An argument list is skipped** up to its closing parenthesis, if there is one. -/
theorem skipParens_cases {ts rest : List Token} {u : Unit} (h : skipParens ts = .ok (u, rest)) :
    (ts = rest ∧ rest.head? ≠ some (.symbol .lparen))
      ∨ ∃ used, ts = .symbol .lparen :: (used ++ .symbol .rparen :: rest)
        ∧ ∀ rest', skipParens (.symbol .lparen :: (used ++ .symbol .rparen :: rest'))
          = .ok ((), rest') := by
  by_cases hp : ts.head? = some (.symbol .lparen)
  · obtain ⟨mid, rfl⟩ := List.head?_eq_some_iff.mp hp
    unfold skipParens at h
    dsimp only at h
    split at h
    · next hclose =>
      obtain ⟨used, rfl, hrun⟩ := closeParens?_append hclose
      simp only [Except.ok.injEq, Prod.mk.injEq] at h
      obtain ⟨-, rfl⟩ := h
      refine .inr ⟨used, rfl, fun rest' => ?_⟩
      rw [skipParens, hrun rest']
    · cases h
  · rw [skipParens_of_ne hp] at h
    simp only [Except.ok.injEq, Prod.mk.injEq] at h
    obtain ⟨-, rfl⟩ := h
    exact .inl ⟨rfl, hp⟩

/-- A skipped argument list looks at the next token, for its parenthesis. -/
theorem peeks_skipParens : Peeks skipParens := by
  intro ts u rest h
  rcases skipParens_cases h with ⟨rfl, hp⟩ | ⟨used, rfl, hrun⟩
  · refine ⟨[], rfl, Nat.zero_le _, fun rest' htake => skipParens_of_ne ?_⟩
    rwa [List.nil_append, head?_eq_of_take htake]
  · refine ⟨.symbol .lparen :: (used ++ [.symbol .rparen]), by simp, Nat.zero_le _,
      fun rest' _ => ?_⟩
    rw [List.cons_append, List.append_assoc]
    exact hrun rest'

theorem local_attributeValue : Local 2 1 attributeValue := by
  intro ts v rest h
  cases attributeValue_eq_ok_iff.mp h with
  | string content =>
    exact ⟨[.string content], rfl, Nat.le_refl 1, fun rest' _ => rfl⟩
  | integer n => exact ⟨[.integer n], rfl, Nat.le_refl 1, fun rest' _ => rfl⟩
  | float x => exact ⟨[.float x], rfl, Nat.le_refl 1, fun rest' _ => rfl⟩
  | list hlist =>
    obtain ⟨used, rfl, -, hrun⟩ := local_commaList closed_name.peeks _ hlist
    refine ⟨.symbol .lparen :: used ++ [.symbol .rparen], by simp, by simp, fun rest' _ => ?_⟩
    rw [List.append_assoc, List.singleton_append]
    exact attributeValue_eq_ok_iff.mpr (.list (hrun _ rfl))
  | @names t first mid ht =>
    obtain ⟨used, hmid, hrun⟩ := qualifiers_append mid
    refine ⟨t :: used, by rw [List.cons_append, ← hmid], Nat.le_add_left 1 _,
      fun rest' htake => ?_⟩
    have hread : ReadsValue (t :: (used ++ rest')) _ _ := .names ht
    rw [hrun rest' htake] at hread
    exact attributeValue_eq_ok_iff.mpr hread

/-- An extended attribute looks as far as its value does. -/
theorem local_extendedAttribute : Local 2 0 extendedAttribute := by
  have hone : ∀ {α : Type} {p : Parser α}, Peeks p → Local 2 0 p :=
    fun h => h.mono (by decide) (Nat.le_refl 0)
  refine (hone closed_name.peeks).andThen fun n => (hone (peeks_eat _)).andThen fun b => ?_
  have hparens : ∀ v : Option AttributeValue,
      Local 2 0 (skipParens >>= fun _ => pure (⟨n, v⟩ : ExtendedAttribute)) :=
    fun v => (hone peeks_skipParens).andThen fun _ => local_pure _
  refine Local.ite ?_ ((local_pure none).andThen hparens)
  have hvalue : Local 2 0 attributeValue := local_attributeValue.mono (Nat.le_refl 2) (by decide)
  exact (hvalue.andThen fun v => local_pure (some v)).andThen hparens

/-- Attributes end with their bracket, or are none before another token. -/
theorem peeks_attributes : Peeks attributes := by
  refine (peeks_eat _).andThen fun b => Local.ite ?_ (local_pure [])
  have hclose : ∀ attrs : List ExtendedAttribute,
      Closed (Parser.symbol .rbracket >>= fun _ => pure attrs) :=
    fun attrs => (closed_symbol _).bind_pure fun _ => attrs
  have hattrs := Local.bind (local_commaList local_extendedAttribute)
    (fun attrs => (hclose attrs).mono (Nat.zero_le 1) (Nat.le_refl 1)) (Nat.le_refl 2)
  exact hattrs.mono (Nat.le_refl 1) (Nat.zero_le _)

/-! ## Members -/

theorem closed_defaultValue : Closed defaultValue := by
  intro ts u rest h
  unfold defaultValue at h
  split at h
  · obtain ⟨-, rfl⟩ : () = u ∧ _ = rest := by simpa using h
    exact ⟨[_], rfl, Nat.le_refl 1, fun rest' _ => rfl⟩
  · obtain ⟨-, rfl⟩ : () = u ∧ _ = rest := by simpa using h
    exact ⟨[_], rfl, Nat.le_refl 1, fun rest' _ => rfl⟩
  · obtain ⟨-, rfl⟩ : () = u ∧ _ = rest := by simpa using h
    exact ⟨[_], rfl, Nat.le_refl 1, fun rest' _ => rfl⟩
  · obtain ⟨-, rfl⟩ : () = u ∧ _ = rest := by simpa using h
    exact ⟨[_], rfl, Nat.le_refl 1, fun rest' _ => rfl⟩
  · obtain rfl := symbol_eq_ok_iff.mp h
    exact ⟨[_, _], rfl, by decide, fun rest' _ => symbol_eq_ok_iff.mpr rfl⟩
  · obtain rfl := symbol_eq_ok_iff.mp h
    exact ⟨[_, _], rfl, by decide, fun rest' _ => symbol_eq_ok_iff.mpr rfl⟩
  · cases h

theorem peeks_modifiers : Peeks modifiers := by
  intro ts u rest h
  unfold modifiers at h
  simp only [Except.ok.injEq, Prod.mk.injEq] at h
  obtain ⟨-, rfl⟩ := h
  refine ⟨ts.takeWhile isModifier, List.takeWhile_append_dropWhile.symm, Nat.zero_le _,
    fun rest' htake => ?_⟩
  have hstop : ∀ t ∈ rest'.head?, isModifier t = false := by
    rw [head?_eq_of_take htake]
    exact Scan.head_dropWhile isModifier ts
  rw [modifiers, (Scan.span_run (Scan.forall_takeWhile isModifier ts) hstop).2]

theorem peeks_argument : Peeks argument := by
  refine peeks_attributes.andThen fun attributes => (peeks_eat _).andThen fun optional => ?_
  refine peeks_type.andThen fun type => (peeks_eat _).andThen fun variadic => ?_
  refine closed_name.peeks.andThen fun name => ?_
  refine Local.ite ((peeks_eat _).andThen fun b => Local.ite ?_ (local_pure _)) (local_pure _)
  exact closed_defaultValue.peeks.andThen fun _ => local_pure _

theorem peeks_arguments : Peeks arguments :=
  (peeks_check _).andThen fun _ => Local.ite (local_pure []) (local_commaList peeks_argument)

theorem closed_constant : Closed constant := by
  refine peeks_type.closed_bind fun _ => closed_name.peeks.closed_bind fun _ => ?_
  refine (closed_symbol _).peeks.closed_bind fun _ => ?_
  exact closed_defaultValue.peeks.closed_bind fun _ => (closed_symbol _).bind_pure fun _ => _

theorem closed_property (attributes : List ExtendedAttribute) : Closed (property attributes) := by
  refine (peeks_eat _).closed_bind fun _ => (closed_keyword _).peeks.closed_bind fun _ => ?_
  refine peeks_type.closed_bind fun _ => closed_name.peeks.closed_bind fun _ => ?_
  exact (closed_symbol _).bind_pure fun _ => _

theorem closed_operation (attributes : List ExtendedAttribute) :
    Closed (operation attributes) := by
  refine peeks_type.closed_bind fun type => (peeks_check _).closed_bind fun b => ?_
  have hrest : ∀ name : String, Closed (Parser.symbol .lparen >>= fun _ =>
      arguments >>= fun arguments => Parser.symbol .rparen >>= fun _ =>
      Parser.symbol .semicolon >>= fun _ =>
      pure (Member.operation ⟨name, some type, arguments, attributes⟩)) := by
    intro name
    refine (closed_symbol _).peeks.closed_bind fun _ => peeks_arguments.closed_bind fun _ => ?_
    exact (closed_symbol _).peeks.closed_bind fun _ => (closed_symbol _).bind_pure fun _ => _
  exact Local.ite (Peeks.closed_bind (local_pure "") hrest)
    (closed_name.peeks.closed_bind hrest)

theorem closed_member : Closed member := by
  refine peeks_attributes.closed_bind fun attributes => (peeks_eat _).closed_bind fun b => ?_
  refine Local.ite closed_constant (peeks_modifiers.closed_bind fun _ => ?_)
  refine (peeks_check _).closed_bind fun _ => (peeks_check _).closed_bind fun _ => ?_
  exact Local.ite (closed_property attributes) (closed_operation attributes)

theorem closed_field : Closed field := by
  refine peeks_attributes.closed_bind fun _ => (peeks_eat _).closed_bind fun _ => ?_
  refine peeks_type.closed_bind fun _ => closed_name.peeks.closed_bind fun _ => ?_
  refine (peeks_eat _).closed_bind fun _ => Local.ite ?_ ((closed_symbol _).bind_pure fun _ => _)
  exact closed_defaultValue.peeks.closed_bind fun _ => (closed_symbol _).bind_pure fun _ => _

/-! ## Definitions -/

theorem peeks_inherited : Peeks inherited := by
  refine (peeks_eat _).andThen fun b => Local.ite ?_ (local_pure none)
  exact closed_name.peeks.andThen fun n => local_pure (some n)

theorem closed_braced {α : Type} {item : Parser α} (h : Closed item) : Closed (braced item) := by
  refine (closed_symbol _).peeks.closed_bind fun _ => (peeks_untilStop _ h).closed_bind fun _ => ?_
  exact (closed_symbol _).peeks.closed_bind fun _ => (closed_symbol _).bind_pure fun _ => _

theorem closed_interface (attributes : List ExtendedAttribute) :
    Closed (interface attributes) := by
  refine (closed_keyword _).peeks.closed_bind fun _ => (peeks_eat _).closed_bind fun _ => ?_
  refine closed_name.peeks.closed_bind fun _ => peeks_inherited.closed_bind fun _ => ?_
  exact (closed_braced closed_member).bind_pure fun _ => _

theorem closed_dictionary (attributes : List ExtendedAttribute) :
    Closed (dictionary attributes) := by
  refine (closed_keyword _).peeks.closed_bind fun _ => closed_name.peeks.closed_bind fun _ => ?_
  refine peeks_inherited.closed_bind fun _ => ?_
  exact (closed_braced closed_field).bind_pure fun _ => _

/-- The texts of an enumeration end before a token that does not go on with
them. -/
theorem enumValues_append (ts : List Token) :
    ∃ used, ts = used ++ (enumValues ts).2 ∧
      ∀ rest', rest'.take 1 = (enumValues ts).2.take 1 →
        enumValues (used ++ rest') = ((enumValues ts).1, rest') := by
  fun_induction enumValues ts with
  | case1 content rest values rest' hv ih =>
    rw [hv] at ih
    obtain ⟨used, hrest, hrun⟩ := ih
    refine ⟨.string content :: .symbol .comma :: used, ?_, fun ts htake => ?_⟩
    · rw [hrest]
      rfl
    · rw [List.cons_append, List.cons_append, enumValues, hrun ts htake]
  | case2 content rest hno =>
    refine ⟨[.string content], rfl, fun rest' htake => ?_⟩
    rw [List.singleton_append, enumValues.eq_2]
    rintro rest'' rfl
    obtain ⟨rest, rfl⟩ := List.head?_eq_some_iff.mp (head?_eq_of_take htake).symm
    exact hno rest rfl
  | case3 ts hno₁ hno₂ =>
    refine ⟨[], rfl, fun rest' htake => ?_⟩
    rw [List.nil_append, enumValues.eq_3]
    · rintro content rest'' rfl
      obtain ⟨rest, rfl⟩ := List.head?_eq_some_iff.mp (head?_eq_of_take htake).symm
      exact hno₂ content rest rfl
    · rintro content rest'' rfl
      obtain ⟨rest, rfl⟩ := List.head?_eq_some_iff.mp (head?_eq_of_take htake).symm
      exact hno₂ content rest rfl

theorem peeks_someEnumValues : Peeks someEnumValues := by
  intro ts values rest h
  obtain ⟨hv, hne⟩ := someEnumValues_eq_ok_iff.mp h
  obtain ⟨used, hts, hrun⟩ := enumValues_append ts
  rw [hv] at hts hrun
  exact ⟨used, hts, Nat.zero_le _,
    fun rest' htake => someEnumValues_eq_ok_iff.mpr ⟨hrun rest' htake, hne⟩⟩

theorem closed_enumeration (attributes : List ExtendedAttribute) :
    Closed (enumeration attributes) := by
  refine (closed_keyword _).peeks.closed_bind fun _ => closed_name.peeks.closed_bind fun _ => ?_
  refine (closed_symbol _).peeks.closed_bind fun _ => peeks_someEnumValues.closed_bind fun _ => ?_
  exact (closed_symbol _).peeks.closed_bind fun _ => (closed_symbol _).bind_pure fun _ => _

theorem closed_typedef (attributes : List ExtendedAttribute) : Closed (typedef attributes) := by
  refine (closed_keyword _).peeks.closed_bind fun _ => peeks_attributes.closed_bind fun _ => ?_
  refine peeks_type.closed_bind fun _ => closed_name.peeks.closed_bind fun _ => ?_
  exact (closed_symbol _).bind_pure fun _ => _

/-- **A definition is closed**: no token behind its semicolon has a part in how it
is read. -/
theorem closed_definition : Closed definition := by
  refine peeks_attributes.closed_bind fun attributes => (peeks_eat _).closed_bind fun _ => ?_
  refine (peeks_check _).closed_bind fun _ => Local.ite (closed_interface attributes) ?_
  refine (peeks_check _).closed_bind fun _ => Local.ite (closed_dictionary attributes) ?_
  refine (peeks_check _).closed_bind fun _ => Local.ite (closed_enumeration attributes) ?_
  exact (peeks_check _).closed_bind fun _ => Local.ite (closed_typedef attributes) (local_misfit _)

end IntentContract.Grammar
