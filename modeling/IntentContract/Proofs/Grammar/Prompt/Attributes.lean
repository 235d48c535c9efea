import IntentContract.Proofs.Grammar.Prompt
import IntentContract.Proofs.Grammar.RoundTrip

/-!
# Where extended attributes fail

A value without quotes is a name with others joined to it by colons, and a colon is taken only if
an identifier follows. So a list of attributes can end before a colon in two ways: what stands in
front is complete, and the colon is the token to blame, or it is a value that the colon could have
gone on with, and then the token behind the colon is. `AttributeEnd` tells the two apart by the last
tokens taken.
-/

namespace IntentContract.Grammar

open IntentContract.Parser

variable {ts mid : List Token} {e : SyntaxError}

/-! ## Skipped argument lists -/

/-- Parentheses left open can be closed. -/
theorem closeParens?_of_none {depth : Nat} (h : closeParens? depth ts = none) :
    ∃ more, ∀ rest, closeParens? depth (ts ++ (more ++ rest)) = some rest := by
  fun_induction closeParens? depth ts with
  | case1 depth =>
    refine ⟨List.replicate (depth + 1) (.symbol .rparen), fun rest => ?_⟩
    induction depth with
    | zero => rfl
    | succ depth ih => exact ih
  | case2 depth ts ih =>
    obtain ⟨more, hmore⟩ := ih h
    refine ⟨more, fun rest => ?_⟩
    rw [List.cons_append, closeParens?]
    exact hmore rest
  | case3 ts => cases h
  | case4 depth ts ih => exact ih h
  | case5 depth t ts hl h0 hr ih =>
    obtain ⟨more, hmore⟩ := ih h
    refine ⟨more, fun rest => ?_⟩
    rw [List.cons_append, closeParens?]
    · exact hmore rest
    · exact hl
    · exact h0
    · exact hr

/-- A list without its closing parenthesis fails at the end, and could have gone on there. -/
theorem fails_skipParens (h : skipParens ts = .error e) :
    ∃ front, ts = front ++ e.rest ∧ SyntaxError.Placed e front
      ∧ Stumbles (· ≠ some (.symbol .lparen)) skipParens ts (e.place front) := by
  have hplain : SyntaxError.Plain ⟨.closingParenthesis, []⟩ :=
    ⟨by simp [SyntaxError.Belated], by simp⟩
  have hrun := h
  unfold skipParens at h
  split at h
  · next rest =>
    split at h
    · cases h
    · next hclose =>
      obtain rfl := Except.error.inj h
      refine ⟨.symbol .lparen :: rest, (List.append_nil _).symm, hplain.placed _, ?_⟩
      rw [hplain.place_eq]
      refine ⟨Nat.le_refl _, fun ts' hagree => ?_, fun _ => ?_⟩
      · rw [eq_of_take_length hagree]
        exact ⟨_, hrun⟩
      · obtain ⟨more, hmore⟩ := closeParens?_of_none hclose
        refine ⟨more, (), fun rest' _ => ?_⟩
        rw [List.take_length, List.cons_append, skipParens, hmore rest']
  · cases h

theorem guided_skipParens : Guided (· ≠ some (.symbol .lparen)) none skipParens where
  look := peeks_skipParens
  prompt ts := by
    by_cases hp : ts.head? = some (.symbol .lparen)
    · obtain ⟨ts, rfl⟩ := List.head?_eq_some_iff.mp hp
      refine ⟨fun u mid h => ?_, fun e h => ?_⟩
      · rcases skipParens_cases h with ⟨rfl, hne⟩ | ⟨used, hts, hrun⟩
        · exact absurd rfl hne
        · refine ⟨.symbol .lparen :: (used ++ [.symbol .rparen]), by simp [hts], fun rest _ => ?_⟩
          rw [List.cons_append, List.append_assoc]
          exact hrun rest
      · exact fails_skipParens h
    · have hskip : ∀ ts' : List Token, ts'.head? ≠ some (.symbol .lparen) →
          skipParens ts' = (pure () : Parser Unit) ts' := fun ts' => skipParens_of_ne
      exact PromptAt.of_head (C := (· ≠ some (.symbol .lparen))) hp hskip
        ((guided_pure ()).prompt ts) fun _ _ _ ho => ho
  opens := ⟨[], (), rfl, fun rest hrest => skipParens_of_ne hrest⟩

/-! ## Values -/

/-- A value with names joined to it ends in a name. -/
theorem endsInValue_joined (ns : List String) {t : Token} (ht : t.name? ≠ none) :
    endsInValue (.symbol .equals :: t :: joined ns) = true := by
  rcases List.eq_nil_or_concat ns with rfl | ⟨ns, n, rfl⟩
  · simp [endsInValue, Option.isSome_iff_ne_none, ht]
  · have hjoined : .symbol .equals :: t :: joined (ns.concat n)
        = (.symbol .equals :: t :: joined ns) ++ [.symbol .colon, .identifier n] := by
      simp [joined]
    rw [hjoined, endsInValue_append _ (by simp)]
    rfl

/-- **A value is complete, or it goes on with a colon.** -/
theorem attributeValue_cases {v : AttributeValue} (h : attributeValue ts = .ok (v, mid)) :
    (∃ used t, t.name? = none ∧ ts = used ++ t :: mid
      ∧ ∀ rest, attributeValue (used ++ t :: rest) = .ok (v, rest))
    ∨ ∃ t first ns, t.name? = some first ∧ ts = t :: (joined ns ++ mid)
      ∧ v = .identifier (Text.join ":" (first :: ns)) := by
  cases attributeValue_eq_ok_iff.mp h with
  | string content => exact .inl ⟨[], .string content, rfl, rfl, fun _ => rfl⟩
  | integer n => exact .inl ⟨[], .integer n, rfl, rfl, fun _ => rfl⟩
  | float x => exact .inl ⟨[], .float x, rfl, rfl, fun _ => rfl⟩
  | list hlist =>
    obtain ⟨used, rfl, -, hrun⟩ := local_commaList closed_name.peeks _ hlist
    refine .inl ⟨.symbol .lparen :: used, .symbol .rparen, rfl, rfl, fun rest => ?_⟩
    exact attributeValue_eq_ok_iff.mpr (.list (hrun _ rfl))
  | @names t first mid ht =>
    obtain ⟨ns, hmid, hjoin⟩ := eq_joined_append mid
    exact .inr ⟨t, first, ns, ht, by rw [← hmid], by rw [hjoin]⟩

/-- Names in parentheses. -/
theorem attributeValue_lparen (ts : List Token) :
    attributeValue (.symbol .lparen :: ts) = (Parser.commaList Parser.name >>= fun names =>
      Parser.symbol .rparen >>= fun _ => pure (AttributeValue.list names)) ts := by
  rw [attributeValue]
  cases hlist : Parser.commaList Parser.name ts with
  | error e => rw [bind_of_error hlist]
  | ok r =>
    obtain ⟨names, mid⟩ := r
    rw [bind_of_ok hlist]
    by_cases hr : mid.head? = some (.symbol .rparen)
    · obtain ⟨rest, rfl⟩ := List.head?_eq_some_iff.mp hr
      rw [bind_of_ok (symbol_eq_ok_iff (u := ()).mpr rfl)]
      rfl
    · rw [bind_of_error (symbol_eq_error_iff.mpr ⟨rfl, hr⟩)]
      split
      · next heq => cases heq
      · next heq =>
        obtain ⟨-, rfl⟩ : names = _ ∧ mid = _ := by simpa using heq
        exact absurd rfl hr
      · next heq =>
        obtain ⟨-, rfl⟩ : names = _ ∧ mid = _ := by simpa using heq
        rfl

theorem guided_names : Guided Anything (some anyName)
    (Parser.commaList Parser.name >>= fun names =>
      Parser.symbol .rparen >>= fun _ => pure (AttributeValue.list names)) := by
  have hlist : Guided (· ≠ some (.symbol .comma)) (some anyName) (Parser.commaList Parser.name) :=
    guided_name.commaList (G := Anything) trivial fun o ho => ⟨trivial, ho⟩
  refine hlist.bind (some (.symbol .rparen)) (fun names => ?_) fun o _ => by simp
  exact (guided_symbol (by decide)).andThen none fun _ => guided_pure _

/-- A value that does not begin as one fails at its first token, and only because of it. -/
theorem attributeValue_eq_error (hl : ts.head? ≠ some (.symbol .lparen))
    (h : attributeValue ts = .error e) : e = ⟨.identifier, ts⟩ := by
  unfold attributeValue at h
  split at h
  · cases h
  · cases h
  · cases h
  · exact absurd rfl hl
  · split at h
    · next hname =>
      rw [← Except.error.inj h]
      exact (name_eq_error_iff.mp hname).1
    · cases h

theorem attributeValue_error_of_head? {ts' : List Token} (hl : ts.head? ≠ some (.symbol .lparen))
    (h : attributeValue ts = .error e) (hts : ts'.head? = ts.head?) :
    ∃ e', attributeValue ts' = .error e' := by
  cases hrun : attributeValue ts' with
  | error e' => exact ⟨e', rfl⟩
  | ok r =>
    obtain ⟨v, rest⟩ := r
    -- a first token that begins a value would have begun one before
    have hno : ∀ {v rest}, ¬ ReadsValue ts v rest := fun hread =>
      nomatch h.symm.trans (attributeValue_eq_ok_iff.mpr hread)
    exfalso
    cases attributeValue_eq_ok_iff.mp hrun with
    | string content =>
      obtain ⟨rest, rfl⟩ := List.head?_eq_some_iff.mp hts.symm
      exact hno (.string content rest)
    | integer n =>
      obtain ⟨rest, rfl⟩ := List.head?_eq_some_iff.mp hts.symm
      exact hno (.integer n rest)
    | float x =>
      obtain ⟨rest, rfl⟩ := List.head?_eq_some_iff.mp hts.symm
      exact hno (.float x rest)
    | list => exact hl hts.symm
    | names ht =>
      obtain ⟨rest, rfl⟩ := List.head?_eq_some_iff.mp hts.symm
      exact hno (.names ht)

theorem promptAt_attributeValue (ts : List Token) :
    PromptAt (· ≠ some (.symbol .colon)) attributeValue ts := by
  cases hrun : attributeValue ts with
  | ok r =>
    refine ⟨fun v mid h => ?_, fun e h => nomatch hrun.symm.trans h⟩
    rcases attributeValue_cases h with ⟨used, t, -, rfl, hrest⟩ | ⟨t, first, ns, ht, rfl, rfl⟩
    · refine ⟨used ++ [t], by simp, fun rest _ => ?_⟩
      rw [List.append_assoc]
      exact hrest rest
    · exact ⟨t :: joined ns, rfl,
        fun rest hrest => attributeValue_names ht ns (ne_joined_of_head? hrest)⟩
  | error e =>
    by_cases hl : ts.head? = some (.symbol .lparen)
    · obtain ⟨ts, rfl⟩ := List.head?_eq_some_iff.mp hl
      exact PromptAt.cons attributeValue_lparen (guided_names.prompt ts |>.mono fun _ _ => trivial)
        (guided_names.opens.mono fun _ _ => trivial)
    · obtain rfl := attributeValue_eq_error hl hrun
      exact PromptAt.of_error hrun ⟨by simp [SyntaxError.Belated], by simp⟩
        fun ts' hts => attributeValue_error_of_head? hl hrun hts

/-! ## Attributes -/

/-- What may follow an extended attribute in a list. -/
def AttributeFollow : Follow := fun o =>
  o = some (.symbol .comma) ∨ o = some (.symbol .rbracket)

theorem AttributeFollow.ne {o : Option Token} (h : AttributeFollow o) :
    o ≠ some (.symbol .equals) ∧ o ≠ some (.symbol .lparen) ∧ o ≠ some (.symbol .colon) := by
  rcases h with rfl | rfl <;> simp

theorem guided_attributeEnd (n : String) (value : Option AttributeValue) :
    Guided AttributeFollow none
      (skipParens >>= fun _ => pure (⟨n, value⟩ : ExtendedAttribute)) :=
  (guided_skipParens.bind none (fun _ => guided_pure _) fun _ ho => ho).mono
    fun _ ho => ho.ne.2.1

/-- The value of an attribute and what is skipped behind it. -/
theorem promptAt_value (n : String) (ts : List Token) :
    PromptAt AttributeFollow ((attributeValue >>= fun v => pure (some v)) >>= fun value =>
      skipParens >>= fun _ => pure (⟨n, value⟩ : ExtendedAttribute)) ts := by
  have hvalue := (promptAt_attributeValue ts).bind_pure some
  by_cases hcolon : ∃ v mid, attributeValue ts = .ok (v, mid) ∧ mid.head? = some (.symbol .colon)
  · -- nothing is skipped in front of a colon, so there is nothing to fail
    obtain ⟨v, mid, hrun, hmid⟩ := hcolon
    have hskip : ∀ {used rest : List Token}, attributeValue used = .ok (v, rest) →
        rest.head? ≠ some (.symbol .lparen) →
        ((attributeValue >>= fun v => pure (some v)) >>= fun value =>
          skipParens >>= fun _ => pure (⟨n, value⟩ : ExtendedAttribute)) used
            = .ok (⟨n, some v⟩, rest) := by
      intro used rest hused hrest
      rw [bind_of_ok (bind_of_ok hused), bind_of_ok (skipParens_of_ne hrest)]
      rfl
    have hall := hskip hrun (by simp [hmid])
    refine ⟨fun a mid' h => ?_, fun e h => nomatch hall.symm.trans h⟩
    obtain ⟨rfl, rfl⟩ : ⟨n, some v⟩ = a ∧ mid = mid' := by simpa [hall] using h
    obtain ⟨used, hts, hstops⟩ := (promptAt_attributeValue ts).stops hrun
    exact ⟨used, hts, fun rest hrest => hskip (hstops rest hrest.ne.2.2) hrest.ne.2.1⟩
  · have hlocal : LocalAt 1 0 (attributeValue >>= fun v => pure (some v)) ts := by
      refine hvalue.localAt fun value mid h hmid => ?_
      obtain ⟨v, mid', hrun, hpure⟩ := bind_eq_ok_iff.mp h
      obtain ⟨-, rfl⟩ := pure_eq_ok_iff.mp hpure
      exact hcolon ⟨v, mid, hrun, hmid⟩
    refine hvalue.bind hlocal (fun value mid _ => (guided_attributeEnd n value).prompt mid)
      (fun value => (guided_attributeEnd n value).opens) (fun o ho => ho.ne.2.2) ?_
    exact fun _ _ _ _ _ o ho => ho.ne.2.2

theorem opens_value (n : String) :
    Opens AttributeFollow (some anyName)
      ((attributeValue >>= fun v => pure (some v)) >>= fun value =>
        skipParens >>= fun _ => pure (⟨n, value⟩ : ExtendedAttribute)) := by
  have hvalue : Opens (· ≠ some (.symbol .colon)) (some anyName) attributeValue :=
    ⟨[anyName], _, rfl, fun rest hrest => attributeValue_names rfl [] (ne_joined_of_head? hrest)⟩
  exact (hvalue.bind_pure some).bind (fun value => (guided_attributeEnd n value).opens)
    fun o ho => ho.ne.2.2

/-- What follows the name of an extended attribute. -/
theorem opens_behindName (n : String) : Opens AttributeFollow none
    (Parser.eat (.symbol .equals) >>= fun b =>
      if b = true then (attributeValue >>= fun v => pure (some v)) >>= fun value =>
        skipParens >>= fun _ => pure (⟨n, value⟩ : ExtendedAttribute)
      else skipParens >>= fun _ => pure ⟨n, none⟩) :=
  Opens.eat_bind (guided_attributeEnd n none).opens fun _ ho => ho.ne.1

/-- **An extended attribute is prompt.** -/
theorem promptAt_extendedAttribute (ts : List Token) :
    PromptAt AttributeFollow extendedAttribute ts := by
  refine (guided_name.prompt ts).bind (G := Anything) (guided_name (F := Anything).peeks ts)
    (fun n mid _ => ?_) opens_behindName (fun _ _ => trivial) fun _ _ _ _ _ _ _ => trivial
  exact PromptAt.eat_bind (promptAt_value n) (opens_value n)
    ((guided_attributeEnd n none).prompt mid) fun _ _ _ ho => ho.ne.1

theorem opens_extendedAttribute : Opens AttributeFollow (some anyName) extendedAttribute :=
  guided_name.opens.bind (G := Anything) opens_behindName fun _ _ => trivial

/-! ## The end of a list of attributes -/

/-- **How a reader of attributes ends**: either with a value that a colon and a name would go on
with, or with something else. Only in the first case, and in front of a colon, does it matter what
stands behind the next token. -/
inductive AttributeEnd {α : Type} (p : Parser α) (used mid : List Token) (a : α) : Prop where
  | inValue (hends : endsInValue used = true)
      (hmore : ∃ b, ∀ rest, rest.head? = some (.symbol .rbracket) →
        p (used ++ .symbol .colon :: anyName :: rest) = .ok (b, rest))
      (hrun : mid.head? ≠ some (.symbol .colon) →
        ∀ rest, rest.take 1 = mid.take 1 → p (used ++ rest) = .ok (a, rest))
  | outside (hends : ∀ sep, sep = .symbol .lbracket ∨ sep = .symbol .comma →
        endsInValue (sep :: used) = false)
      (hrun : ∀ rest, rest.take 1 = mid.take 1 → p (used ++ rest) = .ok (a, rest))

variable {t : Token} {n : String}

/-- An attribute with a value. -/
theorem extendedAttribute_of_value {v : AttributeValue} {rest : List Token}
    (ht : t.name? = some n) (hv : attributeValue ts = .ok (v, mid))
    (hskip : skipParens mid = .ok ((), rest)) :
    extendedAttribute (t :: .symbol .equals :: ts) = .ok (⟨n, some v⟩, rest) := by
  refine bind_eq_ok_iff.mpr ⟨n, _, name_cons ht _, bind_eq_ok_iff.mpr ⟨true, ts, ?_, ?_⟩⟩
  · exact eat_eq_ok_iff.mpr (.inl ⟨rfl, rfl⟩)
  · refine bind_eq_ok_iff.mpr ⟨some v, mid, bind_of_ok hv, ?_⟩
    exact bind_eq_ok_iff.mpr ⟨(), rest, hskip, rfl⟩

/-- An attribute without a value. -/
theorem extendedAttribute_of_name {rest : List Token} (ht : t.name? = some n)
    (hne : ts.head? ≠ some (.symbol .equals)) (hskip : skipParens ts = .ok ((), rest)) :
    extendedAttribute (t :: ts) = .ok (⟨n, none⟩, rest) := by
  refine bind_eq_ok_iff.mpr ⟨n, ts, name_cons ht _, bind_eq_ok_iff.mpr ⟨false, ts, ?_, ?_⟩⟩
  · exact eat_eq_ok_iff.mpr (.inr ⟨rfl, rfl, hne⟩)
  · exact bind_eq_ok_iff.mpr ⟨none, ts, rfl, bind_eq_ok_iff.mpr ⟨(), rest, hskip, rfl⟩⟩

/-- An attribute has a name, and a value behind an equals sign. -/
theorem extendedAttribute_cases {a : ExtendedAttribute} (h : extendedAttribute ts = .ok (a, mid)) :
    ∃ t n, t.name? = some n ∧
      ((∃ rest, ts = t :: rest ∧ rest.head? ≠ some (.symbol .equals)
          ∧ skipParens rest = .ok ((), mid) ∧ a = ⟨n, none⟩)
        ∨ ∃ rest v rest', ts = t :: .symbol .equals :: rest ∧ attributeValue rest = .ok (v, rest')
          ∧ skipParens rest' = .ok ((), mid) ∧ a = ⟨n, some v⟩) := by
  obtain ⟨n, rest, hname, hrest⟩ := bind_eq_ok_iff.mp h
  obtain ⟨t, rfl, ht⟩ := name_eq_ok_iff.mp hname
  obtain ⟨b, rest', heat, hbranch⟩ := bind_eq_ok_iff.mp hrest
  refine ⟨t, n, ht, ?_⟩
  have hend : ∀ {value : Option AttributeValue} {ts : List Token},
      (skipParens >>= fun _ => pure (⟨n, value⟩ : ExtendedAttribute)) ts = .ok (a, mid) →
      skipParens ts = .ok ((), mid) ∧ a = ⟨n, value⟩ := by
    intro value ts hts
    obtain ⟨⟨⟩, mid', hskip, hpure⟩ := bind_eq_ok_iff.mp hts
    obtain ⟨rfl, rfl⟩ := pure_eq_ok_iff.mp hpure
    exact ⟨hskip, rfl⟩
  rcases eat_eq_ok_iff.mp heat with ⟨rfl, rfl⟩ | ⟨rfl, rfl, hne⟩
  · obtain ⟨value, mid', hvalue, hskip⟩ := bind_eq_ok_iff.mp hbranch
    obtain ⟨v, mid'', hv, hpure⟩ := bind_eq_ok_iff.mp hvalue
    obtain ⟨rfl, rfl⟩ := pure_eq_ok_iff.mp hpure
    exact .inr ⟨_, v, _, rfl, hv, hend hskip⟩
  · exact .inl ⟨_, rfl, hne, hend hbranch⟩

/-- An attribute whose value is of names could go on with a colon and one more. -/
theorem attributeEnd_names {t' : Token} {first : String} (ht : t.name? = some n)
    (ht' : t'.name? = some first) (ns : List String) (hl : mid.head? ≠ some (.symbol .lparen)) :
    AttributeEnd extendedAttribute (t :: .symbol .equals :: t' :: joined ns) mid
      ⟨n, some (.identifier (Text.join ":" (first :: ns)))⟩ := by
  have hends := endsInValue_joined ns (t := t') (by simp [ht'])
  refine .inValue ?_ ?_ fun hcolon rest hrest => ?_
  · exact (endsInValue_append [t] (two_le_of_endsInValue hends)).trans hends
  · -- the colon and the name are taken into the value
    refine ⟨⟨n, some (.identifier (Text.join ":" (first :: (ns ++ ["x"]))))⟩, fun rest hrest => ?_⟩
    have hcolon : rest.head? ≠ some (.symbol .colon) := by simp [hrest]
    have hvalue := attributeValue_names ht' (ns ++ ["x"]) (ne_joined_of_head? hcolon)
    rw [joined, List.flatMap_append, List.append_assoc] at hvalue
    exact extendedAttribute_of_value ht hvalue (skipParens_of_ne (by simp [hrest]))
  · have hhead := head?_eq_of_take hrest
    exact extendedAttribute_of_value ht
      (attributeValue_names ht' ns (ne_joined_of_head? (by rwa [hhead])))
      (skipParens_of_ne (by rwa [hhead]))

/-- **How an extended attribute ends.** -/
theorem attributeEnd_extendedAttribute {a : ExtendedAttribute}
    (h : extendedAttribute ts = .ok (a, mid)) :
    ∃ used, ts = used ++ mid ∧ used ≠ [] ∧ AttributeEnd extendedAttribute used mid a := by
  obtain ⟨t, n, ht, hcases⟩ := extendedAttribute_cases h
  rcases hcases with ⟨ts, rfl, hne, hskip, rfl⟩ | ⟨ts, v, ts', rfl, hv, hskip, rfl⟩
  · rcases skipParens_cases hskip with ⟨rfl, hl⟩ | ⟨used, rfl, hrun⟩
    · refine ⟨[t], rfl, by simp, .outside (fun sep hsep => ?_) fun rest hrest => ?_⟩
      · rcases hsep with rfl | rfl <;> rfl
      · have hhead := head?_eq_of_take hrest
        rw [List.singleton_append]
        exact extendedAttribute_of_name ht (by rwa [hhead]) (skipParens_of_ne (by rwa [hhead]))
    · refine ⟨t :: .symbol .lparen :: used ++ [.symbol .rparen], by simp, by simp,
        .outside (fun sep _ => ?_) fun rest _ => ?_⟩
      · exact endsInValue_append_singleton (sep :: t :: .symbol .lparen :: used) rfl
      · rw [List.append_assoc]
        exact extendedAttribute_of_name ht (by simp) (hrun rest)
  · rcases skipParens_cases hskip with ⟨rfl, hl⟩ | ⟨used, rfl, hrun⟩
    · rcases attributeValue_cases hv with
        ⟨used, t', ht', rfl, hrun⟩ | ⟨t', first, ns, ht', rfl, rfl⟩
      · refine ⟨t :: .symbol .equals :: used ++ [t'], by simp, by simp,
          .outside (fun sep _ => ?_) fun rest hrest => ?_⟩
        · exact endsInValue_append_singleton (sep :: t :: .symbol .equals :: used) ht'
        · rw [List.append_assoc]
          refine extendedAttribute_of_value ht (hrun rest) (skipParens_of_ne ?_)
          rwa [head?_eq_of_take hrest]
      · exact ⟨t :: .symbol .equals :: t' :: joined ns, rfl, by simp,
          attributeEnd_names ht ht' ns hl⟩
    · obtain ⟨usedValue, rfl, hstops⟩ := (promptAt_attributeValue ts).stops hv
      refine ⟨t :: .symbol .equals :: (usedValue ++ .symbol .lparen :: used) ++ [.symbol .rparen],
        by simp, by simp, .outside (fun sep _ => ?_) fun rest _ => ?_⟩
      · exact endsInValue_append_singleton
          (sep :: t :: .symbol .equals :: (usedValue ++ .symbol .lparen :: used)) rfl
      · have hvalue := hstops (.symbol .lparen :: (used ++ .symbol .rparen :: rest)) (by simp)
        have hall := extendedAttribute_of_value ht hvalue (hrun rest)
        simpa using hall

/-- In front of anything but a colon, what follows the next token does not matter. -/
theorem AttributeEnd.run {α : Type} {p : Parser α} {used : List Token} {a : α}
    (h : AttributeEnd p used mid a) (hmid : mid.head? ≠ some (.symbol .colon)) :
    ∀ rest, rest.take 1 = mid.take 1 → p (used ++ rest) = .ok (a, rest) := by
  cases h with
  | inValue _ _ hrun => exact hrun hmid
  | outside _ hrun => exact hrun

/-- A list of one attribute ends as the attribute does. -/
theorem AttributeEnd.commaList_of_end {used : List Token} {a : ExtendedAttribute}
    (h : AttributeEnd extendedAttribute used mid a) (hmid : mid.head? ≠ some (.symbol .comma)) :
    AttributeEnd (Parser.commaList extendedAttribute) used mid [a] := by
  have hrest : ∀ {rest : List Token}, rest.take 1 = mid.take 1 →
      rest.head? ≠ some (.symbol .comma) := fun htake => by rwa [head?_eq_of_take htake]
  cases h with
  | inValue hends hmore hrun =>
    obtain ⟨b, hb⟩ := hmore
    refine .inValue hends ⟨[b], fun rest hr => ?_⟩ fun hcolon rest htake => ?_
    · exact Parser.commaList_of_end (hb rest hr) (by simp [hr])
    · exact Parser.commaList_of_end (hrun hcolon rest htake) (hrest htake)
  | outside hends hrun =>
    exact .outside hends fun rest htake =>
      Parser.commaList_of_end (hrun rest htake) (hrest htake)

/-- A list of attributes ends as the list behind its first comma does. -/
theorem AttributeEnd.commaList_of_comma {used used' : List Token} {a : ExtendedAttribute}
    {attrs : List ExtendedAttribute}
    (hgo : ∀ ts', Parser.commaList extendedAttribute (used ++ .symbol .comma :: ts')
      = (Parser.commaList extendedAttribute >>= fun as => pure (a :: as)) ts')
    (hused : used' ≠ []) (h : AttributeEnd (Parser.commaList extendedAttribute) used' mid attrs) :
    AttributeEnd (Parser.commaList extendedAttribute) (used ++ .symbol .comma :: used') mid
      (a :: attrs) := by
  have hrun : ∀ {ts' rest : List Token} {as : List ExtendedAttribute},
      Parser.commaList extendedAttribute (used' ++ ts') = .ok (as, rest) →
      Parser.commaList extendedAttribute ((used ++ .symbol .comma :: used') ++ ts')
        = .ok (a :: as, rest) := by
    intro ts' rest as hts
    rw [List.append_assoc, List.cons_append, hgo, bind_of_ok hts]
    rfl
  cases h with
  | inValue hends hmore hrest =>
    obtain ⟨b, hb⟩ := hmore
    refine .inValue ?_ ⟨a :: b, fun rest hr => hrun (hb rest hr)⟩ fun hcolon rest htake =>
      hrun (hrest hcolon rest htake)
    have happend := endsInValue_append (used ++ [.symbol .comma]) (two_le_of_endsInValue hends)
    rwa [List.append_assoc, List.singleton_append, hends] at happend
  | outside hends hrest =>
    refine .outside (fun sep _ => ?_) fun rest htake => hrun (hrest rest htake)
    have htwo : 2 ≤ (Token.symbol .comma :: used').length := by
      have := List.length_pos_iff.mpr hused
      rw [List.length_cons]
      omega
    rw [← List.cons_append, endsInValue_append (sep :: used) htwo]
    exact hends _ (.inr rfl)

/-- **How a list of attributes ends**: as the last of them does. -/
theorem attributeEnd_commaList {attrs : List ExtendedAttribute}
    (h : Parser.commaList extendedAttribute ts = .ok (attrs, mid)) :
    ∃ used, ts = used ++ mid ∧ used ≠ []
      ∧ AttributeEnd (Parser.commaList extendedAttribute) used mid attrs := by
  induction hlen : ts.length using Nat.strongRecOn generalizing ts attrs with
  | ind k ih =>
    cases hitem : extendedAttribute ts with
    | error e => cases (commaList_of_error hitem).symm.trans h
    | ok r =>
      obtain ⟨a, mid'⟩ := r
      obtain ⟨used, rfl, hused, hend⟩ := attributeEnd_extendedAttribute hitem
      by_cases hcomma : mid'.head? = some (.symbol .comma)
      · obtain ⟨rest, rfl⟩ := List.head?_eq_some_iff.mp hcomma
        have hgo : ∀ ts', Parser.commaList extendedAttribute (used ++ .symbol .comma :: ts')
            = (Parser.commaList extendedAttribute >>= fun as => pure (a :: as)) ts' := by
          intro ts'
          refine Parser.commaList_of_comma (hend.run (by simp) _ rfl) ?_
          rw [List.length_append, List.length_cons]
          omega
        rw [hgo] at h
        obtain ⟨as, mid', hlist, hpure⟩ := bind_eq_ok_iff.mp h
        obtain ⟨rfl, rfl⟩ := pure_eq_ok_iff.mp hpure
        have hlt : rest.length < k := by
          rw [← hlen, List.length_append, List.length_cons]
          omega
        obtain ⟨used', rfl, hused', hend'⟩ := ih rest.length hlt hlist rfl
        exact ⟨used ++ .symbol .comma :: used', by simp, by simp,
          hend'.commaList_of_comma hgo hused'⟩
      · obtain ⟨rfl, rfl⟩ : [a] = attrs ∧ mid' = mid := by
          simpa [Parser.commaList_of_end hitem hcomma] using h
        exact ⟨used, rfl, hused, hend.commaList_of_end hcomma⟩

/-! ## Attributes in brackets -/

/-- Behind a bracket there are attributes and another bracket. -/
theorem attributes_lbracket (ts : List Token) :
    attributes (.symbol .lbracket :: ts) = (Parser.commaList extendedAttribute >>= fun attrs =>
      Parser.symbol .rbracket >>= fun _ => pure attrs) ts :=
  bind_of_ok (eat_eq_ok_iff.mpr (.inl ⟨rfl, rfl⟩))

theorem attributes_of_ne (h : ts.head? ≠ some (.symbol .lbracket)) :
    attributes ts = .ok ([], ts) :=
  bind_of_ok (eat_eq_ok_iff.mpr (.inr ⟨rfl, rfl, h⟩))

/-- What stands between the brackets is a list of attributes. -/
theorem promptAt_attributeList (ts : List Token) :
    PromptAt (· = some (.symbol .rbracket)) (Parser.commaList extendedAttribute) ts :=
  promptAt_commaList promptAt_extendedAttribute opens_extendedAttribute (.inl rfl)
    (fun o ho => ⟨.inr ho, by simp [ho]⟩) ts

section Unclosed

variable {used : List Token} {attrs : List ExtendedAttribute}

/-- Attributes that are not followed by their bracket give an error. -/
theorem attributes_eq_error {rest : List Token}
    (h : Parser.commaList extendedAttribute ts = .ok (attrs, rest))
    (hrest : rest.head? ≠ some (.symbol .rbracket)) :
    attributes (.symbol .lbracket :: ts) = .error ⟨.symbol .rbracket, rest⟩ := by
  rw [attributes_lbracket, bind_of_ok h, bind_of_error (symbol_eq_error_iff.mpr ⟨rfl, hrest⟩)]

/-- Attributes that are followed by their bracket are read. -/
theorem attributes_eq_ok {rest : List Token}
    (h : Parser.commaList extendedAttribute ts = .ok (attrs, .symbol .rbracket :: rest)) :
    attributes (.symbol .lbracket :: ts) = .ok (attrs, rest) := by
  rw [attributes_lbracket, bind_of_ok h, bind_of_ok (symbol_eq_ok_iff (u := ()).mpr rfl)]
  rfl

/-- If only the next token matters, it is to blame. -/
theorem stumbles_attributes_here
    (h : Parser.commaList extendedAttribute (used ++ mid) = .ok (attrs, mid))
    (hmid : mid.head? ≠ some (.symbol .rbracket))
    (hrun : ∀ rest, rest.take 1 = mid.take 1 →
      Parser.commaList extendedAttribute (used ++ rest) = .ok (attrs, rest)) :
    Stumbles (· ≠ some (.symbol .lbracket)) attributes ((.symbol .lbracket :: used) ++ mid)
      (Token.symbol .lbracket :: used).length where
  le := by simp
  dead ts' hagree := by
    obtain ⟨rest, rfl, hrest⟩ := exists_of_take_append hagree
    refine ⟨_, attributes_eq_error (hrun rest hrest) ?_⟩
    rwa [head?_eq_of_take hrest]
  alive _ := by
    obtain ⟨used', hused, hstops⟩ := (promptAt_attributeList _).stops h
    obtain rfl : used = used' := List.append_cancel_right hused
    refine ⟨[.symbol .rbracket], attrs, fun rest _ => ?_⟩
    rw [List.take_left]
    exact attributes_eq_ok (hstops (.symbol .rbracket :: rest) rfl)

/-- If a colon could have gone on with a value, the token behind it is to blame. -/
theorem stumbles_attributes_behind {rest : List Token}
    (h : Parser.commaList extendedAttribute (used ++ .symbol .colon :: rest)
      = .ok (attrs, .symbol .colon :: rest))
    (hmore : ∃ b, ∀ rest, rest.head? = some (.symbol .rbracket) →
      Parser.commaList extendedAttribute (used ++ .symbol .colon :: anyName :: rest)
        = .ok (b, rest)) :
    Stumbles (· ≠ some (.symbol .lbracket)) attributes
      ((.symbol .lbracket :: used) ++ .symbol .colon :: rest)
      ((Token.symbol .lbracket :: used).length + 1) where
  le := by simp
  dead ts' hagree := by
    rw [Nat.add_assoc] at hagree
    obtain ⟨rest', rfl, hrest⟩ := exists_of_take_append hagree
    obtain ⟨used', hused, -, hlook⟩ := local_commaList local_extendedAttribute _ h
    obtain rfl : used = used' := List.append_cancel_right hused
    refine ⟨_, attributes_eq_error (hlook rest' hrest) ?_⟩
    rw [head?_eq_of_take hrest]
    simp
  alive _ := by
    obtain ⟨attrs', hattrs⟩ := hmore
    refine ⟨[anyName, .symbol .rbracket], attrs', fun rest' _ => ?_⟩
    rw [List.take_length_add_append]
    have hlist := hattrs (.symbol .rbracket :: rest') rfl
    simpa using attributes_eq_ok hlist

/-- **Attributes without their closing bracket** fail at the token behind them, or at the one behind
a colon that could have gone on with the last value. -/
theorem fails_attributes (h : Parser.commaList extendedAttribute ts = .ok (attrs, mid))
    (hmid : mid.head? ≠ some (.symbol .rbracket)) :
    ∃ front, .symbol .lbracket :: ts = front ++ mid
      ∧ SyntaxError.Placed ⟨.symbol .rbracket, mid⟩ front
      ∧ Stumbles (· ≠ some (.symbol .lbracket)) attributes (.symbol .lbracket :: ts)
        (SyntaxError.place ⟨.symbol .rbracket, mid⟩ front) := by
  obtain ⟨used, rfl, hused, hend⟩ := attributeEnd_commaList h
  have htwo : 2 ≤ (Token.symbol .lbracket :: used).length := by
    have := List.length_pos_iff.mpr hused
    rw [List.length_cons]
    omega
  refine ⟨.symbol .lbracket :: used, rfl, SyntaxError.placed_of_two_le _ htwo, ?_⟩
  have hplace : SyntaxError.place ⟨.symbol .rbracket, mid⟩ (.symbol .lbracket :: used)
      = if mid.head? = some (.symbol .colon) ∧ endsInValue (.symbol .lbracket :: used) = true
        then (Token.symbol .lbracket :: used).length + 1
        else (Token.symbol .lbracket :: used).length := by
    simp [SyntaxError.place, SyntaxError.Belated, SyntaxError.Premature]
  rw [hplace]
  by_cases hcolon : mid.head? = some (.symbol .colon)
  · obtain ⟨rest, rfl⟩ := List.head?_eq_some_iff.mp hcolon
    cases hend with
    | inValue hends hmore _ =>
      have hvalue : endsInValue (.symbol .lbracket :: used) = true :=
        (endsInValue_append [.symbol .lbracket] (two_le_of_endsInValue hends)).trans hends
      rw [if_pos ⟨hcolon, hvalue⟩]
      exact stumbles_attributes_behind h hmore
    | outside hends hrun =>
      rw [if_neg (by simp [hends])]
      exact stumbles_attributes_here h hmid hrun
  · rw [if_neg fun hp => hcolon hp.1]
    exact stumbles_attributes_here h hmid (hend.run hcolon)

end Unclosed

/-- Attributes end with their bracket, whatever follows. -/
theorem stops_attributes {attrs : List ExtendedAttribute}
    (h : attributes (.symbol .lbracket :: ts) = .ok (attrs, mid)) :
    ∃ used, .symbol .lbracket :: ts = used ++ mid
      ∧ ∀ rest, attributes (used ++ rest) = .ok (attrs, rest) := by
  rw [attributes_lbracket] at h
  obtain ⟨attrs', rest', hlist, hclose⟩ := bind_eq_ok_iff.mp h
  obtain ⟨⟨⟩, mid', hsymbol, hpure⟩ := bind_eq_ok_iff.mp hclose
  obtain rfl := symbol_eq_ok_iff.mp hsymbol
  obtain ⟨rfl, rfl⟩ := pure_eq_ok_iff.mp hpure
  obtain ⟨used, rfl, hstops⟩ := (promptAt_attributeList ts).stops hlist
  refine ⟨.symbol .lbracket :: used ++ [.symbol .rbracket], by simp, fun rest => ?_⟩
  rw [List.append_assoc]
  exact attributes_eq_ok (hstops (.symbol .rbracket :: rest) rfl)

/-- A list of attributes that fails. -/
theorem promptAt_attributes_of_error (h : Parser.commaList extendedAttribute ts = .error e) :
    PromptAt (· ≠ some (.symbol .lbracket)) attributes (.symbol .lbracket :: ts) := by
  have hclose : ∀ attrs : List ExtendedAttribute,
      Opens (· ≠ some (.symbol .lbracket)) (some (.symbol .rbracket))
        (Parser.symbol .rbracket >>= fun _ => pure attrs) := fun attrs =>
    ⟨[.symbol .rbracket], attrs, rfl, fun _ _ => bind_of_ok (symbol_eq_ok_iff (u := ()).mpr rfl)⟩
  have hopens : Opens (· = some (.symbol .rbracket)) (some anyName)
      (Parser.commaList extendedAttribute) :=
    opens_extendedAttribute.commaList fun o ho => ⟨.inr ho, by simp [ho]⟩
  refine PromptAt.cons attributes_lbracket ?_ (hopens.bind hclose fun _ _ => rfl)
  -- there is nothing behind the list that could matter
  have hno : ∀ {attrs mid}, Parser.commaList extendedAttribute ts ≠ .ok (attrs, mid) :=
    fun hok => nomatch h.symm.trans hok
  exact (promptAt_attributeList ts).bind (fun _ _ hok => absurd hok hno)
    (fun _ _ hok => absurd hok hno) hclose (fun _ _ => rfl) fun _ _ _ hok => absurd hok hno

/-- **Attributes are guided.** -/
theorem guided_attributes : Guided (· ≠ some (.symbol .lbracket)) none attributes where
  look := peeks_attributes
  opens := ⟨[], [], rfl, fun rest hrest => attributes_of_ne hrest⟩
  prompt ts := by
    by_cases hl : ts.head? = some (.symbol .lbracket)
    · obtain ⟨ts, rfl⟩ := List.head?_eq_some_iff.mp hl
      cases hlist : Parser.commaList extendedAttribute ts with
      | error e => exact promptAt_attributes_of_error hlist
      | ok r =>
        obtain ⟨attrs, mid⟩ := r
        refine ⟨fun attrs mid h => ?_, fun e he => ?_⟩
        · obtain ⟨used, hts, hrun⟩ := stops_attributes h
          exact ⟨used, hts, fun rest _ => hrun rest⟩
        · have hmid : mid.head? ≠ some (.symbol .rbracket) := by
            intro hmid
            obtain ⟨rest, rfl⟩ := List.head?_eq_some_iff.mp hmid
            cases (attributes_eq_ok hlist).symm.trans he
          obtain rfl := Except.error.inj ((attributes_eq_error hlist hmid).symm.trans he)
          exact fails_attributes hlist hmid
    · have hno : ∀ ts' : List Token, ts'.head? ≠ some (.symbol .lbracket) →
          attributes ts' = (pure [] : Parser (List ExtendedAttribute)) ts' :=
        fun ts' => attributes_of_ne
      exact PromptAt.of_head (C := (· ≠ some (.symbol .lbracket))) hl hno
        ((guided_pure _).prompt ts) fun _ _ _ ho => ho

end IntentContract.Grammar
