import IntentContract.Proofs.Grammar.Locality

/-!
# Where a reader fails

A reader that fails names what it expected and the tokens from the misfit on. The misfit is in most
cases the first token at which the tokens cannot be right any more, but there are two exceptions.
The word behind `unsigned` and `unrestricted` is judged when it has been passed, so the misfit is
the token **behind** the one to blame (`Belated`). And a colon behind an unquoted value is left
alone if no identifier follows, so the misfit is the colon, which could have been right, and the
token to blame stands behind it (`Premature`).

`SyntaxError.place` is the place of the token to blame. A reader is **prompt** if that token is the
first one that cannot be right: any other tokens that agree up to it give an error as well, and the
tokens in front of it can be completed. What follows in a document has to fit to what completes a
reader, so promptness is relative to a condition on the next token.

This module has the definitions and the rules by which prompt readers are put together.
-/

namespace IntentContract

/-- Whether some tokens end with a name that stands behind an equals sign or a colon, so that one
more colon may go on with an unquoted value. -/
def endsInValue : List Token → Bool
  | [sep, t] => (sep == .symbol .equals || sep == .symbol .colon) && t.name?.isSome
  | _ :: ts => endsInValue ts
  | [] => false

/-- Two tokens are enough to know how a list of tokens ends. -/
theorem endsInValue_append (used : List Token) {front : List Token} (h : 2 ≤ front.length) :
    endsInValue (used ++ front) = endsInValue front := by
  induction used with
  | nil => rfl
  | cons t used ih =>
    obtain ⟨a, b, rest, hrest⟩ : ∃ a b rest, used ++ front = a :: b :: rest := by
      match hl : used ++ front with
      | [] => simp at hl; simp [hl.2] at h
      | [a] =>
        have hlen := congrArg List.length hl
        rw [List.length_append, List.length_singleton] at hlen
        omega
      | a :: b :: rest => exact ⟨a, b, rest, rfl⟩
    rw [List.cons_append, ← ih, hrest]
    rfl

theorem two_le_of_endsInValue {ts : List Token} (h : endsInValue ts = true) : 2 ≤ ts.length := by
  match ts with
  | [] => cases h
  | [_] => cases h
  | _ :: _ :: _ => exact Nat.le_add_left 2 _

/-- A token that is no name ends no value without quotes. -/
theorem endsInValue_append_singleton (used : List Token) {t : Token} (h : t.name? = none) :
    endsInValue (used ++ [t]) = false := by
  rcases List.eq_nil_or_concat used with rfl | ⟨used, sep, rfl⟩
  · rfl
  · rw [List.concat_eq_append, List.append_assoc, endsInValue_append used (by simp)]
    simp [endsInValue, h]

namespace SyntaxError

/-- The misfit is behind the word that does not fit. -/
def Belated (e : SyntaxError) : Prop :=
  e.expected = .unsignedWidth ∨ e.expected = .unrestrictedWidth

/-- The misfit is a colon that would fit if an identifier followed. -/
def Premature (e : SyntaxError) (front : List Token) : Prop :=
  e.expected = .symbol .rbracket ∧ e.rest.head? = some (.symbol .colon) ∧ endsInValue front = true

instance (e : SyntaxError) : Decidable e.Belated :=
  inferInstanceAs (Decidable (_ ∨ _))

instance (e : SyntaxError) (front : List Token) : Decidable (e.Premature front) :=
  inferInstanceAs (Decidable (_ ∧ _ ∧ _))

/-- **The place of the token to blame** for a misfit behind some tokens. -/
def place (e : SyntaxError) (front : List Token) : Nat :=
  if e.Belated then front.length - 1
  else if e.Premature front then front.length + 1
  else front.length

/-- The place does not depend on what else stands in front. -/
def Placed (e : SyntaxError) (front : List Token) : Prop :=
  ∀ used, e.place (used ++ front) = used.length + e.place front

variable {e : SyntaxError} {front : List Token}

theorem Placed.append (h : Placed e front) (used : List Token) : Placed e (used ++ front) := by
  intro more
  rw [← List.append_assoc, h, h, List.length_append, Nat.add_assoc]

/-- Two tokens in front are enough to know the place. -/
theorem placed_of_two_le (e : SyntaxError) (h : 2 ≤ front.length) : Placed e front := by
  intro used
  have hpremature : e.Premature (used ++ front) ↔ e.Premature front := by
    rw [Premature, endsInValue_append used h]
    rfl
  unfold place
  simp only [hpremature, List.length_append]
  split
  · omega
  · split <;> omega

/-- A reader expects something that is met at the misfit or not at all. -/
def Plain (e : SyntaxError) : Prop :=
  ¬ e.Belated ∧ e.expected ≠ .symbol .rbracket

theorem Plain.place_eq (h : e.Plain) (front : List Token) : e.place front = front.length := by
  rw [place, if_neg h.1, if_neg fun hp => h.2 hp.1]

theorem Plain.placed (h : e.Plain) (front : List Token) : Placed e front := by
  intro used
  rw [h.place_eq, h.place_eq, List.length_append]

end SyntaxError

namespace Parser

open SyntaxError (Placed)

variable {α β : Type}

/-- A condition on the token that comes next, or on the end. -/
abbrev Follow := Option Token → Prop

/-- No condition at all. -/
abbrev Anything : Follow := fun _ => True

/-! ## Prompt readers -/

/-- **A reader stumbles over the token at a place**: with the same tokens up to that one it fails,
whatever else follows, and the tokens in front of it can be completed. -/
structure Stumbles (F : Follow) (p : Parser α) (ts : List Token) (k : Nat) : Prop where
  le : k ≤ ts.length
  dead : ∀ ts', ts'.take (k + 1) = ts.take (k + 1) → ∃ e, p ts' = .error e
  alive : 0 < k →
    ∃ more a, ∀ rest, F rest.head? → p (ts.take k ++ (more ++ rest)) = .ok (a, rest)

/-- **A reader is prompt** on some tokens: where it succeeds, it does so before any other tokens
that may follow, and where it fails, it stumbles over the token to blame. -/
structure PromptAt (F : Follow) (p : Parser α) (ts : List Token) : Prop where
  stops : ∀ ⦃a mid⦄, p ts = .ok (a, mid) →
    ∃ used, ts = used ++ mid ∧ ∀ rest, F rest.head? → p (used ++ rest) = .ok (a, rest)
  fails : ∀ ⦃e⦄, p ts = .error e →
    ∃ front, ts = front ++ e.rest ∧ Placed e front ∧ Stumbles F p ts (e.place front)

/-- A reader can succeed, with tokens that begin with the one given, or with none. -/
def Opens (F : Follow) (first : Option Token) (p : Parser α) : Prop :=
  ∃ w a, w.head? = first ∧ ∀ rest, F rest.head? → p (w ++ rest) = .ok (a, rest)

variable {F G : Follow} {first : Option Token} {p q : Parser α} {f : α → Parser β}
  {ts : List Token} {k : Nat}

theorem Stumbles.mono (h : Stumbles F p ts k) (hFG : ∀ o, G o → F o) : Stumbles G p ts k where
  le := h.le
  dead := h.dead
  alive hk := by
    obtain ⟨more, a, hmore⟩ := h.alive hk
    exact ⟨more, a, fun rest hrest => hmore rest (hFG _ hrest)⟩

theorem PromptAt.mono (h : PromptAt F p ts) (hFG : ∀ o, G o → F o) : PromptAt G p ts where
  stops a mid hp := by
    obtain ⟨used, hts, hrun⟩ := h.stops hp
    exact ⟨used, hts, fun rest hrest => hrun rest (hFG _ hrest)⟩
  fails e hp := by
    obtain ⟨front, hts, hplaced, hstumbles⟩ := h.fails hp
    exact ⟨front, hts, hplaced, hstumbles.mono hFG⟩

/-- In front of a token that may follow, a prompt reader looks at that one only. -/
theorem PromptAt.localAt (h : PromptAt F p ts)
    (hF : ∀ ⦃a mid⦄, p ts = .ok (a, mid) → F mid.head?) : LocalAt 1 0 p ts := by
  intro a mid hp
  obtain ⟨used, hts, hrun⟩ := h.stops hp
  refine ⟨used, hts, Nat.zero_le _, fun rest hrest => hrun rest ?_⟩
  rw [head?_eq_of_take hrest]
  exact hF hp

theorem Opens.mono (h : Opens F first p) (hFG : ∀ o, G o → F o) : Opens G first p := by
  obtain ⟨w, a, hw, hrun⟩ := h
  exact ⟨w, a, hw, fun rest hrest => hrun rest (hFG _ hrest)⟩

/-- A reader that fails at the first token, and only because of it, is prompt. -/
theorem PromptAt.of_error {x : Expectation} (h : p ts = .error ⟨x, ts⟩)
    (hx : SyntaxError.Plain ⟨x, ts⟩) (hdead : ∀ ts', ts'.head? = ts.head? → ∃ e, p ts' = .error e) :
    PromptAt F p ts where
  stops a mid hp := nomatch h.symm.trans hp
  fails e he := by
    obtain rfl : ⟨x, ts⟩ = e := Except.error.inj (h.symm.trans he)
    refine ⟨[], rfl, hx.placed _, ?_⟩
    rw [hx.place_eq]
    exact ⟨Nat.zero_le _, fun ts' hagree => hdead ts' (head?_eq_of_take hagree),
      fun hk => absurd hk (Nat.lt_irrefl 0)⟩

/-- A closed reader that fails at the first token, and only because of it, is prompt. -/
theorem Closed.promptAt {x : Expectation} (hp : Closed p) (hx : ∀ ts, SyntaxError.Plain ⟨x, ts⟩)
    (herror : ∀ ⦃e⦄, p ts = .error e →
      e = ⟨x, ts⟩ ∧ ∀ ts', ts'.head? = ts.head? → ∃ e', p ts' = .error e') : PromptAt F p ts := by
  cases h : p ts with
  | error e =>
    obtain ⟨rfl, hdead⟩ := herror h
    exact PromptAt.of_error h (hx ts) hdead
  | ok r =>
    refine ⟨fun a mid hrun => ?_, fun e he => nomatch h.symm.trans he⟩
    obtain ⟨used, hts, -, hagree⟩ := hp ts hrun
    exact ⟨used, hts, fun rest _ => hagree rest rfl⟩

/-- Tokens that agree with others up to some place have the same tokens in front. -/
theorem exists_of_take_append {u ts ts' : List Token}
    (h : ts'.take (u.length + k) = (u ++ ts).take (u.length + k)) :
    ∃ rest, ts' = u ++ rest ∧ rest.take k = ts.take k := by
  rw [List.take_length_add_append] at h
  have hused : ts'.take u.length = u := by
    have := congrArg (List.take u.length) h
    rwa [List.take_take, Nat.min_eq_left (Nat.le_add_right _ _), List.take_left] at this
  refine ⟨ts'.drop u.length, ?_, ?_⟩
  · have happ := List.take_append_drop u.length ts'
    rwa [hused, eq_comm] at happ
  · have hdrop := congrArg (List.drop u.length) h
    rwa [List.drop_take, Nat.add_sub_cancel_left, List.drop_left] at hdrop

/-- Tokens that agree with others beyond their end are the same. -/
theorem eq_of_take_length {ts ts' : List Token}
    (h : ts'.take (ts.length + 1) = ts.take (ts.length + 1)) : ts' = ts := by
  rw [List.take_of_length_le (Nat.le_succ ts.length)] at h
  have hlen := congrArg List.length h
  rw [List.length_take] at hlen
  rwa [List.take_of_length_le (by omega)] at h

/-- The first token is one of the first few. -/
theorem take_one_append {ts more : List Token} (hk : 0 < k) (hle : k ≤ ts.length) :
    (ts.take k ++ more).take 1 = ts.take 1 := by
  obtain ⟨t, ts, rfl⟩ := List.exists_cons_of_length_pos (Nat.lt_of_lt_of_le hk hle)
  obtain ⟨k, rfl⟩ := Nat.exists_eq_succ_of_ne_zero (Nat.ne_of_gt hk)
  rfl

/-- **Reading on.** If a reader, behind some tokens `used`, goes on like another one that is prompt,
then it is prompt from the start. It has to go on so with the tokens at hand and with those that the
other one may begin with instead. -/
theorem PromptAt.step (used : List Token)
    (hgo : ∀ ts', ts'.take 1 = ts.take 1 ∨ G ts'.head? → p (used ++ ts') = q ts')
    (hq : PromptAt F q ts) (hopens : Opens F first q) (hfirst : ∀ o, F o → G (first.or o))
    (hnone : ∀ a, q ts = .ok (a, ts) → ∀ o, F o → G o) : PromptAt F p (used ++ ts) where
  stops a mid h := by
    rw [hgo ts (.inl rfl)] at h
    obtain ⟨used', hts, hrun⟩ := hq.stops h
    refine ⟨used ++ used', by rw [hts, List.append_assoc], fun rest hrest => ?_⟩
    rw [List.append_assoc, hgo, hrun rest hrest]
    cases used' with
    | nil =>
      rw [List.nil_append] at hts
      exact .inr (hnone a (hts ▸ h) _ hrest)
    | cons t used' =>
      left
      rw [hts]
      rfl
  fails e h := by
    rw [hgo ts (.inl rfl)] at h
    obtain ⟨front, hts, hplaced, hstumbles⟩ := hq.fails h
    refine ⟨used ++ front, by rw [hts, List.append_assoc], hplaced.append used, ?_⟩
    rw [hplaced used]
    refine ⟨?_, fun ts' hagree => ?_, fun _ => ?_⟩
    · rw [List.length_append]
      exact Nat.add_le_add_left hstumbles.le _
    · rw [Nat.add_assoc] at hagree
      obtain ⟨rest, rfl, hrest⟩ := exists_of_take_append hagree
      rw [hgo rest (.inl (take_eq_of_le hrest (Nat.le_add_left 1 _)))]
      exact hstumbles.dead rest hrest
    · rw [List.take_length_add_append]
      rcases Nat.eq_zero_or_pos (e.place front) with hzero | hpos
      · -- nothing of the other reader is left, so it is begun anew
        obtain ⟨w, a, hw, hrun⟩ := hopens
        refine ⟨w, a, fun rest hrest => ?_⟩
        rw [hzero, List.take_zero, List.append_nil, hgo, hrun rest hrest]
        right
        rw [List.head?_append, hw]
        exact hfirst _ hrest
      · obtain ⟨more, a, hmore⟩ := hstumbles.alive hpos
        refine ⟨more, a, fun rest hrest => ?_⟩
        rw [List.append_assoc, hgo, hmore rest hrest]
        exact .inl (take_one_append hpos hstumbles.le)

/-- Reading on behind one token that says how to go on. -/
theorem PromptAt.cons {t : Token} (hgo : ∀ ts', p (t :: ts') = q ts') (hq : PromptAt F q ts)
    (hopens : Opens F first q) : PromptAt F p (t :: ts) :=
  PromptAt.step [t] (G := Anything) (fun ts' _ => hgo ts') hq hopens
    (fun _ _ => trivial) fun _ _ _ _ => trivial

/-- A reader that is like a prompt one for what the next token says is prompt. -/
theorem PromptAt.of_head {C : Follow} (hC : C ts.head?)
    (hgo : ∀ ts', C ts'.head? → p ts' = q ts') (hq : PromptAt F q ts)
    (hnone : ∀ a, q ts = .ok (a, ts) → ∀ o, F o → C o) : PromptAt F p ts where
  stops a mid h := by
    rw [hgo ts hC] at h
    obtain ⟨used, hts, hrun⟩ := hq.stops h
    refine ⟨used, hts, fun rest hrest => ?_⟩
    rw [hgo, hrun rest hrest]
    cases used with
    | nil =>
      rw [List.nil_append] at hts
      exact hnone a (hts ▸ h) _ hrest
    | cons t used =>
      rw [hts] at hC
      exact hC
  fails e h := by
    rw [hgo ts hC] at h
    obtain ⟨front, hts, hplaced, hstumbles⟩ := hq.fails h
    refine ⟨front, hts, hplaced, hstumbles.le, fun ts' hagree => ?_, fun hk => ?_⟩
    · rw [hgo ts' (by rwa [head?_eq_of_take hagree])]
      exact hstumbles.dead ts' hagree
    · obtain ⟨more, a, hmore⟩ := hstumbles.alive hk
      refine ⟨more, a, fun rest hrest => ?_⟩
      rw [hgo, hmore rest hrest]
      rwa [head?_eq_of_take (take_one_append hk hstumbles.le)]

/-- One prompt reader after another, where the first does not look further than one token. -/
theorem PromptAt.bind (hp : PromptAt G p ts) (hlocal : LocalAt 1 0 p ts)
    (hf : ∀ ⦃a mid⦄, p ts = .ok (a, mid) → PromptAt F (f a) mid)
    (hopens : ∀ a, Opens F first (f a)) (hfirst : ∀ o, F o → G (first.or o))
    (hnone : ∀ ⦃a mid b⦄, p ts = .ok (a, mid) → f a mid = .ok (b, mid) → ∀ o, F o → G o) :
    PromptAt F (p >>= f) ts := by
  cases hrun : p ts with
  | error e =>
    have herror : ∀ {e' : SyntaxError}, (p >>= f) ts = .error e' → e = e' := fun h =>
      Except.error.inj ((bind_of_error hrun).symm.trans h)
    refine ⟨fun b mid h => ?_, fun e' h => ?_⟩
    · rw [bind_of_error hrun] at h
      cases h
    obtain rfl := herror h
    obtain ⟨front, hts, hplaced, hstumbles⟩ := hp.fails hrun
    refine ⟨front, hts, hplaced, hstumbles.le, fun ts' hagree => ?_, fun hk => ?_⟩
    · obtain ⟨e', he'⟩ := hstumbles.dead ts' hagree
      exact ⟨e', bind_of_error he'⟩
    · obtain ⟨more, a, hmore⟩ := hstumbles.alive hk
      obtain ⟨w, b, hw, hopen⟩ := hopens a
      refine ⟨more ++ w, b, fun rest hrest => ?_⟩
      rw [List.append_assoc, bind_of_ok (hmore (w ++ rest) ?_), hopen rest hrest]
      rw [List.head?_append, hw]
      exact hfirst _ hrest
  | ok r =>
    obtain ⟨a, mid⟩ := r
    obtain ⟨used, hts, hstops⟩ := hp.stops hrun
    obtain ⟨used', hts', -, hagree⟩ := hlocal hrun
    obtain rfl : used = used' := List.append_cancel_right (hts.symm.trans hts')
    rw [hts]
    refine PromptAt.step used (q := f a) (G := G) ?_ (hf hrun) (hopens a) hfirst
      fun b hb => hnone hrun hb
    rintro ts' (htake | hG)
    · exact bind_of_ok (hagree ts' htake)
    · exact bind_of_ok (hstops ts' hG)

theorem Opens.bind {first' : Option Token} (hp : Opens G first p)
    (hf : ∀ a, Opens F first' (f a)) (hfirst : ∀ o, F o → G (first'.or o)) :
    Opens F (first.or first') (p >>= f) := by
  obtain ⟨w, a, hw, hrun⟩ := hp
  obtain ⟨w', b, hw', hrun'⟩ := hf a
  refine ⟨w ++ w', b, by rw [List.head?_append, hw, hw'], fun rest hrest => ?_⟩
  rw [List.append_assoc, bind_of_ok (hrun (w' ++ rest) ?_), hrun' rest hrest]
  rw [List.head?_append, hw']
  exact hfirst _ hrest

/-! ## Guided readers -/

/-- **A guided reader** looks at one token, is prompt, and can succeed; with a first token given it
takes at least one. -/
structure Guided (F : Follow) (first : Option Token) (p : Parser α) : Prop where
  look : Local 1 first.toList.length p
  prompt : ∀ ts, PromptAt F p ts
  opens : Opens F first p

theorem Guided.mono (h : Guided F first p) (hFG : ∀ o, G o → F o) : Guided G first p where
  look := h.look
  prompt ts := (h.prompt ts).mono hFG
  opens := h.opens.mono hFG

theorem Guided.peeks (h : Guided F first p) : Peeks p :=
  h.look.mono (Nat.le_refl 1) (Nat.zero_le _)

/-- A reader that takes a token does not leave all of them. -/
theorem Local.ne_self {m : Nat} (h : Local k (m + 1) p) {a : α} : p ts ≠ .ok (a, ts) := by
  intro hp
  obtain ⟨used, hts, hlen, -⟩ := h ts hp
  have hnil : used = [] := List.append_cancel_right (hts.symm.trans (List.nil_append ts).symm)
  rw [hnil] at hlen
  cases hlen

/-- A reader that takes nothing has no first token. -/
theorem Guided.eq_none (h : Guided F first p) {a : α} (hp : p ts = .ok (a, ts)) : first = none := by
  cases first with
  | none => rfl
  | some t => exact absurd hp (Local.ne_self (m := 0) h.look)

/-- **One guided reader after another.** -/
theorem Guided.bind (hp : Guided G first p) (first' : Option Token)
    (hf : ∀ a, Guided F first' (f a)) (hfirst : ∀ o, F o → G (first'.or o)) :
    Guided F (first.or first') (p >>= f) where
  look := by
    refine (Local.bind hp.look (fun a => (hf a).look) (Nat.le_add_right 1 _)).mono
      (Nat.le_refl 1) ?_
    cases first <;> cases first' <;> simp
  prompt ts := by
    refine (hp.prompt ts).bind (hp.peeks ts) (fun a mid _ => (hf a).prompt mid)
      (fun a => (hf a).opens) hfirst fun a mid b _ hb o ho => ?_
    have hnone := (hf a).eq_none hb
    rw [hnone] at hfirst
    exact hfirst o ho
  opens := hp.opens.bind (fun a => (hf a).opens) hfirst

/-- A guided reader behind which anything may follow. -/
theorem Guided.andThen (hp : Guided Anything first p) (first' : Option Token)
    (hf : ∀ a, Guided F first' (f a)) : Guided F (first.or first') (p >>= f) :=
  hp.bind first' hf fun _ _ => trivial

/-! ## The small readers -/

section Small

variable {t : Token} {x : Expectation} {e : SyntaxError}

theorem guided_pure (a : α) : Guided F none (pure a : Parser α) where
  look := local_pure a
  prompt ts := by
    refine ⟨fun b mid h => ?_, fun e h => by cases h⟩
    obtain ⟨rfl, rfl⟩ := pure_eq_ok_iff.mp h
    exact ⟨[], rfl, fun rest _ => rfl⟩
  opens := ⟨[], a, rfl, fun rest _ => rfl⟩

/-- What must come next is missing. -/
theorem expect_eq_error_iff :
    (eat t >>= fun b => if b = true then pure () else misfit x) ts = .error e
      ↔ e = ⟨x, ts⟩ ∧ ts.head? ≠ some t := by
  by_cases ht : ts.head? = some t
  · obtain ⟨rest, rfl⟩ := List.head?_eq_some_iff.mp ht
    rw [expect_eq_ok_iff (u := ()).mpr rfl]
    simp
  · rw [bind_of_ok (eat_eq_ok_iff.mpr (.inr ⟨rfl, rfl, ht⟩))]
    show Except.error ⟨x, ts⟩ = Except.error e ↔ _
    rw [Except.error.injEq, eq_comm, and_iff_left ht]

theorem symbol_eq_error_iff {s : Symbol} :
    symbol s ts = .error e ↔ e = ⟨.symbol s, ts⟩ ∧ ts.head? ≠ some (.symbol s) :=
  expect_eq_error_iff

/-- A token that must come next. -/
theorem guided_expect (hx : ∀ ts, SyntaxError.Plain ⟨x, ts⟩) :
    Guided F (some t) (eat t >>= fun b => if b = true then pure () else misfit x) := by
  have hclosed : Closed (eat t >>= fun b => if b = true then pure () else misfit x) := by
    intro ts u rest h
    obtain rfl := expect_eq_ok_iff.mp h
    exact ⟨[t], rfl, Nat.le_refl 1, fun rest' _ => expect_eq_ok_iff.mpr rfl⟩
  refine ⟨hclosed.mono (Nat.zero_le 1) (Nat.le_refl 1), fun ts => ?_, ?_⟩
  · refine hclosed.promptAt hx fun e he => ?_
    obtain ⟨rfl, hhead⟩ := expect_eq_error_iff.mp he
    refine ⟨rfl, fun ts' hagree => ⟨_, expect_eq_error_iff.mpr ⟨rfl, ?_⟩⟩⟩
    rwa [hagree]
  · exact ⟨[t], (), rfl, fun rest _ => expect_eq_ok_iff.mpr rfl⟩

theorem guided_symbol {s : Symbol} (hs : s ≠ .rbracket) :
    Guided F (some (.symbol s)) (symbol s) :=
  guided_expect fun ts => ⟨by simp [SyntaxError.Belated], by simpa using hs⟩

theorem guided_keyword (k : Keyword) : Guided F (some (.keyword k)) (keyword k) :=
  guided_expect fun ts => ⟨by simp [SyntaxError.Belated], by simp⟩

/-- There is no name where no token can serve as one. -/
theorem name_eq_error_iff :
    name ts = .error e ↔ e = ⟨.identifier, ts⟩ ∧ ∀ t ∈ ts.head?, t.name? = none := by
  unfold name
  cases ts with
  | nil => simp [eq_comm]
  | cons t ts => cases ht : t.name? <;> simp [eq_comm, ht]

/-- A name that stands for any. -/
abbrev anyName : Token := .identifier "x"

theorem guided_name : Guided F (some anyName) name := by
  refine ⟨closed_name.mono (Nat.zero_le 1) (Nat.le_refl 1), fun ts => ?_, ?_⟩
  · have hplain : ∀ ts, SyntaxError.Plain ⟨.identifier, ts⟩ := fun ts =>
      ⟨by simp [SyntaxError.Belated], by simp⟩
    refine closed_name.promptAt hplain fun e he => ?_
    obtain ⟨rfl, hhead⟩ := name_eq_error_iff.mp he
    refine ⟨rfl, fun ts' hagree => ⟨_, name_eq_error_iff.mpr ⟨rfl, ?_⟩⟩⟩
    rwa [hagree]
  · exact ⟨[anyName], "x", rfl, fun rest _ => name_cons rfl rest⟩

/-- A token that may come next, and prompt readers behind it. -/
theorem PromptAt.eat_bind {f : Bool → Parser β} {first' : Option Token}
    (htrue : ∀ ts, PromptAt F (f true) ts) (hopens : Opens F first' (f true))
    (hfalse : PromptAt F (f false) ts)
    (hnone : ∀ b, f false ts = .ok (b, ts) → ∀ o, F o → o ≠ some t) :
    PromptAt F (eat t >>= f) ts := by
  by_cases ht : ts.head? = some t
  · obtain ⟨rest, rfl⟩ := List.head?_eq_some_iff.mp ht
    refine PromptAt.cons (fun ts' => ?_) (htrue rest) hopens
    exact bind_of_ok (eat_eq_ok_iff.mpr (.inl ⟨rfl, rfl⟩))
  · refine PromptAt.of_head (C := (· ≠ some t)) ht (fun ts' hne => ?_) hfalse hnone
    exact bind_of_ok (eat_eq_ok_iff.mpr (.inr ⟨rfl, rfl, hne⟩))

theorem Opens.eat_bind {f : Bool → Parser β} (hfalse : Opens F first (f false))
    (hfirst : ∀ o, F o → first.or o ≠ some t) : Opens F first (eat t >>= f) := by
  obtain ⟨w, b, hw, hrun⟩ := hfalse
  refine ⟨w, b, hw, fun rest hrest => ?_⟩
  rw [bind_of_ok (eat_eq_ok_iff.mpr (.inr ⟨rfl, rfl, ?_⟩)), hrun rest hrest]
  rw [List.head?_append, hw]
  exact hfirst _ hrest

/-- **A token that may come next**, and what follows with it and without. -/
theorem guided_eat_bind {f : Bool → Parser β} (first' : Option Token)
    (htrue : Guided F first' (f true)) (hfalse : Guided F first (f false))
    (hlength : first.toList.length ≤ first'.toList.length)
    (hfirst : ∀ o, F o → first.or o ≠ some t) : Guided F first (eat t >>= f) where
  look := by
    refine (Local.bind (m := first.toList.length) (peeks_eat t) (fun b => ?_)
      (Nat.le_add_right 1 _)).mono (Nat.le_refl 1) (Nat.le_add_left _ _)
    cases b
    · exact hfalse.look
    · exact htrue.look.mono (Nat.le_refl 1) hlength
  prompt ts := by
    refine PromptAt.eat_bind htrue.prompt htrue.opens (hfalse.prompt ts) fun b hb o ho => ?_
    have hnone := hfalse.eq_none hb
    rw [hnone] at hfirst
    exact hfirst o ho
  opens := hfalse.opens.eat_bind hfirst

/-- A token that may come next and does not change what follows. -/
theorem guided_flag {f : Bool → Parser β} (hf : ∀ b, Guided F first (f b))
    (hfirst : ∀ o, F o → first.or o ≠ some t) : Guided F first (eat t >>= f) :=
  guided_eat_bind first (hf true) (hf false) (Nat.le_refl _) hfirst

/-- One of two readers, by what comes next. -/
def choose (c : Option Token → Bool) (q r : Parser α) : Parser α := fun ts =>
  if c ts.head? then q ts else r ts

theorem PromptAt.choose {c : Option Token → Bool} {r : Parser α}
    (hq : c ts.head? = true → PromptAt F q ts) (hr : c ts.head? = false → PromptAt F r ts)
    (hnone : ∀ a, q ts = .ok (a, ts) → ∀ o, F o → c o = true)
    (hnone' : ∀ a, r ts = .ok (a, ts) → ∀ o, F o → c o = false) :
    PromptAt F (choose c q r) ts := by
  cases hc : c ts.head? with
  | true =>
    exact PromptAt.of_head (C := (c · = true)) hc (fun ts' h => if_pos h) (hq hc) hnone
  | false =>
    refine PromptAt.of_head (C := (c · = false)) hc (fun ts' h => if_neg ?_) (hr hc) hnone'
    rw [h]
    exact Bool.false_ne_true

/-- One of two readers that take a token each. -/
theorem PromptAt.choose_of_takes {c : Option Token → Bool} {r : Parser α} (hq : PromptAt F q ts)
    (hr : PromptAt F r ts) (hqt : Local 1 1 q) (hrt : Local 1 1 r) :
    PromptAt F (Parser.choose c q r) ts :=
  PromptAt.choose (fun _ => hq) (fun _ => hr) (fun _ h => absurd h hqt.ne_self)
    fun _ h => absurd h hrt.ne_self

theorem Local.choose {c : Option Token → Bool} {r : Parser α} {m : Nat} (hq : Local 1 m q)
    (hr : Local 1 m r) : Local 1 m (choose c q r) := by
  intro ts a rest h
  have hlook : ∀ {p : Parser α}, Local 1 m p →
      (∀ ts', ts'.head? = ts.head? → Parser.choose c q r ts' = p ts') →
      ∃ used, ts = used ++ rest ∧ m ≤ used.length ∧ ∀ rest',
        rest'.take 1 = rest.take 1 → Parser.choose c q r (used ++ rest') = .ok (a, rest') := by
    intro p hp hgo
    obtain ⟨used, hts, hlen, hagree⟩ := hp ts ((hgo ts rfl).symm.trans h)
    refine ⟨used, hts, hlen, fun rest' hrest => ?_⟩
    rw [hgo, hagree rest' hrest]
    rw [hts, List.head?_append, List.head?_append, head?_eq_of_take hrest]
  cases hc : c ts.head? with
  | true => exact hlook hq fun ts' hts => if_pos (by rw [hts, hc])
  | false => exact hlook hr fun ts' hts => if_neg (by rw [hts, hc]; exact Bool.false_ne_true)

/-- **One of two guided readers**, of which the second is the one to begin with. -/
theorem Guided.choose {c : Option Token → Bool} {r : Parser α} {first' : Option Token}
    (hq : Guided F first' q) (hr : Guided F first r)
    (hlength : first.toList.length ≤ first'.toList.length)
    (hfirst' : ∀ o, F o → c (first'.or o) = true) (hfirst : ∀ o, F o → c (first.or o) = false) :
    Guided F first (choose c q r) where
  look := Local.choose (hq.look.mono (Nat.le_refl 1) hlength) hr.look
  prompt ts := by
    refine PromptAt.choose (fun _ => hq.prompt ts) (fun _ => hr.prompt ts)
      (fun a ha => ?_) fun a ha => ?_
    · rw [hq.eq_none ha] at hfirst'
      exact hfirst'
    · rw [hr.eq_none ha] at hfirst
      exact hfirst
  opens := by
    obtain ⟨w, a, hw, hrun⟩ := hr.opens
    refine ⟨w, a, hw, fun rest hrest => ?_⟩
    have hc : c (w ++ rest).head? = false := by
      rw [List.head?_append, hw]
      exact hfirst _ hrest
    rw [Parser.choose, if_neg (by rw [hc]; exact Bool.false_ne_true), hrun rest hrest]

/-- A look at the next token chooses how to go on. -/
theorem check_bind (t : Token) (q r : Parser α) :
    (check t >>= fun b => if b = true then q else r) = choose (· == some t) q r := by
  funext ts
  show (if (ts.head? == some t) = true then q else r) ts = _
  unfold choose
  split <;> rfl

theorem choose_not (c : Option Token → Bool) (q r : Parser α) :
    choose c q r = choose (fun o => !c o) r q := by
  funext ts
  by_cases hc : c ts.head? = true
  · exact (if_pos hc).trans (if_neg (by simp [hc])).symm
  · exact (if_neg hc).trans (if_pos (by simp [hc])).symm

end Small

/-! ## Lists of items -/

section Lists

variable {item : Parser α} {t : Token} {e : SyntaxError}

/-- What is made of a value has no part in where a reader fails. -/
theorem PromptAt.bind_pure (hp : PromptAt F p ts) (g : α → β) :
    PromptAt F (p >>= fun a => pure (g a)) ts where
  stops b mid h := by
    obtain ⟨a, mid', hrun, hpure⟩ := bind_eq_ok_iff.mp h
    obtain ⟨rfl, rfl⟩ := pure_eq_ok_iff.mp hpure
    obtain ⟨used, hts, hstops⟩ := hp.stops hrun
    exact ⟨used, hts, fun rest hrest => bind_of_ok (hstops rest hrest)⟩
  fails e h := by
    cases hrun : p ts with
    | ok r =>
      rw [bind_of_ok hrun] at h
      cases h
    | error e' =>
      obtain rfl : e' = e := Except.error.inj ((bind_of_error hrun).symm.trans h)
      obtain ⟨front, hts, hplaced, hstumbles⟩ := hp.fails hrun
      refine ⟨front, hts, hplaced, hstumbles.le, fun ts' hagree => ?_, fun hk => ?_⟩
      · obtain ⟨e'', he''⟩ := hstumbles.dead ts' hagree
        exact ⟨e'', bind_of_error he''⟩
      · obtain ⟨more, a, hmore⟩ := hstumbles.alive hk
        exact ⟨more, g a, fun rest hrest => bind_of_ok (hmore rest hrest)⟩

theorem Opens.bind_pure (hp : Opens F first p) (g : α → β) :
    Opens F first (p >>= fun a => pure (g a)) := by
  obtain ⟨w, a, hw, hrun⟩ := hp
  exact ⟨w, g a, hw, fun rest hrest => bind_of_ok (hrun rest hrest)⟩

theorem commaList_of_error (h : item ts = .error e) : commaList item ts = .error e := by
  show commaItems item ts = _
  rw [commaItems, h]

theorem untilStop_of_error {stop : Option Token → Bool} (hs : stop ts.head? = false)
    (h : item ts = .error e) : untilStop stop item ts = .error e := by
  show itemsUntil stop item ts = _
  rw [itemsUntil, hs, h]
  rfl

/-- A list with commas takes a token if its items do. -/
theorem length_lt_of_commaList (hitem : Local 1 1 item) {as : List α} {rest : List Token}
    (h : commaList item ts = .ok (as, rest)) : rest.length < ts.length := by
  cases hrun : item ts with
  | error e => cases (commaList_of_error hrun).symm.trans h
  | ok r =>
    obtain ⟨a, mid⟩ := r
    obtain ⟨used, rfl, hused, -⟩ := hitem ts hrun
    by_cases hhead : mid.head? = some (.symbol .comma)
    · obtain ⟨mid, rfl⟩ := List.head?_eq_some_iff.mp hhead
      have hlt : mid.length < (used ++ .symbol .comma :: mid).length := by
        rw [List.length_append, List.length_cons]
        omega
      rw [commaList_of_comma hrun hlt] at h
      obtain ⟨as, rest', hlist, hpure⟩ := bind_eq_ok_iff.mp h
      obtain ⟨-, rfl⟩ := pure_eq_ok_iff.mp hpure
      obtain ⟨used', rfl, -, -⟩ :=
        local_commaList (hitem.mono (Nat.le_refl 1) (Nat.zero_le 1)) mid hlist
      rw [List.length_append] at hlt
      omega
    · obtain ⟨-, rfl⟩ : [a] = as ∧ mid = rest := by simpa [commaList_of_end hrun hhead] using h
      rw [List.length_append]
      omega

/-- A list with commas can be a list of one item. -/
theorem Opens.commaList (hopens : Opens G (some t) item)
    (hF : ∀ o, F o → G o ∧ o ≠ some (.symbol .comma)) : Opens F (some t) (commaList item) := by
  obtain ⟨w, a, hw, hrun⟩ := hopens
  exact ⟨w, [a], hw, fun rest hrest => commaList_of_end (hrun rest (hF _ hrest).1) (hF _ hrest).2⟩

/-- **A list fails with its first item**, and if that can be completed, so can the list. -/
theorem PromptAt.of_item_error {list : Parser β} {g : α → β} (hitem : PromptAt G item ts)
    (hrun : item ts = .error e) (hF : ∀ o, F o → G o)
    (hfail : ∀ ⦃ts' e'⦄, ts'.head? = ts.head? → item ts' = .error e' → list ts' = .error e')
    (hone : ∀ ⦃us a rest⦄, us.head? = ts.head? → rest.length < us.length → F rest.head? →
      item us = .ok (a, rest) → list us = .ok (g a, rest)) : PromptAt F list ts := by
  have hlist := hfail rfl hrun
  refine ⟨fun as mid h => (nomatch hlist.symm.trans h), fun e' h => ?_⟩
  obtain rfl : e = e' := Except.error.inj (hlist.symm.trans h)
  obtain ⟨front, hts, hplaced, hstumbles⟩ := hitem.fails hrun
  refine ⟨front, hts, hplaced, hstumbles.le, fun ts' hagree => ?_, fun hk => ?_⟩
  · obtain ⟨e', he'⟩ := hstumbles.dead ts' hagree
    exact ⟨e', hfail (head?_eq_of_take hagree) he'⟩
  · obtain ⟨more, a, hmore⟩ := hstumbles.alive hk
    refine ⟨more, g a, fun rest hrest => hone ?_ ?_ hrest (hmore rest (hF _ hrest))⟩
    · exact head?_eq_of_take (take_one_append hk hstumbles.le)
    · rw [List.length_append, List.length_append, List.length_take, Nat.min_eq_left hstumbles.le]
      omega

/-- **A list with commas is prompt** if its items are, and may be followed by a comma. -/
theorem promptAt_commaList (hitem : ∀ ts, PromptAt G item ts) (hopens : Opens G (some t) item)
    (hcomma : G (some (.symbol .comma))) (hF : ∀ o, F o → G o ∧ o ≠ some (.symbol .comma))
    (ts : List Token) : PromptAt F (commaList item) ts := by
  induction hlen : ts.length using Nat.strongRecOn generalizing ts with
  | ind n ih =>
    cases hrun : item ts with
    | error e =>
      exact (hitem ts).of_item_error hrun (fun o ho => (hF o ho).1)
        (fun ts' e' _ he' => commaList_of_error he')
        fun us a rest _ _ hrest hus => commaList_of_end hus (hF _ hrest).2
    | ok r =>
      obtain ⟨a, mid⟩ := r
      obtain ⟨used, rfl, hstops⟩ := (hitem ts).stops hrun
      by_cases hhead : mid.head? = some (.symbol .comma)
      · obtain ⟨rest, rfl⟩ := List.head?_eq_some_iff.mp hhead
        -- behind the comma the list is begun anew, with one item at hand
        have hgo : ∀ ts', commaList item ((used ++ [.symbol .comma]) ++ ts')
            = (commaList item >>= fun as => pure (a :: as)) ts' := by
          intro ts'
          rw [List.append_assoc, List.singleton_append]
          refine commaList_of_comma (hstops _ hcomma) ?_
          rw [List.length_append, List.length_cons]
          omega
        have hlt : rest.length < n := by
          rw [← hlen, List.length_append, List.length_cons]
          omega
        have hrest := (ih rest.length hlt rest rfl).bind_pure (a :: ·)
        have hopens' := (hopens.commaList hF).bind_pure (a :: ·)
        have hstep := PromptAt.step _ (G := Anything) (fun ts' _ => hgo ts') hrest hopens'
          (fun _ _ => trivial) fun _ _ _ _ => trivial
        rwa [List.append_assoc, List.singleton_append] at hstep
      · have hlist := commaList_of_end hrun hhead
        refine ⟨fun as mid' h => ?_, fun e h => nomatch hlist.symm.trans h⟩
        obtain ⟨rfl, rfl⟩ : [a] = as ∧ mid = mid' := by simpa [hlist] using h
        refine ⟨used, rfl, fun rest hrest => ?_⟩
        exact commaList_of_end (hstops rest (hF _ hrest).1) (hF _ hrest).2

theorem Guided.commaList (hitem : Guided G (some t) item) (hcomma : G (some (.symbol .comma)))
    (hF : ∀ o, F o → G o ∧ o ≠ some (.symbol .comma)) : Guided F (some t) (commaList item) where
  look ts as rest h := by
    obtain ⟨used, rfl, -, hrun⟩ := local_commaList hitem.peeks ts h
    have hlt := length_lt_of_commaList hitem.look h
    rw [List.length_append] at hlt
    exact ⟨used, rfl, (by omega : 1 ≤ used.length), hrun⟩
  prompt := promptAt_commaList hitem.prompt hitem.opens hcomma hF
  opens := hitem.opens.commaList hF

/-- **A list of closed items** up to a token that ends it. -/
theorem Guided.untilStop {stop : Option Token → Bool} (hitem : Guided Anything (some t) item)
    (hclosed : Closed item) (hF : ∀ o, F o → stop o = true) :
    Guided F none (untilStop stop item) where
  look := peeks_untilStop stop hclosed
  opens := ⟨[], [], rfl, fun rest hrest => untilStop_of_stop (hF _ hrest)⟩
  prompt ts := by
    induction hlen : ts.length using Nat.strongRecOn generalizing ts with
    | ind n ih =>
      cases hstop : stop ts.head? with
      | true =>
        have hlist : Parser.untilStop stop item ts = .ok ([], ts) := untilStop_of_stop hstop
        refine ⟨fun as mid h => ?_, fun e h => nomatch hlist.symm.trans h⟩
        obtain ⟨rfl, rfl⟩ : [] = as ∧ ts = mid := by simpa [hlist] using h
        exact ⟨[], rfl, fun rest hrest => untilStop_of_stop (hF _ hrest)⟩
      | false =>
        cases hrun : item ts with
        | error e =>
          refine (hitem.prompt ts).of_item_error (g := fun a => [a]) hrun (fun _ _ => trivial)
            (fun ts' e' hhead he' => untilStop_of_error (by rwa [hhead]) he') ?_
          intro us a rest hhead hlt hrest hus
          rw [untilStop_of_item (by rwa [hhead]) hus hlt,
            bind_of_ok (untilStop_of_stop (hF _ hrest))]
          rfl
        | ok r =>
          obtain ⟨a, mid⟩ := r
          obtain ⟨used, rfl, hused, hagree⟩ := hclosed ts hrun
          have hgo : ∀ ts', Parser.untilStop stop item (used ++ ts')
              = (Parser.untilStop stop item >>= fun as => pure (a :: as)) ts' := by
            intro ts'
            refine untilStop_of_item ?_ (hagree ts' rfl) (by rw [List.length_append]; omega)
            obtain ⟨t, used', rfl⟩ := List.exists_cons_of_length_pos hused
            exact hstop
          have hlt : mid.length < n := by
            rw [← hlen, List.length_append]
            omega
          have hrest := (ih mid.length hlt mid rfl).bind_pure (a :: ·)
          have hopens : Opens F none (Parser.untilStop stop item >>= fun as => pure (a :: as)) :=
            ⟨[], [a], rfl, fun rest hrest => bind_of_ok (untilStop_of_stop (hF _ hrest))⟩
          exact PromptAt.step _ (G := Anything) (fun ts' _ => hgo ts') hrest hopens
            (fun _ _ => trivial) fun _ _ _ _ => trivial

end Lists

end Parser

end IntentContract
