import IntentContract.Proofs.Grammar.Prompt

/-!
# Readers that do not tell two continuations apart

Tokens **break off** for a reader if they end with an equals sign and a name is missed behind it. A
reader is **indifferent** to two continuations if, on tokens that break off, it comes to the same
with one and with the other (`Indifferent`). What is the same is a matter of an observer: it sees
the tokens left, and of the value only what it makes of it (`view`).

There is one rule for each way to put readers together. Most readers never break off, because they
do not get past an equals sign at the end (`Shuns`), or because they ask for no name (`AsksNoName`).
-/

namespace IntentContract.Parser

variable {α β γ δ : Type} {p q : Parser α} {f f' : α → Parser β} {ts ts' : List Token}

/-! ## What is seen of a run -/

/-- **What an observer sees of an outcome**: what it makes of the value, and the tokens left. Of an
error it sees nothing. -/
def view (g : α → γ) (r : Except SyntaxError (α × List Token)) : Option (γ × List Token) :=
  r.toOption.map fun (a, rest) => (g a, rest)

/-- Outcomes that look the same are two errors, or two values that look the same. -/
theorem view_eq_iff {g : α → γ} {r r' : Except SyntaxError (α × List Token)} :
    view g r = view g r' ↔ (∃ e e', r = .error e ∧ r' = .error e')
      ∨ ∃ a a' rest, r = .ok (a, rest) ∧ r' = .ok (a', rest) ∧ g a = g a' := by
  match r, r' with
  | .error e, .error e' => simp [view, Except.toOption]
  | .error e, .ok (a', rest') => simp [view, Except.toOption]
  | .ok (a, rest), .error e' => simp [view, Except.toOption]
  | .ok (a, rest), .ok (a', rest') =>
    simp only [view, Except.toOption, Option.map_some, Option.some.injEq, Prod.mk.injEq]
    constructor
    · rintro ⟨hg, rfl⟩
      exact .inr ⟨a, a', rest, rfl, rfl, hg⟩
    · rintro (⟨e, e', he, -⟩ | ⟨_, _, _, ⟨⟩, ⟨⟩, hg⟩)
      · cases he
      · exact ⟨hg, rfl⟩

/-- **Readers that look alike** to an observer, on all tokens. -/
def Alike (g : α → γ) (p q : Parser α) : Prop :=
  ∀ ts, view g (p ts) = view g (q ts)

theorem Alike.refl {g : α → γ} (p : Parser α) : Alike g p p :=
  fun _ => rfl

theorem alike_pure {g : α → γ} {a b : α} (h : g a = g b) :
    Alike g (pure a : Parser α) (pure b) :=
  fun ts => view_eq_iff.mpr (.inr ⟨a, b, ts, rfl, rfl, h⟩)

/-- Runs that look the same go on to look the same. -/
theorem view_bind {g : α → γ} {g' : β → δ} (hp : view g (p ts) = view g (q ts'))
    (hf : ∀ a a', g a = g a' → Alike g' (f a) (f' a')) :
    view g' ((p >>= f) ts) = view g' ((q >>= f') ts') := by
  rcases view_eq_iff.mp hp with ⟨e, e', he, he'⟩ | ⟨a, a', rest, ha, ha', hg⟩
  · rw [bind_of_error he, bind_of_error he']
    exact view_eq_iff.mpr (.inl ⟨e, e', rfl, rfl⟩)
  · rw [bind_of_ok ha, bind_of_ok ha']
    exact hf a a' hg rest

theorem Alike.ite {g : α → γ} {p' q' : Parser α} {b : Bool} (hp : Alike g p p')
    (hq : Alike g q q') : Alike g (if b = true then p else q) (if b = true then p' else q') := by
  cases b
  · exact hq
  · exact hp

/-- What follows the same reader may look alike only. -/
theorem Alike.bind {g : β → δ} (h : ∀ a, Alike g (f a) (f' a)) :
    Alike g (p >>= f) (p >>= f') := by
  intro ts
  refine view_bind (g := id) rfl ?_
  rintro a _ rfl
  exact h a

/-! ## Tokens that break off -/

/-- **The tokens break off**: behind an equals sign at the end a name is missed. -/
def BreaksOff (p : Parser α) (ts : List Token) : Prop :=
  p ts = .error ⟨.identifier, []⟩ ∧ ts.getLast? = some (.symbol .equals)

/-- A reader that is **indifferent** to two continuations of tokens that break off. -/
def Indifferent (xs ys : List Token) (g : α → γ) (p : Parser α) : Prop :=
  ∀ ts, BreaksOff p ts → view g (p (ts ++ xs)) = view g (p (ts ++ ys))

/-- A reader that **shuns** an equals sign: on tokens that end with one it neither takes all of them
nor misses a name at the end. -/
def ShunsAt (p : Parser α) (ts : List Token) : Prop :=
  ts.getLast? = some (.symbol .equals) →
    p ts ≠ .error ⟨.identifier, []⟩ ∧ ∀ a, p ts ≠ .ok (a, [])

def Shuns (p : Parser α) : Prop :=
  ∀ ts, ShunsAt p ts

theorem getLast?_append_of_ne_nil {used : List Token} (h : ts ≠ []) :
    (used ++ ts).getLast? = ts.getLast? := by
  rw [List.getLast?_append, List.getLast?_eq_some_getLast h]
  rfl

theorem ne_nil_of_getLast? {t : Token} (h : ts.getLast? = some t) : ts ≠ [] := by
  rintro rfl
  cases h

/-! ## Readers that shun an equals sign -/

/-- A reader that goes on like another one behind some tokens, which do not end with an equals
sign. -/
theorem ShunsAt.step (used : List Token) (hgo : p (used ++ ts) = q ts) (hq : ShunsAt q ts)
    (hused : used.getLast? ≠ some (.symbol .equals)) : ShunsAt p (used ++ ts) := by
  intro hlast
  rw [hgo]
  by_cases hts : ts = []
  · rw [hts, List.append_nil] at hlast
    exact absurd hlast hused
  · rw [getLast?_append_of_ne_nil hts] at hlast
    exact hq hlast

theorem ShunsAt.cons {t : Token} (hgo : p (t :: ts) = q ts) (hq : ShunsAt q ts)
    (ht : t ≠ .symbol .equals) : ShunsAt p (t :: ts) :=
  ShunsAt.step [t] hgo hq fun h => ht (Option.some.inj h)

/-- An error that misses no name. -/
theorem ShunsAt.of_error {e : SyntaxError} (h : p ts = .error e) (he : e.expected ≠ .identifier) :
    ShunsAt p ts := by
  rintro -
  rw [h]
  refine ⟨fun heq => he ?_, fun a heq => nomatch heq⟩
  rw [Except.error.inj heq]

/-- A reader that takes nothing. -/
theorem ShunsAt.of_take_none {a : α} (h : p ts = .ok (a, ts)) : ShunsAt p ts := by
  intro hlast
  rw [h]
  refine ⟨nofun, fun a' heq => ne_nil_of_getLast? hlast ?_⟩
  exact (Prod.mk.inj (Except.ok.inj heq)).2

theorem shuns_pure (a : α) : Shuns (pure a : Parser α) :=
  fun _ => ShunsAt.of_take_none rfl

theorem shuns_check (t : Token) : Shuns (check t) :=
  fun _ => ShunsAt.of_take_none rfl

theorem shuns_eat {t : Token} (ht : t ≠ .symbol .equals) : Shuns (eat t) := by
  intro ts
  match hrun : eat t ts with
  | .error e => cases ts <;> cases hrun
  | .ok (b, rest) =>
    rcases eat_eq_ok_iff.mp hrun with ⟨rfl, rfl⟩ | ⟨rfl, rfl, -⟩
    · exact ShunsAt.cons (q := pure true) hrun (shuns_pure true rest) ht
    · exact ShunsAt.of_take_none hrun

/-- One reader after another shuns what both shun. -/
theorem ShunsAt.bind (hp : ShunsAt p ts) (hlook : LocalAt 1 0 p ts) (hf : ∀ a, Shuns (f a)) :
    ShunsAt (p >>= f) ts := by
  intro hlast
  match hrun : p ts with
  | .error e =>
    rw [bind_of_error hrun]
    exact ⟨fun h => (hp hlast).1 (hrun.trans (congrArg _ (Except.error.inj h))), nofun⟩
  | .ok (a, mid) =>
    rw [bind_of_ok hrun]
    have hmid : mid ≠ [] := by
      rintro rfl
      exact (hp hlast).2 a hrun
    obtain ⟨used, rfl, -, -⟩ := hlook hrun
    rw [getLast?_append_of_ne_nil hmid] at hlast
    exact hf a mid hlast

theorem Shuns.bind (hp : Shuns p) (hlook : Peeks p) (hf : ∀ a, Shuns (f a)) :
    Shuns (p >>= f) :=
  fun ts => (hp ts).bind (hlook ts) hf

theorem shuns_misfit {e : Expectation} (he : e ≠ .identifier) : Shuns (misfit e : Parser α) :=
  fun _ => ShunsAt.of_error rfl he

theorem shuns_expect {t : Token} {e : Expectation} (ht : t ≠ .symbol .equals)
    (he : e ≠ .identifier) :
    Shuns (eat t >>= fun b => if b = true then pure () else misfit e) := by
  refine (shuns_eat ht).bind (peeks_eat t) fun b => ?_
  cases b with
  | true => exact shuns_pure ()
  | false => exact shuns_misfit he

theorem shuns_symbol {s : Symbol} (hs : s ≠ .equals) : Shuns (symbol s) :=
  shuns_expect (fun h => hs (Token.symbol.inj h)) nofun

theorem shuns_keyword (k : Keyword) : Shuns (keyword k) :=
  shuns_expect nofun nofun

theorem shuns_name : Shuns name := by
  intro ts hlast
  match hrun : name ts with
  | .error e =>
    obtain ⟨rfl, -⟩ := name_eq_error_iff.mp hrun
    refine ⟨fun h => ne_nil_of_getLast? hlast ?_, nofun⟩
    exact congrArg SyntaxError.rest (Except.error.inj h)
  | .ok (n, rest) =>
    obtain ⟨t, rfl, ht⟩ := name_eq_ok_iff.mp hrun
    refine ⟨nofun, fun a heq => ?_⟩
    obtain ⟨-, rfl⟩ := Prod.mk.inj (Except.ok.inj heq)
    obtain rfl : t = .symbol .equals := Option.some.inj hlast
    cases ht

/-- A list with commas shuns what its items shun. -/
theorem Shuns.commaList {item : Parser α} (hitem : Shuns item) (hlook : Peeks item) :
    Shuns (commaList item) := by
  intro ts
  induction hlen : ts.length using Nat.strongRecOn generalizing ts with
  | ind n ih =>
    match hrun : item ts with
    | .error e =>
      intro hlast
      rw [commaList_of_error hrun]
      exact ⟨fun h => (hitem ts hlast).1 (hrun.trans (congrArg _ (Except.error.inj h))), nofun⟩
    | .ok (a, mid) =>
      obtain ⟨used, rfl, -, hagree⟩ := hlook ts hrun
      by_cases hcomma : mid.head? = some (.symbol .comma)
      · obtain ⟨rest, rfl⟩ := List.head?_eq_some_iff.mp hcomma
        have hlt : rest.length < (used ++ .symbol .comma :: rest).length := by
          rw [List.length_append, List.length_cons]
          omega
        have hrest := (ih rest.length (hlen ▸ hlt) rest rfl).bind
          (local_commaList hlook rest) fun as => shuns_pure (a :: as)
        have hstep := ShunsAt.step (p := Parser.commaList item) (used ++ [.symbol .comma])
          (by rw [List.append_assoc]; exact commaList_of_comma hrun hlt) hrest (by simp)
        rwa [List.append_assoc] at hstep
      · intro hlast
        rw [commaList_of_end hrun hcomma]
        refine ⟨nofun, fun as heq => (hitem _ hlast).2 a ?_⟩
        rw [hrun, (Prod.mk.inj (Except.ok.inj heq)).2]

/-! ## Readers that are indifferent -/

section Indifferent

variable {xs ys : List Token} {g : α → γ} {g' : β → δ}

theorem Shuns.indifferent (h : Shuns p) : Indifferent xs ys g p :=
  fun ts hts => absurd hts.1 (h ts hts.2).1

theorem Indifferent.ite {b : Bool} (hp : Indifferent xs ys g p) (hq : Indifferent xs ys g q) :
    Indifferent xs ys g (if b = true then p else q) := by
  cases b
  · exact hq
  · exact hp

/-- A reader that asks for no name at the end. -/
def AsksNoName (p : Parser α) : Prop :=
  ∀ ts, p ts ≠ .error ⟨.identifier, []⟩

theorem AsksNoName.indifferent (h : AsksNoName p) : Indifferent xs ys g p :=
  fun ts hts => absurd hts.1 (h ts)

theorem AsksNoName.bind (hp : AsksNoName p) (hf : ∀ a, AsksNoName (f a)) :
    AsksNoName (p >>= f) := by
  intro ts
  match hrun : p ts with
  | .error e =>
    rw [bind_of_error hrun]
    exact fun h => hp ts (hrun.trans (congrArg _ (Except.error.inj h)))
  | .ok (a, mid) =>
    rw [bind_of_ok hrun]
    exact hf a mid

theorem AsksNoName.ite {b : Bool} (hp : AsksNoName p) (hq : AsksNoName q) :
    AsksNoName (if b = true then p else q) := by
  cases b
  · exact hq
  · exact hp

theorem asksNoName_pure (a : α) : AsksNoName (pure a : Parser α) :=
  nofun

theorem asksNoName_eat (t : Token) : AsksNoName (eat t) := by
  intro ts
  cases ts <;> nofun

theorem asksNoName_symbol (s : Symbol) : AsksNoName (symbol s) := by
  refine (asksNoName_eat _).bind fun b => ?_
  cases b <;> nofun

/-- **One reader after another.** If the first breaks off, what it makes of the continuations must
not matter to the second. It must not take all tokens, since they end with an equals sign. -/
theorem Indifferent.bind (hp : Indifferent xs ys g p) (hlook : Peeks p)
    (halike : ∀ a a', g a = g a' → Alike g' (f a) (f a'))
    (hend : ∀ ts a, ts.getLast? = some (.symbol .equals) → p ts ≠ .ok (a, []))
    (hf : ∀ a, Indifferent xs ys g' (f a)) : Indifferent xs ys g' (p >>= f) := by
  rintro ts ⟨herror, hlast⟩
  match hrun : p ts with
  | .error e =>
    obtain rfl := Except.error.inj ((bind_of_error hrun).symm.trans herror)
    exact view_bind (hp ts ⟨hrun, hlast⟩) halike
  | .ok (a, mid) =>
    rw [bind_of_ok hrun] at herror
    have hmid : mid ≠ [] := by
      rintro rfl
      exact hend ts a hlast hrun
    obtain ⟨used, rfl, -, hagree⟩ := hlook ts hrun
    rw [getLast?_append_of_ne_nil hmid] at hlast
    -- the first reader looks at one more token, and there is one
    have hgo : ∀ zs, (p >>= f) (used ++ mid ++ zs) = f a (mid ++ zs) := by
      intro zs
      rw [List.append_assoc]
      refine bind_of_ok (hagree (mid ++ zs) ?_)
      rw [List.take_append_of_le_length (List.length_pos_iff.mpr hmid)]
    rw [hgo, hgo]
    exact hf a mid ⟨herror, hlast⟩

/-- In front of a reader that asks for no name it is the first that breaks off. -/
theorem BreaksOff.of_bind (h : BreaksOff (p >>= f) ts) (hf : ∀ a, AsksNoName (f a)) :
    BreaksOff p ts := by
  obtain ⟨herror, hlast⟩ := h
  match hrun : p ts with
  | .error e =>
    obtain rfl := Except.error.inj ((bind_of_error hrun).symm.trans herror)
    exact ⟨hrun, hlast⟩
  | .ok (a, mid) =>
    rw [bind_of_ok hrun] at herror
    exact absurd herror (hf a mid)

theorem Indifferent.bind_asksNoName (hp : Indifferent xs ys g p)
    (halike : ∀ a a', g a = g a' → Alike g' (f a) (f a')) (hf : ∀ a, AsksNoName (f a)) :
    Indifferent xs ys g' (p >>= f) :=
  fun ts hts => view_bind (hp ts (hts.of_bind hf)) halike

/-- Behind a reader that shuns an equals sign. -/
theorem Shuns.indifferent_bind (hp : Shuns p) (hlook : Peeks p)
    (hf : ∀ a, Indifferent xs ys g' (f a)) : Indifferent xs ys g' (p >>= f) := by
  refine Indifferent.bind (g := id) hp.indifferent hlook ?_ (fun ts a hlast => (hp ts hlast).2 a) hf
  rintro a _ rfl
  exact Alike.refl _

end Indifferent

/-! ## Lists of items -/

section Lists

variable {xs ys : List Token} {g : α → γ} {item : Parser α}

theorem bind_congr_run (h : p ts = q ts') : (p >>= f) ts = (q >>= f) ts' := by
  simp only [bind, h]

theorem bind_pure_bind (g : α → β) {f : β → Parser γ} :
    ((p >>= fun a => pure (g a)) >>= f) ts = (p >>= fun a => f (g a)) ts := by
  cases h : p ts with
  | error e => rw [bind_of_error (bind_of_error h), bind_of_error h]
  | ok r =>
    rw [bind_of_ok (bind_of_ok h)]
    exact (bind_of_ok (f := fun a => f (g a)) h).symm

theorem bind_pure_self : (p >>= fun a => pure a) ts = p ts := by
  cases h : p ts with
  | error e => exact bind_of_error h
  | ok r => exact bind_of_ok h

theorem error_of_bind_pure {g : α → β} {e : SyntaxError}
    (h : (p >>= fun a => pure (g a)) ts = .error e) : p ts = .error e := by
  cases hrun : p ts with
  | error e' =>
    rw [bind_of_error hrun] at h
    rw [Except.error.inj h]
  | ok r =>
    rw [bind_of_ok hrun] at h
    cases h

/-- **A list with commas breaks off in an item**, and whatever follows, that item is begun in its
place. -/
theorem BreaksOff.commaList (hlook : Local 2 0 item) (h : BreaksOff (commaList item) ts) :
    ∃ init us, BreaksOff item us ∧ ∀ zs, commaList item (ts ++ zs)
      = (commaList item >>= fun as => pure (init ++ as)) (us ++ zs) := by
  induction hlen : ts.length using Nat.strongRecOn generalizing ts with
  | ind n ih =>
    obtain ⟨herror, hlast⟩ := h
    match hrun : item ts with
    | .error e =>
      obtain rfl := Except.error.inj ((commaList_of_error hrun).symm.trans herror)
      exact ⟨[], ts, ⟨hrun, hlast⟩, fun zs => bind_pure_self.symm⟩
    | .ok (a, mid) =>
      by_cases hcomma : mid.head? = some (.symbol .comma)
      · obtain ⟨rest, rfl⟩ := List.head?_eq_some_iff.mp hcomma
        obtain ⟨used, rfl, -, hagree⟩ := hlook ts hrun
        have hrest : rest ≠ [] := by
          rintro rfl
          simp at hlast
        have hlast' : rest.getLast? = some (.symbol .equals) := by
          rwa [getLast?_append_of_ne_nil (List.cons_ne_nil _ _), ← List.singleton_append,
            getLast?_append_of_ne_nil hrest] at hlast
        have hgo : ∀ zs, Parser.commaList item (used ++ .symbol .comma :: rest ++ zs)
            = (Parser.commaList item >>= fun as => pure (a :: as)) (rest ++ zs) := by
          intro zs
          rw [List.append_assoc]
          refine commaList_of_comma (hagree (.symbol .comma :: rest ++ zs) ?_) ?_
          · have := List.length_pos_iff.mpr hrest
            rw [List.take_append_of_le_length (by rw [List.length_cons]; omega)]
          · simp only [List.length_append, List.length_cons]
            omega
        have hbreak : BreaksOff (Parser.commaList item) rest := by
          have hnil := hgo []
          rw [List.append_nil, List.append_nil, herror] at hnil
          exact ⟨error_of_bind_pure hnil.symm, hlast'⟩
        have hlt : rest.length < n := by
          rw [← hlen, List.length_append, List.length_cons]
          omega
        obtain ⟨init, us, hus, hzs⟩ := ih rest.length hlt hbreak rfl
        refine ⟨a :: init, us, hus, fun zs => ?_⟩
        rw [hgo, bind_congr_run (hzs zs), bind_pure_bind]
        rfl
      · cases (commaList_of_end hrun hcomma).symm.trans herror

/-- Lists that begin with items that look the same. -/
theorem view_commaList (hlook : Local 2 0 item) (h : view g (item ts) = view g (item ts')) :
    view (List.map g) (commaList item ts) = view (List.map g) (commaList item ts') := by
  rcases view_eq_iff.mp h with ⟨e, e', he, he'⟩ | ⟨a, a', rest, ha, ha', hg⟩
  · rw [commaList_of_error he, commaList_of_error he']
    exact view_eq_iff.mpr (.inl ⟨e, e', rfl, rfl⟩)
  · by_cases hcomma : rest.head? = some (.symbol .comma)
    · obtain ⟨rest, rfl⟩ := List.head?_eq_some_iff.mp hcomma
      have hlt : ∀ {us : List Token} {b : α}, item us = .ok (b, .symbol .comma :: rest) →
          rest.length < us.length := by
        intro us b hb
        obtain ⟨used, rfl, -, -⟩ := hlook us hb
        rw [List.length_append, List.length_cons]
        omega
      rw [commaList_of_comma ha (hlt ha), commaList_of_comma ha' (hlt ha')]
      exact Alike.bind (fun as => alike_pure (by rw [List.map_cons, List.map_cons, hg])) rest
    · rw [commaList_of_end ha hcomma, commaList_of_end ha' hcomma]
      exact view_eq_iff.mpr (.inr ⟨[a], [a'], rest, rfl, rfl, by rw [List.map_singleton, hg]; rfl⟩)

/-- **A list with commas** is indifferent if its items are. -/
theorem Indifferent.commaList (hitem : Indifferent xs ys g item) (hlook : Local 2 0 item) :
    Indifferent xs ys (List.map g) (commaList item) := by
  intro ts hts
  obtain ⟨init, us, hus, hgo⟩ := hts.commaList hlook
  rw [hgo, hgo]
  refine view_bind (view_commaList hlook (hitem us hus)) fun as as' has => alike_pure ?_
  rw [List.map_append, List.map_append, has]

variable {stop : Option Token → Bool}

theorem Closed.length_lt (h : Closed p) {a : α} {rest : List Token} (hrun : p ts = .ok (a, rest)) :
    rest.length < ts.length := by
  obtain ⟨used, rfl, hused, -⟩ := h ts hrun
  rw [List.length_append]
  omega

theorem view_untilStop (hlook : Closed item) (hs : stop ts.head? = false)
    (hs' : stop ts'.head? = false) (h : view g (item ts) = view g (item ts')) :
    view (List.map g) (untilStop stop item ts) = view (List.map g) (untilStop stop item ts') := by
  rcases view_eq_iff.mp h with ⟨e, e', he, he'⟩ | ⟨a, a', rest, ha, ha', hg⟩
  · rw [untilStop_of_error hs he, untilStop_of_error hs' he']
    exact view_eq_iff.mpr (.inl ⟨e, e', rfl, rfl⟩)
  · rw [untilStop_of_item hs ha (hlook.length_lt ha),
      untilStop_of_item hs' ha' (hlook.length_lt ha')]
    exact Alike.bind (fun as => alike_pure (by rw [List.map_cons, List.map_cons, hg])) rest

/-- **A list up to a token that ends it** is indifferent if its items are, provided that no name is
missed where an item should begin. -/
theorem Indifferent.untilStop (hitem : Indifferent xs ys g item) (hlook : Closed item)
    (hnil : untilStop stop item [] ≠ .error ⟨.identifier, []⟩) :
    Indifferent xs ys (List.map g) (untilStop stop item) := by
  intro ts
  induction hlen : ts.length using Nat.strongRecOn generalizing ts with
  | ind n ih =>
    rintro ⟨herror, hlast⟩
    have hstop : stop ts.head? = false := by
      rw [← Bool.not_eq_true]
      intro hstop
      cases (untilStop_of_stop hstop).symm.trans herror
    obtain ⟨t, ts, rfl⟩ := List.exists_cons_of_ne_nil (ne_nil_of_getLast? hlast)
    have hstop' : ∀ zs, stop (t :: ts ++ zs).head? = false := fun _ => hstop
    match hrun : item (t :: ts) with
    | .error e =>
      obtain rfl := Except.error.inj ((untilStop_of_error hstop hrun).symm.trans herror)
      exact view_untilStop hlook (hstop' xs) (hstop' ys) (hitem (t :: ts) ⟨hrun, hlast⟩)
    | .ok (a, mid) =>
      have hlt := hlook.length_lt hrun
      obtain ⟨used, hts, -, hagree⟩ := hlook _ hrun
      have hgo : ∀ zs, Parser.untilStop stop item (t :: ts ++ zs)
          = (Parser.untilStop stop item >>= fun as => pure (a :: as)) (mid ++ zs) := by
        intro zs
        have hitem : item (t :: ts ++ zs) = .ok (a, mid ++ zs) := by
          rw [hts, List.append_assoc]
          exact hagree (mid ++ zs) rfl
        exact untilStop_of_item (hstop' zs) hitem (hlook.length_lt hitem)
      have hbreak : Parser.untilStop stop item mid = .error ⟨.identifier, []⟩ := by
        have hself := hgo []
        rw [List.append_nil, List.append_nil, herror] at hself
        exact error_of_bind_pure hself.symm
      have hmid : mid ≠ [] := by
        rintro rfl
        exact hnil hbreak
      rw [hts, getLast?_append_of_ne_nil hmid] at hlast
      rw [hgo, hgo]
      refine view_bind (ih mid.length (hlen ▸ hlt) mid rfl ⟨hbreak, hlast⟩) fun as as' has =>
        alike_pure ?_
      rw [List.map_cons, List.map_cons, has]

end Lists

end IntentContract.Parser
