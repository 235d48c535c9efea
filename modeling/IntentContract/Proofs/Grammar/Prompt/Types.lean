import IntentContract.Proofs.Grammar.Prompt

/-!
# Where a type fails

Types are read with a stack of the unions and generics still open, and a type that fails can be
completed in front of the token to blame: another name, and then what closes the open types, the
innermost first (`closers`). The word behind `unsigned` or `unrestricted` is passed before it is
judged, so there the misfit stands one token further on.
-/

namespace IntentContract.Grammar

open IntentContract.Parser

variable {ts : List Token} {e : SyntaxError}

/-! ## Names of types -/

/-- What may follow the name of a type. -/
def NameFollow : Follow := (· ≠ some (.identifier "long"))

/-- The words that make up a name with the first. -/
def fitsBehind (first word : String) : Bool :=
  if first = "unsigned" then word = "short" || word = "long"
  else word = "float" || word = "double"

/-- **The second word** of a name is judged by itself. It is missing, or it is passed over and does
not fit. -/
theorem typeName_eq_error {first : String} (hfirst : first = "unsigned" ∨ first = "unrestricted")
    (hword : ∀ t ∈ ts.head?, ∀ word, t.name? = some word → fitsBehind first word = false) :
    ∃ e, typeName (.identifier first :: ts) = .error e
      ∧ (e = ⟨.identifier, ts⟩ ∨ e.Belated ∧ ∃ t, ts = t :: e.rest) := by
  cases hname : Parser.name ts with
  | error e =>
    obtain ⟨rfl, -⟩ := name_eq_error_iff.mp hname
    refine ⟨_, ?_, .inl rfl⟩
    rcases hfirst with rfl | rfl <;> simp [typeName, hname]
  | ok r =>
    obtain ⟨word, rest⟩ := r
    obtain ⟨t, rfl, ht⟩ := name_eq_ok_iff.mp hname
    have hfit := hword t rfl word ht
    rcases hfirst with rfl | rfl
    · obtain ⟨hshort, hlong⟩ : word ≠ "short" ∧ word ≠ "long" := by simpa [fitsBehind] using hfit
      refine ⟨⟨.unsignedWidth, rest⟩, by simp [typeName, hname, hshort, hlong], .inr ?_⟩
      exact ⟨.inl rfl, t, rfl⟩
    · obtain ⟨hfloat, hdouble⟩ : word ≠ "float" ∧ word ≠ "double" := by
        simpa [fitsBehind] using hfit
      refine ⟨⟨.unrestrictedWidth, rest⟩, by simp [typeName, hname, hfloat, hdouble], .inr ?_⟩
      exact ⟨.inr rfl, t, rfl⟩

/-- A second word that fits is taken. -/
theorem typeName_eq_ok {first word : String} {t : Token} (ts : List Token)
    (hfirst : first = "unsigned" ∨ first = "unrestricted") (ht : t.name? = some word)
    (hfit : fitsBehind first word = true) :
    ∃ r, typeName (.identifier first :: t :: ts) = .ok r := by
  rcases hfirst with rfl | rfl
  · obtain rfl | rfl : word = "short" ∨ word = "long" := by simpa [fitsBehind] using hfit
    · exact ⟨_, typeName_append (.unsignedShort ht) (by simp)⟩
    · by_cases hlong : ts.head? = some (.identifier "long")
      · obtain ⟨rest, rfl⟩ := List.head?_eq_some_iff.mp hlong
        exact ⟨_, typeName_append (.unsignedLongLong ht) (by simp)⟩
      · exact ⟨_, typeName_append (.unsignedLong ht) fun _ => hlong⟩
  · have hword : word = "float" ∨ word = "double" := by simpa [fitsBehind] using hfit
    exact ⟨_, typeName_append (.unrestricted ht hword) (by simp)⟩

theorem fitsBehind_of_error {first : String} (hfirst : first = "unsigned" ∨ first = "unrestricted")
    (h : typeName (.identifier first :: ts) = .error e) :
    ∀ t ∈ ts.head?, ∀ word, t.name? = some word → fitsBehind first word = false := by
  intro t ht word hname
  obtain ⟨rest, rfl⟩ := List.head?_eq_some_iff.mp ht
  rw [← Bool.not_eq_true]
  intro hfit
  obtain ⟨r, hr⟩ := typeName_eq_ok rest hfirst hname hfit
  cases hr.symm.trans h

/-- The name of a type is read the same before all that may follow. -/
theorem typeName_stops {n : String} {mid : List Token} (h : typeName ts = .ok (n, mid)) :
    ∃ used, ts = used ++ mid
      ∧ ∀ rest, NameFollow rest.head? → typeName (used ++ rest) = .ok (n, rest) := by
  obtain ⟨used, more, hwords, hts, -⟩ := typeWords_of_typeName h
  exact ⟨used, hts, fun rest hrest => typeName_append hwords fun _ => hrest⟩

theorem promptAt_secondWord {first : String}
    (hfirst : first = "unsigned" ∨ first = "unrestricted") (ts : List Token) :
    PromptAt NameFollow (fun ts => typeName (.identifier first :: ts)) ts where
  stops n mid h := by
    obtain ⟨used, hts, hstops⟩ := typeName_stops h
    match used with
    | [] =>
      have hlt := length_lt_of_typeName h
      rw [hts] at hlt
      exact absurd hlt (Nat.lt_irrefl _)
    | t :: used =>
      obtain ⟨rfl, rfl⟩ : .identifier first = t ∧ ts = used ++ mid := by simpa using hts
      exact ⟨used, rfl, hstops⟩
  fails e h := by
    have hword := fitsBehind_of_error hfirst h
    have hdead : ∀ ts', ts'.take 1 = ts.take 1 →
        ∃ e, typeName (.identifier first :: ts') = .error e := by
      intro ts' hagree
      rw [← head?_eq_of_take hagree] at hword
      obtain ⟨e', he', -⟩ := typeName_eq_error hfirst hword
      exact ⟨e', he'⟩
    have hstumbles : Stumbles NameFollow (fun ts => typeName (.identifier first :: ts)) ts 0 :=
      ⟨Nat.zero_le _, hdead, fun hk => absurd hk (Nat.lt_irrefl 0)⟩
    obtain ⟨e', he', hcases⟩ := typeName_eq_error hfirst hword
    obtain rfl : e' = e := Except.error.inj (he'.symm.trans h)
    rcases hcases with rfl | ⟨hbelated, t, hts⟩
    · have hplain : SyntaxError.Plain ⟨.identifier, ts⟩ := ⟨by simp [SyntaxError.Belated], by simp⟩
      refine ⟨[], rfl, hplain.placed _, ?_⟩
      rwa [hplain.place_eq]
    · -- the word is passed, so its place is one in front of the misfit
      have hplace : ∀ front, e'.place front = front.length - 1 := fun front => if_pos hbelated
      refine ⟨[t], hts, fun used => ?_, ?_⟩
      · rw [hplace, hplace, List.length_append]
        rfl
      · rwa [hplace]

/-- A name of one word does not fail. -/
theorem typeName_of_plain {first : String} (hu : first ≠ "unsigned") (hr : first ≠ "unrestricted")
    (ts : List Token) : ∃ r, typeName (.identifier first :: ts) = .ok r := by
  by_cases hlong : first = "long" ∧ ts.head? = some (.identifier "long")
  · obtain ⟨rfl, hhead⟩ := hlong
    obtain ⟨rest, rfl⟩ := List.head?_eq_some_iff.mp hhead
    exact ⟨_, typeName_append .longLong (by simp)⟩
  · refine ⟨_, typeName_append (.plain hu hr) fun hmore hhead => hlong ⟨?_, hhead⟩⟩
    simpa using hmore

theorem typeName_of_ne (h : ∀ n, ts.head? ≠ some (.identifier n)) :
    typeName ts = .error ⟨.type, ts⟩ := by
  unfold typeName
  split
  · exact absurd rfl (h _)
  · rfl

/-- **The name of a type is prompt.** -/
theorem promptAt_typeName (ts : List Token) : PromptAt NameFollow typeName ts := by
  by_cases h : ∃ first, ts.head? = some (.identifier first)
  · obtain ⟨first, hhead⟩ := h
    obtain ⟨ts, rfl⟩ := List.head?_eq_some_iff.mp hhead
    by_cases hfirst : first = "unsigned" ∨ first = "unrestricted"
    · have hopens : ∃ word, Opens NameFollow (some (.identifier word))
          (fun ts => typeName (.identifier first :: ts)) := by
        rcases hfirst with rfl | rfl
        · refine ⟨"short", [.identifier "short"], "unsigned short", rfl, fun rest _ => ?_⟩
          exact typeName_append (.unsignedShort rfl) (by simp)
        · refine ⟨"float", [.identifier "float"], "unrestricted float", rfl, fun rest _ => ?_⟩
          exact typeName_append (.unrestricted rfl (.inl rfl)) (by simp)
      obtain ⟨word, hopens⟩ := hopens
      exact PromptAt.cons (fun _ => rfl) (promptAt_secondWord hfirst ts) hopens
    · obtain ⟨r, hr⟩ := typeName_of_plain (fun h => hfirst (.inl h)) (fun h => hfirst (.inr h)) ts
      exact ⟨fun n mid h => typeName_stops h, fun e he => nomatch hr.symm.trans he⟩
  · have hne : ∀ n, ts.head? ≠ some (.identifier n) := fun n hn => h ⟨n, hn⟩
    refine PromptAt.of_error (typeName_of_ne hne) ⟨by simp [SyntaxError.Belated], by simp⟩
      fun ts' hts => ⟨_, typeName_of_ne (by rwa [hts])⟩

/-! ## Types -/

/-- What may follow a type. -/
def TypeFollow : Follow := fun o =>
  o ≠ some (.symbol .langle) ∧ o ≠ some (.symbol .question) ∧ o ≠ some (.identifier "long")

/-- The tokens that close what is open behind a complete type. A union needs two members. -/
def closers : List OpenType → List Token
  | [] => []
  | .union [] :: stack => .keyword .or :: anyName :: .symbol .rparen :: closers stack
  | .union _ :: stack => .symbol .rparen :: closers stack
  | .generic _ _ :: stack => .symbol .rangle :: closers stack

theorem typeFollow_closers (stack : List OpenType) {o : Option Token} (h : TypeFollow o) :
    TypeFollow ((closers stack).head?.or o) := by
  match stack with
  | [] => exact h
  | .union [] :: _ => simp [closers, TypeFollow]
  | .union (_ :: _) :: _ => simp [closers, TypeFollow]
  | .generic _ _ :: _ => simp [closers, TypeFollow]

theorem typeFollow_append (stack : List OpenType) {rest : List Token} (h : TypeFollow rest.head?) :
    TypeFollow (closers stack ++ rest).head? := by
  rw [List.head?_append]
  exact typeFollow_closers stack h

/-- A name is a type in front of a token that may follow one. -/
theorem typeStart_anyName (stack : List OpenType) {rest : List Token} (h : TypeFollow rest.head?) :
    typeStart stack (anyName :: rest) = typeEnd stack (.primitive "x") rest := by
  have hname : typeName ([anyName] ++ rest) = .ok ("x", rest) :=
    typeName_append (.plain (by decide) (by decide)) fun _ => h.2.2
  rw [List.singleton_append] at hname
  rw [typeStart_of_name hname h.1, typeMark_of_ne h.2.1]

/-- **Closing all that is open** completes a type. -/
theorem typeEnd_closers (stack : List OpenType) (d : TypeDescriptor) :
    ∃ d', ∀ rest, TypeFollow rest.head? →
      typeEnd stack d (closers stack ++ rest) = .ok (d', rest) := by
  induction stack generalizing d with
  | nil => exact ⟨d, fun rest _ => typeEnd_nil d rest⟩
  | cons o stack ih =>
    match o with
    | .union [] =>
      obtain ⟨d', hd⟩ := ih (.union [d, .primitive "x"])
      refine ⟨d', fun rest hrest => ?_⟩
      have hstop := typeFollow_append stack hrest
      rw [closers, List.cons_append, typeEnd_or, List.cons_append,
        typeStart_anyName _ (by simp [TypeFollow]), List.cons_append,
        typeEnd_rparen (by simp), typeMark_of_ne hstop.2.1]
      exact hd rest hrest
    | .union (m :: ms) =>
      obtain ⟨d', hd⟩ := ih (.union (m :: ms ++ [d]))
      refine ⟨d', fun rest hrest => ?_⟩
      have hstop := typeFollow_append stack hrest
      have hne : m :: ms ≠ [] := List.cons_ne_nil m ms
      rw [closers.eq_3 _ _ hne, List.cons_append, typeEnd_rparen hne, typeMark_of_ne hstop.2.1]
      exact hd rest hrest
    | .generic kind args =>
      obtain ⟨d', hd⟩ := ih (.generic kind (args ++ [d]))
      refine ⟨d', fun rest hrest => ?_⟩
      have hstop := typeFollow_append stack hrest
      rw [closers, List.cons_append, typeEnd_rangle, typeMark_of_ne hstop.2.1]
      exact hd rest hrest

theorem opens_typeEnd (stack : List OpenType) (d : TypeDescriptor) :
    Opens TypeFollow (closers stack).head? (typeEnd stack d) := by
  obtain ⟨d', hd⟩ := typeEnd_closers stack d
  exact ⟨closers stack, d', rfl, hd⟩

theorem opens_typeMark (stack : List OpenType) (d : TypeDescriptor) :
    Opens TypeFollow (closers stack).head? (typeMark stack d) := by
  obtain ⟨d', hd⟩ := typeEnd_closers stack d
  refine ⟨closers stack, d', rfl, fun rest hrest => ?_⟩
  rw [typeMark_of_ne (typeFollow_append stack hrest).2.1, hd rest hrest]

theorem opens_typeStart (stack : List OpenType) :
    Opens TypeFollow (some anyName) (typeStart stack) := by
  obtain ⟨d', hd⟩ := typeEnd_closers stack (.primitive "x")
  refine ⟨anyName :: closers stack, d', rfl, fun rest hrest => ?_⟩
  rw [List.cons_append, typeStart_anyName stack (typeFollow_append stack hrest), hd rest hrest]

/-- Without a name there is no type. -/
theorem typeStart_of_error {stack : List OpenType} (hl : ts.head? ≠ some (.symbol .lparen))
    (h : typeName ts = .error e) : typeStart stack ts = .error e := by
  rw [typeStart.eq_def]
  split
  · exact absurd rfl hl
  · split
    · next h' => rw [Except.error.inj (h'.symm.trans h)]
    · next h' => cases h'.symm.trans h
    · next h' => cases h'.symm.trans h

/-- A type whose name fails. -/
theorem promptAt_typeStart_of_error {stack : List OpenType}
    (hl : ts.head? ≠ some (.symbol .lparen)) (h : typeName ts = .error e) :
    PromptAt TypeFollow (typeStart stack) ts := by
  have herror : typeStart stack ts = .error e := typeStart_of_error hl h
  refine ⟨fun d mid hd => (nomatch herror.symm.trans hd), fun e' he' => ?_⟩
  obtain rfl : e = e' := Except.error.inj (herror.symm.trans he')
  obtain ⟨front, hts, hplaced, hstumbles⟩ := (promptAt_typeName ts).fails h
  refine ⟨front, hts, hplaced, hstumbles.le, fun ts' hagree => ?_, fun hk => ?_⟩
  · obtain ⟨e', he'⟩ := hstumbles.dead ts' hagree
    exact ⟨e', typeStart_of_error (by rwa [head?_eq_of_take hagree]) he'⟩
  · obtain ⟨more, n, hmore⟩ := hstumbles.alive hk
    obtain ⟨d, hd⟩ := typeEnd_closers stack (.primitive n)
    refine ⟨more ++ closers stack, d, fun rest hrest => ?_⟩
    have hstop := typeFollow_append stack hrest
    rw [List.append_assoc, typeStart_of_name (hmore _ hstop.2.2) hstop.1,
      typeMark_of_ne hstop.2.1, hd rest hrest]

/-- A type whose name is there. -/
theorem promptAt_typeStart_of_ok {stack : List OpenType} {n : String} {mid : List Token}
    (hn : typeName ts = .ok (n, mid))
    (hgeneric : ∀ rest, mid = .symbol .langle :: rest →
      PromptAt TypeFollow (typeStart (.generic n [] :: stack)) rest)
    (hmark : PromptAt TypeFollow (typeMark stack (.primitive n)) mid) :
    PromptAt TypeFollow (typeStart stack) ts := by
  obtain ⟨used, rfl, -, hname⟩ := local_typeName ts hn
  by_cases hlangle : mid.head? = some (.symbol .langle)
  · obtain ⟨rest, rfl⟩ := List.head?_eq_some_iff.mp hlangle
    have hgo : ∀ ts', typeStart stack ((used ++ [.symbol .langle]) ++ ts')
        = typeStart (.generic n [] :: stack) ts' := by
      intro ts'
      rw [List.append_assoc]
      exact typeStart_of_langle (hname _ rfl)
    have hstep := PromptAt.step _ (G := Anything) (fun ts' _ => hgo ts') (hgeneric rest rfl)
      (opens_typeStart _) (fun _ _ => trivial) fun _ _ _ _ => trivial
    rwa [List.append_assoc, List.singleton_append] at hstep
  · refine PromptAt.step _ (G := TypeFollow) (fun ts' hts => ?_) hmark (opens_typeMark _ _)
      (fun o ho => typeFollow_closers stack ho) fun _ _ _ ho => ho
    rcases hts with htake | hfollow
    · exact typeStart_of_name (hname ts' htake) (by rwa [head?_eq_of_take htake])
    · obtain ⟨used', hts, hstops⟩ := (promptAt_typeName _).stops hn
      obtain rfl : used = used' := List.append_cancel_right hts
      exact typeStart_of_name (hstops ts' hfollow.2.2) hfollow.1

/-- A union does not go on with another token. -/
theorem typeEnd_union_error {ms : List TypeDescriptor} {stack : List OpenType} {d : TypeDescriptor}
    (hor : ts.head? ≠ some (.keyword .or)) (hr : ms = [] ∨ ts.head? ≠ some (.symbol .rparen)) :
    typeEnd (.union ms :: stack) d ts
      = .error ⟨if ms = [] then .unionAlternative else .symbol .rparen, ts⟩ := by
  unfold typeEnd
  split <;> simp_all

/-- A generic does not go on with another token. -/
theorem typeEnd_generic_error {kind : String} {args : List TypeDescriptor} {stack : List OpenType}
    {d : TypeDescriptor} (hc : ts.head? ≠ some (.symbol .comma))
    (hr : ts.head? ≠ some (.symbol .rangle)) :
    typeEnd (.generic kind args :: stack) d ts = .error ⟨.symbol .rangle, ts⟩ := by
  unfold typeEnd
  split <;> simp_all

mutual

theorem promptAt_typeStart (stack : List OpenType) (ts : List Token) :
    PromptAt TypeFollow (typeStart stack) ts := by
  by_cases hl : ts.head? = some (.symbol .lparen)
  · obtain ⟨rest, rfl⟩ := List.head?_eq_some_iff.mp hl
    exact PromptAt.cons (typeStart_lparen stack) (promptAt_typeStart (.union [] :: stack) rest)
      (opens_typeStart _)
  · match hn : typeName ts with
    | .error e => exact promptAt_typeStart_of_error hl hn
    | .ok (n, mid) =>
      have hlt := length_lt_of_typeName hn
      refine promptAt_typeStart_of_ok hn (fun rest hmid => ?_)
        (promptAt_typeMark stack (.primitive n) mid)
      have hlt' : rest.length < ts.length := by
        rw [hmid, List.length_cons] at hlt
        omega
      exact promptAt_typeStart (.generic n [] :: stack) rest
termination_by (ts.length, 0)

theorem promptAt_typeMark (stack : List OpenType) (d : TypeDescriptor) (ts : List Token) :
    PromptAt TypeFollow (typeMark stack d) ts := by
  by_cases hq : ts.head? = some (.symbol .question)
  · obtain ⟨rest, rfl⟩ := List.head?_eq_some_iff.mp hq
    exact PromptAt.cons (typeMark_question stack d) (promptAt_typeEnd stack (.nullable d) rest)
      (opens_typeEnd _ _)
  · exact PromptAt.of_head (C := (· ≠ some (.symbol .question))) hq
      (fun ts' hts => typeMark_of_ne hts) (promptAt_typeEnd stack d ts) fun _ _ _ ho => ho.2.1
termination_by (ts.length, 2)

theorem promptAt_typeEnd (stack : List OpenType) (d : TypeDescriptor) (ts : List Token) :
    PromptAt TypeFollow (typeEnd stack d) ts := by
  match stack with
  | [] =>
    refine ⟨fun d' mid h => ?_, fun e h => by rw [typeEnd_nil] at h; cases h⟩
    obtain ⟨rfl, rfl⟩ : d = d' ∧ ts = mid := by simpa [typeEnd_nil] using h
    exact ⟨[], rfl, fun rest _ => typeEnd_nil d rest⟩
  | .union ms :: stack =>
    by_cases hor : ts.head? = some (.keyword .or)
    · obtain ⟨rest, rfl⟩ := List.head?_eq_some_iff.mp hor
      exact PromptAt.cons (fun _ => typeEnd_or ms)
        (promptAt_typeStart (.union (ms ++ [d]) :: stack) rest) (opens_typeStart _)
    · by_cases hr : ms = [] ∨ ts.head? ≠ some (.symbol .rparen)
      · refine PromptAt.of_error (typeEnd_union_error hor hr) ?_ fun ts' hts =>
          ⟨_, typeEnd_union_error (by rwa [hts]) (by rwa [hts])⟩
        constructor <;> split <;> simp [SyntaxError.Belated]
      · obtain ⟨hms, hhead⟩ : ms ≠ [] ∧ ts.head? = some (.symbol .rparen) := by simpa using hr
        obtain ⟨rest, rfl⟩ := List.head?_eq_some_iff.mp hhead
        exact PromptAt.cons (fun _ => typeEnd_rparen hms)
          (promptAt_typeMark stack (.union (ms ++ [d])) rest) (opens_typeMark _ _)
  | .generic kind args :: stack =>
    by_cases hc : ts.head? = some (.symbol .comma)
    · obtain ⟨rest, rfl⟩ := List.head?_eq_some_iff.mp hc
      exact PromptAt.cons (fun _ => typeEnd_comma kind args)
        (promptAt_typeStart (.generic kind (args ++ [d]) :: stack) rest) (opens_typeStart _)
    · by_cases hr : ts.head? = some (.symbol .rangle)
      · obtain ⟨rest, rfl⟩ := List.head?_eq_some_iff.mp hr
        exact PromptAt.cons (fun _ => typeEnd_rangle kind args)
          (promptAt_typeMark stack (.generic kind (args ++ [d])) rest) (opens_typeMark _ _)
      · exact PromptAt.of_error (typeEnd_generic_error hc hr)
          ⟨by simp [SyntaxError.Belated], by simp⟩ fun ts' hts =>
          ⟨_, typeEnd_generic_error (by rwa [hts]) (by rwa [hts])⟩
termination_by (ts.length, 1)

end

/-- Reading a type takes at least one token. -/
theorem length_lt_of_typeStart {stack : List OpenType} {d : TypeDescriptor} {rest : List Token}
    (h : typeStart stack ts = .ok (d, rest)) : rest.length < ts.length := by
  rcases typeStart_cases h with ⟨mid, rfl⟩ | ⟨kind, mid, hn⟩ | ⟨n, mid, hn, hl⟩
  · rw [typeStart_lparen] at h
    obtain ⟨used, rfl, -, -⟩ := localAt_typeStart _ _ h
    rw [List.length_cons, List.length_append]
    omega
  · have hlt := length_lt_of_typeName hn
    rw [typeStart_of_langle hn] at h
    obtain ⟨used, rfl, -, -⟩ := localAt_typeStart _ _ h
    rw [List.length_cons, List.length_append] at hlt
    omega
  · have hlt := length_lt_of_typeName hn
    rw [typeStart_of_name hn hl] at h
    obtain ⟨used, rfl, -, -⟩ := localAt_typeMark _ _ _ h
    rw [List.length_append] at hlt
    omega

/-- **A type is guided.** -/
theorem guided_type : Guided TypeFollow (some anyName) type where
  look ts d rest h := by
    obtain ⟨used, rfl, -, hrun⟩ := peeks_type ts h
    have hlt := length_lt_of_typeStart h
    rw [List.length_append] at hlt
    exact ⟨used, rfl, (by omega : 1 ≤ used.length), hrun⟩
  prompt := promptAt_typeStart []
  opens := opens_typeStart []

end IntentContract.Grammar
