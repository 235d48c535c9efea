import IntentContract.Proofs.Token.Spelling
import IntentContract.Text.Search

/-!
# Spacing does not reach the tokens

Between its lexemes a text has gaps: blanks, comments up to the end of a line,
and comments in brackets. A `Spacer` is one of these, a `Gap` a sequence of them,
and scanning passes over a gap whatever stands behind it (`gap_text_append`).
So the tokens of a text are those of its lexemes, however they are spaced
(`tokens?_spaced`).

The same holds at a seam between two texts. A line break ends every lexeme, and
a comment that runs to the end of the first text ends there as well; the second
text is scanned as if it stood alone (`tokens?_append`).
-/

namespace IntentContract.Scan

/-! ## Gaps -/

/-- A blank or a closed comment. -/
inductive Spacer where
  | blank (c : Char) (h : Text.isBlank c = true)
  /-- A comment to the end of its line, the line break included. -/
  | line (body : List Char) (h : '\n' ∉ body)
  /-- A comment in brackets, which ends with the first closing bracket. -/
  | block (body : List Char) (h : Text.occursIn ['*', '/'] body = false)

/-- The characters of a spacer. -/
def Spacer.text : Spacer → List Char
  | .blank c _ => [c]
  | .line body _ => '/' :: '/' :: (body ++ ['\n'])
  | .block body _ => '/' :: '*' :: (body ++ ['*', '/'])

/-- A sequence of spacers. -/
abbrev Gap := List Spacer

/-- The characters of a gap. -/
def Gap.text (g : Gap) : List Char :=
  g.flatMap Spacer.text

/-- A gap found further on, seen from a point `passed` in front of it. -/
def widen (passed : List Char) :
    Except ScanError (List Char × List Char) → Except ScanError (List Char × List Char)
  | .ok (g, rest) => .ok (passed ++ g, rest)
  | .error e => .error (e.behind passed)

@[simp] theorem widen_ok (passed g rest : List Char) :
    widen passed (.ok (g, rest)) = .ok (passed ++ g, rest) := rfl

@[simp] theorem widen_nil (r : Except ScanError (List Char × List Char)) :
    widen [] r = r := by
  cases r <;> rfl

@[simp] theorem widen_widen (a b : List Char)
    (r : Except ScanError (List Char × List Char)) :
    widen a (widen b r) = widen (a ++ b) r := by
  cases r <;> simp [widen, ScanError.behind]

/-- Only a slash begins a comment. -/
theorem comment_of_ne_slash {c : Char} {cs : List Char} (h : c ≠ '/') :
    comment (c :: cs) = .none := by
  unfold comment
  split <;> simp_all

/-- A comment in front of a text belongs to its gap. -/
theorem gap_of_comment {cs body rest : List Char}
    (h : comment cs = .closed body rest) : gap cs = widen body (gap rest) := by
  rw [gap]
  split
  · next body' rest' h' =>
    obtain ⟨rfl, rfl⟩ : body = body' ∧ rest = rest' := by simpa using h.symm.trans h'
    cases gap rest <;> rfl
  · next h' => cases h.symm.trans h'
  · next h' => cases h.symm.trans h'

/-- A blank in front of a text belongs to its gap. -/
theorem gap_of_blank {c : Char} (h : Text.isBlank c = true) (cs : List Char) :
    gap (c :: cs) = widen [c] (gap cs) := by
  have hslash : c ≠ '/' := by rintro rfl; exact absurd h (by decide)
  rw [gap]
  split
  · next h' => cases (comment_of_ne_slash hslash).symm.trans h'
  · next h' => cases (comment_of_ne_slash hslash).symm.trans h'
  · simp only [h, ↓reduceIte]
    cases gap cs <;> rfl

/-- There is no gap in front of a lexeme. -/
theorem gap_of_visible {c : Char} (hb : Text.isBlank c = false) (hs : c ≠ '/')
    (cs : List Char) : gap (c :: cs) = .ok ([], c :: cs) := by
  rw [gap]
  split
  · next h' => cases (comment_of_ne_slash hs).symm.trans h'
  · next h' => cases (comment_of_ne_slash hs).symm.trans h'
  · simp [hb]

/-- A text that spells a token has no gap in front. -/
theorem gap_of_spells {lex : List Char} {t : Token} (h : Spells lex t)
    (rest : List Char) : gap (lex ++ rest) = .ok ([], lex ++ rest) := by
  obtain ⟨c, cs, rfl, hb, hs⟩ := h.first
  exact gap_of_visible hb hs _

/-- A comment in brackets is closed by the first mark `*/`. -/
theorem closeComment?_of_not_occurs {body : List Char}
    (h : Text.occursIn ['*', '/'] body = false) (rest : List Char) :
    closeComment? (body ++ '*' :: '/' :: rest) = some (body ++ ['*', '/'], rest) := by
  induction body with
  | nil => rfl
  | cons c cs ih =>
    rw [Text.occursIn, Bool.or_eq_false_iff] at h
    have hmark : ∀ more, c = '*' → cs ++ '*' :: '/' :: rest = '/' :: more → False := by
      rintro more rfl heq
      cases cs with
      | nil => simp at heq
      | cons d ds =>
        obtain rfl : d = '/' := (List.cons.inj heq).1
        simp [List.isPrefixOf] at h
    rw [List.cons_append, closeComment?.eq_3 _ _ hmark, ih h.2]
    rfl

/-- **Scanning passes over a spacer**, whatever stands behind it. -/
theorem gap_spacer_append (s : Spacer) (rest : List Char) :
    gap (s.text ++ rest) = widen s.text (gap rest) := by
  cases s with
  | blank c h => exact gap_of_blank h rest
  | line body h =>
    have hin : ∀ d ∈ body, (d != '\n') = true := by
      intro d hd
      simp only [bne_iff_ne]
      rintro rfl
      exact h hd
    have hbreak : ∀ d ∈ ('\n' :: rest).head?, (d != '\n') = false := by simp
    obtain ⟨htake, hdrop⟩ := span_run hin hbreak
    have hc : comment ('/' :: '/' :: (body ++ '\n' :: rest))
        = .closed ('/' :: '/' :: body) ('\n' :: rest) := by
      rw [comment, htake, hdrop]
    have hgap := (gap_of_comment hc).trans
      (congrArg (widen _) (gap_of_blank (by decide) rest))
    rw [widen_widen] at hgap
    simpa [Spacer.text] using hgap
  | block body h =>
    have hc : comment ('/' :: '*' :: (body ++ '*' :: '/' :: rest))
        = .closed ('/' :: '*' :: (body ++ ['*', '/'])) rest := by
      rw [comment, closeComment?_of_not_occurs h]
    simpa [Spacer.text] using gap_of_comment hc

/-- **Scanning passes over a gap**, whatever stands behind it. -/
theorem gap_text_append (g : Gap) (rest : List Char) :
    gap (g.text ++ rest) = widen g.text (gap rest) := by
  induction g with
  | nil => simp [Gap.text]
  | cons s g ih =>
    have hcons : Gap.text (s :: g) = s.text ++ Gap.text g := rfl
    rw [hcons, List.append_assoc, gap_spacer_append, ih, widen_widen]

/-- A gap is scanned to its end. -/
theorem gap_text (g : Gap) : gap g.text = .ok (g.text, []) := by
  have h := gap_text_append g []
  rw [List.append_nil] at h
  rw [h, show gap [] = .ok ([], []) from by rw [gap]; rfl, widen_ok, List.append_nil]

/-! ## Where a lexeme may end

A gap begins with a blank or a slash, and neither goes on with any lexeme. -/

/-- A text that is empty or begins like a gap. -/
def IsSeam (cs : List Char) : Prop :=
  ∀ c ∈ cs.head?, Text.isBlank c = true ∨ c = '/'

/-- A text that begins with a blank begins like a gap. -/
theorem isSeam_of_blank {c : Char} (h : Text.isBlank c = true) (cs : List Char) :
    IsSeam (c :: cs) := by
  intro d hd
  obtain rfl : c = d := by simpa using hd
  exact .inl h

/-- A seam does not go on with a word. -/
theorem IsSeam.not_wordPart {cs : List Char} (h : IsSeam cs) :
    ∀ c ∈ cs.head?, isWordPart c = false := by
  intro c hc
  rw [Bool.eq_false_iff]
  intro hw
  obtain ⟨hblank, hslash⟩ := visible_of_isWordPart hw
  rcases h c hc with hb | rfl
  · exact absurd hb (by rw [hblank]; exact Bool.false_ne_true)
  · exact hslash rfl

/-- A seam does not go on with a run of digits. -/
theorem IsSeam.not_digit {cs : List Char} (h : IsSeam cs) :
    ∀ c ∈ cs.head?, Text.isDigit c = false := by
  intro c hc
  rw [Bool.eq_false_iff]
  intro hd
  have hw : isWordPart c = true := isWordPart_iff.mpr (.inr (.inl hd))
  exact absurd hw (by rw [h.not_wordPart c hc]; exact Bool.false_ne_true)

/-- **What stops a lexeme still stops it with a seam put behind.** -/
theorem Stops.append {t : Token} {rest cs : List Char} (h : Stops t rest)
    (hseam : IsSeam cs) : Stops t (rest ++ cs) := by
  have hhead : ∀ p : Char → Bool, (∀ c ∈ rest.head?, p c = false) →
      (∀ c ∈ cs.head?, p c = false) → ∀ c ∈ (rest ++ cs).head?, p c = false := by
    intro p h₁ h₂
    cases rest with
    | nil => exact h₂
    | cons d ds => exact h₁
  cases t with
  | string s => trivial
  | symbol s => trivial
  | keyword k => exact hhead _ h hseam.not_wordPart
  | identifier n => exact hhead _ h hseam.not_wordPart
  | float x => exact hhead _ h hseam.not_digit
  | integer n =>
    refine ⟨hhead _ h.1 hseam.not_digit, ?_⟩
    rw [pointDigits?_eq_none_iff]
    intro d ds heq
    -- a point at the very end of `rest` is the only place where `cs` is looked at
    rcases rest with _ | ⟨c, _ | ⟨d', more⟩⟩
    · obtain rfl : cs = '.' :: d :: ds := heq
      exact absurd (hseam '.' rfl) (by decide)
    · obtain ⟨-, rfl⟩ : c = '.' ∧ cs = d :: ds := by simpa using heq
      exact hseam.not_digit d rfl
    · obtain ⟨rfl, rfl, -⟩ : c = '.' ∧ d' = d ∧ more ++ cs = ds := by simpa using heq
      exact pointDigits?_eq_none_iff.mp h.2 d' more rfl

/-- A seam stops every lexeme. -/
theorem IsSeam.stops {cs : List Char} (h : IsSeam cs) (t : Token) : Stops t cs := by
  have hnil : Stops t [] := by
    cases t <;> simp [Stops, pointDigits?]
  exact hnil.append h

/-! ## The tokens of a text -/

/-- **The tokens of a text**, if it can be scanned. -/
def tokens? (cs : List Char) : Option (List Token) :=
  (pieces cs).toOption.map fun (ps, _) => ps.map (·.token)

/-- **The tokens of a text, one lexeme at a time**: behind the gap stands the end
of the text, or a lexeme with more tokens behind it. -/
theorem tokens?_eq (cs : List Char) :
    tokens? cs = match gap cs with
      | .error _ => none
      | .ok (_, []) => some []
      | .ok (_, c :: text) =>
        match lexeme c text with
        | .error _ => none
        | .ok (t, _, rest) => (tokens? rest).map (t :: ·) := by
  rw [tokens?, pieces]
  split
  · next hg => simp [hg, Except.toOption]
  · next hg => simp [hg, Except.toOption]
  · next g c text hg =>
    split
    · next hl => simp [hg, hl, Except.toOption]
    · next t lex rest hl =>
      simp only [hg, hl, tokens?]
      cases pieces rest <;> rfl

/-- **The gap in front of a text does not reach its tokens.** -/
theorem tokens?_of_widen {cs cs' g : List Char} (h : gap cs = widen g (gap cs')) :
    tokens? cs = tokens? cs' := by
  rw [tokens?_eq cs, tokens?_eq cs', h]
  cases gap cs' with
  | error e => rfl
  | ok r =>
    obtain ⟨g', rest⟩ := r
    cases rest <;> rfl

/-- A blank in front of a text does not reach its tokens. -/
theorem tokens?_of_blank {c : Char} (h : Text.isBlank c = true) (cs : List Char) :
    tokens? (c :: cs) = tokens? cs :=
  tokens?_of_widen (gap_of_blank h cs)

/-- A lexeme that is stopped gives its token, and the text behind it the rest. -/
theorem tokens?_of_spells {lex rest : List Char} {t : Token} (h : Spells lex t)
    (hstop : Stops t rest) : tokens? (lex ++ rest) = (tokens? rest).map (t :: ·) := by
  have hgap := gap_of_spells h rest
  obtain ⟨c, cs, rfl, -⟩ := h.first
  rw [List.cons_append] at hgap ⊢
  have hlex : lexeme c (cs ++ rest) = .ok (t, c :: cs, rest) :=
    lexeme_eq_ok_iff.mpr ⟨h, hstop, rfl⟩
  rw [tokens?_eq, hgap]
  simp only [hlex]

/-- An empty text has no tokens. -/
theorem tokens?_nil : tokens? [] = some [] := by
  rw [tokens?_eq, gap]
  rfl

/-! ## Any spacing gives the same tokens -/

/-- A piece whose gap is made of spacers and whose lexeme spells its token. -/
def IsSpaced (p : Piece) : Prop :=
  (∃ g : Gap, g.text = p.gap) ∧ Spells p.lexeme p.token

/-- A gap begins like one. -/
theorem isSeam_gap_append {g : Gap} {cs : List Char} (h : g.text ≠ [] ∨ IsSeam cs) :
    IsSeam (g.text ++ cs) := by
  cases g with
  | nil => exact h.resolve_left (fun hne => hne rfl)
  | cons s g =>
    intro c hc
    cases s with
    | blank d hd =>
      obtain rfl : d = c := by simpa [Gap.text, Spacer.text] using hc
      exact .inl hd
    | line body hb => exact .inr (by simpa [Gap.text, Spacer.text, eq_comm] using hc)
    | block body hb => exact .inr (by simpa [Gap.text, Spacer.text, eq_comm] using hc)

/-- **A spaced text has the tokens of its lexemes**, if there is some spacing
between neighbours. -/
theorem tokens?_spaced {ps : List Piece} (last : Gap) (h : ∀ p ∈ ps, IsSpaced p)
    (hne : ∀ p ∈ ps.tail, p.gap ≠ []) :
    tokens? (ps.flatMap (fun p => p.gap ++ p.lexeme) ++ last.text)
      = some (ps.map (·.token)) := by
  induction ps with
  | nil =>
    rw [List.flatMap_nil, List.nil_append, tokens?_eq, gap_text]
    rfl
  | cons p ps ih =>
    obtain ⟨⟨g, hg⟩, hspell⟩ := h p List.mem_cons_self
    have hrest := ih (fun q hq => h q (List.mem_cons_of_mem p hq))
      (fun q hq => hne q (List.mem_of_mem_tail hq))
    -- what follows the first lexeme begins with the next gap
    have hseam : IsSeam (ps.flatMap (fun p => p.gap ++ p.lexeme) ++ last.text) := by
      cases ps with
      | nil =>
        have hlast : IsSeam (last.text ++ []) := isSeam_gap_append (.inr (by simp [IsSeam]))
        rwa [List.append_nil] at hlast
      | cons q qs =>
        obtain ⟨⟨gq, hgq⟩, -⟩ := h q (List.mem_cons_of_mem p List.mem_cons_self)
        have hq : gq.text ≠ [] := by rw [hgq]; exact hne q List.mem_cons_self
        rw [List.flatMap_cons, List.append_assoc, List.append_assoc, ← hgq]
        exact isSeam_gap_append (.inl hq)
    rw [List.flatMap_cons, List.append_assoc, List.append_assoc, ← hg,
      tokens?_of_widen (gap_text_append g _), tokens?_of_spells hspell (hseam.stops p.token),
      hrest]
    rfl

/-! ## A seam between two texts -/

/-- A closed comment in brackets stays so, whatever is put behind the text. -/
theorem closeComment?_append {cs body rest : List Char}
    (h : closeComment? cs = some (body, rest)) (more : List Char) :
    closeComment? (cs ++ more) = some (body, rest ++ more) := by
  fun_induction closeComment? cs generalizing body rest with
  | case1 => cases h
  | case2 r =>
    simp only [Option.some.injEq, Prod.mk.injEq] at h
    obtain ⟨rfl, rfl⟩ := h
    rfl
  | case3 c r hmark ih =>
    simp only [Option.map_eq_some_iff, Prod.mk.injEq, Prod.exists] at h
    obtain ⟨b, r', hc, rfl, rfl⟩ := h
    -- a star at the very end would have left the comment open
    have hmark' : ∀ r₂, c = '*' → r ++ more = '/' :: r₂ → False := by
      rintro r₂ rfl heq
      cases r with
      | nil => cases hc
      | cons d ds =>
        obtain rfl : d = '/' := (List.cons.inj heq).1
        exact hmark ds rfl rfl
    rw [List.cons_append, closeComment?.eq_3 _ _ hmark', ih hc]
    rfl

/-- A comment closed in a text is the same comment with another text behind a
line break: one that runs to the end of the text ends at the break. -/
theorem comment_append {cs body rest : List Char} (h : comment cs = .closed body rest)
    (more : List Char) :
    comment (cs ++ '\n' :: more) = .closed body (rest ++ '\n' :: more) := by
  unfold comment at h
  split at h
  · next r =>
    simp only [Comment.closed.injEq] at h
    obtain ⟨rfl, rfl⟩ := h
    have hbreak : ∀ c ∈ (r.dropWhile (· != '\n') ++ '\n' :: more).head?,
        (c != '\n') = false := by
      have hrest := head_dropWhile (· != '\n') r
      cases hd : r.dropWhile (· != '\n') with
      | nil => simp
      | cons d ds => rwa [hd] at hrest
    obtain ⟨htake, hdrop⟩ := span_run (forall_takeWhile (· != '\n') r) hbreak
    rw [← List.append_assoc, List.takeWhile_append_dropWhile] at htake hdrop
    rw [List.cons_append, List.cons_append, comment, htake, hdrop]
  · next r =>
    split at h
    · next hc =>
      simp only [Comment.closed.injEq] at h
      obtain ⟨rfl, rfl⟩ := h
      rw [List.cons_append, List.cons_append, comment, closeComment?_append hc]
    · cases h
  · cases h

/-- **A gap ends where it did, or goes on behind the line break**, if another text
is put behind one. -/
theorem gap_append {cs g rest : List Char} (h : gap cs = .ok (g, rest))
    (more : List Char) :
    gap (cs ++ '\n' :: more) = widen g (gap (rest ++ '\n' :: more)) := by
  fun_induction gap cs generalizing g rest with
  | case1 cs body r hc hlt g' r' hg ih =>
    simp only [Except.ok.injEq, Prod.mk.injEq] at h
    obtain ⟨rfl, rfl⟩ := h
    rw [gap_of_comment (comment_append hc more), ih hg, widen_widen]
  | case2 => cases h
  | case3 => cases h
  | case4 =>
    simp only [Except.ok.injEq, Prod.mk.injEq] at h
    obtain ⟨rfl, rfl⟩ := h
    rw [widen_nil]
  | case5 c r hc hb g' r' hg ih =>
    simp only [Except.ok.injEq, Prod.mk.injEq] at h
    obtain ⟨rfl, rfl⟩ := h
    rw [List.cons_append, gap_of_blank hb, ih hg, widen_widen]
    rfl
  | case6 => cases h
  | case7 =>
    simp only [Except.ok.injEq, Prod.mk.injEq] at h
    obtain ⟨rfl, rfl⟩ := h
    rw [widen_nil]

/-- A text is longer than what is left of it behind a gap and a lexeme. -/
theorem length_lt_of_gap_lexeme {cs g text lex rest : List Char} {c : Char} {t : Token}
    (hg : gap cs = .ok (g, c :: text)) (hl : lexeme c text = .ok (t, lex, rest)) :
    rest.length < cs.length := by
  have hgap := congrArg List.length (append_of_gap hg)
  have hlex := length_lt_of_lexeme hl
  rw [List.length_append] at hgap
  omega

/-- **The tokens of two texts on different lines** are those of the first and then
those of the second. -/
theorem tokens?_append {cs : List Char} {ts : List Token} (h : tokens? cs = some ts)
    (more : List Char) :
    tokens? (cs ++ '\n' :: more) = (tokens? more).map (ts ++ ·) := by
  rw [tokens?_eq] at h
  split at h
  · cases h
  · next g hg =>
    obtain rfl : [] = ts := by simpa using h
    -- a comment that runs to the end of the first text ends at the line break
    rw [tokens?_of_widen (gap_append hg more), List.nil_append,
      tokens?_of_blank (by decide)]
    cases tokens? more <;> rfl
  · next g c text hg =>
    split at h
    · cases h
    · next t lex rest hl =>
      obtain ⟨ts', hts, rfl⟩ := Option.map_eq_some_iff.mp h
      obtain ⟨hspell, hstop, happ⟩ := lexeme_eq_ok_iff.mp hl
      have hseam : IsSeam ('\n' :: more) := isSeam_of_blank (by decide) more
      have hlt := length_lt_of_gap_lexeme hg hl
      rw [tokens?_of_widen (gap_append hg more), ← happ, List.append_assoc,
        tokens?_of_spells hspell (hstop.append hseam), tokens?_append hts more]
      cases tokens? more <;> rfl
termination_by cs.length

/-! ## Scanned texts -/

/-- The pieces of a text with their positions are the pieces. -/
theorem lexemes_locate (p : Position) (last : List Char) (ps : List Piece) :
    (locate p last ps).1.map (fun l => (l.token, l.text))
      = ps.map (fun q => (q.token, q.lexeme)) := by
  induction ps generalizing p with
  | nil => rfl
  | cons q ps ih =>
    rw [locate, List.map_cons, List.map_cons, ih]

/-- **A scanned text has the tokens of its characters.** -/
theorem tokens?_toList (source : String) :
    tokens? source.toList = (scan source).toOption.map Scanned.tokens := by
  rw [tokens?, scan]
  cases hp : pieces source.toList with
  | error e => rfl
  | ok r =>
    obtain ⟨ps, last⟩ := r
    have h := congrArg (List.map Prod.fst) (lexemes_locate .start last ps)
    rw [List.map_map, List.map_map] at h
    exact congrArg some h.symm

/-- Each piece of a text has a lexeme that spells its token. -/
theorem spells_of_pieces {cs last : List Char} {ps : List Piece}
    (h : pieces cs = .ok (ps, last)) : ∀ p ∈ ps, Spells p.lexeme p.token := by
  fun_induction pieces cs generalizing ps last with
  | case1 => cases h
  | case2 =>
    simp only [Except.ok.injEq, Prod.mk.injEq] at h
    obtain ⟨rfl, -⟩ := h
    exact List.forall_mem_nil _
  | case3 => cases h
  | case4 cs g c text hg t lex rest hl hlt ps' last' hp ih =>
    simp only [Except.ok.injEq, Prod.mk.injEq] at h
    obtain ⟨rfl, -⟩ := h
    intro p hmem
    rcases List.mem_cons.mp hmem with rfl | hmem
    · exact (spells_of_lexeme hl).1
    · exact ih hp p hmem
  | case5 => cases h

/-- Each token of a text has a lexeme that spells it. -/
theorem spells_of_tokens? {cs : List Char} {ts : List Token} (h : tokens? cs = some ts) :
    ∀ t ∈ ts, ∃ lex, Spells lex t := by
  rw [tokens?] at h
  cases hp : pieces cs with
  | error e => rw [hp] at h; cases h
  | ok r =>
    obtain ⟨ps, last⟩ := r
    rw [hp] at h
    obtain rfl : ps.map (·.token) = ts := Option.some.inj h
    intro t ht
    obtain ⟨p, hmem, rfl⟩ := List.mem_map.mp ht
    exact ⟨p.lexeme, spells_of_pieces hp p hmem⟩

/-- Each lexeme of a scanned text spells its token. -/
theorem spells_of_scan {source : String} {scanned : Scanned}
    (h : scan source = .ok scanned) : ∀ l ∈ scanned.lexemes, Spells l.text l.token := by
  rw [scan] at h
  cases hp : pieces source.toList with
  | error e => rw [hp] at h; cases h
  | ok r =>
    obtain ⟨ps, last⟩ := r
    rw [hp] at h
    obtain rfl : _ = scanned := Except.ok.inj h
    intro l hl
    have hmem := List.mem_map_of_mem (f := fun l : Lexeme => (l.token, l.text)) hl
    rw [lexemes_locate] at hmem
    obtain ⟨q, hq, heq⟩ := List.mem_map.mp hmem
    simp only [Prod.mk.injEq] at heq
    rw [← heq.1, ← heq.2]
    exact spells_of_pieces hp q hq

end IntentContract.Scan
