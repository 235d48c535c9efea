import IntentContract.Proofs.Token.Tiling

/-!
# Scanning on behind a text

A text is scanned from the front, and what was cut off it stays so when more text is put behind,
unless its last token is prolonged. `pieces_append` says this of the pieces and of a fault alike: a
fault further on is reported from where it stands in the whole text.

`ComesTo` is the same seen from the text behind: the scanner comes to it having read certain
tokens, and begins a new one there.
-/

namespace IntentContract.Scan

variable {cs more last : List Char} {ps : List Piece} {g : Gap}

theorem onward_onward (ps qs : List Piece) (r : Except ScanError (List Piece × List Char)) :
    onward ps (onward qs r) = onward (ps ++ qs) r := by
  cases r with
  | error e => simp [onward, ScanError.behind]
  | ok r => simp [onward]

/-- **Nothing is lost**: the pieces of a text and its last gap make up the text. -/
theorem append_of_pieces (h : pieces cs = .ok (ps, last)) :
    ps.flatMap (fun p => p.gap ++ p.lexeme) ++ last = cs := by
  fun_induction pieces cs generalizing ps with
  | case1 => cases h
  | case2 cs g hg =>
    obtain ⟨rfl, rfl⟩ := Prod.mk.inj (Except.ok.inj h)
    simpa using append_of_gap hg
  | case3 => cases h
  | case4 cs g c text hg t lex rest hl hlt ps' last' hp ih =>
    obtain ⟨rfl, rfl⟩ := Prod.mk.inj (Except.ok.inj h)
    rw [List.flatMap_cons, List.append_assoc, ih hp, List.append_assoc, append_of_lexeme hl,
      append_of_gap hg]
  | case5 => cases h

/-- The text behind a lexeme may be prolonged, if it has tokens and is not empty. -/
theorem Stops.append_of_tokens? {t : Token} {ts : List Token} (h : Stops t cs) (hne : cs ≠ [])
    (hcs : tokens? cs = some ts) (more : List Char) : Stops t (cs ++ more) := by
  obtain ⟨c, cs, rfl⟩ := List.exists_cons_of_ne_nil hne
  cases t with
  | string content => trivial
  | symbol s => trivial
  | keyword k => exact h
  | identifier n => exact h
  | float x => exact h
  | integer n =>
    refine ⟨h.1, pointDigits?_eq_none_iff.mpr fun d ds heq => ?_⟩
    obtain ⟨rfl, htail⟩ := List.cons.inj heq
    cases cs with
    | nil =>
      -- a point alone is no lexeme
      have hpoint : tokens? ['.'] = none := by with_unfolding_all rfl
      cases hpoint.symm.trans hcs
    | cons e cs =>
      obtain ⟨rfl, -⟩ := List.cons.inj htail
      exact pointDigits?_eq_none_iff.mp h.2 _ _ rfl

/-- **Scanning goes on behind a text**, if its comments are closed and its last token is not
prolonged: the pieces of the text stay, and its last gap belongs to what follows. -/
theorem pieces_append (h : pieces cs = .ok (ps, g.text))
    (hstop : ∀ t ∈ (ps.map (·.token)).getLast?, Stops t (g.text ++ more)) :
    pieces (cs ++ more) = onward ps (pieces (g.text ++ more)) := by
  fun_induction pieces cs generalizing ps with
  | case1 => cases h
  | case2 cs g' hg =>
    obtain ⟨rfl, rfl⟩ := Prod.mk.inj (Except.ok.inj h)
    obtain rfl : g.text = cs := by rw [← append_of_gap hg, List.append_nil]
    cases pieces (g.text ++ more) <;> rfl
  | case3 => cases h
  | case4 cs g' c text hg t lex rest hl hlt ps' last' hp ih =>
    obtain ⟨rfl, rfl⟩ := Prod.mk.inj (Except.ok.inj h)
    obtain ⟨G, tail, rfl, -, htail⟩ := exists_gap hg
    obtain rfl := htail (List.cons_ne_nil c text)
    obtain ⟨hspells, hends, happ⟩ := lexeme_eq_ok_iff.mp hl
    have hcs : cs ++ more = G.text ++ (lex ++ (rest ++ more)) := by
      rw [← append_of_gap hg, ← happ, List.append_nil, List.append_assoc, List.append_assoc]
    have hrest := append_of_pieces hp
    -- the lexeme is the last, or another one stands between it and what is put behind
    have hstops : Stops t (rest ++ more) := by
      cases ps' with
      | nil =>
        rw [← hrest]
        exact hstop t rfl
      | cons q ps' =>
        have hne : rest ≠ [] := by
          obtain ⟨d, ds, hd, -, -⟩ := (spells_of_pieces hp q List.mem_cons_self).first
          rw [← hrest, List.flatMap_cons, hd]
          simp
        exact hends.append_of_tokens? hne (by rw [tokens?, hp]; rfl) more
    have hstop' : ∀ t' ∈ (ps'.map (·.token)).getLast?, Stops t' (g.text ++ more) := by
      intro t' ht'
      refine hstop t' ?_
      rw [List.map_cons, List.getLast?_cons, Option.mem_def.mp ht']
      rfl
    rw [hcs, pieces_of_spells G hspells hstops, ih hp hstop', onward_onward, List.append_nil]
    rfl
  | case5 => cases h

/-- The tokens of a text whose last one is not prolonged do not depend on what follows. -/
theorem tokens?_append_of_stops (h : pieces cs = .ok (ps, g.text))
    (hstop : ∀ t ∈ (ps.map (·.token)).getLast?, Stops t (g.text ++ more)) :
    tokens? (cs ++ more) = (tokens? more).map (ps.map (·.token) ++ ·) := by
  rw [← tokens?_of_widen (gap_text_append g more), tokens?, pieces_append h hstop, tokens?]
  cases pieces (g.text ++ more) with
  | error e => rfl
  | ok r => simp [onward, Except.toOption]

/-- Scanning ends where a text goes on with no lexeme. -/
theorem pieces_of_fault {front text : List Char} {c : Char} {cause : ScanCause}
    (hg : gap cs = .ok (front, c :: text)) (hl : lexeme c text = .error cause) :
    pieces cs = .error ⟨front, cause⟩ := by
  rw [pieces]
  split
  · next h => cases hg.symm.trans h
  · next h => cases hg.symm.trans h
  · next h =>
    cases hg.symm.trans h
    split
    · next h =>
      cases hl.symm.trans h
      rfl
    · next h => cases hl.symm.trans h

/-! ## Coming to a text -/

/-- **The scanner comes to a text** behind another one: it has read the tokens `ts` and perhaps a
gap, and what it comes to does not prolong the last of the tokens. -/
def ComesTo (before : String) (ts : List Token) (more : String) : Prop :=
  ∃ (ps : List Piece) (g : Gap), pieces before.toList = .ok (ps, g.text)
    ∧ ps.map (·.token) = ts ∧ ∀ t ∈ ts.getLast?, Stops t (g.text ++ more.toList)

/-- The scanner comes to a text it begins with. -/
theorem comesTo_start (more : String) : ComesTo "" [] more :=
  ⟨[], [], pieces_of_gap (by rw [gap]; rfl), rfl, by simp⟩

/-- The tokens of the text that the scanner comes to stand behind those it has read. -/
theorem ComesTo.tokens {before more : String} {ts : List Token} (h : ComesTo before ts more) :
    (scan (before ++ more)).toOption.map Scanned.tokens
      = (scan more).toOption.map fun s => ts ++ s.tokens := by
  obtain ⟨ps, g, hpieces, rfl, hstop⟩ := h
  rw [← tokens?_toList, String.toList_append, tokens?_append_of_stops hpieces hstop,
    tokens?_toList, Option.map_map]
  rfl

/-- A fault at the start of a lexeme is reported from there. -/
theorem ComesTo.error {before more : String} {ts : List Token} {c : Char} {rest : List Char}
    {cause : ScanCause} (h : ComesTo before ts more) (hmore : more.toList = c :: rest)
    (hblank : Text.isBlank c = false) (hslash : c ≠ '/') (hfault : lexeme c rest = .error cause) :
    scan (before ++ more) = .error ⟨before.toList, cause⟩ := by
  obtain ⟨ps, g, hpieces, rfl, hstop⟩ := h
  have hgap : gap (g.text ++ more.toList) = .ok (g.text, c :: rest) := by
    rw [gap_text_append, hmore, gap_of_visible hblank hslash, widen_ok, List.append_nil]
  have hwhole := pieces_append hpieces hstop
  rw [pieces_of_fault hgap hfault] at hwhole
  rw [scan, String.toList_append, hwhole, ← append_of_pieces hpieces]
  rfl

end IntentContract.Scan
