import IntentContract.Proofs.Token.Spacing
import Mathlib.Data.List.DropRight
import Mathlib.Data.List.Induction

/-!
# Lexemes and gaps tile a text

The lexemes of a text stand in it one after the other, with a gap in front of each and one behind
the last, and together they are the text. A gap is of blanks and closed comments; only the last one
may end in a comment to which no line break belongs any more. `Tiles` says so of a list of lexemes,
without looking at how it was found, and of the position of each lexeme it says that it counts what
stands in front: the line breaks, the characters behind the last of them, and all characters.

Scanning finds the tiles of a text (`tiles_of_pieces`), and since each lexeme is as long as the text
behind it allows, there are no others to be found (`scan_eq_ok_iff`). What else is to be said of
positions follows from the tiles alone.
-/

namespace IntentContract

/-! ## Positions -/

namespace Position

/-- **A position that counts a text in front of it.** -/
structure Counts (p : Position) (front : List Char) : Prop where
  line : p.line = 1 + front.count '\n'
  column : p.column = 1 + (front.rtakeWhile (· != '\n')).length
  offset : p.offset = front.length

/-- Moving on over a text counts it, character by character. -/
theorem counts_after (front : List Char) : (start.after front).Counts front := by
  induction front using List.reverseRecOn with
  | nil => exact ⟨rfl, rfl, rfl⟩
  | append_singleton front c ih =>
    have hlast : start.after (front ++ [c]) = (start.after front).advance c := after_append ..
    rw [hlast]
    refine ⟨?_, ?_, ?_⟩
    · by_cases hc : c = '\n' <;> simp [advance, ih.line, hc, Nat.add_assoc]
    · by_cases hc : c = '\n' <;> simp [advance, ih.column, hc, Nat.add_assoc]
    · rw [advance, ih.offset, List.length_append, List.length_singleton]

/-- **What stands in front determines a position.** -/
theorem counts_iff {p : Position} {front : List Char} : p.Counts front ↔ p = start.after front := by
  refine ⟨fun h => ?_, fun h => h ▸ counts_after front⟩
  have hafter := counts_after front
  obtain ⟨line, column, offset⟩ := p
  obtain ⟨hline, hcolumn, hoffset⟩ := h
  simp only at hline hcolumn hoffset
  rw [hline, hcolumn, hoffset, ← hafter.line, ← hafter.column, ← hafter.offset]

end Position

namespace Scan

/-! ## Gaps in a text -/

/-- A comment that ends with the text, or nothing. -/
def IsOpenEnd (tail : List Char) : Prop :=
  tail = [] ∨ ∃ body, '\n' ∉ body ∧ tail = '/' :: '/' :: body

/-- Nothing that a comment in brackets closes with stands inside it. -/
theorem exists_body_of_closeComment? {cs body rest : List Char}
    (h : closeComment? cs = some (body, rest)) :
    ∃ b, Text.occursIn ['*', '/'] b = false ∧ body = b ++ ['*', '/'] := by
  fun_induction closeComment? cs generalizing body rest with
  | case1 => cases h
  | case2 r =>
    obtain ⟨rfl, -⟩ := Prod.mk.inj (Option.some.inj h)
    exact ⟨[], rfl, rfl⟩
  | case3 c r hmark ih =>
    obtain ⟨⟨body', rest'⟩, hc, heq⟩ := Option.map_eq_some_iff.mp h
    obtain ⟨rfl, rfl⟩ := Prod.mk.inj heq
    obtain ⟨b, hb, rfl⟩ := ih hc
    refine ⟨c :: b, ?_, rfl⟩
    -- the mark does not begin at `c`, since it would have closed the comment there
    rw [Text.occursIn, hb, Bool.or_false]
    cases b with
    | nil => simp [List.isPrefixOf]
    | cons d ds =>
      have hr := append_of_closeComment? hc
      by_contra hprefix
      simp only [List.isPrefixOf, Bool.and_true, Bool.not_eq_false, Bool.and_eq_true,
        beq_iff_eq] at hprefix
      obtain ⟨rfl, rfl⟩ := hprefix
      exact hmark _ rfl hr.symm

/-- The two kinds of comments. -/
theorem comment_cases {cs body rest : List Char} (h : comment cs = .closed body rest) :
    (∃ b, '\n' ∉ b ∧ body = '/' :: '/' :: b ∧ ∀ c ∈ rest.head?, c = '\n')
    ∨ ∃ b, Text.occursIn ['*', '/'] b = false ∧ body = '/' :: '*' :: (b ++ ['*', '/']) := by
  unfold comment at h
  split at h
  · next r =>
    obtain ⟨rfl, rfl⟩ := Comment.closed.inj h
    refine .inl ⟨_, fun hmem => ?_, rfl, fun c hc => ?_⟩
    · simpa using forall_takeWhile _ _ _ hmem
    · simpa using head_dropWhile _ _ c hc
  · split at h
    · next hc =>
      obtain ⟨rfl, rfl⟩ := Comment.closed.inj h
      obtain ⟨b, hb, rfl⟩ := exists_body_of_closeComment? hc
      exact .inr ⟨b, hb, rfl⟩
    · cases h
  · cases h

/-- A gap that begins with a line break begins with it as a blank. -/
theorem exists_gap_of_newline {g : Gap} {tail cs : List Char} (ht : IsOpenEnd tail)
    (h : g.text ++ tail = '\n' :: cs) : ∃ g' : Gap, g'.text ++ tail = cs := by
  cases g with
  | nil =>
    rcases ht with rfl | ⟨body, -, rfl⟩
    · cases h
    · simp [Gap.text] at h
  | cons s g =>
    refine ⟨g, ?_⟩
    cases s with
    | blank c hc => exact (List.cons.inj h).2
    | line body hb => simp [Gap.text, Spacer.text] at h
    | block body hb => simp [Gap.text, Spacer.text] at h

/-- **The gap in front of a text is of blanks and comments**, all of them closed if anything stands
behind it. -/
theorem exists_gap {cs g rest : List Char} (h : gap cs = .ok (g, rest)) :
    ∃ (g' : Gap) (tail : List Char), g = g'.text ++ tail ∧ IsOpenEnd tail
      ∧ (rest ≠ [] → tail = []) := by
  have hnone : ∀ rest : List Char, ∃ (g' : Gap) (tail : List Char),
      [] = g'.text ++ tail ∧ IsOpenEnd tail ∧ (rest ≠ [] → tail = []) := fun _ =>
    ⟨[], [], rfl, .inl rfl, fun _ => rfl⟩
  fun_induction gap cs generalizing g rest with
  | case1 cs body r hc hlt g' r' hg ih =>
    obtain ⟨rfl, rfl⟩ := Prod.mk.inj (Except.ok.inj h)
    obtain ⟨G, tail, rfl, ht, hrest⟩ := ih hg
    rcases comment_cases hc with ⟨b, hb, rfl, hbreak⟩ | ⟨b, hb, rfl⟩
    · cases r with
      | nil =>
        have hnil := append_of_gap hg
        obtain ⟨hempty, rfl⟩ := List.append_eq_nil_iff.mp hnil
        rw [hempty, List.append_nil]
        exact ⟨[], _, rfl, .inr ⟨b, hb, rfl⟩, fun hne => absurd rfl hne⟩
      | cons c r =>
        obtain rfl := hbreak c rfl
        rw [gap_of_blank (by decide)] at hg
        cases hgap : gap r with
        | error e => rw [hgap] at hg; cases hg
        | ok q =>
          obtain ⟨g', r''⟩ := q
          rw [hgap, widen_ok] at hg
          obtain ⟨htext, rfl⟩ := Prod.mk.inj (Except.ok.inj hg)
          -- the line break that ends the comment is found as the first blank of the rest
          obtain ⟨G', rfl⟩ := exists_gap_of_newline ht htext.symm
          refine ⟨.line b hb :: G', tail, ?_, ht, hrest⟩
          rw [← htext]
          simp [Gap.text, Spacer.text]
    · refine ⟨.block b hb :: G, tail, ?_, ht, hrest⟩
      simp [Gap.text, Spacer.text]
  | case2 => cases h
  | case3 => cases h
  | case4 =>
    obtain ⟨rfl, rfl⟩ := Prod.mk.inj (Except.ok.inj h)
    exact hnone _
  | case5 c r hc hb g' r' hg ih =>
    obtain ⟨rfl, rfl⟩ := Prod.mk.inj (Except.ok.inj h)
    obtain ⟨G, tail, rfl, ht, hrest⟩ := ih hg
    exact ⟨.blank c hb :: G, tail, rfl, ht, hrest⟩
  | case6 => cases h
  | case7 =>
    obtain ⟨rfl, rfl⟩ := Prod.mk.inj (Except.ok.inj h)
    exact hnone _

/-- A comment that ends with the text is scanned as the whole gap. -/
theorem gap_of_isOpenEnd {tail : List Char} (h : IsOpenEnd tail) : gap tail = .ok (tail, []) := by
  have hnil : gap [] = .ok ([], []) := by
    rw [gap]
    rfl
  rcases h with rfl | ⟨body, hb, rfl⟩
  · exact hnil
  · have hin : ∀ d ∈ body, (d != '\n') = true := fun d hd =>
      bne_iff_ne.mpr fun heq => hb (heq ▸ hd)
    have hc : comment ('/' :: '/' :: body) = .closed ('/' :: '/' :: body) [] := by
      rw [comment, List.takeWhile_eq_self_iff.mpr hin, List.dropWhile_eq_nil_iff.mpr hin]
    rw [gap_of_comment hc, hnil, widen_ok, List.append_nil]

/-! ## Tiles -/

/-- **The tiles of a text**, with a text in front of it: a gap and a lexeme in turn, and a gap at
the end. A lexeme spells its token and is not prolonged by what stands behind it. Its position
counts what stands in front of it, and the last position counts all. -/
inductive Tiles : List Char → List Lexeme → Position → List Char → Prop where
  | last {front tail : List Char} {stop : Position} (g : Gap) (htail : IsOpenEnd tail)
      (hstop : stop.Counts (front ++ (g.text ++ tail))) : Tiles front [] stop (g.text ++ tail)
  | lexeme {front rest : List Char} {l : Lexeme} {ls : List Lexeme} {stop : Position} (g : Gap)
      (hspells : Spells l.text l.token) (hends : Stops l.token rest)
      (hposition : l.position.Counts (front ++ g.text))
      (hrest : Tiles (front ++ g.text ++ l.text) ls stop rest) :
      Tiles front (l :: ls) stop (g.text ++ (l.text ++ rest))

/-- A piece behind a text is located by that text. -/
theorem locate_cons (front last : List Char) (q : Piece) (ps : List Piece) :
    locate (Position.start.after front) last (q :: ps)
      = (⟨q.token, q.lexeme, Position.start.after (front ++ q.gap)⟩
          :: (locate (Position.start.after (front ++ q.gap ++ q.lexeme)) last ps).1,
        (locate (Position.start.after (front ++ q.gap ++ q.lexeme)) last ps).2) := by
  simp only [locate, Position.after_append]

/-- **What is cut off a text are its tiles.** -/
theorem tiles_of_pieces {cs last : List Char} {ps : List Piece} (h : pieces cs = .ok (ps, last))
    (front : List Char) :
    Tiles front (locate (Position.start.after front) last ps).1
      (locate (Position.start.after front) last ps).2 cs := by
  fun_induction pieces cs generalizing ps last front with
  | case1 => cases h
  | case2 cs g hg =>
    obtain ⟨rfl, rfl⟩ := Prod.mk.inj (Except.ok.inj h)
    obtain rfl : g = cs := by rw [← append_of_gap hg, List.append_nil]
    obtain ⟨g', tail, rfl, htail, -⟩ := exists_gap hg
    refine .last g' htail ?_
    rw [locate, ← Position.after_append]
    exact Position.counts_after _
  | case3 => cases h
  | case4 cs g c text hg token lex rest hl hlt ps' last' hp ih =>
    obtain ⟨rfl, rfl⟩ := Prod.mk.inj (Except.ok.inj h)
    obtain ⟨g', tail, rfl, -, htail⟩ := exists_gap hg
    obtain rfl := htail (List.cons_ne_nil c text)
    obtain ⟨hspells, hends, happ⟩ := lexeme_eq_ok_iff.mp hl
    rw [List.append_nil] at hg ⊢
    rw [← append_of_gap hg, ← happ, locate_cons]
    exact .lexeme g' hspells hends (Position.counts_after _) (ih hp _)
  | case5 => cases h

theorem pieces_of_gap {cs g : List Char} (hg : gap cs = .ok (g, [])) :
    pieces cs = .ok ([], g) := by
  rw [pieces]
  split
  · next h => cases hg.symm.trans h
  · next h =>
    cases hg.symm.trans h
    rfl
  · next h => cases hg.symm.trans h

/-- Pieces in front of what is scanned behind them. -/
def onward (ps : List Piece) :
    Except ScanError (List Piece × List Char) → Except ScanError (List Piece × List Char)
  | .ok (qs, last) => .ok (ps ++ qs, last)
  | .error e => .error (e.behind (ps.flatMap fun p => p.gap ++ p.lexeme))

/-- A gap and a lexeme in front of a text are its first piece. -/
theorem pieces_of_spells (g : Gap) {lex rest : List Char} {t : Token} (h : Spells lex t)
    (hstop : Stops t rest) :
    pieces (g.text ++ (lex ++ rest)) = onward [⟨g.text, t, lex⟩] (pieces rest) := by
  have hgap : gap (g.text ++ (lex ++ rest)) = .ok (g.text, lex ++ rest) := by
    rw [gap_text_append, gap_of_spells h, widen_ok, List.append_nil]
  obtain ⟨c, cs, rfl, -, -⟩ := h.first
  have hread : Scan.lexeme c (cs ++ rest) = .ok (t, c :: cs, rest) :=
    lexeme_eq_ok_iff.mpr ⟨h, hstop, rfl⟩
  rw [pieces]
  split
  · next h => cases hgap.symm.trans h
  · next h => cases hgap.symm.trans h
  · next h =>
    cases hgap.symm.trans h
    split
    · next h => cases hread.symm.trans h
    · next h =>
      cases hread.symm.trans h
      cases pieces rest with
      | error e => simp [onward]
      | ok r => rfl

/-- **Tiles are what is cut off the text.** -/
theorem Tiles.exists_pieces {front text : List Char} {ls : List Lexeme} {stop : Position}
    (h : Tiles front ls stop text) :
    ∃ ps last, pieces text = .ok (ps, last)
      ∧ locate (Position.start.after front) last ps = (ls, stop) := by
  induction h with
  | @last front tail stop g htail hstop =>
    have hgap : gap (g.text ++ tail) = .ok (g.text ++ tail, []) := by
      rw [gap_text_append, gap_of_isOpenEnd htail, widen_ok]
    refine ⟨[], _, pieces_of_gap hgap, ?_⟩
    rw [locate, ← Position.after_append, Position.counts_iff.mp hstop]
  | @lexeme front rest l ls stop g hspells hends hposition _ ih =>
    obtain ⟨ps, last, hp, hlocate⟩ := ih
    have hpieces := pieces_of_spells g hspells hends
    rw [hp] at hpieces
    refine ⟨_, last, hpieces, ?_⟩
    rw [List.singleton_append, locate_cons, hlocate, ← Position.counts_iff.mp hposition]

end Scan

open Scan (Tiles)

/-- **A text is scanned as its tiles**, and as nothing else. -/
theorem scan_eq_ok_iff {source : String} {s : Scanned} :
    scan source = .ok s ↔ Tiles [] s.lexemes s.stop source.toList := by
  constructor
  · intro h
    rw [scan] at h
    cases hp : Scan.pieces source.toList with
    | error e => rw [hp] at h; cases h
    | ok r =>
      obtain ⟨ps, last⟩ := r
      rw [hp] at h
      obtain rfl : _ = s := Except.ok.inj h
      exact Scan.tiles_of_pieces hp []
  · intro h
    obtain ⟨ps, last, hp, hlocate⟩ := h.exists_pieces
    rw [scan, hp]
    show Except.ok (Scanned.mk (Scan.locate (Position.start.after []) last ps).1
      (Scan.locate (Position.start.after []) last ps).2) = _
    rw [hlocate]

/-! ## What tiles say of positions -/

namespace Scan.Tiles

variable {front text : List Char} {ls : List Lexeme} {stop : Position}

theorem counts_stop (h : Tiles front ls stop text) : stop.Counts (front ++ text) := by
  induction h with
  | last g htail hstop => exact hstop
  | lexeme g hspells hends hposition hrest ih => simpa using ih

/-- Each lexeme stands in the text where its position says. -/
theorem exists_of_mem (h : Tiles front ls stop text) :
    ∀ l ∈ ls, ∃ before after, text = before ++ (l.text ++ after)
      ∧ l.position.Counts (front ++ before) := by
  induction h with
  | last => exact List.forall_mem_nil _
  | @lexeme _ _ l' _ _ g hspells hends hposition hrest ih =>
    refine List.forall_mem_cons.mpr ⟨⟨_, _, rfl, hposition⟩, fun l hl => ?_⟩
    obtain ⟨before, after, rfl, hcounts⟩ := ih l hl
    exact ⟨g.text ++ (l'.text ++ before), after, by simp, by simpa using hcounts⟩

/-- **Positions increase** from each lexeme to the next, and to the end. -/
theorem pairwise_offset (h : Tiles front ls stop text) :
    (ls.map (·.position.offset) ++ [stop.offset]).Pairwise (· < ·) := by
  induction h with
  | last => exact List.pairwise_singleton _ _
  | @lexeme front rest l ls stop g hspells hends hposition hrest ih =>
    -- what comes later has the text up to the end of this lexeme in front, which is not empty
    have hlater : ∀ {p : Position} {more : List Char},
        p.Counts (front ++ g.text ++ l.text ++ more) → l.position.offset < p.offset := by
      intro p more hp
      obtain ⟨c, cs, hlex, -, -⟩ := hspells.first
      have hlength := congrArg List.length hlex
      rw [hposition.offset, hp.offset]
      simp only [List.length_append, List.length_cons] at hlength ⊢
      omega
    rw [List.map_cons, List.cons_append, List.pairwise_cons]
    refine ⟨?_, ih⟩
    rw [List.forall_mem_append, List.forall_mem_map, List.forall_mem_singleton]
    refine ⟨fun m hm => ?_, hlater hrest.counts_stop⟩
    obtain ⟨before, after, -, hcounts⟩ := hrest.exists_of_mem m hm
    exact hlater hcounts

end Scan.Tiles

/-- The tokens of a scanned text with their positions, and behind them the end of the text, which
has no token. -/
def Scanned.entries (s : Scanned) : List (Option Token × Position) :=
  s.lexemes.map (fun l => (some l.token, l.position)) ++ [(none, s.stop)]

/-- **Where tokens stand.** The end of a text comes once, behind all tokens, and its offset is the
number of characters. Offsets increase. A lexeme begins at its offset, and lexemes and gaps tile the
text, so that there are only blanks and comments between lexemes. And every position has the lines
and columns that are in front of its offset. -/
theorem spans_tile_source {source : String} {s : Scanned} (h : scan source = .ok s) :
    s.entries.map Prod.fst = s.tokens.map some ++ [none]
      ∧ s.stop.offset = source.length
      ∧ (s.entries.map fun e => e.2.offset).Pairwise (· < ·)
      ∧ Tiles [] s.lexemes s.stop source.toList
      ∧ (∀ l ∈ s.lexemes, l.text <+: source.toList.drop l.position.offset)
      ∧ ∀ e ∈ s.entries, e.2.Counts (source.toList.take e.2.offset) := by
  have htiles := scan_eq_ok_iff.mp h
  have hstop := htiles.counts_stop
  rw [List.nil_append] at hstop
  have hlexemes : ∀ l ∈ s.lexemes, l.text <+: source.toList.drop l.position.offset
      ∧ l.position.Counts (source.toList.take l.position.offset) := by
    intro l hl
    obtain ⟨before, after, hsource, hcounts⟩ := htiles.exists_of_mem l hl
    rw [List.nil_append] at hcounts
    rw [hsource, hcounts.offset, List.drop_left, List.take_left]
    exact ⟨List.prefix_append _ _, hcounts⟩
  refine ⟨?_, ?_, ?_, htiles, fun l hl => (hlexemes l hl).1, ?_⟩
  · simp [Scanned.entries, Scanned.tokens]
  · rw [hstop.offset, String.length_toList]
  · rw [Scanned.entries, List.map_append, List.map_map]
    exact htiles.pairwise_offset
  · rw [Scanned.entries, List.forall_mem_append, List.forall_mem_map, List.forall_mem_singleton]
    refine ⟨fun l hl => (hlexemes l hl).2, ?_⟩
    rw [hstop.offset, List.take_length]
    exact hstop

/-- Line breaks in a comment and in a string, lexemes without a gap between them, and a comment that
the text ends in. -/
theorem spans_tile_source_mixed :
    ∃ s, scan "/*\n*/x\u00a0\"a\nb\"...-1//é" = .ok s
      ∧ s.entries = [(some (.identifier "x"), ⟨2, 3, 5⟩), (some (.string "a\nb"), ⟨2, 5, 7⟩),
        (some (.symbol .ellipsis), ⟨3, 3, 12⟩), (some (.integer (-1)), ⟨3, 6, 15⟩),
        (none, ⟨3, 11, 20⟩)]
      ∧ (s.entries.map fun e => e.2.offset).Pairwise (· < ·)
      ∧ Tiles [] s.lexemes s.stop "/*\n*/x\u00a0\"a\nb\"...-1//é".toList := by
  have h : scan "/*\n*/x\u00a0\"a\nb\"...-1//é" = .ok
      { lexemes := [⟨.identifier "x", ['x'], ⟨2, 3, 5⟩⟩,
          ⟨.string "a\nb", ['"', 'a', '\n', 'b', '"'], ⟨2, 5, 7⟩⟩,
          ⟨.symbol .ellipsis, ['.', '.', '.'], ⟨3, 3, 12⟩⟩,
          ⟨.integer (-1), ['-', '1'], ⟨3, 6, 15⟩⟩]
        stop := ⟨3, 11, 20⟩ } := by
    with_unfolding_all rfl
  obtain ⟨-, -, hoffsets, htiles, -⟩ := spans_tile_source h
  exact ⟨_, h, rfl, hoffsets, htiles⟩

end IntentContract
