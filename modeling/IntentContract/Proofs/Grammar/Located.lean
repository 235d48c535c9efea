import IntentContract.Proofs.Grammar.Document
import IntentContract.Proofs.Grammar.Prompt.Definitions
import IntentContract.Proofs.Token.Tiling

/-!
# Every failure has a place in the text

A text fails in one of two ways. It cannot be cut into tokens, and then the fault has a text in
front of it that the source begins with. Or its tokens are no document, and then the tokens left
over from the misfit on are the last ones of the source, so that their number tells which token it
is, or that it is the end. Either way the message ends with the line and column of a place in the
source (`parse_located`). A text without a failure is read to its last token.
-/

namespace IntentContract

namespace Scan

variable {cs : List Char} {e : ScanError}

/-- What stands in front of a fault in a gap is where the text begins. -/
theorem before_prefix_of_gap (h : gap cs = .error e) : e.before <+: cs := by
  fun_induction gap cs generalizing e with
  | case1 => cases h
  | case2 cs body rest hc hlt e' he ih =>
    obtain rfl := Except.error.inj h
    rw [← append_of_comment hc]
    exact List.prefix_append_right_inj body |>.mpr (ih he)
  | case3 =>
    obtain rfl := Except.error.inj h
    exact List.nil_prefix
  | case4 => cases h
  | case5 => cases h
  | case6 c rest hc hb e' he ih =>
    obtain rfl := Except.error.inj h
    exact List.prefix_append_right_inj [c] |>.mpr (ih he)
  | case7 => cases h

/-- **What stands in front of a fault** is where the text begins. -/
theorem before_prefix_of_pieces (h : pieces cs = .error e) : e.before <+: cs := by
  fun_induction pieces cs generalizing e with
  | case1 cs e' he =>
    obtain rfl := Except.error.inj h
    exact before_prefix_of_gap he
  | case2 => cases h
  | case3 cs g c text hg cause hl =>
    obtain rfl := Except.error.inj h
    rw [← append_of_gap hg]
    exact List.prefix_append g _
  | case4 => cases h
  | case5 cs g c text hg token lex rest hl hlt e' he ih =>
    obtain rfl := Except.error.inj h
    rw [← append_of_gap hg, ← append_of_lexeme hl, ← List.append_assoc]
    exact List.prefix_append_right_inj (g ++ lex) |>.mpr (ih he)

end Scan

/-- A position within a text: it counts the characters up to some offset. -/
def Position.Within (p : Position) (text : List Char) : Prop :=
  ∃ n ≤ text.length, p.Counts (text.take n)

theorem Position.within_of_prefix {p : Position} {front text : List Char} (hp : p.Counts front)
    (h : front <+: text) : p.Within text := by
  obtain ⟨rest, rfl⟩ := h
  refine ⟨front.length, by simp, ?_⟩
  rwa [List.take_left]

/-! ## Faults of the text -/

/-- The message of a fault ends with its position. -/
theorem ScanError.message_eq (e : ScanError) :
    ∃ words, e.message = words ++ " at " ++ e.position.text := by
  have hquote : "' at " = "'" ++ " at " := rfl
  obtain ⟨before, cause⟩ := e
  cases cause with
  | unclosedComment => exact ⟨"Unterminated block comment starting", rfl⟩
  | unclosedString => exact ⟨"Unterminated string starting", rfl⟩
  | unexpected c =>
    refine ⟨"Unexpected character '" ++ String.singleton c ++ "'", ?_⟩
    rw [message, hquote]
    dsimp only
    rw [← String.append_assoc]
  | integerRange lexeme =>
    refine ⟨"Invalid integer '" ++ lexeme ++ "'", ?_⟩
    rw [message, hquote]
    dsimp only
    rw [← String.append_assoc]

theorem ScanError.position_within {source : String} {e : ScanError} (h : scan source = .error e) :
    e.position.Within source.toList := by
  have hpieces : Scan.pieces source.toList = .error e := by
    unfold scan at h
    split at h
    · next he => rw [he, Except.error.inj h]
    · cases h
  exact Position.within_of_prefix (Position.counts_after _) (Scan.before_prefix_of_pieces hpieces)

/-! ## Misfits of the tokens -/

/-- What is left over from a misfit on is the end of the tokens. -/
theorem exists_append_of_document {ts : List Token} {e : SyntaxError}
    (h : Grammar.document ts = .error e) :
    ∃ front, ts = front ++ e.rest ∧ SyntaxError.Placed e front
      ∧ Parser.Stumbles (· = none) (Parser.untilStop (·.isNone) Grammar.definition) ts
        (e.place front) := by
  refine (Grammar.guided_definitions.prompt ts).fails ?_
  unfold Grammar.document at h
  cases hrun : Parser.untilStop (·.isNone) Grammar.definition ts with
  | ok r => rw [hrun] at h; cases h
  | error e' => rw [hrun] at h; rw [Except.error.inj h]

namespace Scanned

variable {s : Scanned}

/-- **The entry that a misfit is at**: the token that comes next, or the end, with its position. -/
theorem entries_of_append {front rest : List Token} (h : s.tokens = front ++ rest) :
    s.entries[front.length]? = some (rest.head?, s.positionFromEnd rest.length) := by
  obtain ⟨ls, ls', hlexemes, rfl, rfl⟩ := List.map_eq_append_iff.mp h
  have hdrop : s.lexemes.drop (s.lexemes.length - ls'.length) = ls' := by
    rw [hlexemes, List.length_append, Nat.add_sub_cancel, List.drop_left]
  rw [entries, positionFromEnd, List.length_map, List.length_map, hdrop, hlexemes, List.map_append,
    List.append_assoc, List.getElem?_append_right (by simp), List.length_map, Nat.sub_self]
  cases ls' <;> rfl

/-- Entries are within the source. -/
theorem within_of_mem {source : String} (h : scan source = .ok s) {o : Option Token} {p : Position}
    (hmem : (o, p) ∈ s.entries) : p.Within source.toList := by
  have htiles := scan_eq_ok_iff.mp h
  rw [entries, List.mem_append, List.mem_map, List.mem_singleton] at hmem
  rcases hmem with ⟨l, hl, heq⟩ | heq
  · obtain ⟨-, rfl⟩ := Prod.mk.inj heq
    obtain ⟨before, after, htext, hcounts⟩ := htiles.exists_of_mem l hl
    exact Position.within_of_prefix hcounts ⟨l.text ++ after, htext.symm⟩
  · obtain ⟨-, rfl⟩ := Prod.mk.inj heq
    exact Position.within_of_prefix htiles.counts_stop (List.prefix_refl _)

end Scanned

/-- How messages name an entry. -/
theorem describeNext_toList_head? (ts : List Token) :
    describeNext ts.head?.toList = describeNext ts := by
  cases ts <;> rfl

/-- **Every failure has a place in the text.** A text that cannot be scanned has a message that ends
with a position within it. A text whose tokens are no document has a message that names one of them,
or the end, and ends with its position. And a text that is parsed is parsed to its end. -/
theorem parse_located (source : String) :
    match scan source, parse source with
    | .error _, .error e => ∃ (words : String) (position : Position),
        e.message = words ++ " at " ++ position.text ∧ position.Within source.toList
    | .ok s, .error e => ∃ (words : String) (found : Option Token) (position : Position),
        e.message = words ++ ", found " ++ describeNext found.toList ++ " at " ++ position.text
          ∧ (found, position) ∈ s.entries ∧ position.Within source.toList
    | .ok s, .ok ds => Grammar.InRow s.tokens ds
    | .error _, .ok _ => False := by
  unfold parse
  cases hscan : scan source with
  | error e =>
    obtain ⟨words, hwords⟩ := e.message_eq
    exact ⟨words, e.position, hwords, ScanError.position_within hscan⟩
  | ok s =>
    dsimp only
    cases hdocument : Grammar.document s.tokens with
    | ok ds => exact Grammar.inRow_of_document hdocument
    | error e =>
      obtain ⟨front, hfront, -⟩ := exists_append_of_document hdocument
      have hmem := List.mem_of_getElem? (Scanned.entries_of_append hfront)
      refine ⟨e.expected.text, e.rest.head?, _, ?_, hmem, Scanned.within_of_mem hscan hmem⟩
      rw [describeNext_toList_head?]
      rfl

end IntentContract
