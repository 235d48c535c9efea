import IntentContract.Artifacts
import IntentContract.Proofs.Grammar.Document

/-!
# Layout has no part in what is compiled

A text may be laid out anew: its lexemes are kept, and every gap is replaced by
any other sequence of blanks and comments, which must not be empty between two
lexemes. The new text has the same tokens, and so the same definitions, or none if
the old one had none. Contract, generated modules and linked data come from the
definitions alone, so they are the same as well (`relaid_agrees`).
-/

namespace IntentContract

open Scan (Gap Spells)

/-- **A text laid out anew**: a gap in front of each lexeme, and one behind the
last. -/
def relaid (lexemes : List Lexeme) (gaps : List Gap) (last : Gap) : String :=
  String.ofList ((gaps.zip lexemes).flatMap (fun q => q.1.text ++ q.2.text) ++ last.text)

namespace Scan

/-- A spacer is not empty, and so no gap with one. -/
theorem Gap.text_ne_nil {g : Gap} (h : g ≠ []) : g.text ≠ [] := by
  obtain ⟨s, g', rfl⟩ := List.exists_cons_of_ne_nil h
  cases s <;> exact List.cons_ne_nil _ _

/-- **A text laid out anew has the tokens it had.** -/
theorem tokens?_relaid {lexemes : List Lexeme} {gaps : List Gap}
    (h : ∀ l ∈ lexemes, Spells l.text l.token) (hlen : gaps.length = lexemes.length)
    (hne : ∀ g ∈ gaps.tail, g ≠ []) (last : Gap) :
    tokens? (relaid lexemes gaps last).toList = some (lexemes.map (·.token)) := by
  -- each lexeme with the gap in front of it is a spaced piece; only the first gap may be empty
  let piece : Gap × Lexeme → Piece := fun q => ⟨q.1.text, q.2.token, q.2.text⟩
  have hspaced : ∀ p ∈ (gaps.zip lexemes).map piece, IsSpaced p := by
    intro p hp
    obtain ⟨⟨g, l⟩, hmem, rfl⟩ := List.mem_map.mp hp
    exact ⟨⟨g, rfl⟩, h l (List.of_mem_zip hmem).2⟩
  have hgaps : ∀ p ∈ ((gaps.zip lexemes).map piece).tail, p.gap ≠ [] := by
    intro p hp
    rw [← List.map_tail, List.tail_zip] at hp
    obtain ⟨⟨g, l⟩, hmem, rfl⟩ := List.mem_map.mp hp
    exact Gap.text_ne_nil (hne g (List.of_mem_zip hmem).1)
  have htokens := tokens?_spaced last hspaced hgaps
  rw [List.flatMap_map, List.map_map] at htokens
  rw [relaid, String.toList_ofList]
  refine htokens.trans (congrArg some ?_)
  rw [show (fun p : Piece => p.token) ∘ piece = (·.token) ∘ Prod.snd from rfl,
    ← List.map_map, List.map_snd_zip (Nat.le_of_eq hlen.symm)]

end Scan

/-- Without its messages of errors, `compile` goes by the definitions alone. -/
theorem toOption_compile (source : String) (flavors : List Flavor) (prefixes : PrefixTable) :
    (compile source flavors prefixes).toOption
      = (parse source).toOption.bind fun ds => (Contract.build ds).toOption.map fun c =>
          { contract := c
            modules := flavors.map c.generate
            graph := LinkedData.graph prefixes c
            turtle := LinkedData.turtle prefixes c } := by
  rw [compile, Contract.ofSource]
  cases parse source with
  | error e => rfl
  | ok ds =>
    show _ = (Contract.build ds).toOption.map _
    dsimp only
    cases Contract.build ds <;> rfl

/-- **Layout has no part in what is compiled**: a text laid out anew has the same
tokens, the same definitions or none, and the same artifacts or none: the contract,
whose canonical text and hash are functions of it, the modules, the graph and the
Turtle text. -/
theorem relaid_agrees {source : String} {scanned : Scanned} (h : scan source = .ok scanned)
    {gaps : List Gap} (hlen : gaps.length = scanned.lexemes.length)
    (hne : ∀ g ∈ gaps.tail, g ≠ []) (last : Gap) :
    (scan (relaid scanned.lexemes gaps last)).toOption.map Scanned.tokens = some scanned.tokens
      ∧ (parse (relaid scanned.lexemes gaps last)).toOption = (parse source).toOption
      ∧ ∀ (flavors : List Flavor) (prefixes : PrefixTable),
          (compile (relaid scanned.lexemes gaps last) flavors prefixes).toOption
            = (compile source flavors prefixes).toOption := by
  have htokens := Scan.tokens?_relaid (Scan.spells_of_scan h) hlen hne last
  have hsource : Scan.tokens? source.toList = some scanned.tokens := by
    rw [Scan.tokens?_toList, h]
    rfl
  have hparse : (parse (relaid scanned.lexemes gaps last)).toOption
      = (parse source).toOption := by
    rw [toOption_parse, toOption_parse, htokens, hsource]
    rfl
  refine ⟨?_, hparse, fun flavors prefixes => ?_⟩
  · rw [← Scan.tokens?_toList, htokens]
    rfl
  · rw [toOption_compile, toOption_compile, hparse]

/-- A quoted slash is no comment, and comments may stand where there was nothing. -/
theorem relaid_agrees_enum :
    ∃ scanned, scan "enum E\x7b\"//\"\x7d;" = .ok scanned ∧
      ∃ gaps last, relaid scanned.lexemes gaps last
          = "/*/*/enum//-\n/***/E \t\x7b\u00a0\"//\"\n\x7d//\n;"
        ∧ gaps.length = scanned.lexemes.length ∧ (∀ g ∈ gaps.tail, g ≠ [])
        ∧ (parse (relaid scanned.lexemes gaps last)).toOption
          = (parse "enum E\x7b\"//\"\x7d;").toOption := by
  have h : scan "enum E\x7b\"//\"\x7d;" = .ok
      { lexemes := [⟨.keyword .enum, ['e', 'n', 'u', 'm'], ⟨1, 1, 0⟩⟩,
          ⟨.identifier "E", ['E'], ⟨1, 6, 5⟩⟩,
          ⟨.symbol .lbrace, ['\x7b'], ⟨1, 7, 6⟩⟩,
          ⟨.string "//", ['"', '/', '/', '"'], ⟨1, 8, 7⟩⟩,
          ⟨.symbol .rbrace, ['\x7d'], ⟨1, 12, 11⟩⟩,
          ⟨.symbol .semicolon, [';'], ⟨1, 13, 12⟩⟩]
        stop := ⟨1, 14, 13⟩ } := by
    with_unfolding_all rfl
  let gaps : List Gap :=
    [[.block ['/'] (by decide)],
      [.line ['-'] (by decide), .block ['*'] (by decide)],
      [.blank ' ' (by decide), .blank '\t' (by decide)],
      [.blank '\u00a0' (by decide)],
      [.blank '\n' (by decide)],
      [.line [] (by decide)]]
  have hne : ∀ g ∈ gaps.tail, g ≠ [] := by simp [gaps]
  exact ⟨_, h, gaps, [], rfl, rfl, hne, (relaid_agrees h rfl hne []).2.1⟩

end IntentContract
