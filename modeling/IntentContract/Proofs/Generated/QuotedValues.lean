import IntentContract.Proofs.Generated.Registry
import IntentContract.Proofs.Grammar.Quotation

/-!
# Quoted values from the source to the generated code

A value in quotes is handed on by every stage. The scanner keeps whatever stands between two
quotes, be it a line break, a brace or the beginning of a comment; the grammar stores it with its
quotes; reading the attribute takes them off; and the generator writes a literal, with escapes of
its own, into a line of code. Only the quote itself cannot be part of a value, since definitions
have no escapes.

So a value without a quote comes through unchanged: it is the operation's intent or proof in the
contract, and it is read again from the registry in the client module (`quoted_values_carried`).
-/

namespace IntentContract

open Generated (registryOf? registryOf?_client)

/-- **A document with one operation**, its intent and its proof in quotes. -/
def oneOperation (intent proof : String) : String :=
  "interface I \x7b [Intent=" ++ quoted intent ++ ", Proof=" ++ quoted proof
    ++ "] void f(); \x7d;"

section Quoted

variable {intent proof : String}

/-- The tokens of the document. -/
theorem tokens?_oneOperation (hintent : '"' ∉ intent.toList) (hproof : '"' ∉ proof.toList) :
    Scan.tokens? (oneOperation intent proof).toList
      = some [.keyword .interface, .identifier "I", .symbol .lbrace, .symbol .lbracket,
        .identifier "Intent", .symbol .equals, .string intent, .symbol .comma,
        .identifier "Proof", .symbol .equals, .string proof, .symbol .rbracket,
        .identifier "void", .identifier "f", .symbol .lparen, .symbol .rparen, .symbol .semicolon,
        .symbol .rbrace, .symbol .semicolon] := by
  have hfront : Scan.pieces "interface I \x7b [Intent=".toList
      = .ok ([⟨[], .keyword .interface, "interface".toList⟩, ⟨[' '], .identifier "I", ['I']⟩,
        ⟨[' '], .symbol .lbrace, ['\x7b']⟩, ⟨[' '], .symbol .lbracket, ['[']⟩,
        ⟨[], .identifier "Intent", "Intent".toList⟩, ⟨[], .symbol .equals, ['=']⟩],
        Scan.Gap.text []) := by
    with_unfolding_all rfl
  have hmiddle : Scan.pieces ", Proof=".toList
      = .ok ([⟨[], .symbol .comma, [',']⟩, ⟨[' '], .identifier "Proof", "Proof".toList⟩,
        ⟨[], .symbol .equals, ['=']⟩], Scan.Gap.text []) := by
    with_unfolding_all rfl
  have hback : Scan.tokens? "] void f(); \x7d;".toList
      = some [.symbol .rbracket, .identifier "void", .identifier "f", .symbol .lparen,
        .symbol .rparen, .symbol .semicolon, .symbol .rbrace, .symbol .semicolon] := by
    with_unfolding_all rfl
  have hend : ∀ t ∈ some (Token.symbol .equals), ∃ s, t = .symbol s := by
    rintro t ⟨⟩
    exact ⟨.equals, rfl⟩
  unfold oneOperation
  simp only [String.toList_append, List.append_assoc]
  rw [Scan.tokens?_append_of_symbol hfront hend, Scan.tokens?_quoted hintent,
    Scan.tokens?_append_of_symbol hmiddle hend, Scan.tokens?_quoted hproof, hback]
  rfl

/-- The operation that the document declares. -/
theorem ofSource_oneOperation (hintent : '"' ∉ intent.toList) (hproof : '"' ∉ proof.toList) :
    Contract.ofSource (oneOperation intent proof)
      = .ok ⟨"I", none, none, [⟨"f", [], some (.primitive "void"),
        ⟨none, none, some intent, some proof, false, none⟩⟩]⟩ := by
  have hparse : parse (oneOperation intent proof)
      = .ok [.interface ⟨"I", none, [.operation ⟨"f", some (.primitive "void"), [],
        [⟨"Intent", some (.string (quoted intent))⟩, ⟨"Proof", some (.string (quoted proof))⟩]⟩],
        []⟩] := by
    refine parse_eq_ok_iff.mpr ⟨_, tokens?_oneOperation hintent hproof, ?_⟩
    with_unfolding_all rfl
  rw [Contract.ofSource, hparse]
  show Except.ok (⟨"I", none, none, [⟨"f", [], some (.primitive "void"),
    ⟨none, none, some (unquote (quoted intent)), some (unquote (quoted proof)), false, none⟩⟩]⟩
      : Contract) = _
  rw [unquote_quoted, unquote_quoted]

/-- **Quoted values are carried to the generated code**: the contract has them as the operation's
intent and proof, and the entry on the operation's line of the registry gives them back, in either
flavor. -/
theorem quoted_values_carried (hintent : '"' ∉ intent.toList) (hproof : '"' ∉ proof.toList) :
    ∃ c, Contract.ofSource (oneOperation intent proof) = .ok c
      ∧ (∃ op, c.operations = [op] ∧ op.name = "f" ∧ op.intent = intent ∧ op.proof = some proof)
      ∧ ∀ flavor, registryOf? "I" (c.generate flavor).client.text
        = some [⟨"f", intent, some proof⟩] := by
  have hsource := ofSource_oneOperation hintent hproof
  refine ⟨_, hsource, ⟨_, rfl, rfl, rfl, rfl⟩, fun flavor => ?_⟩
  exact registryOf?_client (Contract.wellFormed_of_ofSource hsource) flavor

end Quoted

/-- A value may hold line breaks, comments, braces, backslashes and what looks like an entry. -/
theorem quoted_values_carried_codelike :
    '"' ∉ "\\ // /*\n\x7d, intent: null \u2028é".toList
      ∧ ∃ c, Contract.ofSource (oneOperation "\\ // /*\n\x7d, intent: null \u2028é"
          "\\ // /*\n\x7d, intent: null \u2028é") = .ok c
        ∧ (∃ op, c.operations = [op] ∧ op.name = "f"
          ∧ op.intent = "\\ // /*\n\x7d, intent: null \u2028é"
          ∧ op.proof = some "\\ // /*\n\x7d, intent: null \u2028é")
        ∧ ∀ flavor, registryOf? "I" (c.generate flavor).client.text
          = some [⟨"f", "\\ // /*\n\x7d, intent: null \u2028é",
            some "\\ // /*\n\x7d, intent: null \u2028é"⟩] := by
  have hvalue : '"' ∉ "\\ // /*\n\x7d, intent: null \u2028é".toList := by decide
  exact ⟨hvalue, quoted_values_carried hvalue hvalue⟩

end IntentContract
