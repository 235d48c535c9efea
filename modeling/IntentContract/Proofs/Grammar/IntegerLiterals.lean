import IntentContract.Proofs.Definition.Printer
import IntentContract.Proofs.Grammar.Quotation
import Mathlib.Data.Nat.Digits.Defs
import Mathlib.Tactic.NormNum

/-!
# Integer literals are read exactly

A literal is a run of digits of any length, with or without a minus. It stands for one number,
which the scanner gives if it fits into 64 bits with a sign, and refuses otherwise
(`tokens_of_inRange`, `error_of_not_inRange`). The range reaches one further below zero than above,
so sign and digits have to be judged together.

Where a literal is the value of an extended attribute, the grammar keeps the number's canonical
text and not the literal as it was written: zeros in front are dropped, and so is the minus of
zero. The canonical text is a literal for the same number, so nothing changes for a document when
it is put in the literal's place.
-/

namespace IntentContract

open Scan (ComesTo IsSign Spells Stops)

/-- **An integer literal**: a sign or none, and digits. -/
structure IntegerLiteral where
  negative : Bool
  digits : List Char
  isDigits : Scan.IsDigits digits

namespace IntegerLiteral

variable (l : IntegerLiteral)

/-- The characters in front of the digits. -/
def sign : List Char :=
  if l.negative then ['-'] else []

/-- How a literal is written. -/
def text : String :=
  String.ofList (l.sign ++ l.digits)

/-- **The number a literal stands for**, from the ones at its end to the highest power of ten. -/
def value : Int :=
  let n : Nat := Nat.ofDigits 10 (l.digits.reverse.map Text.digitValue)
  if l.negative then -n else n

/-- The number fits into 64 bits with a sign. -/
def InRange : Prop :=
  -2 ^ 63 ≤ l.value ∧ l.value ≤ 2 ^ 63 - 1

/-- **The canonical form**: zero is the only literal that begins with a zero, and it has no
minus. -/
def IsCanonical : Prop :=
  l.digits.head? = some '0' → l.digits = ['0'] ∧ l.negative = false

/-! ## The number of a literal -/

theorem isSign_sign : IsSign l.sign := by
  unfold sign IsSign
  split <;> simp

/-- Digits are valued from the left, which comes to the sum of their powers of ten. -/
theorem digitsValue_eq_ofDigits (ds : List Char) :
    Text.digitsValue ds = Nat.ofDigits 10 (ds.reverse.map Text.digitValue) := by
  rw [Nat.ofDigits_eq_foldr, List.map_reverse, List.foldr_reverse, List.foldl_map,
    Text.digitsValue]
  congr 1
  funext n c
  simp only [Nat.cast_id]
  omega

theorem signed_eq_value : Scan.signed l.sign (Text.digitsValue l.digits) = l.value := by
  rw [digitsValue_eq_ofDigits, Scan.signed, sign, value]
  cases l.negative <;> rfl

theorem inIntegerRange_iff : Scan.inIntegerRange l.value = true ↔ l.InRange := by
  have hpow : ((Nat.pow 2 63 : Nat) : Int) = 2 ^ 63 := by norm_num
  simp only [Scan.inIntegerRange, Bool.and_eq_true, decide_eq_true_eq, hpow, InRange]
  omega

/-- **The canonical literal** for the same number. -/
def canonical : IntegerLiteral where
  negative := l.value < 0
  digits := Nat.toDigits 10 l.value.natAbs
  isDigits := Token.isDigits_toDigits l.value.natAbs

/-- It is written as numbers are. -/
theorem text_canonical : l.canonical.text = Text.intText l.value := by
  unfold text sign canonical Text.intText Text.natText
  by_cases hv : l.value < 0
  · simp [hv]
  · simp [hv]

theorem value_canonical : l.canonical.value = l.value := by
  rw [← signed_eq_value]
  show Scan.signed l.canonical.sign (Text.digitsValue (Nat.toDigits 10 l.value.natAbs)) = l.value
  rw [Token.digitsValue_toDigits, sign, canonical]
  by_cases hv : l.value < 0
  · simp only [hv, decide_true, ↓reduceIte]
    show -(l.value.natAbs : Int) = l.value
    omega
  · simp only [hv, decide_false, Bool.false_eq_true, ↓reduceIte]
    show (l.value.natAbs : Int) = l.value
    omega

/-- The digits of a number begin with a zero only if it is zero. -/
theorem eq_zero_of_head?_toDigits {n : Nat} (h : (Nat.toDigits 10 n).head? = some '0') : n = 0 := by
  induction n using Nat.strong_induction_on with
  | _ n ih =>
    by_cases hn : n < 10
    · rw [Nat.toDigits_of_lt_base hn] at h
      simpa using h
    · rw [Nat.toDigits_of_base_le (by decide) (by omega),
        List.head?_append_of_ne_nil _ Nat.toDigits_ne_nil] at h
      have := ih (n / 10) (by omega) h
      omega

theorem isCanonical_canonical : l.canonical.IsCanonical := by
  intro h
  have hv : l.value = 0 := Int.natAbs_eq_zero.mp (eq_zero_of_head?_toDigits h)
  show Nat.toDigits 10 l.value.natAbs = ['0'] ∧ decide (l.value < 0) = false
  rw [hv]
  exact ⟨Nat.toDigits_zero 10, rfl⟩

end IntegerLiteral

/-! ## Scanning a literal -/

/-- **A text that does not prolong a literal**: it begins neither with a digit nor with a point
and a digit. -/
def EndsInteger (after : String) : Prop :=
  (∀ c ∈ after.toList.head?, Text.isDigit c = false)
    ∧ ∀ d ds, after.toList = '.' :: d :: ds → Text.isDigit d = false

theorem endsInteger_of_first {after : String} {c : Char} {cs : List Char}
    (h : after.toList = c :: cs) (hdigit : Text.isDigit c = false) (hpoint : c ≠ '.') :
    EndsInteger after := by
  rw [EndsInteger, h]
  refine ⟨fun d hd => ?_, fun d ds heq => absurd (List.cons.inj heq).1 hpoint⟩
  obtain rfl : c = d := Option.some.inj hd
  exact hdigit

theorem EndsInteger.stops {after : String} (h : EndsInteger after) (v : Int) :
    Stops (.integer v) after.toList :=
  ⟨h.1, Scan.pointDigits?_eq_none_iff.mpr h.2⟩

namespace IntegerLiteral

variable {l : IntegerLiteral} {before after : String}

theorem toList_text (l : IntegerLiteral) : l.text.toList = l.sign ++ l.digits :=
  String.toList_ofList

/-- A literal in the range spells its number. -/
theorem spells_text (h : l.InRange) : Spells l.text.toList (.integer l.value) := by
  have hspells := Spells.integer l.isSign_sign l.isDigits
    (by rwa [signed_eq_value, inIntegerRange_iff])
  rwa [signed_eq_value, ← toList_text] at hspells

/-- **A literal in the range** is scanned as its number. -/
theorem tokens?_text_append (h : l.InRange) (hafter : EndsInteger after) :
    Scan.tokens? (l.text.toList ++ after.toList)
      = (Scan.tokens? after.toList).map (.integer l.value :: ·) :=
  Scan.tokens?_of_spells (spells_text h) (hafter.stops l.value)

/-- **A literal out of the range** is refused as a whole. -/
theorem lexeme_of_not_inRange (h : ¬ l.InRange) (hafter : EndsInteger after) :
    ∃ c rest, (l.text ++ after).toList = c :: rest ∧ Scan.isWordPart c = true
      ∧ Scan.lexeme c rest = .error (.integerRange l.text) := by
  obtain ⟨c, cs, hfirst, hc⟩ := Scan.first_of_number l.isSign_sign l.isDigits
  have hrange : ¬ Scan.inIntegerRange (Scan.signed l.sign (Text.digitsValue l.digits)) = true := by
    rwa [signed_eq_value, inIntegerRange_iff]
  have hread : Scan.lexeme c (cs ++ after.toList)
      = Scan.number l.sign (l.digits ++ after.toList) :=
    Scan.lexeme_of_number l.isSign_sign l.isDigits (by rw [hfirst, List.cons_append])
  refine ⟨c, cs ++ after.toList, ?_, hc, ?_⟩
  · rw [String.toList_append, toList_text, hfirst, List.cons_append]
  · rw [hread, Scan.number_whole l.isDigits hafter.1 (Scan.pointDigits?_eq_none_iff.mpr hafter.2),
      if_neg hrange]
    rfl

/-- Wherever the scanner comes to it, a literal in the range gives its number. -/
theorem tokens_of_inRange {ts : List Token} (h : l.InRange) (hafter : EndsInteger after)
    (hcomes : ComesTo before ts (l.text ++ after)) :
    (scan (before ++ l.text ++ after)).toOption.map Scanned.tokens
      = (scan after).toOption.map fun s => ts ++ .integer l.value :: s.tokens := by
  have hcons : (scan (l.text ++ after)).toOption.map Scanned.tokens
      = (scan after).toOption.map fun s => .integer l.value :: s.tokens := by
    rw [← Scan.tokens?_toList, String.toList_append, tokens?_text_append h hafter,
      Scan.tokens?_toList, Option.map_map]
    rfl
  have hback := congrArg (Option.map (ts ++ ·)) hcons
  rw [Option.map_map, Option.map_map] at hback
  rw [String.append_assoc, hcomes.tokens]
  exact hback

/-- Wherever the scanner comes to it, a literal out of the range is a fault. -/
theorem error_of_not_inRange {ts : List Token} (h : ¬ l.InRange) (hafter : EndsInteger after)
    (hcomes : ComesTo before ts (l.text ++ after)) :
    scan (before ++ l.text ++ after) = .error ⟨before.toList, .integerRange l.text⟩ := by
  obtain ⟨c, rest, hmore, hc, hfault⟩ := lexeme_of_not_inRange h hafter
  obtain ⟨hblank, hslash⟩ := Scan.visible_of_isWordPart hc
  rw [String.append_assoc]
  exact hcomes.error hmore hblank hslash hfault

/-! ## A literal as a value -/

/-- An attribute with a literal for its value, in brackets. -/
theorem tokens?_attribute (h : l.InRange) {name : String} (hname : isWord name = true)
    (more : String) :
    Scan.tokens? ("[" ++ name ++ "=" ++ l.text ++ "]" ++ more).toList
      = (Scan.tokens? more.toList).map fun ts => .symbol .lbracket :: .ofWord name
        :: .symbol .equals :: .integer l.value :: .symbol .rbracket :: ts := by
  have hopen : Spells "[".toList (.symbol .lbracket) := .symbol rfl
  have hequals : Spells "=".toList (.symbol .equals) := .symbol rfl
  have hclose : Spells "]".toList (.symbol .rbracket) := .symbol rfl
  have hword : Spells name.toList (.ofWord name) := Token.spells_ofWord hname
  have hwordEnds : ∀ cs, Stops (.ofWord name) ("=".toList ++ cs) := fun cs =>
    Scan.stops_ofWord.mpr fun c hc => by
      obtain rfl : '=' = c := Option.some.inj hc
      decide
  have hends : EndsInteger ("]" ++ more) :=
    endsInteger_of_first (String.toList_append ..) (by decide) (by decide)
  have hliteral := tokens?_text_append h hends
  rw [String.toList_append] at hliteral
  simp only [String.toList_append, List.append_assoc]
  rw [Scan.tokens?_of_spells hopen trivial, Scan.tokens?_of_spells hword (hwordEnds _),
    Scan.tokens?_of_spells hequals trivial, hliteral, Scan.tokens?_of_spells hclose trivial]
  simp only [Option.map_map]
  rfl

/-- **The value of an attribute** is the canonical text of the number. -/
theorem attributes_of_literal (h : l.InRange) {name : String} (hname : isWord name = true)
    (more : String) :
    (scan ("[" ++ name ++ "=" ++ l.text ++ "]" ++ more)).toOption.bind
        (fun s => (Grammar.attributes s.tokens).toOption)
      = (scan more).toOption.map fun s =>
        ([⟨name, some (.identifier l.canonical.text)⟩], s.tokens) := by
  have hread : ∀ ts, Grammar.attributes (.symbol .lbracket :: .ofWord name :: .symbol .equals
      :: .integer l.value :: .symbol .rbracket :: ts)
      = .ok ([⟨name, some (.identifier l.canonical.text)⟩], ts) := by
    intro ts
    rw [text_canonical]
    refine Grammar.attributes_eq_ok (Parser.commaList_of_end ?_ (by simp))
    exact Grammar.extendedAttribute_of_value (Token.name?_ofWord name) rfl
      (Grammar.skipParens_of_ne (by simp))
  have htokens := tokens?_attribute h hname more
  rw [Scan.tokens?_toList, Scan.tokens?_toList, Option.map_map] at htokens
  have hbind := congrArg (Option.bind · fun ts => (Grammar.attributes ts).toOption) htokens
  simp only [Option.bind_map, Function.comp_def, hread] at hbind
  rw [hbind]
  cases scan more <;> rfl

theorem inRange_canonical (h : l.InRange) : l.canonical.InRange := by
  rwa [InRange, value_canonical]

/-- The canonical text of a number is scanned as the number. -/
theorem tokens_canonical (h : l.InRange) :
    (scan l.canonical.text).toOption.map Scanned.tokens = some [.integer l.value] := by
  have hends : EndsInteger "" := ⟨by simp, by simp⟩
  have hone := tokens?_text_append (inRange_canonical h) hends
  rw [String.toList_empty, List.append_nil, Scan.tokens?_nil, value_canonical] at hone
  rw [← Scan.tokens?_toList, hone]
  rfl

/-- **In a document** a literal may be replaced by its canonical text. -/
theorem toOption_parse_canonical (h : l.InRange) (hbefore : AwaitsValue before)
    (hafter : EndsInteger after) :
    (parse (before ++ l.text ++ after)).toOption
      = (parse (before ++ l.canonical.text ++ after)).toOption := by
  obtain ⟨ts, -, -, htokens⟩ := hbefore.tokens?
  rw [toOption_parse, toOption_parse]
  simp only [String.toList_append, List.append_assoc]
  rw [htokens, htokens, tokens?_text_append h hafter,
    tokens?_text_append (inRange_canonical h) hafter, value_canonical]

theorem quote_not_mem_text (l : IntegerLiteral) : '"' ∉ l.text.toList := by
  rw [toList_text, List.mem_append]
  rintro (hmem | hmem)
  · obtain hsign | hsign := l.isSign_sign <;> simp [hsign] at hmem
  · exact absurd (l.isDigits.2 _ hmem) (by decide)

/-- **In a contract** a literal counts as its canonical text. -/
theorem toOption_ofSource_quoted (h : l.InRange) (hbefore : AwaitsValue before)
    (hafter : EndsInteger after) :
    (Contract.ofSource (before ++ l.text ++ after)).toOption
      = (Contract.ofSource (before ++ quoted l.canonical.text ++ after)).toOption := by
  obtain ⟨ts, hdocument, hlast, htokens⟩ := hbefore.tokens?
  rw [toOption_ofSource, toOption_ofSource, toOption_parse_build, toOption_parse_build]
  simp only [String.toList_append, List.append_assoc]
  rw [htokens, htokens, tokens?_text_append h hafter,
    Scan.tokens?_quoted l.canonical.quote_not_mem_text]
  cases hback : Scan.tokens? after.toList with
  | none => rfl
  | some back =>
    have hnumber : Grammar.attributeValue (.integer l.value :: back)
        = .ok (.identifier l.canonical.text, back) := by
      rw [text_canonical]
      rfl
    have hstring : Grammar.attributeValue (.string l.canonical.text :: back)
        = .ok (.string (quoted l.canonical.text), back) := rfl
    have hitem := Grammar.indifferent_extendedAttribute hnumber hstring
      (congrArg some (unquote_quoted _).symm)
    exact congrArg (Option.bind · Except.toOption)
      (Grammar.document_indifferent (Grammar.indifferent_attributes hitem) hdocument hlast)

/-! ## Exactness -/

/-- **Integer literals are read exactly**, whatever their length. Wherever the scanner comes to a
literal that is not prolonged, it gives the token of the literal's number and goes on behind it, if
the number is in the range; otherwise it reports the literal as a fault there.

The canonical literal has the same number and is scanned as this number again. An attribute with
the literal for its value has the canonical text, and wherever a value is due the literal comes to
the same document as the canonical text, and to the same contract as the canonical text in
quotes. -/
theorem read_exactly (l : IntegerLiteral) {after : String} (hafter : EndsInteger after) :
    (∀ before ts, ComesTo before ts (l.text ++ after) →
      (l.InRange → (scan (before ++ l.text ++ after)).toOption.map Scanned.tokens
        = (scan after).toOption.map fun s => ts ++ .integer l.value :: s.tokens)
      ∧ (¬ l.InRange → scan (before ++ l.text ++ after)
        = .error ⟨before.toList, .integerRange l.text⟩))
    ∧ (l.InRange →
      l.canonical.IsCanonical ∧ l.canonical.value = l.value
      ∧ (scan l.canonical.text).toOption.map Scanned.tokens = some [.integer l.value]
      ∧ (∀ name more, isWord name = true →
        (scan ("[" ++ name ++ "=" ++ l.text ++ "]" ++ more)).toOption.bind
            (fun s => (Grammar.attributes s.tokens).toOption)
          = (scan more).toOption.map fun s =>
            ([⟨name, some (.identifier l.canonical.text)⟩], s.tokens))
      ∧ ∀ before, AwaitsValue before →
        (parse (before ++ l.text ++ after)).toOption
            = (parse (before ++ l.canonical.text ++ after)).toOption
          ∧ (Contract.ofSource (before ++ l.text ++ after)).toOption
            = (Contract.ofSource (before ++ quoted l.canonical.text ++ after)).toOption) := by
  refine ⟨fun before ts hcomes => ⟨fun h => ?_, fun h => ?_⟩, fun h => ?_⟩
  · exact tokens_of_inRange h hafter hcomes
  · exact error_of_not_inRange h hafter hcomes
  · exact ⟨l.isCanonical_canonical, l.value_canonical, tokens_canonical h,
      fun name more hname => attributes_of_literal h hname more,
      fun before hbefore => ⟨toOption_parse_canonical h hbefore hafter,
        toOption_ofSource_quoted h hbefore hafter⟩⟩

/-- The least number in the range, with zeros in front, is read; without the minus it is beyond
the range. -/
theorem read_exactly_at_limit :
    ∃ h : Scan.IsDigits "0009223372036854775808".toList,
      let least : IntegerLiteral := ⟨true, _, h⟩
      let beyond : IntegerLiteral := ⟨false, _, h⟩
      EndsInteger "] void f(); \x7d;" ∧ AwaitsValue "interface I \x7b [Intent="
      ∧ least.InRange ∧ ¬ beyond.InRange
      ∧ scan ("" ++ beyond.text ++ "] void f(); \x7d;")
        = .error ⟨[], .integerRange "0009223372036854775808"⟩
      ∧ (Contract.ofSource ("interface I \x7b [Intent=" ++ least.text
          ++ "] void f(); \x7d;")).toOption
        = (Contract.ofSource ("interface I \x7b [Intent=" ++ quoted "-9223372036854775808"
          ++ "] void f(); \x7d;")).toOption := by
  have hdigits : Scan.IsDigits "0009223372036854775808".toList := by
    refine ⟨by decide, List.all_eq_true.mp ?_⟩
    decide
  have hafter : EndsInteger "] void f(); \x7d;" :=
    endsInteger_of_first rfl (by decide) (by decide)
  have hbefore : AwaitsValue "interface I \x7b [Intent=" := by
    refine ⟨[⟨[], .keyword .interface, "interface".toList⟩, ⟨[' '], .identifier "I", ['I']⟩,
      ⟨[' '], .symbol .lbrace, ['\x7b']⟩, ⟨[' '], .symbol .lbracket, ['[']⟩,
      ⟨[], .identifier "Intent", "Intent".toList⟩, ⟨[], .symbol .equals, ['=']⟩], [], ?_, ?_, rfl⟩
    · with_unfolding_all rfl
    · with_unfolding_all rfl
  refine ⟨hdigits, ?_⟩
  intro least beyond
  have hleastValue : least.value = -9223372036854775808 := rfl
  have hbeyondValue : beyond.value = 9223372036854775808 := rfl
  have hleast : least.InRange := by
    rw [InRange, hleastValue]
    decide
  have hbeyond : ¬ beyond.InRange := by
    rw [InRange, hbeyondValue]
    decide
  have htext : least.canonical.text = "-9223372036854775808" := by
    rw [text_canonical, hleastValue]
    decide
  refine ⟨hafter, hbefore, hleast, hbeyond, ?_, ?_⟩
  · exact ((beyond.read_exactly hafter).1 "" [] (Scan.comesTo_start _)).2 hbeyond
  · rw [← htext]
    exact (((least.read_exactly hafter).2 hleast).2.2.2.2 _ hbefore).2

end IntegerLiteral

end IntentContract
