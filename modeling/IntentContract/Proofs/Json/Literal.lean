import IntentContract.Json.Reader
import IntentContract.Json.Text

/-!
# String literals

A text stands in a JSON string literal with its quotes, backslashes and control characters
escaped. So a literal ends at the first quote that is not escaped, wherever the literal stands
and whatever the text was: reading takes exactly the literal off a text and gives back what was
written (`lexeme?_literal`). And it stays on one line (`newline_not_mem_literal`), which
lets the generated code be read line by line.
-/

namespace IntentContract

/-- A hexadecimal digit does not break a line. -/
theorem Text.hexDigit_ne_newline {n : Nat} (h : n < 16) : hexDigit n ≠ '\n' := by
  have hall : ∀ m : Fin 16, hexDigit m ≠ '\n' := by decide
  exact hall ⟨n, h⟩

namespace Json

/-- A control character is found again from its two hexadecimal digits. -/
theorem unit16?_hexDigit {n : Nat} (h : n < 256) :
    unit16? '0' '0' (Text.hexDigit (n / 16)) (Text.hexDigit (n % 16)) = some n := by
  have hhigh : n / 16 < 16 := Nat.div_lt_of_lt_mul h
  have hlow : n % 16 < 16 := Nat.mod_lt n (by decide)
  have hzero : Text.hexValue? '0' = some 0 := rfl
  rw [unit16?, hzero, Text.hexValue?_hexDigit hhigh, Text.hexValue?_hexDigit hlow]
  show some (4096 * 0 + 256 * 0 + 16 * (n / 16) + n % 16) = some n
  congr 1
  omega

/-- A control character reads back from its escape. -/
theorem escapeSequence?_control {c : Char} (h : c.toNat < 32) (rest : List Char) :
    escapeSequence? ('u' :: '0' :: '0' :: Text.hexDigit (c.toNat / 16)
      :: Text.hexDigit (c.toNat % 16) :: rest) = some (some c, rest) := by
  have hunit := unit16?_hexDigit (Nat.lt_of_lt_of_le h (by decide : 32 ≤ 256))
  have hhigh : isHighSurrogate c.toNat = false := by
    simp only [isHighSurrogate, Bool.and_eq_false_iff, decide_eq_false_iff_not]
    omega
  have hlow : isLowSurrogate c.toNat = false := by
    simp only [isLowSurrogate, Bool.and_eq_false_iff, decide_eq_false_iff_not]
    omega
  rw [escapeSequence?, unicodeEscape?, hunit]
  simp [hhigh, hlow, Char.ofNat_toNat]

/-- An escape at the start of a literal's body. -/
theorem stringBody?_backslash {cs rest : List Char} {c : Char}
    (h : escapeSequence? cs = some (some c, rest)) :
    stringBody? ('\\' :: cs)
      = (stringBody? rest).map fun (cs, rest) => (cs.map (c :: ·), rest) := by
  rw [stringBody?]
  split
  · next hnone =>
    rw [hnone] at h
    cases h
  · next c' rest' hsome =>
    rw [hsome] at h
    obtain ⟨rfl, rfl⟩ := Prod.mk.inj (Option.some.inj h)
    rfl

/-- **What a character is written as reads back as the character.** -/
theorem stringBody?_escapeChar (c : Char) (rest : List Char) :
    stringBody? (escapeChar c ++ rest)
      = (stringBody? rest).map fun (cs, rest) => (cs.map (c :: ·), rest) := by
  have hcode : ∀ n, c.toNat = n → c = Char.ofNat n := fun n h => by rw [← h, Char.ofNat_toNat]
  unfold escapeChar
  iterate 5 (split; · next h => exact stringBody?_backslash (by rw [h]; rfl))
  split
  · next h => exact stringBody?_backslash (by rw [hcode 8 h]; rfl)
  split
  · next h => exact stringBody?_backslash (by rw [hcode 12 h]; rfl)
  split
  · next h => exact stringBody?_backslash (escapeSequence?_control h rest)
  · next hquote hback _ _ _ _ _ hcontrol =>
    rw [List.singleton_append, stringBody?]
    · simp [hcontrol]
    · exact hquote
    · exact hback

/-- **The body of a literal reads back**, up to the closing quote. -/
theorem stringBody?_escape (cs rest : List Char) :
    stringBody? (escape cs ++ '"' :: rest) = some (some cs, rest) := by
  induction cs with
  | nil =>
    rw [escape, List.flatMap_nil, List.nil_append, stringBody?]
  | cons c cs ih =>
    rw [escape, List.flatMap_cons, List.append_assoc, stringBody?_escapeChar]
    rw [escape] at ih
    rw [ih]
    rfl

theorem toList_literal (s : String) : (literal s).toList = '"' :: (escape s.toList ++ ['"']) := by
  simp [literal]

/-- **A literal reads back as the text it was written for**, whatever follows it. -/
theorem lexeme?_literal (s : String) (rest : List Char) :
    lexeme? ((literal s).toList ++ rest) = some (.text (some s), rest) := by
  rw [toList_literal, List.cons_append, List.append_assoc, List.singleton_append, lexeme?,
    stringBody?_escape]
  simp

/-- A literal is read in one way. -/
theorem literal_append_inj {s t : String} {r₁ r₂ : List Char}
    (h : (literal s).toList ++ r₁ = (literal t).toList ++ r₂) : s = t ∧ r₁ = r₂ := by
  have hread := lexeme?_literal s r₁
  rw [h, lexeme?_literal] at hread
  simpa [eq_comm] using hread

/-- What a character is written as is on one line. -/
theorem newline_not_mem_escapeChar (c : Char) : '\n' ∉ escapeChar c := by
  unfold escapeChar
  iterate 7 (split; · simp)
  split
  · next h =>
    have hhigh := Text.hexDigit_ne_newline (Nat.div_lt_of_lt_mul (by omega) : c.toNat / 16 < 16)
    have hlow := Text.hexDigit_ne_newline (Nat.mod_lt c.toNat (by decide) : c.toNat % 16 < 16)
    simp [hhigh.symm, hlow.symm]
  · next h _ _ _ _ _ => simpa [eq_comm] using h

/-- A literal is on one line. -/
theorem newline_not_mem_literal (s : String) : '\n' ∉ (literal s).toList := by
  rw [toList_literal]
  simp [escape, newline_not_mem_escapeChar]

end Json

end IntentContract
