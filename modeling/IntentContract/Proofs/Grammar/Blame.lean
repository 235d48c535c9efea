import IntentContract.Proofs.Grammar.Located

/-!
# The token to blame

Some tokens, with or without the end behind them, are **viable** if a document begins with them. The
tokens of a text that is no document have a first one with which they are not viable any more
(`Offends`), and the message of the failure should name that one. It does, but for the two slips of
`SyntaxError.place`: behind `unsigned` and `unrestricted` it names the token after the one to blame,
and for a colon that goes on with a value but has no identifier behind it, it names the colon.
-/

namespace IntentContract

open Grammar (document)

/-- The tokens of a document, and its end. -/
def stream (ts : List Token) : List (Option Token) :=
  ts.map some ++ [none]

/-- **Viable tokens**: there is a document that begins with them. -/
def Viable (begin : List (Option Token)) : Prop :=
  ∃ ts ds, document ts = .ok ds ∧ begin <+: stream ts

/-- **The token that offends**, or the end: the first one with which no document begins. -/
structure Offends (ts : List Token) (k : Nat) : Prop where
  lt : k < (stream ts).length
  dead : ¬ Viable ((stream ts).take (k + 1))
  alive : ∀ j < k, Viable ((stream ts).take (j + 1))

variable {ts : List Token} {j k : Nat}

/-- There is one token that offends. -/
theorem Offends.unique (hj : Offends ts j) (hk : Offends ts k) : j = k := by
  rcases Nat.lt_trichotomy j k with hlt | heq | hlt
  · exact absurd (hk.alive j hlt) hj.dead
  · exact heq
  · exact absurd (hj.alive k hlt) hk.dead

theorem length_stream (ts : List Token) : (stream ts).length = ts.length + 1 := by
  simp [stream]

theorem take_stream (h : k ≤ ts.length) : (stream ts).take k = (ts.take k).map some := by
  rw [stream, List.take_append_of_le_length (by simpa using h), List.map_take]

/-- A document that begins with some tokens agrees with all that begin so. -/
theorem take_eq_of_prefix_stream {ts' : List Token} (hk : k ≤ ts.length)
    (h : (stream ts).take (k + 1) <+: stream ts') : ts'.take (k + 1) = ts.take (k + 1) := by
  induction k generalizing ts ts' with
  | zero =>
    cases ts <;> cases ts' <;> simp_all [stream]
  | succ k ih =>
    obtain ⟨t, ts, rfl⟩ := List.exists_cons_of_length_pos (Nat.zero_lt_of_lt hk)
    cases ts' with
    | nil => simp [stream] at h
    | cons t' ts' =>
      obtain ⟨ht, hts⟩ := List.cons_prefix_cons.mp h
      rw [List.take_succ_cons, List.take_succ_cons, Option.some.inj ht,
        ih (Nat.le_of_succ_le_succ hk) hts]

/-- **The token over which the reader stumbles is the one that offends.** -/
theorem Parser.Stumbles.offends
    (h : Parser.Stumbles (· = none) (Parser.untilStop (·.isNone) Grammar.definition) ts k) :
    Offends ts k where
  lt := by
    rw [length_stream]
    exact Nat.lt_succ_of_le h.le
  dead := by
    rintro ⟨ts', ds, hds, hprefix⟩
    obtain ⟨e, he⟩ := h.dead ts' (take_eq_of_prefix_stream h.le hprefix)
    rw [document, he] at hds
    cases hds
  alive j hj := by
    obtain ⟨more, ds, hmore⟩ := h.alive (Nat.zero_lt_of_lt hj)
    have hle := h.le
    refine ⟨ts.take k ++ (more ++ []), ds, ?_, ?_⟩
    · rw [document, hmore [] rfl]
      rfl
    · rw [take_stream (by omega), stream, List.map_append, List.append_assoc]
      refine List.IsPrefix.trans ?_ (List.prefix_append _ _)
      exact (List.take_prefix_take_left (by omega)).map some

/-- The word that is passed too early is there. -/
theorem SyntaxError.Placed.ne_nil {e : SyntaxError} {front : List Token} (h : e.Placed front)
    (hb : e.Belated) : front ≠ [] := by
  rintro rfl
  have hplace := h [Parser.anyName]
  rw [place, place, if_pos hb, if_pos hb] at hplace
  cases hplace

/-- **Where the token that offends stands** from the misfit of a document. -/
theorem offends_place {e : SyntaxError} (h : document ts = .error e) :
    ∃ front, ts = front ++ e.rest ∧ (e.Belated → front ≠ []) ∧ Offends ts (e.place front) := by
  obtain ⟨front, hts, hplaced, hstumbles⟩ := exists_append_of_document h
  exact ⟨front, hts, hplaced.ne_nil, hstumbles.offends⟩

/-- The misfit itself offends, except for the two slips. -/
theorem offends_length_iff {e : SyntaxError} {front : List Token}
    (hne : e.Belated → front ≠ []) (h : Offends ts (e.place front)) :
    Offends ts front.length ↔ ¬ e.Belated ∧ ¬ e.Premature front := by
  constructor
  · intro hlength
    have hplace := h.unique hlength
    unfold SyntaxError.place at hplace
    split at hplace
    · next hb =>
      have hpos := List.length_pos_iff.mpr (hne hb)
      omega
    · next hb =>
      split at hplace
      · omega
      · next hp => exact ⟨hb, hp⟩
  · rintro ⟨hb, hp⟩
    rwa [SyntaxError.place, if_neg hb, if_neg hp] at h

/-- **The token that a message names.** For a text whose tokens are no document, the message names
the token `k`, or the end, with its position. The token that offends is that one, but for the two
slips: it is the one in front if the misfit is belated, and the one behind if it is premature. -/
theorem misfit_offends_iff {source : String} {s : Scanned} {e : ParseError}
    (hscan : scan source = .ok s) (hparse : parse source = .error e) :
    ∃ (misfit : SyntaxError) (position : Position) (k : Nat),
      e = .grammar misfit position
        ∧ e.message = misfit.expected.text ++ ", found " ++ describeNext misfit.rest.head?.toList
          ++ " at " ++ position.text
        ∧ s.entries[k]? = some (misfit.rest.head?, position)
        ∧ Offends s.tokens (if misfit.Belated then k - 1
            else if misfit.Premature (s.tokens.take k) then k + 1 else k)
        ∧ (Offends s.tokens k ↔ ¬ misfit.Belated ∧ ¬ misfit.Premature (s.tokens.take k)) := by
  rw [parse, hscan] at hparse
  dsimp only at hparse
  split at hparse
  · next misfit hdocument =>
    obtain rfl := Except.error.inj hparse
    obtain ⟨front, hfront, hne, hoffends⟩ := offends_place hdocument
    have htake : s.tokens.take front.length = front := by rw [hfront, List.take_left]
    refine ⟨misfit, _, front.length, rfl, ?_, Scanned.entries_of_append hfront, ?_, ?_⟩
    · rw [describeNext_toList_head?]
      rfl
    · rw [htake]
      exact hoffends
    · rw [htake]
      exact offends_length_iff hne hoffends
  · cases hparse

/-- The colon of `a:` is named, and the bracket behind it offends. -/
theorem misfit_offends_iff_colon :
    ∃ s e, scan "[A=a:] enum" = .ok s
      ∧ parse "[A=a:] enum" = .error (.grammar e ⟨1, 5, 4⟩)
      ∧ s.entries[4]? = some (some (.symbol .colon), ⟨1, 5, 4⟩)
      ∧ Offends s.tokens 5 ∧ ¬ Offends s.tokens 4 := by
  have hscan : scan "[A=a:] enum" = .ok
      { lexemes := [⟨.symbol .lbracket, ['['], ⟨1, 1, 0⟩⟩, ⟨.identifier "A", ['A'], ⟨1, 2, 1⟩⟩,
          ⟨.symbol .equals, ['='], ⟨1, 3, 2⟩⟩, ⟨.identifier "a", ['a'], ⟨1, 4, 3⟩⟩,
          ⟨.symbol .colon, [':'], ⟨1, 5, 4⟩⟩, ⟨.symbol .rbracket, [']'], ⟨1, 6, 5⟩⟩,
          ⟨.keyword .enum, ['e', 'n', 'u', 'm'], ⟨1, 8, 7⟩⟩]
        stop := ⟨1, 12, 11⟩ } := by
    with_unfolding_all rfl
  have hparse : parse "[A=a:] enum" = .error (.grammar ⟨.symbol .rbracket,
      [.symbol .colon, .symbol .rbracket, .keyword .enum]⟩ ⟨1, 5, 4⟩) := by
    with_unfolding_all rfl
  obtain ⟨misfit, position, k, heq, -, hentry, hoffends, hiff⟩ := misfit_offends_iff hscan hparse
  obtain ⟨rfl, rfl⟩ := ParseError.grammar.inj heq
  obtain rfl : k = 4 := by
    rcases k with _ | _ | _ | _ | _ | k
    iterate 4 cases hentry
    · rfl
    · rcases k with _ | _ | _ | k <;> cases hentry
  refine ⟨_, _, hscan, hparse, rfl, ?_, ?_⟩
  · exact hoffends
  · rw [hiff]
    decide

/-- **The message can name another token than the one that offends.** Behind `unsigned` the word
`foo` cannot stand, but the word named is the next one. -/
theorem misfit_behind_offender :
    ∃ s e, scan "typedef unsigned foo f;" = .ok s ∧ parse "typedef unsigned foo f;" = .error e
      ∧ e.message = "expected 'short' or 'long' after 'unsigned', found identifier 'f' at 1:22"
      ∧ s.entries[3]? = some (some (.identifier "f"), ⟨1, 22, 21⟩) ∧ ¬ Offends s.tokens 3
      ∧ s.entries[2]? = some (some (.identifier "foo"), ⟨1, 18, 17⟩) ∧ Offends s.tokens 2 := by
  have hscan : scan "typedef unsigned foo f;" = .ok
      { lexemes := [⟨.keyword .typedef, "typedef".toList, ⟨1, 1, 0⟩⟩,
          ⟨.identifier "unsigned", "unsigned".toList, ⟨1, 9, 8⟩⟩,
          ⟨.identifier "foo", "foo".toList, ⟨1, 18, 17⟩⟩, ⟨.identifier "f", ['f'], ⟨1, 22, 21⟩⟩,
          ⟨.symbol .semicolon, [';'], ⟨1, 23, 22⟩⟩]
        stop := ⟨1, 24, 23⟩ } := by
    with_unfolding_all rfl
  have hdocument : document [.keyword .typedef, .identifier "unsigned", .identifier "foo",
      .identifier "f", .symbol .semicolon]
      = .error ⟨.unsignedWidth, [.identifier "f", .symbol .semicolon]⟩ := by
    with_unfolding_all rfl
  have hparse : parse "typedef unsigned foo f;" = .error (.grammar
      ⟨.unsignedWidth, [.identifier "f", .symbol .semicolon]⟩ ⟨1, 22, 21⟩) := by
    with_unfolding_all rfl
  obtain ⟨front, hfront, -, hoffends⟩ := offends_place hdocument
  have hlength : front.length = 3 := by simpa using (congrArg List.length hfront).symm
  rw [SyntaxError.place, if_pos (.inl rfl), hlength] at hoffends
  refine ⟨_, _, hscan, hparse, ?_, rfl, fun h => ?_, rfl, hoffends⟩
  · with_unfolding_all rfl
  · cases hoffends.unique h

end IntentContract
