import IntentContract.Keyed
import IntentContract.Proofs.Token.Spelling
import IntentContract.Text.Markup
import Mathlib.Data.List.Basic

/-!
# Reading markup

A reader for markup that knows elements, attributes and the five predefined entities, and leaves
blanks as they are. It works in two passes: `piece?` takes tags and single characters off the
front of a text, and `build` puts them together to a tree with a stack of the elements that are
still open.

Beside the reader stands the grammar that it reads: `SpellsChar`, `SpellsAttribute` and
`SpellsPiece` say which texts stand for what, without any text behind them, and `Run` puts
spellings in a row. A character may be written as it is or as an entity, so one tree has many
texts. The reader takes each of them back to its tree (`Spelled.nodes?_eq`). A text that is
escaped spells what it was before (`run_escapeMarkup`), whatever characters it holds.
-/

namespace IntentContract.Markup

/-! ## Parts of a text -/

section Parts

variable {α : Type}

/-- What stands in front of the next mark, and what stands behind it. -/
def until? (mark : Char) (cs : List Char) : Option (List Char × List Char) :=
  match cs.dropWhile (· ≠ mark) with
  | [] => none
  | _ :: rest => some (cs.takeWhile (· ≠ mark), rest)

/-- A run of a class in front of a text, which may not be empty, and what follows it. -/
def run? (p : Char → Bool) (cs : List Char) : Option (String × List Char) :=
  match cs.takeWhile p with
  | [] => none
  | c :: front => some (String.ofList (c :: front), cs.dropWhile p)

/-- The items in front of a text, as many as there are. Each has to take something. -/
def many (read? : List Char → Option (α × List Char)) (cs : List Char) : List α × List Char :=
  match read? cs with
  | none => ([], cs)
  | some (item, rest) =>
    if rest.length < cs.length then
      let (items, last) := many read? rest
      (item :: items, last)
    else ([], cs)
termination_by cs.length

/-- The items of a text that consists of nothing else. -/
def all? (read? : List Char → Option (α × List Char)) (cs : List Char) : Option (List α) :=
  match many read? cs with
  | (items, []) => some items
  | (_, _ :: _) => none

theorem until?_append {mark : Char} {front : List Char} (h : mark ∉ front) (rest : List Char) :
    until? mark (front ++ mark :: rest) = some (front, rest) := by
  have hfront : ∀ c ∈ front, decide (c ≠ mark) = true := by
    intro c hc
    exact decide_eq_true fun heq => h (heq ▸ hc)
  have hmark : ∀ c ∈ (mark :: rest).head?, decide (c ≠ mark) = false := by simp
  obtain ⟨htake, hdrop⟩ := Scan.span_run hfront hmark
  rw [until?, hdrop, htake]

theorem run?_append {p : Char → Bool} {front rest : List Char} (hne : front ≠ [])
    (h : ∀ c ∈ front, p c = true) (hrest : ∀ c ∈ rest.head?, p c = false) :
    run? p (front ++ rest) = some (String.ofList front, rest) := by
  obtain ⟨htake, hdrop⟩ := Scan.span_run h hrest
  obtain ⟨c, cs, rfl⟩ := List.exists_cons_of_ne_nil hne
  rw [run?, htake, hdrop]

end Parts

/-! ## Spellings in a row -/

section Rows

variable {α β : Type} {Spells : α → List Char → Prop}

/-- **Items in a row**, each spelled by its part of the text. -/
inductive Run (Spells : α → List Char → Prop) : List α → List Char → Prop where
  | nil : Run Spells [] []
  | cons {item : α} {items : List α} {front back : List Char} (hitem : Spells item front)
      (hitems : Run Spells items back) : Run Spells (item :: items) (front ++ back)

theorem Run.single {item : α} {front : List Char} (h : Spells item front) :
    Run Spells [item] front := by
  simpa using Run.cons h .nil

theorem Run.append {items items' : List α} {front back : List Char} (h : Run Spells items front)
    (h' : Run Spells items' back) : Run Spells (items ++ items') (front ++ back) := by
  induction h with
  | nil => exact h'
  | cons hitem _ ih =>
    rw [List.cons_append, List.append_assoc]
    exact .cons hitem ih

/-- A text that is written item by item. -/
theorem Run.of_flatMap {write : α → List Char} (h : ∀ item, Spells item (write item))
    (items : List α) : Run Spells items (items.flatMap write) := by
  induction items with
  | nil => exact .nil
  | cons item items ih => exact .cons (h item) ih

/-- A row of items is one of other items if each is spelled as its counterpart is. -/
theorem Run.map {Spells' : β → List Char → Prop} {f : α → β}
    (hf : ∀ {item front}, Spells item front → Spells' (f item) front) {items : List α}
    {text : List Char} (h : Run Spells items text) : Run Spells' (items.map f) text := by
  induction h with
  | nil => exact .nil
  | cons hitem _ ih => exact .cons (hf hitem) ih

/-- **A reader of single items**: it takes off what spells an item, whatever stands behind. -/
structure Reads (read? : List Char → Option (α × List Char)) (Spells : α → List Char → Prop) :
    Prop where
  ne_nil : ∀ {item front}, Spells item front → front ≠ []
  append : ∀ {item front}, Spells item front → ∀ rest, read? (front ++ rest) = some (item, rest)

variable {read? : List Char → Option (α × List Char)}

/-- **A row is read to its end**, if no item can be read behind it. -/
theorem Reads.many_append (h : Reads read? Spells) {items : List α} {front rest : List Char}
    (hrun : Run Spells items front) (hstop : read? rest = none) :
    many read? (front ++ rest) = (items, rest) := by
  induction hrun with
  | nil => rw [List.nil_append, many, hstop]
  | @cons item items front back hitem _ ih =>
    have hshorter : (back ++ rest).length < (front ++ (back ++ rest)).length := by
      have := List.length_pos_iff.mpr (h.ne_nil hitem)
      simp only [List.length_append]
      omega
    rw [List.append_assoc, many, h.append hitem]
    simp only [if_pos hshorter, ih]

theorem Reads.all?_eq (h : Reads read? Spells) (hstop : read? [] = none) {items : List α}
    {text : List Char} (hrun : Run Spells items text) : all? read? text = some items := by
  have hmany := h.many_append hrun hstop
  rw [List.append_nil] at hmany
  rw [all?, hmany]

end Rows

/-! ## Characters -/

/-- The entities that all markup has. -/
def entities : List (String × Char) :=
  [("amp", '&'), ("lt", '<'), ("gt", '>'), ("quot", '"'), ("apos", '\'')]

/-- The character in front of a text. An entity is resolved, and a tag is no character. -/
def character? : List Char → Option (Char × List Char)
  | [] => none
  | '<' :: _ => none
  | '&' :: cs => do
    let (name, rest) ← until? ';' cs
    let c ← Keyed.get? (String.ofList name) entities
    return (c, rest)
  | c :: rest => some (c, rest)

/-- **What spells a character**: itself, or an entity. -/
inductive SpellsChar : Char → List Char → Prop where
  | plain {c : Char} (hand : c ≠ '&') (htag : c ≠ '<') : SpellsChar c [c]
  | entity {name : String} {c : Char} (h : (name, c) ∈ entities) :
      SpellsChar c ('&' :: name.toList ++ [';'])

/-- A character that is no markup is read as it is. -/
theorem character?_cons {c : Char} (hand : c ≠ '&') (htag : c ≠ '<') (rest : List Char) :
    character? (c :: rest) = some (c, rest) := by
  unfold character?
  split <;> simp_all

theorem reads_character? : Reads character? SpellsChar where
  ne_nil h := by cases h <;> simp
  append {c _} h rest := by
    cases h with
    | plain hand htag => exact character?_cons hand htag rest
    | @entity name _ h =>
      have hend : ';' ∉ name.toList ∧ Keyed.get? name entities = some c := by
        simp only [entities, List.mem_cons, Prod.mk.injEq, List.not_mem_nil, or_false] at h
        rcases h with ⟨rfl, rfl⟩ | ⟨rfl, rfl⟩ | ⟨rfl, rfl⟩ | ⟨rfl, rfl⟩ | ⟨rfl, rfl⟩ <;> decide
      have htext : '&' :: name.toList ++ [';'] ++ rest = '&' :: (name.toList ++ ';' :: rest) := by
        simp
      rw [htext, character?, until?_append hend.1]
      simp [hend.2]

/-- Text without markup spells itself. -/
theorem run_plain (s : String) (h : '&' ∉ s.toList ∧ '<' ∉ s.toList) :
    Run SpellsChar s.toList s.toList := by
  generalize s.toList = cs at h
  obtain ⟨hand, htag⟩ := h
  induction cs with
  | nil => exact .nil
  | cons c cs ih =>
    rw [List.mem_cons, not_or] at hand htag
    exact .cons (.plain (Ne.symm hand.1) (Ne.symm htag.1)) (ih hand.2 htag.2)

theorem spellsChar_entity (c : Char) : SpellsChar c (Text.entity c) := by
  unfold Text.entity
  split_ifs with hand hlt hgt hquot hapos
  · exact @SpellsChar.entity "amp" c (by simp [entities, hand])
  · exact @SpellsChar.entity "lt" c (by simp [entities, hlt])
  · exact @SpellsChar.entity "gt" c (by simp [entities, hgt])
  · exact @SpellsChar.entity "quot" c (by simp [entities, hquot])
  · exact @SpellsChar.entity "apos" c (by simp [entities, hapos])
  · exact .plain hand hlt

/-- **Escaped text spells the text**, whatever its characters. -/
theorem run_escapeMarkup (s : String) :
    Run SpellsChar s.toList (Text.escapeMarkup s).toList := by
  rw [Text.escapeMarkup, String.toList_ofList]
  exact Run.of_flatMap spellsChar_entity s.toList

/-- Escaped text does not end the value that it stands in. -/
theorem quote_not_mem_escapeMarkup (s : String) : '"' ∉ (Text.escapeMarkup s).toList := by
  rw [Text.escapeMarkup, String.toList_ofList, List.mem_flatMap]
  rintro ⟨c, -, hc⟩
  unfold Text.entity at hc
  split_ifs at hc with _ _ _ hquot _
  case neg => exact hquot (List.mem_singleton.mp hc).symm
  all_goals simp at hc

/-! ## Attributes and tags -/

/-- The blanks of markup. -/
def isBlank (c : Char) : Bool :=
  c = ' ' || c = '\t' || c = '\r' || c = '\n'

/-- The characters of names. -/
def isNamePart (c : Char) : Bool :=
  c.isAlphanum || c = '_' || c = '-' || c = '.' || c = ':'

theorem isBlank_of_isNamePart {c : Char} (h : isNamePart c = true) : isBlank c = false := by
  rw [Bool.eq_false_iff]
  intro hblank
  simp only [isBlank, Bool.or_eq_true, decide_eq_true_eq] at hblank
  obtain ((rfl | rfl) | rfl) | rfl := hblank <;> revert h <;> decide

/-- A name of an element or an attribute. -/
def IsName (name : String) : Prop :=
  name.toList ≠ [] ∧ name.toList.all isNamePart = true

instance (name : String) : Decidable (IsName name) :=
  inferInstanceAs (Decidable (_ ∧ _))

theorem IsName.isNamePart_of_mem {name : String} (h : IsName name) {c : Char}
    (hc : c ∈ name.toList) : isNamePart c = true :=
  List.all_eq_true.mp h.2 c hc

theorem IsName.run?_append {name : String} (h : IsName name) {rest : List Char}
    (hrest : ∀ c ∈ rest.head?, isNamePart c = false) :
    run? isNamePart (name.toList ++ rest) = some (name, rest) := by
  rw [Markup.run?_append h.1 (fun _ => h.isNamePart_of_mem) hrest, String.ofList_toList]

/-- The value between two quotes of either kind. -/
def quoted? : List Char → Option (String × List Char)
  | [] => none
  | quote :: cs =>
    if quote = '"' ∨ quote = '\'' then do
      let (raw, rest) ← until? quote cs
      let value ← all? character? raw
      return (String.ofList value, rest)
    else none

/-- The attribute in front of a text. Blanks divide it from what stands before. -/
def attribute? (cs : List Char) : Option ((String × String) × List Char) := do
  let (_, cs) ← run? isBlank cs
  let (name, cs) ← run? isNamePart cs
  match cs with
  | '=' :: cs =>
    let (value, rest) ← quoted? cs
    return ((name, value), rest)
  | _ => none

/-- **What spells an attribute**: a value may be written in many ways, but without the quote that
ends it. -/
inductive SpellsAttribute : String × String → List Char → Prop where
  | mk {name value : String} {raw : List Char} (hname : IsName name)
      (hvalue : Run SpellsChar value.toList raw) (hquote : '"' ∉ raw) :
      SpellsAttribute (name, value) (' ' :: name.toList ++ '=' :: '"' :: raw ++ ['"'])

theorem run_markupAttribute (name value : String) (hname : IsName name) :
    Run SpellsAttribute [(name, value)] (Text.markupAttribute name value).toList := by
  have htext : (Text.markupAttribute name value).toList
      = ' ' :: name.toList ++ '=' :: '"' :: (Text.escapeMarkup value).toList ++ ['"'] := by
    simp [Text.markupAttribute]
  rw [htext]
  exact .single (.mk hname (run_escapeMarkup value) (quote_not_mem_escapeMarkup value))

theorem quoted?_cons {value : String} {raw : List Char} (hvalue : Run SpellsChar value.toList raw)
    (hquote : '"' ∉ raw) (rest : List Char) :
    quoted? ('"' :: (raw ++ '"' :: rest)) = some (value, rest) := by
  have hall : all? character? raw = some value.toList := reads_character?.all?_eq rfl hvalue
  simp [quoted?, until?_append hquote, hall]

theorem reads_attribute? : Reads attribute? SpellsAttribute where
  ne_nil h := by cases h; simp
  append h rest := by
    cases h with
    | @mk name value raw hname hvalue hquote =>
      have htext : ' ' :: name.toList ++ '=' :: '"' :: raw ++ ['"'] ++ rest
          = [' '] ++ (name.toList ++ '=' :: '"' :: (raw ++ '"' :: rest)) := by simp
      have hblank : ∀ c ∈ (name.toList ++ '=' :: '"' :: (raw ++ '"' :: rest)).head?,
          isBlank c = false := by
        intro c hc
        rw [List.head?_append_of_ne_nil _ hname.1] at hc
        exact isBlank_of_isNamePart (hname.isNamePart_of_mem (List.mem_of_mem_head? hc))
      have hblanks : run? isBlank ([' '] ++ (name.toList ++ '=' :: '"' :: (raw ++ '"' :: rest)))
          = some (" ", name.toList ++ '=' :: '"' :: (raw ++ '"' :: rest)) :=
        run?_append (by simp) (by simp [isBlank]) hblank
      have hnames : run? isNamePart (name.toList ++ '=' :: '"' :: (raw ++ '"' :: rest))
          = some (name, '=' :: '"' :: (raw ++ '"' :: rest)) :=
        hname.run?_append (by simp [isNamePart])
      rw [htext, attribute?, hblanks]
      simp [hnames, quoted?_cons hvalue hquote]

/-- **A piece of markup**: a tag, or a single character of a text. -/
inductive Piece where
  | instruction
  | opening (name : String) (attributes : List (String × String))
  | single (name : String) (attributes : List (String × String))
  | closing (name : String)
  | char (c : Char)

/-- What stands behind the end of an instruction. -/
def afterInstruction? : List Char → Option (List Char)
  | [] => none
  | '?' :: '>' :: rest => some rest
  | _ :: rest => afterInstruction? rest

/-- The end of a tag, which says whether an element is opened or stands by itself. -/
def tagEnd? (name : String) (attributes : List (String × String)) :
    List Char → Option (Piece × List Char)
  | '>' :: rest => some (.opening name attributes, rest)
  | '/' :: '>' :: rest => some (.single name attributes, rest)
  | _ => none

/-- A tag with its attributes. -/
def tag? (cs : List Char) : Option (Piece × List Char) := do
  let (name, cs) ← run? isNamePart cs
  let (attributes, cs) := many attribute? cs
  tagEnd? name attributes (cs.dropWhile isBlank)

/-- A tag that closes an element. -/
def closingTag? (cs : List Char) : Option (Piece × List Char) := do
  let (name, cs) ← run? isNamePart cs
  match cs.dropWhile isBlank with
  | '>' :: rest => return (.closing name, rest)
  | _ => none

/-- The piece in front of a text. -/
def piece? : List Char → Option (Piece × List Char)
  | '<' :: '?' :: cs => (afterInstruction? cs).map (.instruction, ·)
  | '<' :: '/' :: cs => closingTag? cs
  | '<' :: cs => tag? cs
  | cs => (character? cs).map fun (c, rest) => (.char c, rest)

/-- **What spells a piece.** -/
inductive SpellsPiece : Piece → List Char → Prop where
  | instruction {body : List Char} (h : '?' ∉ body) :
      SpellsPiece .instruction ('<' :: '?' :: body ++ ['?', '>'])
  | opening {name : String} {attributes : List (String × String)} {raw : List Char}
      (hname : IsName name) (hattributes : Run SpellsAttribute attributes raw) :
      SpellsPiece (.opening name attributes) ('<' :: name.toList ++ raw ++ ['>'])
  | single {name : String} {attributes : List (String × String)} {raw : List Char}
      (hname : IsName name) (hattributes : Run SpellsAttribute attributes raw) :
      SpellsPiece (.single name attributes) ('<' :: name.toList ++ raw ++ ['/', '>'])
  | closing {name : String} (hname : IsName name) :
      SpellsPiece (.closing name) ('<' :: '/' :: name.toList ++ ['>'])
  | char {c : Char} {raw : List Char} (h : SpellsChar c raw) : SpellsPiece (.char c) raw

theorem afterInstruction?_append {body : List Char} (h : '?' ∉ body) (rest : List Char) :
    afterInstruction? (body ++ '?' :: '>' :: rest) = some rest := by
  induction body with
  | nil => rfl
  | cons c body ih =>
    rw [List.mem_cons, not_or] at h
    rw [List.cons_append, afterInstruction?]
    · exact ih h.2
    · rintro _ rfl
      exact absurd rfl h.1

/-- A name starts a tag of its own, neither an instruction nor the end of an element. -/
theorem piece?_of_isName {name : String} (h : IsName name) (rest : List Char) :
    piece? ('<' :: (name.toList ++ rest)) = tag? (name.toList ++ rest) := by
  obtain ⟨c, cs, hcs⟩ := List.exists_cons_of_ne_nil h.1
  have hc : isNamePart c = true := h.isNamePart_of_mem (by rw [hcs]; exact List.mem_cons_self)
  have hquestion : c ≠ '?' := by rintro rfl; revert hc; decide
  have hslash : c ≠ '/' := by rintro rfl; revert hc; decide
  rw [hcs, List.cons_append, piece?]
  · rintro _ ⟨⟩
    exact hquestion rfl
  · rintro _ ⟨⟩
    exact hslash rfl

/-- The attributes of a tag do not prolong its name, and they end where the tag does. -/
theorem tag?_append {name : String} {attributes : List (String × String)} {raw : List Char}
    (hname : IsName name) (hattributes : Run SpellsAttribute attributes raw) {c : Char}
    (hc : c = '>' ∨ c = '/') (rest : List Char) :
    tag? (name.toList ++ (raw ++ c :: rest)) = tagEnd? name attributes (c :: rest) := by
  have hpart : isNamePart c = false := by obtain rfl | rfl := hc <;> decide
  have hblank : isBlank c = false := by obtain rfl | rfl := hc <;> decide
  have hhead : ∀ d ∈ (raw ++ c :: rest).head?, isNamePart d = false := by
    cases hattributes with
    | nil => simpa using hpart
    -- An attribute begins with a blank.
    | cons hitem _ => cases hitem; simp [isNamePart]
  have hstop : attribute? (c :: rest) = none := by simp [attribute?, run?, hblank]
  rw [tag?, hname.run?_append hhead]
  simp [reads_attribute?.many_append hattributes hstop, hblank]

theorem reads_piece? : Reads piece? SpellsPiece where
  ne_nil h := by
    cases h with
    | char h => exact reads_character?.ne_nil h
    | _ => simp
  append h rest := by
    cases h with
    | @instruction body h =>
      have htext : '<' :: '?' :: body ++ ['?', '>'] ++ rest
          = '<' :: '?' :: (body ++ '?' :: '>' :: rest) := by simp
      rw [htext, piece?, afterInstruction?_append h]
      rfl
    | @opening name attributes raw hname hattributes =>
      have htext : '<' :: name.toList ++ raw ++ ['>'] ++ rest
          = '<' :: (name.toList ++ (raw ++ '>' :: rest)) := by simp
      rw [htext, piece?_of_isName hname, tag?_append hname hattributes (.inl rfl), tagEnd?]
    | @single name attributes raw hname hattributes =>
      have htext : '<' :: name.toList ++ raw ++ ['/', '>'] ++ rest
          = '<' :: (name.toList ++ (raw ++ '/' :: '>' :: rest)) := by simp
      rw [htext, piece?_of_isName hname, tag?_append hname hattributes (.inr rfl), tagEnd?]
    | @closing name hname =>
      have htext : '<' :: '/' :: name.toList ++ ['>'] ++ rest
          = '<' :: '/' :: (name.toList ++ '>' :: rest) := by simp
      have hend : ('>' :: rest).dropWhile isBlank = '>' :: rest := rfl
      rw [htext, piece?, closingTag?, hname.run?_append (by simp [isNamePart])]
      simp [hend]
    | @char c raw h =>
      have hread := reads_character?.append h rest
      rw [piece?, hread]
      · rfl
      -- What is read as a character does not begin like a tag.
      all_goals
        rintro _ heq
        rw [heq] at hread
        cases hread

/-! ## Trees -/

/-- **A node of a document**. Text is given by its single characters, and an element that is
written as one tag is kept apart from one that is opened and closed. -/
inductive Node where
  | instruction
  | char (c : Char)
  | empty (name : String) (attributes : List (String × String))
  | element (name : String) (attributes : List (String × String)) (content : List Node)

/-- A text as nodes. -/
def chars (s : String) : List Node :=
  s.toList.map .char

/-- The text among some nodes. -/
def textOf (ns : List Node) : String :=
  String.ofList (ns.filterMap fun
    | .char c => some c
    | _ => none)

/-- A node that is an element, in one tag or in two. -/
def Node.isElement : Node → Bool
  | .empty _ _ => true
  | .element _ _ _ => true
  | _ => false

/-- The elements among some nodes. -/
def elements (ns : List Node) : List Node :=
  ns.filter Node.isElement

theorem textOf_chars (s : String) : textOf (chars s) = s := by
  simp [textOf, chars, List.filterMap_map]

theorem elements_append (ns ms : List Node) : elements (ns ++ ms) = elements ns ++ elements ms :=
  List.filter_append ..

theorem elements_chars (s : String) : elements (chars s) = [] := by
  simp [elements, chars, Node.isElement]

/-- Text around an element is not seen among the elements. -/
theorem elements_between {n : Node} (h : n.isElement = true) (s s' : String) :
    elements (chars s ++ [n] ++ chars s') = [n] := by
  have hn : elements [n] = [n] := by rw [elements, List.filter_cons_of_pos h, List.filter_nil]
  rw [elements_append, elements_append, elements_chars, elements_chars, hn]
  rfl

mutual

/-- The pieces that a node consists of. -/
def Node.pieces : Node → List Piece
  | .instruction => [.instruction]
  | .char c => [.char c]
  | .empty name attributes => [.single name attributes]
  | .element name attributes content =>
    .opening name attributes :: (allPieces content ++ [.closing name])

/-- The pieces of some nodes, one after the other. -/
def allPieces : List Node → List Piece
  | [] => []
  | n :: ns => n.pieces ++ allPieces ns

end

theorem allPieces_append (ns ms : List Node) :
    allPieces (ns ++ ms) = allPieces ns ++ allPieces ms := by
  induction ns with
  | nil => rfl
  | cons n ns ih => rw [List.cons_append, allPieces, allPieces, ih, List.append_assoc]

theorem allPieces_singleton (n : Node) : allPieces [n] = n.pieces := by
  rw [allPieces, allPieces, List.append_nil]

theorem allPieces_map_char (cs : List Char) :
    allPieces (cs.map .char) = cs.map .char := by
  induction cs with
  | nil => rfl
  | cons c cs ih => rw [List.map_cons, allPieces, ih, Node.pieces]; rfl

/-- An element that is still open: its tag, and the nodes in front of it. -/
structure OpenElement where
  name : String
  attributes : List (String × String)
  before : List Node

/-- **Puts pieces together**, below some open elements and behind the nodes that are done. What is
opened has to be closed, in turn and by its name. -/
def build : List OpenElement → List Node → List Piece → Option (List Node)
  | [], done, [] => some done
  | _ :: _, _, [] => none
  | outer, done, .instruction :: ps => build outer (done ++ [.instruction]) ps
  | outer, done, .char c :: ps => build outer (done ++ [.char c]) ps
  | outer, done, .single name attributes :: ps => build outer (done ++ [.empty name attributes]) ps
  | outer, done, .opening name attributes :: ps => build (⟨name, attributes, done⟩ :: outer) [] ps
  | e :: outer, done, .closing name :: ps =>
    if e.name = name then build outer (e.before ++ [.element e.name e.attributes done]) ps
    else none
  | [], _, .closing _ :: _ => none

mutual

/-- **The pieces of a node build that node**, whatever is open and done already. -/
theorem build_pieces (n : Node) (outer : List OpenElement) (done : List Node) (ps : List Piece) :
    build outer done (n.pieces ++ ps) = build outer (done ++ [n]) ps := by
  cases n with
  | instruction => rw [Node.pieces, List.singleton_append, build]
  | char c => rw [Node.pieces, List.singleton_append, build]
  | empty name attributes => rw [Node.pieces, List.singleton_append, build]
  | element name attributes content =>
    rw [Node.pieces, List.cons_append, build, List.append_assoc, build_allPieces content,
      List.singleton_append, build, if_pos rfl]
    rfl

/-- The content of an element is built with the element on the stack, so nothing is said about the
stack. -/
theorem build_allPieces (ns : List Node) (outer : List OpenElement) (done : List Node)
    (ps : List Piece) :
    build outer done (allPieces ns ++ ps) = build outer (done ++ ns) ps := by
  cases ns with
  | nil => rw [allPieces, List.nil_append, List.append_nil]
  | cons n ns =>
    rw [allPieces, List.append_assoc, build_pieces n, build_allPieces ns, List.append_assoc,
      List.singleton_append]

end

/-! ## Documents -/

/-- **The nodes of a document.** -/
def nodes? (text : String) : Option (List Node) := do
  let pieces ← all? piece? text.toList
  build [] [] pieces

/-- **A text that spells nodes.** -/
def Spelled (ns : List Node) (text : List Char) : Prop :=
  Run SpellsPiece (allPieces ns) text

/-- **Reading gives the nodes back** that a text spells. -/
theorem Spelled.nodes?_eq {ns : List Node} {text : String} (h : Spelled ns text.toList) :
    nodes? text = some ns := by
  have hall : all? piece? text.toList = some (allPieces ns) := reads_piece?.all?_eq rfl h
  have hbuild : build [] [] (allPieces ns) = some ns := by
    have := build_allPieces ns [] [] []
    rwa [List.append_nil, List.nil_append, build] at this
  rw [nodes?, hall]
  exact hbuild

theorem Spelled.nil : Spelled [] [] :=
  Run.nil

theorem Spelled.append {ns ms : List Node} {front back : List Char} (h : Spelled ns front)
    (h' : Spelled ms back) : Spelled (ns ++ ms) (front ++ back) := by
  rw [Spelled, allPieces_append]
  exact Run.append h h'

theorem Spelled.instruction {body : List Char} (h : '?' ∉ body) :
    Spelled [.instruction] ('<' :: '?' :: body ++ ['?', '>']) := by
  rw [Spelled, allPieces_singleton]
  exact .single (.instruction h)

theorem Spelled.chars {s : String} {raw : List Char} (h : Run SpellsChar s.toList raw) :
    Spelled (chars s) raw := by
  rw [Spelled, Markup.chars, allPieces_map_char]
  exact h.map .char

/-- Text without markup, as it stands in a document. -/
theorem Spelled.plain (s : String) (h : '&' ∉ s.toList ∧ '<' ∉ s.toList) :
    Spelled (Markup.chars s) s.toList :=
  .chars (run_plain s h)

/-- A node with text around it that is no markup. -/
theorem Spelled.between {n : Node} {raw : List Char} (h : Spelled [n] raw) (s s' : String)
    (hs : '&' ∉ s.toList ∧ '<' ∉ s.toList) (hs' : '&' ∉ s'.toList ∧ '<' ∉ s'.toList) :
    Spelled (Markup.chars s ++ [n] ++ Markup.chars s') (s.toList ++ raw ++ s'.toList) :=
  ((Spelled.plain s hs).append h).append (.plain s' hs')

theorem Spelled.empty (name : String) {attributes : List (String × String)} {raw : List Char}
    (hname : IsName name) (hattributes : Run SpellsAttribute attributes raw) :
    Spelled [.empty name attributes] ('<' :: name.toList ++ raw ++ ['/', '>']) := by
  rw [Spelled, allPieces_singleton]
  exact .single (.single hname hattributes)

theorem Spelled.element (name : String) {attributes : List (String × String)}
    {raw body : List Char} {content : List Node} (hname : IsName name)
    (hattributes : Run SpellsAttribute attributes raw) (hcontent : Spelled content body) :
    Spelled [.element name attributes content]
      ('<' :: name.toList ++ raw ++ ['>'] ++ (body ++ ('<' :: '/' :: name.toList ++ ['>']))) := by
  rw [Spelled, allPieces_singleton, Node.pieces]
  exact .cons (.opening hname hattributes) (Run.append hcontent (.single (.closing hname)))

end IntentContract.Markup
