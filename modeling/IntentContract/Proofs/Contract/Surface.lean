import IntentContract.Proofs.Contract.Canonical
import IntentContract.Proofs.Contract.WellFormed
import IntentContract.Proofs.TypeDescriptor.Items
import Mathlib.Data.List.Sort

/-!
# What agreeing contracts have in common

The generated code shows more of a type than its text: what a caller gets in the end, and the
custom types that stand in it. For types from a document the text determines the first, and the
second but for two names. A primitive is shown as `number` or `string`, and a definition may use
these as names for types of its own, so a text with `number` in it may or may not refer to a
custom type of that name.

So contracts that agree have the same custom types up to these **ambiguous names**
(`customTypes_eq_iff`).
-/

namespace IntentContract

/-! ## Sorted sets -/

namespace NameSet

/-- Adding a name keeps a set in order. -/
theorem pairwise_insert {name : String} {set : List String} (h : set.Pairwise (· < ·)) :
    (insert name set).Pairwise (· < ·) := by
  induction set with
  | nil => exact List.pairwise_singleton _ name
  | cons n rest ih =>
    rw [List.pairwise_cons] at h
    rw [insert]
    split
    · exact List.pairwise_cons.mpr h
    · next hne =>
      split
      · next hlt =>
        refine List.pairwise_cons.mpr ⟨?_, List.pairwise_cons.mpr h⟩
        exact List.forall_mem_cons.mpr ⟨hlt, fun m hm => String.lt_trans hlt (h.1 m hm)⟩
      · next hle =>
        refine List.pairwise_cons.mpr ⟨fun m hm => ?_, ih h.2⟩
        rcases mem_insert.mp hm with rfl | hm
        · exact Std.lt_of_le_of_ne hle hne
        · exact h.1 m hm

theorem pairwise_ofList (names : List String) : (ofList names).Pairwise (· < ·) := by
  have go : ∀ (names set : List String), set.Pairwise (· < ·) →
      (names.foldl (fun set n => insert n set) set).Pairwise (· < ·) := by
    intro names
    induction names with
    | nil => exact fun _ h => h
    | cons n rest ih => exact fun set h => ih _ (pairwise_insert h)
  exact go names [] List.Pairwise.nil

/-- **A set is determined by its members.** -/
theorem ofList_eq_iff {names more : List String} :
    ofList names = ofList more ↔ ∀ n, n ∈ ofList names ↔ n ∈ ofList more :=
  ⟨fun h n => by rw [h], (pairwise_ofList names).eq_of_mem_iff (pairwise_ofList more)⟩

end NameSet

/-! ## Types with one text -/

namespace TypeDescriptor

variable {d e : TypeDescriptor}

/-- **One text, one awaited text.** -/
theorem awaitedText_eq_of_text_eq (hd : d.WellFormed .parsed) (he : e.WellFormed .parsed)
    (h : d.text = e.text) : d.awaitedText = e.awaitedText := by
  rw [← String.toList_inj, toList_awaitedText hd, toList_awaitedText he,
    items_eq_of_text_eq hd he h]

/-- **One text, the same custom types**, but for ambiguous names. -/
theorem mem_customLeaves_of_text_eq (hd : d.WellFormed .parsed) (he : e.WellFormed .parsed)
    (h : d.text = e.text) {n : String} (hn : n ∉ ambiguousNames) :
    n ∈ d.customLeaves ↔ n ∈ e.customLeaves := by
  rw [mem_customLeaves_iff hd hn, mem_customLeaves_iff he hn, items_eq_of_text_eq hd he h]

end TypeDescriptor

/-! ## Operations and contracts that agree -/

/-- Operations that agree, in everything that generated code shows of them. -/
structure ContractOperation.SameSurface (o p : ContractOperation) : Prop extends o.Agrees p where
  awaitedText : o.awaitedText = p.awaitedText
  customLeaves : ∀ n ∉ TypeDescriptor.ambiguousNames, n ∈ o.customLeaves ↔ n ∈ p.customLeaves

open TypeDescriptor (ambiguousNames)

/-- Lists whose items have the same images, one by one. -/
theorem map_eq_of_forall₂ {α β : Type} {f g : α → β} {R : α → α → Prop} {as bs : List α}
    (h : List.Forall₂ R as bs) (hf : ∀ a b, R a b → f a = g b) : as.map f = bs.map g :=
  map_eq_map_iff_forall₂.mpr (h.imp hf)

/-- Members that lists have in common because their items do, one by one. -/
theorem mem_flatMap_of_forall₂ {α : Type} {f : α → List String} {R : α → α → Prop} {n : String}
    {as bs : List α} (h : List.Forall₂ R as bs) (hR : ∀ a b, R a b → (n ∈ f a ↔ n ∈ f b)) :
    n ∈ as.flatMap f ↔ n ∈ bs.flatMap f := by
  induction h with
  | nil => rfl
  | cons hab _ ih =>
    rw [List.flatMap_cons, List.flatMap_cons, List.mem_append, List.mem_append, hR _ _ hab, ih]

/-- What holds of all items of two lists may be used where the items are compared. -/
theorem forall₂_imp_of_mem {α : Type} {R S : α → α → Prop} {P : α → Prop} {as bs : List α}
    (h : List.Forall₂ R as bs) (has : ∀ a ∈ as, P a) (hbs : ∀ b ∈ bs, P b)
    (hS : ∀ a b, P a → P b → R a b → S a b) : List.Forall₂ S as bs := by
  induction h with
  | nil => exact .nil
  | cons hab _ ih =>
    rw [List.forall_mem_cons] at has hbs
    exact .cons (hS _ _ has.1 hbs.1 hab) (ih has.2 hbs.2)

theorem ContractOperation.sameSurface_of_agrees {o p : ContractOperation} (ho : o.WellFormed)
    (hp : p.WellFormed) (h : o.Agrees p) : o.SameSurface p := by
  obtain ⟨d, hd, hdwf⟩ := ho.returns
  obtain ⟨e, he, hewf⟩ := hp.returns
  have htext : d.text = e.text := by
    have hreturn := h.returnText
    rwa [returnText, returnText, hd, he] at hreturn
  refine { h with awaitedText := ?_, customLeaves := fun n hn => ?_ }
  · rw [ContractOperation.awaitedText, ContractOperation.awaitedText, hd, he]
    exact TypeDescriptor.awaitedText_eq_of_text_eq hdwf hewf htext
  · have hparameters : List.Forall₂ (fun p q : Parameter =>
        n ∈ p.type.customLeaves ↔ n ∈ q.type.customLeaves) o.parameters p.parameters :=
      forall₂_imp_of_mem h.parameters ho.parameters hp.parameters fun p q hp hq hpq =>
        TypeDescriptor.mem_customLeaves_of_text_eq hp.type hq.type hpq.type hn
    rw [customLeaves, customLeaves, List.mem_append, List.mem_append, hd, he,
      mem_flatMap_of_forall₂ hparameters fun _ _ h => h]
    exact or_congr_right (TypeDescriptor.mem_customLeaves_of_text_eq hdwf hewf htext hn)

namespace Contract

variable {c d : Contract}

/-- **Contracts that agree show the same**, operation by operation. -/
theorem sameSurface_of_agrees (hc : c.WellFormed) (hd : d.WellFormed) (h : c.Agrees d) :
    List.Forall₂ ContractOperation.SameSurface c.operations d.operations :=
  forall₂_imp_of_mem h.operations hc.operations hd.operations fun _ _ =>
    ContractOperation.sameSurface_of_agrees

/-- **Contracts that agree have the same custom types just if they use the same ambiguous
names.** -/
theorem customTypes_eq_iff (hc : c.WellFormed) (hd : d.WellFormed) (h : c.Agrees d) :
    c.customTypes = d.customTypes
      ↔ ∀ n ∈ ambiguousNames, n ∈ c.customTypes ↔ n ∈ d.customTypes := by
  refine ⟨fun heq n _ => by rw [heq], fun hsome => ?_⟩
  refine NameSet.ofList_eq_iff.mpr fun n => ?_
  by_cases hn : n ∈ ambiguousNames
  · exact hsome n hn
  · rw [NameSet.mem_ofList, NameSet.mem_ofList]
    exact mem_flatMap_of_forall₂ (sameSurface_of_agrees hc hd h) fun _ _ hop =>
      hop.customLeaves n hn

end Contract

end IntentContract
