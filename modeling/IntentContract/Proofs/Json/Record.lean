import IntentContract.Json.Record

/-!
# What reading a record gives

Reading a record goes field by field. `Yields` says of a reading that its values have a property,
with one rule for each way in which readings are combined, so that what can come out of reading a
record follows from its fields. What was written item by item is read item by item
(`asList_map`).
-/

namespace IntentContract.Json

variable {α β : Type} {P : α → Prop} {Q : β → Prop}

/-- **The values of a reading have a property**, if it succeeds. -/
def Yields (P : α → Prop) (x : Except RecordError α) : Prop :=
  ∀ a, x = .ok a → P a

theorem yields_any (x : Except RecordError α) : Yields (fun _ => True) x :=
  fun _ _ => trivial

theorem yields_pure {a : α} (h : P a) : Yields P (pure a) := by
  rintro _ ⟨⟩
  exact h

theorem yields_error (e : RecordError) : Yields P (.error e) := nofun

/-- One reading after another: the second may rely on the value of the first. -/
theorem Yields.bind {x : Except RecordError α} {f : α → Except RecordError β} (hx : Yields P x)
    (hf : ∀ a, P a → Yields Q (f a)) : Yields Q (x >>= f) := by
  intro b h
  cases x with
  | error e => cases h
  | ok a => exact hf a (hx a rfl) b h

theorem Yields.ite {c : Prop} [Decidable c] {x y : Except RecordError α} (hx : Yields P x)
    (hy : Yields P y) : Yields P (if c then x else y) := by
  split
  · exact hx
  · exact hy

/-- A field with a default gives the default or what stands in it. -/
theorem yields_defaulted {names : List String} {fallback : α} {read : Reading α}
    (hdefault : P fallback) (h : ∀ v, Yields P (read v)) (fields : List (String × Json)) :
    Yields P (defaulted names fallback read fields) := by
  refine (yields_any _).bind fun found _ => ?_
  cases found with
  | none => exact yields_pure hdefault
  | some v => exact h v

theorem yields_mapM {item : Reading α} (h : ∀ v, Yields P (item v)) (vs : List Json) :
    Yields (fun as => ∀ a ∈ as, P a) (vs.mapM item) := by
  induction vs with
  | nil => exact yields_pure (List.forall_mem_nil _)
  | cons v vs ih =>
    rw [List.mapM_cons]
    refine (h v).bind fun a ha => ih.bind fun as has => yields_pure ?_
    exact List.forall_mem_cons.mpr ⟨ha, has⟩

theorem yields_asList {item : Reading α} (h : ∀ v, Yields P (item v)) (v : Json) :
    Yields (fun as => ∀ a ∈ as, P a) (asList item v) := by
  cases v with
  | arr vs => exact yields_mapM h vs
  | null | bool | int | double | str | obj => exact yields_error _

theorem yields_asOption {item : Reading α} (h : ∀ v, Yields P (item v)) (v : Json) :
    Yields (fun found => ∀ a ∈ found, P a) (asOption item v) := by
  intro found hread
  unfold asOption at hread
  split at hread
  · obtain rfl := Except.ok.inj hread
    exact nofun
  · cases hitem : item v with
    | error e =>
      rw [hitem] at hread
      cases hread
    | ok a =>
      rw [hitem] at hread
      obtain rfl := Except.ok.inj hread
      rintro _ ⟨⟩
      exact h v a hitem

/-- A value that is not `null` is there. -/
theorem asOption_of_ne_null {item : Reading α} {v : Json} (hv : v ≠ .null) {a : α}
    (h : item v = .ok a) : asOption item v = .ok (some a) := by
  unfold asOption
  split
  · exact absurd rfl hv
  · rw [h]
    rfl

/-- Items that are read one by one from what they are written as. -/
theorem asList_map {write : β → Json} {item : Reading α} {f : β → α} {bs : List β}
    (h : ∀ b ∈ bs, item (write b) = .ok (f b)) :
    asList item (.arr (bs.map write)) = .ok (bs.map f) := by
  show (bs.map write).mapM item = .ok (bs.map f)
  induction bs with
  | nil => rfl
  | cons b bs ih =>
    rw [List.forall_mem_cons] at h
    rw [List.map_cons, List.mapM_cons, h.1, ih h.2]
    rfl

/-- Items that read back as themselves. -/
theorem asList_map_self {write : α → Json} {item : Reading α} {as : List α}
    (h : ∀ a ∈ as, item (write a) = .ok a) : asList item (.arr (as.map write)) = .ok as := by
  rw [asList_map h, List.map_id']

theorem asOption_optional (s : Option String) : asOption asString (Json.optional s) = .ok s := by
  cases s <;> rfl

end IntentContract.Json
