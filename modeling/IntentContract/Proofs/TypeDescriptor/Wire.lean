import IntentContract.TypeDescriptor.Wire

/-!
# Descriptors read back

A descriptor is written in a shape that its reader takes apart again, with one gap: an object
whose `generic` is the empty text is read as if it had none. So a descriptor reads back as itself
if each of its generics has a name (`ofJson_toJson`). Reading never comes up with one that has
not (`kinded_ofJson`), since it takes the empty text for no name. The two together say which
descriptors read back, and that what was read once is read the same ever after (`reads_back_iff`).
-/

namespace IntentContract.TypeDescriptor

/-- **Every generic has a kind**: a name that is not empty, at every depth. -/
inductive Kinded : TypeDescriptor → Prop where
  | primitive (name : String) : Kinded (.primitive name)
  | union {members : List TypeDescriptor} (h : ∀ m ∈ members, Kinded m) : Kinded (.union members)
  | generic {kind : String} {args : List TypeDescriptor} (hk : kind ≠ "")
      (h : ∀ a ∈ args, Kinded a) : Kinded (.generic kind args)
  | nullable {d : TypeDescriptor} (h : Kinded d) : Kinded (.nullable d)
  | unknown : Kinded .unknown

/-! ## Reading what was written -/

theorem ofJsons_toJsons {ds : List TypeDescriptor} (h : ∀ d ∈ ds, ofJson d.toJson = d) :
    ofJsons (toJsons ds) = ds := by
  induction ds with
  | nil => rfl
  | cons d ds ih =>
    rw [List.forall_mem_cons] at h
    rw [toJsons, ofJsons, h.1, ih h.2]

/-- **A descriptor reads back as it was written.** -/
theorem ofJson_toJson {d : TypeDescriptor} (h : d.Kinded) : ofJson d.toJson = d := by
  induction h with
  | primitive name => rfl
  | union _ ih => rw [toJson, ofJson, ofJsons_toJsons ih]
  | @generic kind args hk _ ih =>
    have hkind : kindOf [("generic", .str kind), ("idlType", .arr (toJsons args))]
        = some (some kind) := by
      show some (if kind = "" then none else some kind) = _
      rw [if_neg hk]
    rw [toJson, ofJson, hkind]
    -- The arguments are read as a union first, and taken out of it because they were a list.
    show ofNode (some kind) false true (ofJson (.arr (toJsons args))) = _
    rw [ofJson, ofJsons_toJsons ih]
    rfl
  | @nullable d _ ih =>
    rw [toJson, ofJson]
    show ofNode none true (innerIsList _) (ofJson d.toJson) = _
    rw [ih]
    rfl
  | unknown => rfl

/-- Only the unknown type is written as `null`. -/
theorem toJson_eq_null_iff {d : TypeDescriptor} : d.toJson = .null ↔ d = .unknown := by
  cases d <;> simp [toJson]

/-! ## Writing what was read -/

/-- A kind that is read is not empty. -/
theorem ne_empty_of_kindOf {fields : List (String × Json)} {kind : String}
    (h : kindOf fields = some (some kind)) : kind ≠ "" := by
  unfold kindOf at h
  split at h
  · cases h
  · cases h
  · next name _ =>
    by_cases hname : name = ""
    · simp [hname] at h
    · simp only [hname, if_false, Option.some.injEq] at h
      exact h ▸ hname
  · cases h

theorem kinded_argumentsOf {isList : Bool} {inner : TypeDescriptor} (h : inner.Kinded) :
    ∀ a ∈ argumentsOf isList inner, a.Kinded := by
  unfold argumentsOf
  split
  · cases h with
    | union h => exact h
  · exact List.forall_mem_singleton.mpr h

theorem kinded_ofNode {kind : Option String} {isNullable isList : Bool} {inner : TypeDescriptor}
    (hk : ∀ k ∈ kind, k ≠ "") (h : inner.Kinded) :
    (ofNode kind isNullable isList inner).Kinded := by
  cases kind with
  | none =>
    cases isNullable with
    | false => exact h
    | true => exact .nullable h
  | some k =>
    have hgeneric : (generic k (argumentsOf isList inner)).Kinded :=
      .generic (hk k rfl) (kinded_argumentsOf h)
    cases isNullable with
    | false => exact hgeneric
    | true => exact .nullable hgeneric

mutual

/-- **Every generic that is read has a kind.** -/
theorem kinded_ofJson : ∀ v : Json, (ofJson v).Kinded
  | .str name => .primitive name
  | .arr items => .union (kinded_ofJsons items)
  | .obj fields => by
    rw [ofJson]
    split
    · next kind isNullable inner hkind _ hinner =>
      refine kinded_ofNode (fun k hk => ?_) (kinded_innerOf fields inner hinner)
      exact ne_empty_of_kindOf (hkind.trans (congrArg some hk))
    · exact .unknown
  | .null => .unknown
  | .bool _ => .unknown
  | .int _ => .unknown
  | .double _ => .unknown

theorem kinded_ofJsons : ∀ items : List Json, ∀ d ∈ ofJsons items, d.Kinded
  | [] => List.forall_mem_nil _
  | v :: rest => List.forall_mem_cons.mpr ⟨kinded_ofJson v, kinded_ofJsons rest⟩

theorem kinded_innerOf : ∀ (fields : List (String × Json)) (d : TypeDescriptor),
    innerOf fields = some d → d.Kinded
  | [], _, h => nomatch h
  | (key, v) :: rest, d, h => by
    rw [innerOf] at h
    split at h
    · exact Option.some.inj h ▸ kinded_ofJson v
    · exact kinded_innerOf rest d h

end

/-! ## What reads back -/

/-- **A generic of the given kind stands in a descriptor**, at any depth. -/
inductive HasGeneric (kind : String) : TypeDescriptor → Prop
  | here (args : List TypeDescriptor) : HasGeneric kind (.generic kind args)
  | member {members : List TypeDescriptor} {d : TypeDescriptor} (hmem : d ∈ members)
      (hin : HasGeneric kind d) : HasGeneric kind (.union members)
  | argument {other : String} {args : List TypeDescriptor} {d : TypeDescriptor} (hmem : d ∈ args)
      (hin : HasGeneric kind d) : HasGeneric kind (.generic other args)
  | inner {d : TypeDescriptor} (hin : HasGeneric kind d) : HasGeneric kind (.nullable d)

theorem Kinded.not_hasGeneric {d : TypeDescriptor} (h : d.Kinded) : ¬ d.HasGeneric "" := by
  intro hin
  induction hin with
  | here args =>
    cases h with
    | generic hk _ => exact hk rfl
  | member hmem _ ih =>
    cases h with
    | union h => exact ih (h _ hmem)
  | argument hmem _ ih =>
    cases h with
    | generic _ h => exact ih (h _ hmem)
  | inner _ ih =>
    cases h with
    | nullable h => exact ih h

theorem kinded_of_not_hasGeneric : ∀ d : TypeDescriptor, ¬ d.HasGeneric "" → d.Kinded
  | .primitive name, _ => .primitive name
  | .union _, h =>
    .union fun m hm => kinded_of_not_hasGeneric m fun hin => h (.member hm hin)
  | .generic kind args, h => by
    refine .generic ?_ fun a ha => kinded_of_not_hasGeneric a fun hin => h (.argument ha hin)
    rintro rfl
    exact h (.here args)
  | .nullable inner, h => .nullable (kinded_of_not_hasGeneric inner fun hin => h (.inner hin))
  | .unknown, _ => .unknown

/-- Every generic has a kind exactly if none has the empty one. -/
theorem kinded_iff_not_hasGeneric {d : TypeDescriptor} : d.Kinded ↔ ¬ d.HasGeneric "" :=
  ⟨Kinded.not_hasGeneric, kinded_of_not_hasGeneric d⟩

/-- **What reads back**: a descriptor comes back from its JSON value exactly if no generic in it
has an empty kind, and the descriptor that any JSON value is read as always does. -/
theorem reads_back_iff :
    (∀ d : TypeDescriptor, ofJson d.toJson = d ↔ ¬ d.HasGeneric "")
      ∧ ∀ v : Json, ofJson (ofJson v).toJson = ofJson v := by
  refine ⟨fun d => ?_, fun v => ofJson_toJson (kinded_ofJson v)⟩
  rw [← kinded_iff_not_hasGeneric]
  constructor
  · -- whatever is read has kinds only, and `d` was read
    intro h
    exact h ▸ kinded_ofJson d.toJson
  · exact ofJson_toJson

/-- Without its kind a generic comes back as the union of its arguments. -/
example : ofJson (generic "" [.primitive "A"]).toJson = .union [.primitive "A"] := rfl

end IntentContract.TypeDescriptor
