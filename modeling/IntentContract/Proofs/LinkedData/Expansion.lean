import IntentContract.Proofs.LinkedData.Alignment

/-!
# Expanding an identifier once is enough

What a compact identifier stands for has a colon of its own: `agent:Pay` stands for
`https://agentidl.dev/ns/agent#Pay`. Expanded once more, the part in front of that colon would be
taken for a prefix, and nothing keeps a table from binding `https`.

It is not taken for one, because `//` stands behind the colon. This is owed to the namespaces: if
each of them is an **address**, a scheme with `://` behind it, then the first colon of an expanded
identifier is the one of the address, whatever the local part holds. So nothing that expansion
gives is compact (`split?_expand`), and a second expansion leaves it as it is.
-/

namespace IntentContract.PrefixTable

variable {t : PrefixTable} {iri v : String}

/-! ## Addresses -/

/-- **An address** has a scheme, in which there is no colon, and then `://`. -/
def IsAddress (iri : String) : Prop :=
  ∃ scheme rest : String, iri = scheme ++ "://" ++ rest ∧ scheme ≠ "" ∧ ':' ∉ scheme.toList

/-- Whether a text is an address, from its first colon. -/
def isAddress (iri : String) : Bool :=
  match splitColon? iri.toList with
  | some (_ :: _, '/' :: '/' :: _) => true
  | _ => false

/-- The scheme of an address ends at the first colon. -/
theorem splitColon?_address {scheme rest : String} (h : ':' ∉ scheme.toList) :
    splitColon? (scheme ++ "://" ++ rest).toList
      = some (scheme.toList, '/' :: '/' :: rest.toList) :=
  splitColon?_eq_some_iff.mpr ⟨by simp, h⟩

theorem isAddress_iff : isAddress iri = true ↔ IsAddress iri := by
  constructor
  · intro h
    unfold isAddress at h
    split at h
    · next c front rest hsplit =>
      obtain ⟨hiri, hfront⟩ := splitColon?_eq_some_iff.mp hsplit
      refine ⟨String.ofList (c :: front), String.ofList rest, ?_, by simp, by simpa using hfront⟩
      apply String.toList_injective
      simp [hiri]
    · cases h
  · rintro ⟨scheme, rest, rfl, hne, hcolon⟩
    obtain ⟨c, front, hscheme⟩ : ∃ c front, scheme.toList = c :: front :=
      List.exists_cons_of_ne_nil (by simpa using hne)
    rw [isAddress, splitColon?_address hcolon, hscheme]
    rfl

instance : DecidablePred IsAddress := fun iri =>
  decidable_of_iff (isAddress iri = true) isAddress_iff

/-- **A table of addresses** binds its prefixes to nothing else. -/
def BindsAddresses (t : PrefixTable) : Prop :=
  ∀ binding ∈ t.entries, IsAddress binding.2

instance (t : PrefixTable) : Decidable t.BindsAddresses :=
  List.decidableBAll (fun binding : String × String => IsAddress binding.2) t.entries

/-- The usual table is one of addresses. -/
theorem bindsAddresses_usual : usual.BindsAddresses := by
  decide

/-! ## Expanded identifiers -/

/-- **An address is not compact**, whatever is bound and whatever stands behind it. -/
theorem split?_of_isAddress (h : IsAddress iri) (t : PrefixTable) (back : String) :
    t.split? (iri ++ back) = none := by
  obtain ⟨scheme, rest, rfl, -, hcolon⟩ := h
  have hsplit : splitColon? (scheme ++ "://" ++ rest ++ back).toList
      = some (scheme.toList, '/' :: '/' :: (rest ++ back).toList) := by
    rw [String.append_assoc]
    exact splitColon?_address hcolon
  rw [split?, hsplit]
  rfl

/-- An identifier that is not compact stands for itself. -/
theorem expand_of_split? (h : t.split? v = none) : t.expand v = v := by
  rw [expand, h]

/-- **Nothing that expansion gives is compact**, in a table of addresses. -/
theorem split?_expand (h : t.BindsAddresses) (v : String) : t.split? (t.expand v) = none := by
  cases hsplit : t.split? v with
  | none => rwa [expand_of_split? hsplit]
  | some part =>
    obtain ⟨iri, back⟩ := part
    obtain ⟨name, -, -, hbound⟩ := exists_prefix_of_split? hsplit
    have haddress : IsAddress iri := h _ (Keyed.mem_of_get? hbound)
    rw [expand, hsplit]
    exact split?_of_isAddress haddress t back

/-- **Expanding once is enough.** In a table of addresses no expanded identifier is compact any
more, and expanding it again changes nothing. The usual table is such a table. -/
theorem expand_expand :
    (∀ t : PrefixTable, t.BindsAddresses → ∀ v,
      t.split? (t.expand v) = none ∧ t.expand (t.expand v) = t.expand v)
    ∧ ∀ v, usual.expand (usual.expand v) = usual.expand v := by
  have henough : ∀ t : PrefixTable, t.BindsAddresses → ∀ v,
      t.split? (t.expand v) = none ∧ t.expand (t.expand v) = t.expand v := fun t h v =>
    ⟨split?_expand h v, expand_of_split? (split?_expand h v)⟩
  exact ⟨henough, fun v => (henough usual bindsAddresses_usual v).2⟩

/-- A prefix may be named like the scheme of a namespace, its own or another's. -/
theorem expand_expand_scheme :
    let t : PrefixTable := ⟨[("http", "https://a.example/"), ("https", "http://b.example/")]⟩
    t.BindsAddresses ∧ t.expand "http:x:y" = "https://a.example/x:y"
      ∧ t.expand (t.expand "http:x:y") = t.expand "http:x:y" := by
  intro t
  have h : t.BindsAddresses := by decide
  exact ⟨h, by decide, (expand_expand.1 t h "http:x:y").2⟩

-- A namespace that is no address can be expanded further.
example :
    let t : PrefixTable := ⟨[("a", "b:"), ("b", "c:")]⟩
    t.expand "a:x" = "b:x" ∧ t.expand (t.expand "a:x") = "c:x" := by
  decide

end IntentContract.PrefixTable
