import IntentContract.Contract.Basic
import IntentContract.Proofs.Keyed
import Mathlib.Data.List.Nodup

/-!
# Names that are declared again

A contract takes in declarations one after the other. What a single one does to it is said once
(`Contract.insert_cases`): either the name is new and the operation is put at the end, or it has
been there and the operation stands where the first one of its name stood. Two things follow for
any number of declarations. The names come in the order in which they were declared **first**, and
each stands for the declaration that came **last**.

The order of first declarations is stated as a relation between two lists (`InOrderOfFirst`) and
not by a function that removes repetitions: the names are the same, and one stands before another
just if it is found earlier among the declarations.
-/

namespace IntentContract

/-! ## The order of first occurrences -/

/-- **Names in the order in which they first occur** in a list. -/
structure InOrderOfFirst (declared names : List String) : Prop where
  mem : ∀ n, n ∈ names ↔ n ∈ declared
  order : names.Pairwise fun m n => declared.idxOf m < declared.idxOf n

namespace InOrderOfFirst

variable {declared names : List String}

theorem nodup (h : InOrderOfFirst declared names) : names.Nodup :=
  h.order.imp fun hlt heq => Nat.ne_of_lt hlt (congrArg declared.idxOf heq)

/-- One more declaration: a name that has occurred keeps its place, any other is the last. -/
theorem concat (h : InOrderOfFirst declared names) (n : String) :
    InOrderOfFirst (declared ++ [n]) (if n ∈ names then names else names ++ [n]) := by
  -- What is put behind the declarations does not move the first occurrence of any name in them.
  have hplace : ∀ m ∈ names, (declared ++ [n]).idxOf m = declared.idxOf m :=
    fun m hm => List.idxOf_append_of_mem ((h.mem m).mp hm)
  have horder : names.Pairwise fun m m' =>
      (declared ++ [n]).idxOf m < (declared ++ [n]).idxOf m' := by
    refine h.order.imp_of_mem fun hm hm' hlt => ?_
    rwa [hplace _ hm, hplace _ hm']
  split
  · next hn =>
    refine ⟨fun m => ?_, horder⟩
    rw [List.mem_append, List.mem_singleton, ← h.mem]
    exact ⟨.inl, fun hm => hm.elim id fun heq => heq ▸ hn⟩
  · next hn =>
    refine ⟨fun m => ?_, List.pairwise_append.mpr ⟨horder, List.pairwise_singleton _ _, ?_⟩⟩
    · rw [List.mem_append, List.mem_append, h.mem]
    · intro m hm m' hm'
      obtain rfl := List.mem_singleton.mp hm'
      rw [hplace m hm, List.idxOf_append_of_notMem (mt (h.mem m').mpr hn)]
      exact Nat.lt_add_right _ (List.idxOf_lt_length_iff.mpr ((h.mem m).mp hm))

/-- Names without repetition are in the order in which they occur. -/
theorem refl (h : names.Nodup) : InOrderOfFirst names names := by
  induction names using List.reverseRecOn with
  | nil => exact ⟨fun n => Iff.rfl, .nil⟩
  | append_singleton names n ih =>
    obtain ⟨hnames, -, hdisjoint⟩ := List.nodup_append.mp h
    have hn : n ∉ names := fun hmem => hdisjoint n hmem n List.mem_cons_self rfl
    simpa [hn] using (ih hnames).concat n

end InOrderOfFirst

theorem IsLast.filter {α : Type} {p : α → Prop} {q : α → Bool} {a : α} {l : List α}
    (h : IsLast p a l) (hq : q a = true) : IsLast p a (l.filter q) := by
  obtain ⟨before, after, rfl, ha, hafter⟩ := h
  refine ⟨before.filter q, after.filter q, by simp [hq], ha, fun b hb => ?_⟩
  exact hafter b (List.mem_filter.mp hb).1

/-- The operations of an interface that have a name. -/
def Interface.named (i : Interface) : List Operation :=
  i.operations.filter fun op => op.name != ""

namespace Contract

variable {c : Contract} {op : ContractOperation} {ops : List ContractOperation} {n : String}

/-- The names of the operations, in order. -/
def operationNames (c : Contract) : List String :=
  c.operations.map (·.name)

/-! ## One declaration -/

theorem replaces_iff : c.replaces n = true ↔ n ∈ c.operationNames := by
  simp [replaces, operation?, operationNames]

/-- **What one declaration does to a contract**: it is put at the end if its name is new, and else
in the place of the first operation of its name. -/
theorem insert_cases (c : Contract) (op : ContractOperation) :
    (op.name ∉ c.operationNames ∧ (c.insert op).operations = c.operations ++ [op])
    ∨ ∃ front old back, c.operations = front ++ old :: back ∧ old.name = op.name
        ∧ (∀ o ∈ front, o.name ≠ op.name) ∧ (c.insert op).operations = front ++ op :: back := by
  unfold operationNames insert
  induction c.operations with
  | nil => exact .inl ⟨List.not_mem_nil, rfl⟩
  | cons o rest ih =>
    dsimp only at ih ⊢
    rw [insertInto]
    by_cases ho : o.name = op.name
    · rw [if_pos ho]
      exact .inr ⟨[], o, rest, rfl, ho, List.forall_mem_nil _, rfl⟩
    · rw [if_neg ho]
      rcases ih with ⟨hnew, happend⟩ | ⟨front, old, back, hsplit, hold, hfront, hreplace⟩
      · refine .inl ⟨?_, by rw [happend, List.cons_append]⟩
        exact List.not_mem_cons_of_ne_of_not_mem (Ne.symm ho) hnew
      · refine .inr ⟨o :: front, old, back, by rw [hsplit, List.cons_append], hold, ?_, ?_⟩
        · exact List.forall_mem_cons.mpr ⟨ho, hfront⟩
        · rw [hreplace, List.cons_append]

theorem mem_operations_insert {o : ContractOperation} (h : o ∈ (c.insert op).operations) :
    o = op ∨ o ∈ c.operations := by
  rcases insert_cases c op with ⟨-, happend⟩ | ⟨front, old, back, hsplit, -, -, hreplace⟩
  · rw [happend, List.mem_append, List.mem_singleton] at h
    exact h.symm
  · rw [hreplace, List.mem_append, List.mem_cons] at h
    rw [hsplit, List.mem_append, List.mem_cons]
    rcases h with h | rfl | h
    · exact .inr (.inl h)
    · exact .inl rfl
    · exact .inr (.inr (.inr h))

/-- A name that is there stays where it is, and a new one comes last. -/
theorem operationNames_insert (c : Contract) (op : ContractOperation) :
    (c.insert op).operationNames
      = if op.name ∈ c.operationNames then c.operationNames else c.operationNames ++ [op.name] := by
  rcases insert_cases c op with ⟨hnew, happend⟩ | ⟨front, old, back, hsplit, hold, -, hreplace⟩
  · rw [if_neg hnew, operationNames, happend, List.map_append]
    rfl
  · have hnames : c.operationNames = front.map (·.name) ++ op.name :: back.map (·.name) := by
      rw [operationNames, hsplit, List.map_append, List.map_cons, hold]
    have hmem : op.name ∈ c.operationNames := by simp [hnames]
    rw [if_pos hmem, hnames, operationNames, hreplace, List.map_append, List.map_cons]

theorem mem_operationNames_insert :
    n ∈ (c.insert op).operationNames ↔ n = op.name ∨ n ∈ c.operationNames := by
  rw [operationNames_insert]
  split
  · next hmem => exact ⟨.inr, fun hn => hn.elim (fun heq => heq ▸ hmem) id⟩
  · rw [List.mem_append, List.mem_singleton, or_comm]

/-- **Looking up after a declaration**: its name stands for it, and any other for what it stood
for. -/
theorem operation?_insert (c : Contract) (op : ContractOperation) (n : String) :
    (c.insert op).operation? n = if op.name = n then some op else c.operation? n := by
  -- In both cases of an insertion nothing in front of the operation has its name.
  have hfind : ∀ front back : List ContractOperation, (∀ o ∈ front, o.name ≠ op.name) →
      (front ++ op :: back).find? (fun o => o.name == n)
        = if op.name = n then some op else (front ++ back).find? (fun o => o.name == n) := by
    intro front back hfront
    by_cases hn : op.name = n
    · have hnone : front.find? (fun o => o.name == n) = none :=
        List.find?_eq_none.mpr fun o ho => by simpa [← hn] using hfront o ho
      simp [List.find?_append, hnone, hn]
    · simp [List.find?_append, hn]
  rcases insert_cases c op with ⟨hnew, happend⟩ | ⟨front, old, back, hsplit, hold, hfront, hreplace⟩
  · have hne : ∀ o ∈ c.operations, o.name ≠ op.name :=
      fun o ho heq => hnew (heq ▸ List.mem_map_of_mem ho)
    rw [operation?, operation?, happend, hfind _ [] hne, List.append_nil]
  · rw [operation?, operation?, hreplace, hfind front back hfront, hsplit]
    by_cases hn : op.name = n
    · rw [if_pos hn, if_pos hn]
    · simp [List.find?_append, hold, hn]

/-- Only a new name makes a contract longer. -/
theorem length_insert (c : Contract) (op : ContractOperation) :
    (c.insert op).operations.length
      = c.operations.length + if c.replaces op.name = true then 0 else 1 := by
  rcases insert_cases c op with ⟨hnew, happend⟩ | ⟨front, old, back, hsplit, hold, -, hreplace⟩
  · rw [happend, if_neg (mt replaces_iff.mp hnew), List.length_append]
    rfl
  · have hmem : op.name ∈ c.operationNames := by simp [operationNames, hsplit, hold]
    rw [hreplace, hsplit, if_pos (replaces_iff.mpr hmem), List.length_append, List.length_append]
    rfl

/-! ## Declarations one after the other -/

/-- The contract after declarations. -/
def insertAll (c : Contract) (ops : List ContractOperation) : Contract :=
  ops.foldl insert c

/-- What each of several declarations reports: whether it took the place of another. -/
def reports (c : Contract) : List ContractOperation → List Bool
  | [] => []
  | op :: ops => c.replaces op.name :: (c.insert op).reports ops

theorem insertAll_cons (c : Contract) (op : ContractOperation) (ops : List ContractOperation) :
    c.insertAll (op :: ops) = (c.insert op).insertAll ops := rfl

theorem insertAll_concat (c : Contract) (ops : List ContractOperation) (op : ContractOperation) :
    c.insertAll (ops ++ [op]) = (c.insertAll ops).insert op := by
  rw [insertAll, List.foldl_append]
  rfl

theorem length_reports (c : Contract) (ops : List ContractOperation) :
    (c.reports ops).length = ops.length := by
  induction ops generalizing c with
  | nil => rfl
  | cons op ops ih => rw [reports, List.length_cons, ih, List.length_cons]

theorem reports_append (c : Contract) (before ops : List ContractOperation) :
    c.reports (before ++ ops) = c.reports before ++ (c.insertAll before).reports ops := by
  induction before generalizing c with
  | nil => rfl
  | cons op before ih =>
    rw [List.cons_append, reports, ih, reports, List.cons_append]
    rfl

/-- **A declaration reports that it replaces another just if its name is there.** -/
theorem getElem?_reports (c : Contract) (before after : List ContractOperation)
    (op : ContractOperation) :
    (c.reports (before ++ op :: after))[before.length]?
      = some (decide (op.name ∈ (c.insertAll before).operationNames)) := by
  rw [reports_append, List.getElem?_append_right (Nat.le_of_eq (length_reports c before)),
    length_reports, Nat.sub_self, reports, List.getElem?_cons_zero]
  exact congrArg some (Bool.eq_iff_iff.mpr (by rw [replaces_iff, decide_eq_true_iff]))

/-- **Names come in the order of their first declarations.** -/
theorem inOrderOfFirst_insertAll (h : c.operationNames.Nodup) (ops : List ContractOperation) :
    InOrderOfFirst (c.operationNames ++ ops.map (·.name)) (c.insertAll ops).operationNames := by
  induction ops using List.reverseRecOn with
  | nil =>
    rw [List.map_nil, List.append_nil]
    exact .refl h
  | append_singleton ops op ih =>
    rw [insertAll_concat, operationNames_insert, List.map_append, ← List.append_assoc]
    exact ih.concat op.name

/-- **A name stands for its last declaration.** -/
theorem operation?_insertAll (h : IsLast (fun o => o.name = n) op ops) :
    (c.insertAll ops).operation? n = some op := by
  induction ops using List.reverseRecOn with
  | nil => exact absurd h not_isLast_nil
  | append_singleton ops o ih =>
    rw [insertAll_concat, operation?_insert]
    rcases isLast_concat.mp h with ⟨ho, rfl⟩ | ⟨ho, hlast⟩
    · rw [if_pos ho]
    · rw [if_neg ho, ih hlast]

/-- A name that is not declared stands for what it stood for. -/
theorem operation?_insertAll_of_forall_ne (h : ∀ o ∈ ops, o.name ≠ n) :
    (c.insertAll ops).operation? n = c.operation? n := by
  induction ops using List.reverseRecOn with
  | nil => rfl
  | append_singleton ops o ih =>
    obtain ⟨hops, ho⟩ := List.forall_mem_append.mp h
    rw [insertAll_concat, operation?_insert, if_neg (ho o List.mem_cons_self), ih hops]

/-- Every declaration makes a contract longer or reports that it replaces another. -/
theorem length_insertAll (c : Contract) (ops : List ContractOperation) :
    (c.reports ops).count true + (c.insertAll ops).operations.length
      = c.operations.length + ops.length := by
  induction ops generalizing c with
  | nil => simp [reports, insertAll]
  | cons op ops ih =>
    have hrest := ih (c.insert op)
    rw [length_insert] at hrest
    rw [reports, insertAll_cons, List.length_cons]
    cases hreplaces : c.replaces op.name with
    | true =>
      rw [hreplaces, if_pos rfl] at hrest
      rw [List.count_cons_self]
      omega
    | false =>
      rw [hreplaces, if_neg Bool.false_ne_true] at hrest
      rw [List.count_cons_of_ne Bool.false_ne_true]
      omega

/-! ## The contract of a document -/

/-- Declarations change the operations of a contract and nothing else. -/
theorem clear_insertAll (c : Contract) (ops : List ContractOperation) :
    { c.insertAll ops with operations := [] } = { c with operations := [] } := by
  induction ops generalizing c with
  | nil => rfl
  | cons op ops ih => exact ih (c.insert op)

/-- **An interface becomes a contract by its declarations with a name**, one after the other, from
a contract without operations. -/
theorem ofInterface_eq_insertAll (i : Interface) :
    ofInterface i
      = insertAll { ofInterface i with operations := [] } (i.named.map .ofDeclaration) := by
  have hfold : ofInterface i = insertAll ⟨i.name, (Extensions.ofAttributes i.attributes).context,
      (Extensions.ofAttributes i.attributes).semantic, []⟩ (i.named.map .ofDeclaration) := by
    rw [insertAll, List.foldl_map]
    rfl
  rw [hfold, clear_insertAll]

theorem inOrderOfFirst_ofInterface (i : Interface) :
    InOrderOfFirst (i.named.map (·.name)) (ofInterface i).operationNames := by
  have h := inOrderOfFirst_insertAll (c := { ofInterface i with operations := [] }) List.nodup_nil
    (i.named.map .ofDeclaration)
  rw [← ofInterface_eq_insertAll, List.map_map] at h
  exact h

theorem operation?_of_mem (h : c.operationNames.Nodup) (hop : op ∈ c.operations) :
    c.operation? op.name = some op := by
  cases hfind : c.operation? op.name with
  | none =>
    have hne := List.find?_eq_none.mp hfind op hop
    simp at hne
  | some o =>
    have hname : o.name = op.name := by simpa using List.find?_some hfind
    rw [List.inj_on_of_nodup_map h (List.mem_of_find?_eq_some hfind) hop hname]

/-- **Behind every operation of a contract is the last declaration of its name.** -/
theorem exists_isLast_declaration {i : Interface} (hop : op ∈ (ofInterface i).operations) :
    ∃ d, IsLast (fun e => e.name = op.name) d i.operations ∧ op = .ofDeclaration d := by
  have hnames := inOrderOfFirst_ofInterface i
  obtain ⟨e, he, hname⟩ := List.mem_map.mp ((hnames.mem op.name).mp (List.mem_map_of_mem hop))
  obtain ⟨hmem, hnamed⟩ := List.mem_filter.mp he
  have hdeclared : ∃ e ∈ i.operations, e.name = op.name := ⟨e, hmem, hname⟩
  obtain ⟨d, hlast⟩ := exists_isLast_iff.mpr hdeclared
  refine ⟨d, hlast, ?_⟩
  -- The last of all declarations of the name is the last of those with a name, so it is found.
  have hd : (d.name != "") = true := by rwa [hlast.holds, ← hname]
  have hlast' : IsLast (fun o : ContractOperation => o.name = op.name) (.ofDeclaration d)
      (i.named.map .ofDeclaration) := (hlast.filter hd).map fun _ => Iff.rfl
  have hfound := operation?_insertAll (c := { ofInterface i with operations := [] }) hlast'
  rw [← ofInterface_eq_insertAll, operation?_of_mem hnames.nodup hop] at hfound
  exact Option.some.inj hfound

/-- **The last declaration counts, in the place of the first.** The operations of a document's
contract have distinct names that are not empty, in the order in which the first interface declares
them, and each is made of the last declaration of its name. Any contract with distinct names keeps
them distinct and in this order whatever is declared on top, each name stands for what was declared
last and those that were not declared for what they stood for, and a declaration reports that it
replaces another just if its name is there. -/
theorem last_declaration_in_first_place :
    (∀ (before after : List Definition) (i : Interface), (∀ j, Definition.interface j ∉ before) →
      ∃ c, build (before ++ .interface i :: after) = .ok c
        ∧ c.operationNames.Nodup ∧ (∀ n ∈ c.operationNames, n ≠ "")
        ∧ InOrderOfFirst (i.named.map (·.name)) c.operationNames
        ∧ ∀ op ∈ c.operations, ∃ d, IsLast (fun e => e.name = op.name) d i.operations
            ∧ op = .ofDeclaration d)
    ∧ ∀ (c : Contract) (ops : List ContractOperation), c.operationNames.Nodup →
        (c.insertAll ops).operationNames.Nodup
        ∧ InOrderOfFirst (c.operationNames ++ ops.map (·.name)) (c.insertAll ops).operationNames
        ∧ (∀ n op, IsLast (fun o => o.name = n) op ops → (c.insertAll ops).operation? n = some op)
        ∧ (∀ n, (∀ o ∈ ops, o.name ≠ n) → (c.insertAll ops).operation? n = c.operation? n)
        ∧ ∀ before op after, ops = before ++ op :: after →
            (c.reports ops)[before.length]?
              = some (decide (op.name ∈ (c.insertAll before).operationNames)) := by
  refine ⟨fun before after i hfirst => ?_, fun c ops hnodup => ?_⟩
  · have hnames := inOrderOfFirst_ofInterface i
    refine ⟨ofInterface i, ?_, hnames.nodup, fun n hn => ?_, hnames, fun op hop => ?_⟩
    · rw [build, Definition.interfaces_append_cons hfirst]
    · obtain ⟨d, hd, rfl⟩ := List.mem_map.mp ((hnames.mem n).mp hn)
      simpa using (List.mem_filter.mp hd).2
    · exact exists_isLast_declaration hop
  · have hnames := inOrderOfFirst_insertAll hnodup ops
    refine ⟨hnames.nodup, hnames, fun n op hlast => operation?_insertAll hlast,
      fun n hne => operation?_insertAll_of_forall_ne hne, ?_⟩
    rintro before op after rfl
    exact getElem?_reports c before after op

/-- An interface that declares `f` twice, with `g`, an operation without a name and members of other
kinds in between, and two more declarations on top of its contract. -/
theorem last_declaration_in_first_place_mixed :
    let declare (name type : String) : Operation := ⟨name, some (.primitive type), [], []⟩
    let i : Interface := ⟨"I", none, [.other, .operation (declare "f" "long"),
      .operation (declare "" "any"), .property ⟨"p", none, true, []⟩,
      .operation (declare "g" "long"), .operation (declare "f" "double")], []⟩
    let more := [ContractOperation.ofDeclaration (declare "h" "long"),
      ContractOperation.ofDeclaration (declare "g" "double")]
    (∀ j, Definition.interface j ∉ [Definition.other]) ∧ ∃ c,
      build ([.other] ++ .interface i :: [.interface ⟨"J", none, [], []⟩]) = .ok c
      ∧ c.operationNames.Nodup ∧ c.operationNames = ["f", "g"]
      ∧ InOrderOfFirst (i.named.map (·.name)) c.operationNames
      ∧ c.operation? "f" = some (.ofDeclaration (declare "f" "double"))
      ∧ (c.insertAll more).operationNames = ["f", "g", "h"]
      ∧ (c.insertAll more).operation? "g" = some (.ofDeclaration (declare "g" "double"))
      ∧ c.reports more = [false, true] := by
  intro declare i more
  have hfirst : ∀ j, Definition.interface j ∉ [Definition.other] := by simp
  obtain ⟨hbuild, hrun⟩ := last_declaration_in_first_place
  obtain ⟨c, hc, hnodup, -, horder, -⟩ := hbuild _ [.interface ⟨"J", none, [], []⟩] i hfirst
  have hlast : IsLast (fun o => o.name = "g") (.ofDeclaration (declare "g" "double")) more :=
    ⟨[.ofDeclaration (declare "h" "long")], [], rfl, rfl, List.forall_mem_nil _⟩
  have hg := (hrun c more hnodup).2.2.1 "g" _ hlast
  obtain rfl := Except.ok.inj hc
  exact ⟨hfirst, _, hc, hnodup, by decide, horder, rfl, by decide, hg, by decide⟩

end Contract

end IntentContract
