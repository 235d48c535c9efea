import IntentContract.Proofs.Agent.Dispatch
import Mathlib.Data.Set.Basic
import Mathlib.Order.Bounds.Defs

/-!
# Arguments arrive in place

A call gives its arguments by their places. The message carries them under the names of the
parameters, and the handler of the operation takes them by their places again. On the way arguments
without a parameter are dropped, parameters without an argument get `null`, and where a name is
repeated the last argument for it is the one that all its parameters get
(`getElem?_received_of_isGreatest`). With distinct names this is no more than cutting off or filling
up (`received_of_nodup`).

A call of an operation on an agent whose last step for the intent was for the same operation is one
application of the handler, to these arguments and to the message (`call_in_place`).
-/

namespace IntentContract

/-- Items go to the parameters at their places. -/
theorem isLast_zip_iff {names : List String} {args : List Json} {name : String} {v : Json} :
    IsLast (fun e => e.1 = name) (name, v) (names.zip args)
      ↔ ∃ i : Nat, names[i]? = some name ∧ args[i]? = some v
          ∧ ∀ j, i < j → j < args.length → names[j]? ≠ some name := by
  simp only [isLast_iff_getElem?, List.getElem?_zip_eq_some, true_and, and_assoc]
  refine exists_congr fun i => and_congr_right fun _ => and_congr_right fun _ => ?_
  constructor
  · intro h j hij hj hname
    exact h j (name, args[j]) hij ⟨hname, List.getElem?_eq_getElem hj⟩ rfl
  · rintro h j ⟨n, w⟩ hij ⟨hn, hw⟩ rfl
    exact h j hij (List.getElem?_eq_some_iff.mp hw).1 hn

/-! ## From places to names and back -/

namespace ContractOperation

variable {op : ContractOperation} {args : List Json} {i j : Nat}

/-- **The arguments that a handler gets** for the arguments of a call. -/
def received (op : ContractOperation) (args : List Json) : List Json :=
  op.argumentsOf (op.payloadOf args)

/-- The places of arguments under the name that the parameter at a place has. -/
def sameName (op : ContractOperation) (args : List Json) (i : Nat) : Set Nat :=
  {j | j < min op.parameters.length args.length ∧ op.parameterNames[j]? = op.parameterNames[i]?}

theorem length_parameterNames (op : ContractOperation) :
    op.parameterNames.length = op.parameters.length :=
  List.length_map ..

/-- A handler gets as many arguments as there are parameters. -/
theorem length_received (op : ContractOperation) (args : List Json) :
    (op.received args).length = op.parameters.length := by
  rw [received, argumentsOf, List.length_map, length_parameterNames]

/-- At each place a handler gets what the payload has under the name there. -/
theorem getElem?_received (args : List Json) (hi : i < op.parameters.length) :
    ∃ name, op.parameterNames[i]? = some name
      ∧ (op.received args)[i]? = some ((Keyed.get? name (op.payloadOf args)).getD .null) := by
  have hname : i < op.parameterNames.length := op.length_parameterNames ▸ hi
  refine ⟨op.parameterNames[i], List.getElem?_eq_getElem hname, ?_⟩
  rw [received, argumentsOf, List.getElem?_map, List.getElem?_eq_getElem hname, Option.map_some]

/-- **The last argument for a name arrives** at all places of the name. -/
theorem getElem?_received_of_isGreatest (hi : i < op.parameters.length)
    (hj : IsGreatest (op.sameName args i) j) : (op.received args)[i]? = args[j]? := by
  obtain ⟨name, hname, hreceived⟩ := getElem?_received args hi
  obtain ⟨⟨hlt, hsame⟩, hupper⟩ := hj
  have hargs : j < args.length := Nat.lt_of_lt_of_le hlt (Nat.min_le_right _ _)
  have hget : Keyed.get? name (op.payloadOf args) = some args[j] := by
    refine Keyed.get?_ofList.mpr (isLast_zip_iff.mpr
      ⟨j, hsame.trans hname, List.getElem?_eq_getElem hargs, fun k hjk hk hknown => ?_⟩)
    have hparameters : k < op.parameters.length :=
      op.length_parameterNames ▸ (List.getElem?_eq_some_iff.mp hknown).1
    have hle : k ≤ j := hupper ⟨Nat.lt_min.mpr ⟨hparameters, hk⟩, hknown.trans hname.symm⟩
    omega
  rw [hreceived, hget, Option.getD_some, List.getElem?_eq_getElem hargs]

/-- A parameter whose name no argument is for gets `null`. -/
theorem getElem?_received_of_eq_empty (hi : i < op.parameters.length)
    (hnone : op.sameName args i = ∅) : (op.received args)[i]? = some .null := by
  obtain ⟨name, hname, hreceived⟩ := getElem?_received args hi
  have hget : Keyed.get? name (op.payloadOf args) = none := by
    refine Option.eq_none_iff_forall_ne_some.mpr fun v hv => ?_
    obtain ⟨k, hknown, hk, -⟩ := isLast_zip_iff.mp (Keyed.get?_ofList.mp hv)
    have hparameters : k < op.parameters.length :=
      op.length_parameterNames ▸ (List.getElem?_eq_some_iff.mp hknown).1
    have hargs := (List.getElem?_eq_some_iff.mp hk).1
    have hmem : k ∈ op.sameName args i :=
      ⟨Nat.lt_min.mpr ⟨hparameters, hargs⟩, hknown.trans hname.symm⟩
    rw [hnone] at hmem
    exact hmem
  rw [hreceived, hget, Option.getD_none]

/-- **Under distinct names arguments keep their places**: those that are too many are cut off, and
`null` stands for those that are missing. -/
theorem received_of_nodup (h : op.parameterNames.Nodup) (args : List Json) :
    op.received args
      = (args ++ List.replicate op.parameters.length Json.null).take op.parameters.length := by
  have hsame : ∀ {i j}, i < op.parameters.length → op.parameterNames[j]? = op.parameterNames[i]? →
      j = i := fun {i j} hi heq =>
    ((List.getElem?_inj (op.length_parameterNames ▸ hi) h).mp heq.symm).symm
  refine List.ext_getElem? fun i => ?_
  by_cases hi : i < op.parameters.length
  · rw [List.getElem?_take_of_lt hi]
    by_cases hargs : i < args.length
    · rw [List.getElem?_append_left hargs]
      refine getElem?_received_of_isGreatest hi ⟨⟨Nat.lt_min.mpr ⟨hi, hargs⟩, rfl⟩, ?_⟩
      exact fun j hj => Nat.le_of_eq (hsame hi hj.2)
    · rw [List.getElem?_append_right (Nat.le_of_not_lt hargs), List.getElem?_replicate,
        if_pos (by omega)]
      refine getElem?_received_of_eq_empty hi (Set.eq_empty_iff_forall_notMem.mpr ?_)
      rintro j ⟨hj, heq⟩
      exact hargs (hsame hi heq ▸ Nat.lt_of_lt_of_le hj (Nat.min_le_right _ _))
  · have hlength := op.length_received args
    rw [List.getElem?_eq_none (by omega), List.getElem?_eq_none (by simp; omega)]

end ContractOperation

/-! ## Calls -/

namespace Agent

variable {m : Type → Type}

/-- **A call of an operation is one application of the handler** that the last step for its intent
has bound, if that step was for the same operation and the two contracts agree on the names of its
parameters and its intent. The handler gets an argument for each parameter: the last one that the
call gives for a parameter of this name, or `null` if it gives none. The message is from the caller
to the target, under the intent and the proof of the operation. -/
theorem call_in_place [Monad m] {caller : Agent m} (id : String) {c : Contract}
    {steps : List (Registration m)} {name : String} {op served : ContractOperation}
    {f : OperationHandler m} (hcaller : caller.contract.operation? name = some op)
    (htarget : c.operation? name = some served)
    (hparameters : served.parameterNames = op.parameterNames) (hintent : served.intent = op.intent)
    (hlast : IsLast (Registration.Binds c op.intent) (.forOperation name f) steps)
    (now : Instant) (args : List Json) :
    let target := (Agent.new id c).afterAll steps
    let passed := op.received args
    caller.call target now name args
        = f passed
          { sender := caller.id, receiver := target.id, intent := op.intent,
            proof := op.proof, payload := op.payloadOf args, sentAt := now }
      ∧ passed.length = op.parameters.length
      ∧ (∀ i < op.parameters.length,
        (∀ j, IsGreatest (op.sameName args i) j → passed[i]? = args[j]?)
          ∧ (op.sameName args i = ∅ → passed[i]? = some .null))
      ∧ (op.parameterNames.Nodup → passed
        = (args ++ List.replicate op.parameters.length Json.null).take op.parameters.length) := by
  intro target passed
  have hbound : Registration.LeavesBound c steps op.intent (positional served f) := by
    refine ⟨_, hlast, ?_⟩
    rw [Registration.binding?, htarget, Option.map_some, hintent]
  have harguments : served.argumentsOf (op.payloadOf args) = passed := by
    rw [ContractOperation.argumentsOf, hparameters]
    rfl
  refine ⟨?_, op.length_received args, fun i hi => ⟨fun j hj => ?_, fun hnone => ?_⟩, fun h => ?_⟩
  · simp only [call, send, hcaller, invoke]
    rw [receive_of_handler (handler?_afterAll.mpr hbound), positional, harguments]
  · exact ContractOperation.getElem?_received_of_isGreatest hi hj
  · exact ContractOperation.getElem?_received_of_eq_empty hi hnone
  · exact ContractOperation.received_of_nodup h args

/-- A name that is repeated and a parameter without an argument. A step for the same intent stands
in front of the one that counts, and one for another intent behind it. -/
theorem call_in_place_repeated :
    let op : ContractOperation := ⟨"pay", [⟨"a", .primitive "long"⟩, ⟨"b", .primitive "long"⟩,
      ⟨"a", .primitive "long"⟩, ⟨"d", .primitive "long"⟩], none, .ofAttributes []⟩
    let c : Contract := ⟨"Market", none, none, [op]⟩
    let echo : OperationHandler Id := fun args msg => pure (.arr (.str msg.sender :: args))
    let refuse : Handler Id := fun _ => throw (.handlerFailed "" "closed")
    let steps : List (Registration Id) :=
      [.forIntent "" refuse, .forOperation "pay" echo, .forIntent "agent:Other" refuse]
    IsLast (Registration.Binds c op.intent) (.forOperation "pay" echo) steps
      ∧ IsGreatest (op.sameName [.int 1, .int 2, .int 3] 0) 2
      ∧ op.sameName [.int 1, .int 2, .int 3] 3 = ∅
      ∧ (Agent.new "Buyer" c).call ((Agent.new "Seller" c).afterAll steps) .epoch "pay"
          [.int 1, .int 2, .int 3]
        = pure (.arr [.str "Buyer", .int 3, .int 2, .int 3, .null]) := by
  intro op c echo refuse steps
  have hlast : IsLast (Registration.Binds c op.intent) (.forOperation "pay" echo) steps := by
    refine ⟨[.forIntent "" refuse], [.forIntent "agent:Other" refuse], rfl, rfl, ?_⟩
    exact List.forall_mem_singleton.mpr (show ¬ some "agent:Other" = some "" by decide)
  have hop : (Agent.new "Buyer" c (m := Id)).contract.operation? "pay" = some op := rfl
  have hcall := (call_in_place "Seller" hop hop rfl rfl hlast .epoch [.int 1, .int 2, .int 3]).1
  refine ⟨hlast, ⟨⟨by decide, rfl⟩, fun j hj => Nat.le_of_lt_succ hj.1⟩, ?_, hcall⟩
  refine Set.eq_empty_iff_forall_notMem.mpr fun j hj => ?_
  have hfree : ∀ k < 3, op.parameterNames[k]? ≠ op.parameterNames[3]? := by decide
  exact hfree j hj.1 hj.2

end Agent

end IntentContract
