import IntentContract.Agent.Basic
import IntentContract.Proofs.Keyed

/-!
# Which handler answers

An agent is set up by steps: a handler is given for an intent, or for an operation by its name.
The second goes by the intent of the operation in the agent's contract, so steps for different
operations can meet in one intent, the empty one included, and a step for an operation that the
contract does not have fails.

Whatever the steps and their order, a message goes to the handler of the **last** step that
succeeded for its intent (`receive_afterAll`). The argument has two parts. What one step binds
depends on the contract alone, and the table of handlers is all of this, inserted in order
(`handlers_afterAll`). And of the entries of one key the last is found.
-/

namespace IntentContract

/-! ## Steps -/

/-- **A step that sets up an agent**: a handler for an intent, or for an operation. -/
inductive Registration (m : Type → Type) where
  | forIntent (intent : String) (h : Handler m)
  | forOperation (name : String) (h : OperationHandler m)

variable {m : Type → Type}

namespace Registration

/-- **What a step binds** under a contract: an intent and its handler. An operation that the
contract does not have binds nothing. -/
def binding? (c : Contract) : Registration m → Option (String × Handler m)
  | .forIntent intent h => some (intent, h)
  | .forOperation name h => (c.operation? name).map fun op => (op.intent, Agent.positional op h)

/-- Whether a step binds a handler to an intent. -/
def Binds (c : Contract) (intent : String) (step : Registration m) : Prop :=
  (step.binding? c).map (·.1) = some intent

/-- **The handler that steps leave bound to an intent**: that of the last step for it. -/
def LeavesBound (c : Contract) (steps : List (Registration m)) (intent : String) (h : Handler m) :
    Prop :=
  ∃ step, IsLast (Binds c intent) step steps ∧ step.binding? c = some (intent, h)

end Registration

namespace Agent

/-- The agent after a step that succeeds. -/
def register (a : Agent m) : Registration m → Except Failure (Agent m)
  | .forIntent intent h => .ok (a.bind intent h)
  | .forOperation name h => a.bindOperation name h

/-- The agent after a step, which may fail. -/
def after (a : Agent m) (step : Registration m) : Agent m :=
  match a.register step with
  | .ok b => b
  | .error _ => a

/-- **The agent after a sequence of steps**, some of which may fail. -/
def afterAll (a : Agent m) (steps : List (Registration m)) : Agent m :=
  steps.foldl after a

/-! ## One step -/

/-- **What a step does**: it binds what it binds under the contract of the agent, or it fails
because the contract does not have its operation. -/
theorem register_cases (a : Agent m) (step : Registration m) :
    (∃ intent h, step.binding? a.contract = some (intent, h)
      ∧ a.register step = .ok (a.bind intent h))
    ∨ ∃ name h, step = .forOperation name h ∧ step.binding? a.contract = none
      ∧ a.register step = .error (.unknownMethod name) := by
  cases step with
  | forIntent intent h => exact .inl ⟨intent, h, rfl, rfl⟩
  | forOperation name h =>
    cases hop : a.contract.operation? name with
    | some op =>
      refine .inl ⟨op.intent, positional op h, ?_, ?_⟩
      · rw [Registration.binding?, hop, Option.map_some]
      · simp only [register, bindOperation, hop]
    | none =>
      refine .inr ⟨name, h, rfl, ?_, ?_⟩
      · rw [Registration.binding?, hop, Option.map_none]
      · simp only [register, bindOperation, hop]

/-- The steps that succeed are those that bind something. -/
theorem exists_register_eq_ok_iff {a : Agent m} {step : Registration m} :
    (∃ b, a.register step = .ok b) ↔ ∃ intent, step.Binds a.contract intent := by
  rcases a.register_cases step with ⟨intent, h, hbind, hok⟩ | ⟨name, h, -, hbind, hfail⟩
  · exact iff_of_true ⟨_, hok⟩ ⟨intent, by rw [Registration.Binds, hbind, Option.map_some]⟩
  · simp [hfail, Registration.Binds, hbind]

/-- A step for an operation fails just if the contract does not have the operation. -/
theorem bindOperation_eq_error_iff {a : Agent m} {name : String} {h : OperationHandler m}
    {e : Failure} :
    a.bindOperation name h = .error e
      ↔ a.contract.operation? name = none ∧ e = .unknownMethod name := by
  unfold bindOperation
  cases a.contract.operation? name <;> simp [eq_comm]

/-- A step that fails leaves the agent as it was. -/
theorem after_of_error {a : Agent m} {step : Registration m} {e : Failure}
    (h : a.register step = .error e) : a.after step = a := by
  rw [after, h]

theorem id_after (a : Agent m) (step : Registration m) : (a.after step).id = a.id := by
  rcases a.register_cases step with ⟨intent, h, -, hok⟩ | ⟨name, h, -, -, hfail⟩
  · simp only [after, hok, bind]
  · simp only [after, hfail]

theorem contract_after (a : Agent m) (step : Registration m) :
    (a.after step).contract = a.contract := by
  rcases a.register_cases step with ⟨intent, h, -, hok⟩ | ⟨name, h, -, -, hfail⟩
  · simp only [after, hok, bind]
  · simp only [after, hfail]

/-- A step inserts what it binds into the table. -/
theorem handlers_after (a : Agent m) (step : Registration m) :
    (a.after step).handlers
      = Keyed.insertAll (step.binding? a.contract).toList a.handlers := by
  rcases a.register_cases step with ⟨intent, h, hbind, hok⟩ | ⟨name, h, -, hbind, hfail⟩
  · simp only [after, hok, hbind]
    rfl
  · simp only [after, hfail, hbind]
    rfl

/-! ## Sequences of steps -/

theorem id_afterAll (a : Agent m) (steps : List (Registration m)) :
    (a.afterAll steps).id = a.id := by
  induction steps generalizing a with
  | nil => rfl
  | cons step steps ih => exact (ih (a.after step)).trans (a.id_after step)

theorem contract_afterAll (a : Agent m) (steps : List (Registration m)) :
    (a.afterAll steps).contract = a.contract := by
  induction steps generalizing a with
  | nil => rfl
  | cons step steps ih => exact (ih (a.after step)).trans (a.contract_after step)

/-- **The table is what the steps bind, in their order.** -/
theorem handlers_afterAll (a : Agent m) (steps : List (Registration m)) :
    (a.afterAll steps).handlers
      = Keyed.insertAll (steps.filterMap (·.binding? a.contract)) a.handlers := by
  induction steps generalizing a with
  | nil => rfl
  | cons step steps ih =>
    rw [afterAll, List.foldl_cons, ← afterAll, ih, contract_after, handlers_after]
    cases hbind : step.binding? a.contract with
    | none => rw [List.filterMap_cons_none hbind]; rfl
    | some e => rw [List.filterMap_cons_some hbind]; rfl

/-- **The table has the last handler of each intent.** -/
theorem handler?_afterAll {id : String} {c : Contract} {steps : List (Registration m)}
    {intent : String} {h : Handler m} :
    ((Agent.new id c).afterAll steps).handler? intent = some h
      ↔ Registration.LeavesBound c steps intent h := by
  rw [handler?, handlers_afterAll]
  exact Keyed.get?_ofList.trans (isLast_filterMap fun _ => Option.map_eq_some_iff)

/-- An intent has no handler just if no step was for it. -/
theorem handler?_afterAll_eq_none {id : String} {c : Contract} {steps : List (Registration m)}
    {intent : String} :
    ((Agent.new id c).afterAll steps).handler? intent = none
      ↔ ∀ step ∈ steps, ¬ step.Binds c intent := by
  rw [Option.eq_none_iff_forall_ne_some]
  simp only [ne_eq, handler?_afterAll]
  constructor
  · intro hnone step hmem hbinds
    obtain ⟨last, hlast⟩ := exists_isLast_iff.mpr ⟨step, hmem, hbinds⟩
    obtain ⟨⟨_, h⟩, hbind, rfl⟩ := Option.map_eq_some_iff.mp hlast.holds
    exact hnone h ⟨last, hlast, hbind⟩
  · rintro hnone h ⟨step, hlast, -⟩
    exact hnone step hlast.mem hlast.holds

/-! ## Messages -/

/-- A message goes to the handler of its intent. -/
theorem receive_of_handler [Monad m] {a : Agent m} {msg : Message} {h : Handler m}
    (hh : a.handler? msg.intent = some h) : a.receive msg = h msg := by
  simp only [receive, hh]

/-- A message without a handler for its intent fails. -/
theorem receive_of_no_handler [Monad m] {a : Agent m} {msg : Message}
    (hh : a.handler? msg.intent = none) :
    a.receive msg = throw (.unhandledIntent a.id msg.intent) := by
  simp only [receive, hh]

/-- **The last handler of an intent answers**, whatever the steps by which an agent was set up.

A message is answered by the handler that the last successful step for its intent has bound, and
by nothing else. It fails as unhandled just if there is no such step, or the handler that was
bound fails that way itself. The steps that succeed are those that bind something under the
contract; the others are for operations that it does not have, fail for that reason, and leave
the agent as it was. -/
theorem receive_afterAll [Monad m] (id : String) (c : Contract) (steps : List (Registration m))
    (msg : Message) :
    let a := (Agent.new id c).afterAll steps
    (∀ h, Registration.LeavesBound c steps msg.intent h → a.receive msg = h msg)
    ∧ (a.receive msg = throw (.unhandledIntent id msg.intent)
        ↔ (∀ step ∈ steps, ¬ step.Binds c msg.intent)
          ∨ ∃ h, Registration.LeavesBound c steps msg.intent h
              ∧ h msg = throw (.unhandledIntent id msg.intent))
    ∧ (∀ step, (∃ b, a.register step = .ok b) ↔ ∃ intent, step.Binds c intent)
    ∧ ∀ name h e, a.bindOperation name h = .error e →
        e = .unknownMethod name
          ∧ (Agent.new id c).afterAll (steps ++ [.forOperation name h]) = a := by
  intro a
  have hbound : ∀ h, Registration.LeavesBound c steps msg.intent h → a.receive msg = h msg :=
    fun h hh => receive_of_handler (handler?_afterAll.mpr hh)
  refine ⟨hbound, ⟨fun hfail => ?_, ?_⟩, fun step => ?_, fun name h e hfail => ⟨?_, ?_⟩⟩
  · cases hh : a.handler? msg.intent with
    | none => exact .inl (handler?_afterAll_eq_none.mp hh)
    | some h =>
      -- Handlers are arbitrary: nothing keeps one from failing as if it were not there.
      have hleft := handler?_afterAll.mp hh
      exact .inr ⟨h, hleft, (hbound h hleft).symm.trans hfail⟩
  · rintro (hnone | ⟨h, hleft, hfail⟩)
    · rw [receive_of_no_handler (handler?_afterAll_eq_none.mpr hnone), id_afterAll, new]
    · exact (hbound h hleft).trans hfail
  · rw [exists_register_eq_ok_iff, contract_afterAll, new]
  · exact (bindOperation_eq_error_iff.mp hfail).2
  · rw [afterAll, List.foldl_append, ← afterAll]
    exact after_of_error hfail

/-- Two operations without an intent share the empty one. The handler that was given last for
either of them answers, also if a later step fails. -/
theorem receive_afterAll_shared :
    let pay : ContractOperation :=
      ⟨"pay", [⟨"amount", .primitive "double"⟩], none, .ofAttributes []⟩
    let ping : ContractOperation := ⟨"ping", [], none, .ofAttributes []⟩
    let c : Contract := ⟨"Market", none, none, [pay, ping]⟩
    let echo : OperationHandler Id := fun args _ => pure (.arr args)
    let refuse : OperationHandler Id := fun _ _ => throw (.handlerFailed "" "closed")
    let steps : List (Registration Id) :=
      [.forOperation "ping" refuse, .forOperation "pay" echo, .forOperation "refund" refuse]
    let msg : Message := ⟨"Buyer", "Seller", "", none, [("amount", .int 7)], .epoch⟩
    Registration.LeavesBound c steps msg.intent (positional pay echo)
    ∧ ((Agent.new "Seller" c).afterAll steps).receive msg = pure (.arr [.int 7]) := by
  intro pay ping c echo refuse steps msg
  have hbound : Registration.LeavesBound c steps msg.intent (positional pay echo) := by
    refine ⟨.forOperation "pay" echo, ⟨[.forOperation "ping" refuse],
      [.forOperation "refund" refuse], rfl, rfl, ?_⟩, rfl⟩
    exact List.forall_mem_singleton.mpr nofun
  exact ⟨hbound, (receive_afterAll "Seller" c steps msg).1 _ hbound⟩

end Agent

end IntentContract
