import IntentContract.Proofs.Agent.Arguments
import IntentContract.Proofs.Scenario.DelegationGate

/-!
# How a scenario ends

A scenario that runs by its own scripts is a small program, and this module gives its meaning by
rules. `Scenario.Ends` has one rule for each way a call can end: the operation is unknown, no
script serves its intent, or a script answers. It speaks of contracts, scripts and arguments only
and not of agents, messages or tables of handlers, and it needs no order of execution: which
script answers and what it is asked are conditions, and not steps.

Running a scenario and the rules agree (`runScripts_iff_ends`), unless its delegation keeps the
call from being made. The two parts that a reader might trip over are shared intents, where a
script for one operation answers a call of another, and payloads, where names can be repeated.
-/

namespace IntentContract

/-! ## What a call gives -/

namespace Scenario

/-- **What a call gives for a name.** Fields of an object go by the names of the parameters, with
`null` for one that is missing. Items of an array go by position; of parameters with one name the
last that has an item counts. Any other value but `null` is a single item. -/
def Gives (s : Scenario) (op : ContractOperation) (name : String) (v : Json) : Prop :=
  match s.payload with
  | .obj named => name ∈ op.parameterNames ∧ v = (Keyed.get? name named).getD .null
  | .arr args => ∃ i : Nat, op.parameterNames[i]? = some name ∧ args[i]? = some v
      ∧ ∀ j, i < j → j < args.length → op.parameterNames[j]? ≠ some name
  | .null => False
  | single => op.parameterNames.head? = some name ∧ v = single

/-- A payload that holds just what a call gives. -/
def Carries (s : Scenario) (op : ContractOperation) (payload : Payload) : Prop :=
  ∀ name v, Keyed.get? name payload = some v ↔ s.Gives op name v

end Scenario

/-- Fields that are listed by their names, each with its value. -/
theorem isLast_map_iff {names : List String} {f : String → Json} {name : String} {v : Json} :
    IsLast (fun e => e.1 = name) (name, v) (names.map fun n => (n, f n))
      ↔ name ∈ names ∧ v = f name := by
  constructor
  · intro h
    obtain ⟨n, hn, heq⟩ := List.mem_map.mp h.mem
    obtain ⟨rfl, rfl⟩ := Prod.mk.inj heq
    exact ⟨hn, rfl⟩
  · rintro ⟨hn, rfl⟩
    -- A name that is repeated has one value, so the last entry for it is the one wanted.
    have hmem : ∃ e ∈ names.map fun n => (n, f n), e.1 = name :=
      ⟨(name, f name), List.mem_map_of_mem hn, rfl⟩
    obtain ⟨e, he⟩ := exists_isLast_iff.mpr hmem
    obtain ⟨n, -, rfl⟩ := List.mem_map.mp he.mem
    obtain rfl : n = name := he.holds
    exact he

/-- **A call carries what it gives.** -/
theorem Scenario.carries_payloadOf {s : Scenario} {c : Contract} {op : ContractOperation}
    (hop : c.operation? s.operation = some op) :
    s.Carries op (op.payloadOf (s.arguments c)) := by
  intro name v
  rw [ContractOperation.payloadOf, Keyed.get?_ofList, Gives, arguments]
  cases s.payload with
  | arr args => exact isLast_zip_iff
  | obj named =>
    simp only [hop]
    have hzip : op.parameterNames.zip (op.argumentsOf named)
        = op.parameterNames.map fun n => (n, (Keyed.get? n named).getD .null) := by
      nth_rewrite 1 [← List.map_id op.parameterNames]
      exact List.zip_map'
    rw [hzip, isLast_map_iff]
  | null => simp [not_isLast_nil]
  | bool | int | double | str =>
    cases op.parameterNames with
    | nil => simp [not_isLast_nil]
    | cons n rest => simp [isLast_singleton, eq_comm]

/-! ## Scripts -/

/-- A script serves an intent if its operation is in the contract and has that intent. -/
def Script.Serves (c : Contract) (intent : String) (script : Script) : Prop :=
  ∃ op, c.operation? script.operation = some op ∧ op.intent = intent

/-- The step by which an agent follows a script. -/
def Script.registration {m : Type → Type} [Monad m] (script : Script) : Registration m :=
  .forOperation script.operation script.handler

theorem Script.binds_registration_iff {m : Type → Type} [Monad m] {c : Contract}
    {intent : String} {script : Script} :
    (script.registration : Registration m).Binds c intent ↔ script.Serves c intent := by
  simp [registration, Registration.Binds, Registration.binding?, Serves]

/-- Following scripts is a sequence of steps. -/
theorem Agent.followAll_eq_afterAll {m : Type → Type} [Monad m] (a : Agent m)
    (scripts : List Script) :
    a.followAll scripts = a.afterAll (scripts.map Script.registration) := by
  rw [followAll, afterAll, List.foldl_map]
  rfl

/-- **The last script that serves the intent of a message answers it.** -/
theorem Agent.receive_followAll {m : Type → Type} [Monad m] {id : String} {c : Contract}
    {scripts : List Script} {script : Script} {msg : Message}
    (h : IsLast (Script.Serves c msg.intent) script scripts) :
    ((Agent.new id c : Agent m).followAll scripts).receive msg
      = pure (script.respond msg.payload) := by
  obtain ⟨op, hop, hintent⟩ := h.holds
  have hbound : Registration.LeavesBound c (scripts.map Script.registration) msg.intent
      (positional op (script.handler : OperationHandler m)) := by
    refine ⟨script.registration, h.map fun _ => Script.binds_registration_iff, ?_⟩
    simp only [Script.registration, Registration.binding?, hop, Option.map_some, hintent]
  rw [followAll_eq_afterAll, receive_of_handler (handler?_afterAll.mpr hbound)]
  rfl

/-- A message that no script serves is not handled. -/
theorem Agent.receive_followAll_of_none {m : Type → Type} [Monad m] {id : String} {c : Contract}
    {scripts : List Script} {msg : Message}
    (h : ∀ script ∈ scripts, ¬ script.Serves c msg.intent) :
    ((Agent.new id c : Agent m).followAll scripts).receive msg
      = throw (.unhandledIntent id msg.intent) := by
  have hnone : ∀ step ∈ scripts.map (Script.registration (m := m)), ¬ step.Binds c msg.intent :=
    List.forall_mem_map.mpr fun script hmem hbinds =>
      h script hmem (Script.binds_registration_iff.mp hbinds)
  rw [followAll_eq_afterAll, receive_of_no_handler (handler?_afterAll_eq_none.mpr hnone),
    id_afterAll, new]

/-- A script looks at a payload only by the names of its guards. -/
theorem Script.respond_congr {script : Script} {p q : Payload}
    (h : ∀ name, Keyed.get? name p = Keyed.get? name q) : script.respond p = script.respond q := by
  have hadmits : ∀ g : Guard, g.admits p = g.admits q := fun g => by
    rw [Guard.admits, Guard.admits, h]
  rw [respond, respond, funext fun g => congrArg (!·) (hadmits g)]

/-! ## The rules -/

/-- **The status that an answer gives**: its field `status` if that is a text, else that it is
completed. -/
def GivesStatus (answer : Json) (status : String) : Prop :=
  answer.get? "status" = some (.str status)
    ∨ status = completedStatus ∧ ∀ text, answer.get? "status" ≠ some (.str text)

theorem givesStatus_iff {answer : Json} {status : String} :
    GivesStatus answer status ↔ statusOf answer = status := by
  unfold GivesStatus statusOf
  cases answer.get? "status" with
  | none => simp [eq_comm]
  | some v => cases v <;> simp [Json.string?, eq_comm]

namespace Scenario

/-- **How a call ends**: a status, and an answer or an error.

* An operation that the contract does not have is an error.
* It is an error as well if no script serves the intent of the operation.
* Else the last script that serves it answers what the call carries. -/
inductive Ends (c : Contract) (s : Scenario) : String → Option Json → Option String → Prop where
  | unknown (hop : c.operation? s.operation = none) :
      Ends c s errorStatus none (some (Failure.unknownMethod s.operation).message)
  | unhandled {op : ContractOperation} (hop : c.operation? s.operation = some op)
      (hnone : ∀ script ∈ s.scripts, ¬ script.Serves c op.intent) :
      Ends c s errorStatus none (some (Failure.unhandledIntent s.target op.intent).message)
  | answered {op : ContractOperation} {script : Script} {payload : Payload} {status : String}
      (hop : c.operation? s.operation = some op)
      (hlast : IsLast (Script.Serves c op.intent) script s.scripts)
      (hpayload : s.Carries op payload)
      (hstatus : GivesStatus (script.respond payload) status) :
      Ends c s status (some (script.respond payload)) none

/-- Every call ends in some way. -/
theorem exists_ends (c : Contract) (s : Scenario) : ∃ status result error,
    s.Ends c status result error := by
  cases hop : c.operation? s.operation with
  | none => exact ⟨_, _, _, .unknown hop⟩
  | some op =>
    by_cases hserved : ∃ script ∈ s.scripts, script.Serves c op.intent
    · obtain ⟨script, hlast⟩ := exists_isLast_iff.mpr hserved
      exact ⟨_, _, _, .answered hop hlast (carries_payloadOf hop) (givesStatus_iff.mpr rfl)⟩
    · exact ⟨_, _, _, .unhandled hop fun script hmem hs => hserved ⟨script, hmem, hs⟩⟩

/-! ## Running by the rules -/

variable {rules : CallRules} {c : Contract} {s : Scenario}

/-- Payloads that a call carries are looked up alike. -/
theorem Carries.get?_eq {op : ContractOperation} {p q : Payload} (hp : s.Carries op p)
    (hq : s.Carries op q) (name : String) : Keyed.get? name p = Keyed.get? name q :=
  Option.ext fun v => (hp name v).trans (hq name v).symm

/-- The call of a scenario, to a target that follows its scripts. -/
def scriptedCall (s : Scenario) (c : Contract) (now : Instant) : Except Failure Json :=
  ((Agent.new s.caller c : Agent Id).call ((Agent.new s.target c).followAll s.scripts) now
    s.operation (s.arguments c)).run

/-- A run that is not refused is its call, written up. -/
theorem runScripts_of_admitted (hgate : s.refusal? rules = none) (now : Instant) :
    s.runScripts rules c now = match s.scriptedCall c now with
      | .ok answer => s.answered rules c now answer
      | .error e => s.failed e := by
  simp only [runScripts, run, hgate]
  rfl

/-- A run that is refused is the refusal. -/
theorem runScripts_of_refusal {o : Outcome} (h : s.refusal? rules = some o) (now : Instant) :
    s.runScripts rules c now = o := by
  rw [runScripts, run_of_refusal h]
  rfl

/-- The outcome of a run has the name of the scenario and the status that it expects. -/
theorem heading_runScripts (rules : CallRules) (s : Scenario) (c : Contract) (now : Instant) :
    (s.runScripts rules c now).name = s.name
    ∧ (s.runScripts rules c now).expectedStatus = s.expectedStatus := by
  cases hgate : s.refusal? rules with
  | some o =>
    obtain ⟨status, findings, error, rfl⟩ := exists_unanswered_of_refusal hgate
    rw [runScripts_of_refusal hgate]
    exact ⟨rfl, rfl⟩
  | none =>
    rw [runScripts_of_admitted hgate]
    cases s.scriptedCall c now <;> exact ⟨rfl, rfl⟩

/-- The message of the call. -/
def sentMessage (s : Scenario) (c : Contract) (op : ContractOperation) (now : Instant) : Message :=
  ⟨s.caller, s.target, op.intent, op.proof, op.payloadOf (s.arguments c), now⟩

/-- The call of an operation in the contract delivers a message to the target. -/
theorem scriptedCall_of_operation {op : ContractOperation}
    (hop : c.operation? s.operation = some op) (now : Instant) :
    s.scriptedCall c now
      = (((Agent.new s.target c : Agent Id).followAll s.scripts).receive
          (s.sentMessage c op now)).run := by
  have hid : ((Agent.new s.target c : Agent Id).followAll s.scripts).id = s.target := by
    rw [Agent.followAll_eq_afterAll, Agent.id_afterAll, Agent.new]
  have hcontract : (Agent.new s.caller c : Agent Id).contract = c := rfl
  simp only [scriptedCall, Agent.call, Agent.send, hcontract, hop, Agent.invoke, hid]
  rfl

/-- **The call comes to what the rules say**, whenever it is made. -/
theorem exists_scriptedCall_eq {status : String} {result : Option Json} {error : Option String}
    (h : s.Ends c status result error) :
    ∃ given, (∀ now, s.scriptedCall c now = given)
      ∧ match given with
        | .ok answer => statusOf answer = status ∧ some answer = result ∧ none = error
        | .error e => errorStatus = status ∧ none = result ∧ some e.message = error := by
  cases h with
  | unknown hop =>
    refine ⟨.error (.unknownMethod s.operation), fun now => ?_, rfl, rfl, rfl⟩
    simp only [scriptedCall, Agent.call, Agent.send, Agent.new, hop]
    rfl
  | @unhandled op hop hnone =>
    refine ⟨.error (.unhandledIntent s.target op.intent), fun now => ?_, rfl, rfl, rfl⟩
    rw [scriptedCall_of_operation hop, Agent.receive_followAll_of_none hnone]
    rfl
  | @answered op script payload _ hop hlast hpayload hstatus =>
    refine ⟨.ok (script.respond payload), fun now => ?_, givesStatus_iff.mp hstatus, rfl, rfl⟩
    -- The rule fixes its payload up to look-ups only, and a script sees no more of it.
    rw [scriptedCall_of_operation hop, Agent.receive_followAll hlast,
      Script.respond_congr (hpayload.get?_eq (carries_payloadOf hop))]
    rfl

/-- A call runs as the rules say it ends. -/
theorem runScripts_of_ends (hgate : s.refusal? rules = none) (now : Instant) {status : String}
    {result : Option Json} {error : Option String} (h : s.Ends c status result error) :
    (s.runScripts rules c now).actualStatus = status
    ∧ (s.runScripts rules c now).result = result
    ∧ (s.runScripts rules c now).error = error := by
  obtain ⟨given, hgiven, hends⟩ := exists_scriptedCall_eq h
  rw [runScripts_of_admitted hgate, hgiven]
  cases given with
  | ok answer => exact hends
  | error e => exact hends

/-- **Nothing stands against a call**: it comes without a delegation, or with one whose report has
no error. -/
def Cleared (rules : CallRules) (s : Scenario) : Prop :=
  ∀ document ∈ s.delegation, ∃ report, rules.delegation.check document = .ok report
    ∧ ∀ f ∈ report.findings, f.severity ≠ .error

theorem Cleared.refusal?_eq_none (h : s.Cleared rules) : s.refusal? rules = none := by
  cases hdelegation : s.delegation with
  | none => simp only [refusal?, hdelegation]
  | some document =>
    obtain ⟨report, hcheck, hnone⟩ := h document hdelegation
    have hvalid : report.isValid = true := by
      rw [← Bool.not_eq_false, Report.isValid_eq_false_iff]
      rintro ⟨f, hf, herror⟩
      exact hnone f hf herror
    simp only [refusal?, hdelegation, hcheck, hvalid, if_true]

/-- **A scenario runs by the rules.** If nothing stands against its call, it ends with a status and
an answer or an error just if the rules say so. It passes if the status is the expected one. -/
theorem runScripts_iff_ends (hcleared : s.Cleared rules) (c : Contract) (now : Instant) :
    (∀ status result error, s.Ends c status result error
      ↔ (s.runScripts rules c now).actualStatus = status
        ∧ (s.runScripts rules c now).result = result
        ∧ (s.runScripts rules c now).error = error)
    ∧ ((s.runScripts rules c now).passed = true
      ↔ (s.runScripts rules c now).actualStatus = s.expectedStatus) := by
  have hgate := hcleared.refusal?_eq_none
  refine ⟨fun status result error => ⟨runScripts_of_ends hgate now, ?_⟩, ?_⟩
  · rintro ⟨rfl, rfl, rfl⟩
    -- Some rule applies, and the run agrees with it.
    obtain ⟨status, result, error, hends⟩ := exists_ends c s
    obtain ⟨hstatus, hresult, herror⟩ := runScripts_of_ends hgate now hends
    rwa [hstatus, hresult, herror]
  · rw [Outcome.passed, beq_iff_eq, (heading_runScripts rules s c now).2]

/-- A call of `pay` is answered by the script for `ping`, since neither has an intent and that
script comes last of those for operations of the contract. Its guard asks for what `pay` gives. -/
theorem runScripts_iff_ends_shared :
    let pay : ContractOperation :=
      ⟨"pay", [⟨"amount", .primitive "double"⟩], none, .ofAttributes []⟩
    let ping : ContractOperation := ⟨"ping", [], none, .ofAttributes []⟩
    let c : Contract := ⟨"Market", none, none, [pay, ping]⟩
    let guard : Guard := ⟨"amount", none, true, "no amount"⟩
    let scripts : List Script := [⟨"pay", [], []⟩, ⟨"ping", [guard], [("status", .str "paid")]⟩,
      ⟨"refund", [], []⟩]
    let rules : CallRules := ⟨⟨.delegation, ["scope"], [], none, []⟩, .execution⟩
    let s : Scenario := ⟨"shared", "market.webidl", "pay",
      .obj [("amount", .int 7), ("tip", .int 1)], some (.obj [("scope", .str "pay")]), "paid",
      "Buyer", "Seller", scripts⟩
    s.Cleared rules ∧ (s.runScripts rules c .epoch).actualStatus = "paid"
      ∧ (s.runScripts rules c .epoch).result = some (.obj [("status", .str "paid")])
      ∧ (s.runScripts rules c .epoch).error = none
      ∧ (s.runScripts rules c .epoch).passed = true := by
  intro pay ping c guard scripts rules s
  have hcleared : s.Cleared rules := by
    rintro _ ⟨⟩
    exact ⟨⟨[]⟩, rfl, List.forall_mem_nil _⟩
  have hlast : IsLast (Script.Serves c pay.intent)
      ⟨"ping", [guard], [("status", .str "paid")]⟩ s.scripts := by
    refine ⟨[⟨"pay", [], []⟩], [⟨"refund", [], []⟩], rfl, ⟨ping, rfl, rfl⟩, ?_⟩
    refine List.forall_mem_singleton.mpr ?_
    rintro ⟨op, ⟨⟩, -⟩
  have hpay : c.operation? s.operation = some pay := rfl
  have hends : s.Ends c "paid" (some (.obj [("status", .str "paid")])) none :=
    .answered hpay hlast (carries_payloadOf hpay) (.inl rfl)
  obtain ⟨hrules, hpassed⟩ := runScripts_iff_ends hcleared c .epoch
  obtain ⟨hstatus, hresult, herror⟩ := (hrules _ _ _).mp hends
  exact ⟨hcleared, hstatus, hresult, herror, hpassed.mpr hstatus⟩

end Scenario

end IntentContract
