import Mathlib.Data.List.Basic

namespace SoftwareFactory

inductive FsmState where
  | init
  | specDesign
  | specGate
  | building
  | diffGate
  | testing
  | triaging
  | sastScan
  | sastFilter
  | logicAudit
  | autoMerge
  | humanReview
  | haltHuman
  deriving DecidableEq, Repr

def FsmState.name : FsmState → String
  | .init => "INIT"
  | .specDesign => "SPEC_DESIGN"
  | .specGate => "SPEC_GATE"
  | .building => "BUILDING"
  | .diffGate => "DIFF_GATE"
  | .testing => "TESTING"
  | .triaging => "TRIAGING"
  | .sastScan => "SAST_SCAN"
  | .sastFilter => "SAST_FILTER"
  | .logicAudit => "LOGIC_AUDIT"
  | .autoMerge => "AUTO_MERGE"
  | .humanReview => "HUMAN_REVIEW"
  | .haltHuman => "HALT_HUMAN"

def validStates : List FsmState :=
  [.init,.specDesign,.specGate,.building,.diffGate,.testing,.triaging,.sastScan,.sastFilter,
    .logicAudit,.autoMerge,.humanReview,.haltHuman]

/-- The lookup behind `new_state not in VALID_STATES`. -/
def FsmState.ofName (s : String) : Option FsmState := validStates.find? fun st => st.name = s

inductive ExecutionStatus where
  | running
  | interrupted
  | completed
  | failed
  | needsHumanReview
  deriving DecidableEq, Repr

def ExecutionStatus.name : ExecutionStatus → String
  | .running => "RUNNING"
  | .interrupted => "INTERRUPTED"
  | .completed => "COMPLETED"
  | .failed => "FAILED"
  | .needsHumanReview => "NEEDS_HUMAN_REVIEW"

/-- The maxima come from the configuration file and may be any integer; the counters
start at 0 and only the code moves them. -/
@[ext] structure Budgets where
  logicReplansUsed : Nat
  maxLogicReplans : Int
  securityReplansUsed : Nat
  maxSecurityReplans : Int
  specSyntaxRetriesUsed : Nat
  maxSpecSyntaxRetries : Int
  workerAttemptsInEpoch : Nat
  maxWorkerPerEpoch : Int
  totalCumulativeWorkerRuns : Nat
  maxCumulativeWorkerRuns : Int
  deriving DecidableEq, Repr

structure AuditModel where
  provider : String
  model : String
  deriving DecidableEq, Repr

structure HistoryEntry where
  timestamp : String
  fromState : FsmState
  toState : FsmState
  details : String
  epoch : Nat
  deriving DecidableEq, Repr

structure BlockedReason where
  gate : String
  reason : String
  timestamp : String
  deriving DecidableEq, Repr

/-- The contents of `state_<task>.json`. -/
structure StateData where
  taskId : String
  epoch : Nat
  currentState : FsmState
  executionStatus : ExecutionStatus
  budgets : Budgets
  auditModelUsed : Option AuditModel
  history : List HistoryEntry
  blockedReason : Option BlockedReason
  deriving DecidableEq, Repr

/-- The `budgets` section of a configuration file; a missing key is `none`. -/
structure BudgetsConfig where
  maxLogicReplans : Option Int
  maxSecurityReplans : Option Int
  maxSpecSyntaxRetries : Option Int
  maxWorkerPerEpoch : Option Int
  maxCumulativeWorkerRuns : Option Int
  deriving DecidableEq, Repr

def BudgetsConfig.empty : BudgetsConfig := ⟨none,none,none,none,none⟩

structure FallbackEntry where
  provider : Option String
  model : Option String
  deriving DecidableEq, Repr

structure SecurityRole where
  provider : Option String
  model : Option String
  fallbacks : List FallbackEntry
  deriving DecidableEq, Repr

def SecurityRole.empty : SecurityRole := ⟨none,none,[]⟩

/-- What is read of `orchestrator/config.json`. -/
structure Config where
  budgets : Option BudgetsConfig
  logicSecurity : Option SecurityRole
  deriving DecidableEq, Repr

/-- The built-in configuration of `StateManager.__init__`. -/
def defaultConfig : Config :=
  ⟨some ⟨some 2,some 1,some 1,some 2,some 5⟩,none⟩

/-- `config_path`, else the legacy `.orchestrator/config.json`, else the built-in one. -/
def resolveConfig (configFile legacyFile : Option Config) : Config :=
  (configFile.or legacyFile).getD defaultConfig

def initState (taskId : String) (config : Config) : StateData :=
  let b := config.budgets.getD .empty
  { taskId := taskId
    epoch := 1
    currentState := .init
    executionStatus := .running
    budgets :=
      { logicReplansUsed := 0
        maxLogicReplans := b.maxLogicReplans.getD 2
        securityReplansUsed := 0
        maxSecurityReplans := b.maxSecurityReplans.getD 1
        specSyntaxRetriesUsed := 0
        maxSpecSyntaxRetries := b.maxSpecSyntaxRetries.getD 1
        workerAttemptsInEpoch := 0
        maxWorkerPerEpoch := b.maxWorkerPerEpoch.getD 2
        totalCumulativeWorkerRuns := 0
        maxCumulativeWorkerRuns := b.maxCumulativeWorkerRuns.getD 5 }
    auditModelUsed := none
    history := []
    blockedReason := none }

instance : Inhabited StateData := ⟨initState "" defaultConfig⟩

namespace StateData

/-- The record `transition` leaves in memory before it saves. -/
def transitioned (d : StateData) (newState : FsmState) (details timestamp : String) : StateData :=
  { d with
    currentState := newState
    history := d.history++[⟨timestamp,d.currentState,newState,details,d.epoch⟩] }

def withStatus (d : StateData) (status : ExecutionStatus) : StateData :=
  { d with executionStatus := status }

def blocked (d : StateData) (b : BlockedReason) : StateData := { d with blockedReason := some b }

def auditedBy (d : StateData) (m : AuditModel) : StateData := { d with auditModelUsed := some m }

def withBudgets (d : StateData) (f : Budgets → Budgets) : StateData :=
  { d with budgets := f d.budgets }

def newEpoch (d : StateData) : StateData :=
  { d with
    epoch := d.epoch+1
    budgets := { d.budgets with workerAttemptsInEpoch := 0 } }

/-- The interrupted recovery of `__init__`: a file that says RUNNING was left by a
process that died. -/
def recovered (d : StateData) : StateData :=
  if d.executionStatus = .running then d.withStatus .interrupted else d

section fields

variable (d : StateData) (st : FsmState) (status : ExecutionStatus) (details ts : String)
  (b : BlockedReason) (m : AuditModel) (f : Budgets → Budgets)

@[simp] theorem transitioned_state : (d.transitioned st details ts).currentState = st := rfl
@[simp] theorem transitioned_status :
    (d.transitioned st details ts).executionStatus = d.executionStatus := rfl
@[simp] theorem transitioned_epoch : (d.transitioned st details ts).epoch = d.epoch := rfl
@[simp] theorem transitioned_budgets :
    (d.transitioned st details ts).budgets = d.budgets := rfl
@[simp] theorem transitioned_audit :
    (d.transitioned st details ts).auditModelUsed = d.auditModelUsed := rfl
@[simp] theorem transitioned_blocked :
    (d.transitioned st details ts).blockedReason = d.blockedReason := rfl
@[simp] theorem transitioned_history : (d.transitioned st details ts).history =
    d.history++[⟨ts,d.currentState,st,details,d.epoch⟩] := rfl

@[simp] theorem withStatus_state : (d.withStatus status).currentState = d.currentState := rfl
@[simp] theorem withStatus_status : (d.withStatus status).executionStatus = status := rfl
@[simp] theorem withStatus_epoch : (d.withStatus status).epoch = d.epoch := rfl
@[simp] theorem withStatus_budgets : (d.withStatus status).budgets = d.budgets := rfl
@[simp] theorem withStatus_audit : (d.withStatus status).auditModelUsed = d.auditModelUsed := rfl
@[simp] theorem withStatus_blocked : (d.withStatus status).blockedReason = d.blockedReason := rfl
@[simp] theorem withStatus_history : (d.withStatus status).history = d.history := rfl

@[simp] theorem blocked_state : (d.blocked b).currentState = d.currentState := rfl
@[simp] theorem blocked_status : (d.blocked b).executionStatus = d.executionStatus := rfl
@[simp] theorem blocked_epoch : (d.blocked b).epoch = d.epoch := rfl
@[simp] theorem blocked_budgets : (d.blocked b).budgets = d.budgets := rfl
@[simp] theorem blocked_audit : (d.blocked b).auditModelUsed = d.auditModelUsed := rfl
@[simp] theorem blocked_blocked : (d.blocked b).blockedReason = some b := rfl
@[simp] theorem blocked_history : (d.blocked b).history = d.history := rfl

@[simp] theorem auditedBy_state : (d.auditedBy m).currentState = d.currentState := rfl
@[simp] theorem auditedBy_status : (d.auditedBy m).executionStatus = d.executionStatus := rfl
@[simp] theorem auditedBy_epoch : (d.auditedBy m).epoch = d.epoch := rfl
@[simp] theorem auditedBy_budgets : (d.auditedBy m).budgets = d.budgets := rfl
@[simp] theorem auditedBy_audit : (d.auditedBy m).auditModelUsed = some m := rfl
@[simp] theorem auditedBy_history : (d.auditedBy m).history = d.history := rfl

@[simp] theorem withBudgets_state : (d.withBudgets f).currentState = d.currentState := rfl
@[simp] theorem withBudgets_status : (d.withBudgets f).executionStatus = d.executionStatus := rfl
@[simp] theorem withBudgets_epoch : (d.withBudgets f).epoch = d.epoch := rfl
@[simp] theorem withBudgets_budgets : (d.withBudgets f).budgets = f d.budgets := rfl
@[simp] theorem withBudgets_audit : (d.withBudgets f).auditModelUsed = d.auditModelUsed := rfl
@[simp] theorem withBudgets_history : (d.withBudgets f).history = d.history := rfl

@[simp] theorem newEpoch_state : d.newEpoch.currentState = d.currentState := rfl
@[simp] theorem newEpoch_status : d.newEpoch.executionStatus = d.executionStatus := rfl
@[simp] theorem newEpoch_epoch : d.newEpoch.epoch = d.epoch+1 := rfl
@[simp] theorem newEpoch_budgets :
    d.newEpoch.budgets = { d.budgets with workerAttemptsInEpoch := 0 } := rfl
@[simp] theorem newEpoch_audit : d.newEpoch.auditModelUsed = d.auditModelUsed := rfl
@[simp] theorem newEpoch_history : d.newEpoch.history = d.history := rfl

end fields

/-- Recovery touches the status alone. -/
theorem recovered_eq (d : StateData) :
    d.recovered = d.withStatus d.recovered.executionStatus := by
  unfold recovered
  split_ifs with h
  · rfl
  · rfl

theorem recovered_status_ne_running (d : StateData) :
    d.recovered.executionStatus ≠ .running := by
  unfold recovered
  split_ifs with h
  · simp
  · exact h

end StateData

end SoftwareFactory
