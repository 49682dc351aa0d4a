import SoftwareFactory.Orchestrator.Event

namespace SoftwareFactory

open Process

/-- A `StateManager` object without its data, and what it uses of the machine: the
credential sanitizer and the clock. -/
structure StateManager where
  taskId : String
  raiseOnHalt : Bool
  sanitizeSecretText : String → String
  now : Nat → String

namespace StateManager

variable {τ : Type} (sm : StateManager)

/-- Change the data in memory, then `save()`. -/
def update (f : StateData → StateData) : Job τ Unit := do
  let m ← Proc.get
  Proc.modify fun m => { m with data := f m.data }
  Proc.emit (.save (f m.data))

/-- `__init__`: read the state file, or create it. -/
def load (config : Config) : Job τ Unit := do
  match stateFile (← Proc.emitted) with
  | some d =>
    if d.executionStatus = .running then update fun _ => d.withStatus .interrupted
    else Proc.modify fun m => { m with data := d }
  | none => update fun _ => initState sm.taskId config

def transition (newState : FsmState) (details : String) : Job τ Unit := do
  let timestamp ← Proc.ask sm.now
  update fun d => d.transitioned newState (sm.sanitizeSecretText details) timestamp

/-- `transition` as callers outside the module reach it, with a state by name. -/
def transitionNamed (newState details : String) : Job τ Unit :=
  match FsmState.ofName newState with
  | some st => sm.transition st details
  | none => Proc.stop (.raised (.other "ValueError"
      s!"Invalid state '{newState}'. Must be one of: {validStates.map FsmState.name}"))

def setExecutionStatus (status : ExecutionStatus) : Job τ Unit :=
  update fun d => d.withStatus status

def crashReport (d : StateData) (date reason : String) : String :=
  let b := d.budgets
  s!"# CIRCUIT BREAKER TRIGGERED - {sm.taskId}\n\n" ++
  s!"- **Date:** {date}\n" ++
  s!"- **Reason:** {reason}\n" ++
  s!"- **Final Epoch:** {d.epoch}\n" ++
  s!"- **Total Worker Builds:** {b.totalCumulativeWorkerRuns}/{b.maxCumulativeWorkerRuns}\n" ++
  s!"- **Logic Replans Used:** {b.logicReplansUsed}/{b.maxLogicReplans}\n" ++
  s!"- **Security Replans Used:** {b.securityReplansUsed}/{b.maxSecurityReplans}\n" ++
  s!"- **Spec Syntax Retries Used:** {b.specSyntaxRetriesUsed}/{b.maxSpecSyntaxRetries}\n\n" ++
  "The task worktree has been frozen for preservation and forensic analysis.\n"

/-- What follows the reports of `halt_human` and `request_human_review`: raise, exit, or
return to the caller. -/
def leave (error : String) (exitProcess : Bool) (code : Nat) : Job τ Unit :=
  if sm.raiseOnHalt then Proc.stop (.raised (.other "RuntimeError" error))
  else if exitProcess then Proc.stop (.exited code)
  else pure ()

def haltHuman (reason : String) (exitProcess : Bool := true) : Job τ Unit := do
  let safeReason := sm.sanitizeSecretText reason
  sm.transition .haltHuman safeReason
  setExecutionStatus .failed
  let date ← Proc.ask sm.now
  let m ← Proc.get
  Proc.emit (.report s!"CRASH_REPORT_{sm.taskId}.md" (sm.crashReport m.data date safeReason))
  sm.leave s!"Circuit Breaker triggered: {safeReason}" exitProcess 1

def humanReviewReport (date gate reason : String) : String :=
  s!"# HUMAN REVIEW REQUIRED - {sm.taskId}\n\n" ++
  s!"- **Date:** {date}\n" ++
  s!"- **Gate:** {gate}\n" ++
  s!"- **Reason:** {reason}\n" ++
  "- **Task Status:** Prior gates (SPEC, DIFF, TESTS, SAST) passed successfully.\n" ++
  "- **Budget Action:** NO Worker attempts or logic/security replans were consumed.\n" ++
  s!"- **Worktree:** Code generated in `.worktrees/wt_{sm.taskId}` is preserved and intact.\n\n" ++
  "Pipeline paused in a safe state (`NEEDS_HUMAN_REVIEW`).\n"

def requestHumanReview (reason : String) (gate : String := "LOGIC_AUDIT")
    (exitProcess : Bool := true) : Job τ Unit := do
  let safeReason := sm.sanitizeSecretText reason
  sm.transition .humanReview
    s!"Human review / service unavailable at {gate}: {safeReason}"
  setExecutionStatus .needsHumanReview
  let timestamp ← Proc.ask sm.now
  update fun d => d.blocked ⟨gate,safeReason,timestamp⟩
  let date ← Proc.ask sm.now
  Proc.emit (.report s!"HUMAN_REVIEW_{sm.taskId}.md"
    (sm.humanReviewReport date gate safeReason))
  sm.leave s!"Human review required ({gate}): {safeReason}" exitProcess 0

def countWorkerRun (b : Budgets) : Budgets :=
  { b with
    totalCumulativeWorkerRuns := b.totalCumulativeWorkerRuns+1
    workerAttemptsInEpoch := b.workerAttemptsInEpoch+1 }

def registerWorkerRun : Job τ Bool := do
  let b := (← Proc.get).data.budgets
  if b.workerAttemptsInEpoch ≥ b.maxWorkerPerEpoch then
    sm.haltHuman (s!"Worker attempt limit per epoch exceeded " ++
      s!"({b.maxWorkerPerEpoch} attempts per epoch).")
    return false
  if b.totalCumulativeWorkerRuns ≥ b.maxCumulativeWorkerRuns then
    sm.haltHuman "Global cumulative worker build budget exceeded (ceiling of 5 runs)."
    return false
  update fun d => d.withBudgets countWorkerRun
  return true

def canWorkerRetryInEpoch (d : StateData) : Bool :=
  d.budgets.workerAttemptsInEpoch < d.budgets.maxWorkerPerEpoch

/-- The common body of the three retry budgets: count first, save, then compare with the
maximum, and halt when it is passed. -/
def consume (count : Budgets → Budgets) (exhausted : Budgets → Bool) (message : String)
    (granted : Job τ Unit) : Job τ Bool := do
  update fun d => d.withBudgets count
  if exhausted (← Proc.get).data.budgets then
    sm.haltHuman message
    return false
  granted
  return true

def newEpoch : Job τ Unit := update StateData.newEpoch

def countSpecSyntaxRetry (b : Budgets) : Budgets :=
  { b with specSyntaxRetriesUsed := b.specSyntaxRetriesUsed+1 }

def countLogicReplan (b : Budgets) : Budgets :=
  { b with logicReplansUsed := b.logicReplansUsed+1 }

def countSecurityReplan (b : Budgets) : Budgets :=
  { b with securityReplansUsed := b.securityReplansUsed+1 }

def consumeSpecSyntaxRetry (reason : String) : Job τ Bool :=
  sm.consume countSpecSyntaxRetry (fun b => b.specSyntaxRetriesUsed > b.maxSpecSyntaxRetries)
    s!"SPEC syntax retry budget exhausted: {reason}" (pure ())

def consumeLogicReplan (reason : String) : Job τ Bool :=
  sm.consume countLogicReplan (fun b => b.logicReplansUsed > b.maxLogicReplans)
    s!"Logic replanning budget exhausted: {reason}" newEpoch

def consumeSecurityReplan (reason : String) : Job τ Bool :=
  sm.consume countSecurityReplan (fun b => b.securityReplansUsed > b.maxSecurityReplans)
    s!"Security redesign budget exhausted: {reason}" newEpoch

def recordAuditModel (provider model : String) : Job τ Unit :=
  update fun d => d.auditedBy
    ⟨PyText.lower (PyText.strip (sm.sanitizeSecretText provider)),
      PyText.strip (sm.sanitizeSecretText model)⟩

/-- The last transition is a halt of the merge step. -/
def canResumeMerge (d : StateData) : Bool × String :=
  if d.currentState ≠ .haltHuman then
    (false,s!"current_state must be 'HALT_HUMAN', actual: '{d.currentState.name}'")
  else if d.executionStatus ≠ .failed then
    (false,s!"execution_status must be 'FAILED', actual: '{d.executionStatus.name}'")
  else match d.history.getLast? with
    | none => (false,"Transition history is empty.")
    | some last =>
      if last.fromState ≠ .autoMerge ∨ last.toState ≠ .haltHuman then
        (false,s!"Last transition must be 'AUTO_MERGE -> HALT_HUMAN', " ++
          s!"actual: '{last.fromState.name} -> {last.toState.name}'")
      else if !PyText.contains (PyText.lower last.details) "merge" then
        (false,s!"Failure cause does not correspond to a merge failure: '{last.details}'")
      else (true,"Task authorized for merge recovery.")

def isAuditSuspension (t : HistoryEntry) : Bool :=
  t.fromState = .logicAudit ∧ t.toState = .humanReview

/-- `can_resume_audit()` without `repo_root`: the check of the state file alone. -/
def canResumeAuditFsm (d : StateData) : Bool × String :=
  if d.currentState ≠ .humanReview then
    (false,s!"current_state must be 'HUMAN_REVIEW', actual: '{d.currentState.name}'")
  else if d.executionStatus ≠ .needsHumanReview then
    (false,s!"execution_status must be 'NEEDS_HUMAN_REVIEW', actual: '{d.executionStatus.name}'")
  else if d.blockedReason.map BlockedReason.gate ≠ some "LOGIC_AUDIT" then
    let gate := (d.blockedReason.map BlockedReason.gate).getD "None"
    (false,s!"blocked_reason.gate must be 'LOGIC_AUDIT', actual: '{gate}'")
  else if d.history = [] then (false,"Transition history is empty.")
  else if !d.history.any isAuditSuspension then
    (false,"History does not contain a 'LOGIC_AUDIT -> HUMAN_REVIEW' transition.")
  else (true,"Task authorized for audit recovery.")

end StateManager

end SoftwareFactory
