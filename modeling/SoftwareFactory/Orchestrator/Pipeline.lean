import SoftwareFactory.Scripts.MergeGate

namespace SoftwareFactory

open Process

/-- How a stretch of the build loop ends: it goes on, or it is left by `continue` with the
triage information for the next attempt, or by `return`. -/
inductive Control (α : Type) where
  | proceed (a : α)
  | again (triageInfo : Option Feedback)
  | leave
  deriving DecidableEq, Repr

def Control.andThen {τ α β : Type} (m : Job τ (Control α)) (f : α → Job τ (Control β)) :
    Job τ (Control β) := do
  match ← m with
  | .proceed a => f a
  | .again triageInfo => return .again triageInfo
  | .leave => return .leave

namespace Env

variable {τ : Type} (env : Env τ) (sm : StateManager)

/-- `SPEC_DESIGN`, left out when the specification is there already. -/
def specDesign : Job τ Unit := do
  if ← Proc.ask env.specExists then return ()
  sm.transition .specDesign "Generating specification with Architect..."
  let _ ← Proc.tryCall env.generateSpec .generateSpec
  return ()

/-- `SPEC_GATE`; the one retry validates the same file again. -/
def specGate : Job τ Bool := do
  env.specDesign sm
  sm.transition .specGate "Validating SPEC.md contract..."
  let (specValid,specMsg) ← Proc.call env.validateSpec fun r => .validateSpec r.1 r.2
  if specValid then return true
  if !(← sm.consumeSpecSyntaxRetry specMsg) then return false
  let (specValid,specMsg) ← Proc.call env.validateSpec fun r => .validateSpec r.1 r.2
  if specValid then return true
  sm.haltHuman s!"Spec failed gate after retry: {specMsg}"
  return false

def worktreeIsolation : Job τ Bool := do
  let (wtOk,wtDir) ← Proc.ask env.createWorktree
  Proc.modify fun m => if wtOk then { m with repo := m.repo.attach } else m
  Proc.emit (.createWorktree wtOk wtDir)
  if wtOk then return true
  sm.haltHuman s!"Failed to create worktree: {wtDir}"
  return false

/-- The Worker writes files into the worktree, whether or not it raises in the end. -/
def callWorker (triageInfo : Option Feedback) : Job τ Unit := do
  let m ← Proc.get
  let (files,res) ← Proc.ask fun n => env.generateCodeAndTests n triageInfo m.repo.work
  Proc.emit (.generateCodeAndTests m.data.epoch triageInfo)
  Proc.modify fun m => { m with repo := m.repo.write files }
  match res with
  | .ok _ => return ()
  | .error e => Proc.stop (.raised e)

/-- The Worker is given the specification, and is not called if that cannot be read. -/
def invokeWorker (triageInfo : Option Feedback) : Job τ Unit := do
  let spec ← Proc.ask env.readSpec
  let _ ← Proc.attempt spec (pure ())
  env.callWorker triageInfo

def commitChanges : Job τ Unit := do
  let _ ← env.runGit .addAll
  let m ← Proc.get
  let _ ← env.runGit (.commit s!"feat({env.taskId}): epoch {m.data.epoch} build")
  return ()

def building (triageInfo : Option Feedback) : Job τ (Control Unit) := do
  let m ← Proc.get
  sm.transition .building (s!"Epoch {m.data.epoch} - Worker attempt " ++
    s!"{m.data.budgets.workerAttemptsInEpoch+1}")
  if !(← sm.registerWorkerRun) then return .leave
  env.invokeWorker triageInfo
  env.commitChanges
  return .proceed ()

/-- `DIFF_GATE`; the result of `consume_logic_replan` is not looked at. -/
def diffGate (triageInfo : Option Feedback) : Job τ (Control Unit) := do
  sm.transition .diffGate "Verifying allowed modification boundaries..."
  let (diffPassed,violations) ← Proc.call env.validateDiff fun r => .validateDiff r.1 r.2
  if diffPassed then return .proceed ()
  if StateManager.canWorkerRetryInEpoch (← Proc.get).data then
    return .again (some (.diffViolations violations))
  let _ ← sm.consumeLogicReplan "Persistent code boundary violation (Diff Gate)."
  return .again triageInfo

def testingGate : Job τ (Control Unit) := do
  sm.transition .testing "Running test suite with coverage analysis..."
  let m ← Proc.get
  let (testsPassed,payload) ← Proc.call env.runTests fun r => .runTests m.repo.work r.1
  if testsPassed then return .proceed ()
  sm.transition .triaging "Analyzing failure with Triage Model..."
  let triageRes ← Proc.tryCall (fun n => env.triageFailure n payload) .triageFailure
  if StateManager.canWorkerRetryInEpoch (← Proc.get).data then
    return .again (some (.triage triageRes))
  if ← sm.consumeLogicReplan s!"Test failure: {triageRes.rootCause}" then
    return .again (some (.triage triageRes))
  return .leave

/-- The filter loop: does it come upon a true positive? -/
def filterFindings : List Finding → Job τ Bool
  | [] => return false
  | f::fs => do
    let filtRes ← Proc.tryCall (fun n => env.filterSecurityFinding n f)
      (.filterSecurityFinding f)
    if filtRes.classification = .truePositive then return true
    filterFindings fs

/-- Only `EXIT_FINDINGS` is told apart from the other exit codes. -/
def sastFilter (sastCode : SastExit) (findings : List Finding) : Job τ Bool := do
  if sastCode = .findings then
    sm.transition .sastFilter "Filtering SAST findings..."
    env.filterFindings findings
  else return false

def sastGate (triageInfo : Option Feedback) : Job τ (Control Unit) := do
  sm.transition .sastScan "Running static application security testing (SAST)..."
  let m ← Proc.get
  let (sastCode,findings) ← Proc.call env.runSast fun r => .runSast m.repo.work r.1
  if !(← env.sastFilter sm sastCode findings) then return .proceed ()
  if ← sm.consumeSecurityReplan "Confirmed critical SAST vulnerability" then
    return .again triageInfo
  return .leave

def auditGate (triageInfo : Option Feedback) : Job τ (Control AuditModel) := do
  let diffOutput ← env.checkOutput (.diff env.baseBranch)
  let res ← env.logicSecurityAudit sm diffOutput (!sm.raiseOnHalt)
  if !res.passed then
    if res.output.map LogicAuditOutput.status = some .fail then return .again triageInfo
    return .leave
  match res.modelInfo with
  | some modelInfo => return .proceed modelInfo
  | none => Proc.stop (.raised (.other "TypeError" "'NoneType' object is not subscriptable"))

/-- One round of the build loop. -/
def buildRound (triageInfo : Option Feedback) :
    Job τ (Option Feedback ⊕ Option AuditModel) := do
  let gates := Control.andThen (env.building sm triageInfo) fun _ =>
    Control.andThen (env.diffGate sm triageInfo) fun _ =>
    Control.andThen (env.testingGate sm) fun _ =>
    Control.andThen (env.sastGate sm triageInfo) fun _ => env.auditGate sm triageInfo
  match ← gates with
  | .proceed modelInfo => return .inr (some modelInfo)
  | .again triageInfo => return .inl triageInfo
  | .leave => return .inr none

/-- More rounds than the Worker budget leaves room for. -/
def buildFuel (d : StateData) : Nat :=
  (d.budgets.maxCumulativeWorkerRuns-d.budgets.totalCumulativeWorkerRuns).toNat+1

def buildLoop : Job τ (Option AuditModel) := do
  Proc.loop (env.buildRound sm) (buildFuel (← Proc.get).data) none

def autoMerge (modelInfo : AuditModel) : Job τ Unit := do
  sm.transition .autoMerge (s!"Gates passed (audit verified by " ++
    s!"{modelInfo.provider}:{modelInfo.model}). Detaching worktree and merging into dev...")
  Proc.emit .removeWorktree
  let (mergePassed,mergeMsg) ← env.executeFastForwardMerge
  if mergePassed then StateManager.setExecutionStatus .completed
  else sm.haltHuman s!"Fast-Forward merge failed: {mergeMsg}"

/-- `run_pipeline` once the pre-flight checks have passed. -/
def runTask : Job τ Unit := do
  let sm := env.stateManager false
  sm.load env.config
  sm.transition .init "Initialization completed and environment validated."
  if !(← env.specGate sm) then return ()
  if !(← env.worktreeIsolation sm) then return ()
  match ← env.buildLoop sm with
  | some modelInfo => env.autoMerge sm modelInfo
  | none => return ()

def runPipeline : Job τ Unit := do
  if ← Proc.call env.runDiscovery .runDiscovery then env.runTask
  else Proc.stop (.exited 1)

end Env

end SoftwareFactory
