import SoftwareFactory.Orchestrator.Pipeline

namespace SoftwareFactory

open Process

namespace Env

variable {τ : Type} (env : Env τ)

/-- The branch names in the output of `git branch --list`. -/
def branchNames (stdout : String) : List String :=
  (PyText.splitLines stdout).map fun b => PyText.lstripChars ['*','+',' '] (PyText.strip b)

def branchExists : Job τ Bool := do
  let branchCheck ← env.runGit (.branchList env.taskBranch)
  return env.taskBranch ∈ branchNames branchCheck.stdout

/-- A clean merge recovery leaves `true`; a refused or failed one touches no state. -/
def resumeMerge : Job τ Bool := do
  let sm := env.stateManager false
  sm.load env.config
  if !(StateManager.canResumeMerge (← Proc.get).data).1 then return false
  if !(← env.branchExists) then return false
  if !(← env.isRepoClean).1 then return false
  if !(← env.executeFastForwardMerge).1 then return false
  sm.transition .autoMerge
    s!"Fast-Forward merge successfully recovered into '{env.baseBranch}'."
  StateManager.setExecutionStatus .completed
  return true

/-- The checks `can_resume_audit` adds when it is given `repo_root`. -/
def canResumeInRepo : Job τ (Bool × String) := do
  if !(← env.branchExists) then
    return (false,s!"Branch '{env.taskBranch}' does not exist.")
  if !(← Proc.ask env.worktreeExists) then
    return (false,s!"Worktree directory '.worktrees/wt_{env.taskId}' does not exist.")
  let wtStatus ← env.runGit (.status true)
  if !wtStatus.ok ∨ PyText.strip wtStatus.stdout ≠ "" then
    return (false,s!"Worktree '.worktrees/wt_{env.taskId}' has uncommitted modifications:\n" ++
      PyText.strip wtStatus.stdout)
  let rootStatus ← env.runGit (.status false)
  if !rootStatus.ok ∨ PyText.strip rootStatus.stdout ≠ "" then
    return (false,"Main repository has uncommitted modifications:\n" ++
      PyText.strip rootStatus.stdout)
  let ancestorCheck ← env.runGit (.isAncestor env.baseBranch env.taskBranch)
  if !ancestorCheck.ok then
    return (false,(s!"TREE DIVERGENCE DETECTED: The base branch '{env.baseBranch}' is not " ++
      s!"an ancestor of '{env.taskBranch}'. ") ++
      "Fast-Forward merge will not be possible without reconciliation. " ++
      "Worktree preserved; audit call aborted to avoid unnecessary cost. " ++
      "Reconcile manually (e.g. rebase) before resuming audit.")
  return (true,"Task authorized for audit recovery.")

def canResumeAudit : Job τ (Bool × String) := do
  let m ← Proc.get
  if !(StateManager.canResumeAuditFsm m.data).1 then
    return StateManager.canResumeAuditFsm m.data
  env.canResumeInRepo

/-- The end of `resume_audit`, once the audit has passed. -/
def mergeAudited (sm : StateManager) (modelInfo : AuditModel) : Job τ Bool := do
  let ancestorCheck ← env.runGit (.isAncestor env.baseBranch env.taskBranch)
  if !ancestorCheck.ok then
    sm.haltHuman (s!"Fast-Forward merge blocked: TREE DIVERGENCE DETECTED: The branch " ++
      s!"'{env.baseBranch}' received commits after audit started. Worktree preserved. " ++
      "Manual reconciliation required.") false
    return false
  sm.transition .autoMerge (s!"Audit passed ({modelInfo.provider}:{modelInfo.model}). " ++
    "Detaching worktree and merging into dev...")
  Proc.emit .removeWorktree
  let (mergePassed,mergeMsg) ← env.executeFastForwardMerge
  if !mergePassed then
    sm.haltHuman s!"Fast-Forward merge failed: {mergeMsg}" false
    return false
  StateManager.setExecutionStatus .completed
  return true

/-- `resume_audit` from the transition to `LOGIC_AUDIT` on. -/
def auditAgain (sm : StateManager) : Job τ Bool := do
  let provider := PyText.upper (env.securityRole.provider.getD "gemini")
  let model := env.securityRole.model.getD "gemini-3.8-flash"
  sm.transition .logicAudit s!"Resuming security invariant audit ({provider}:{model})..."
  let diffRes ← env.runGit (.diff env.baseBranch)
  if !diffRes.ok then
    sm.haltHuman ("Diff calculation failed in worktree: " ++ env.sanitizeSecretText
      (calledProcessError (.diff env.baseBranch) diffRes).message) false
    return false
  let res ← env.logicSecurityAudit sm diffRes.stdout false
  if !res.passed then return false
  match res.modelInfo with
  | some modelInfo => env.mergeAudited sm modelInfo
  | none => Proc.stop (.raised (.other "TypeError" "'NoneType' object is not subscriptable"))

def resumeAudit (raiseOnHalt : Bool) : Job τ Bool := do
  let sm := env.stateManager raiseOnHalt
  sm.load env.config
  if !(← env.canResumeAudit).1 then return false
  if !(← Proc.ask env.specExists) then return false
  env.auditAgain sm

end Env

end SoftwareFactory
