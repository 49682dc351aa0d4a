import SoftwareFactory.Orchestrator.Audit

namespace SoftwareFactory

open Process

/-- The surroundings of one process: its command line, the configuration files, and what
the gates, models and git commands answer when they are called after `n` events. -/
structure Env (τ : Type) where
  taskId : String
  baseBranch : String
  simulate : Bool
  configFile : Option Config
  legacyConfigFile : Option Config
  hasApiKey : AdapterKind → Bool
  sanitizeSecretText : String → String
  now : Nat → String
  runDiscovery : Nat → Bool
  specExists : Nat → Bool
  readSpec : Nat → Except PyExc String
  generateSpec : Nat → Except PyExc String
  validateSpec : Nat → Bool × String
  createWorktree : Nat → Bool × String
  worktreeExists : Nat → Bool
  generateCodeAndTests : Nat → Option Feedback → τ → τ × Except PyExc Unit
  git : Nat → GitCommand → CommandResult
  validateDiff : Nat → Bool × List String
  runTests : Nat → Bool × TestFailure
  triageFailure : Nat → TestFailure → Except PyExc TriageOutput
  runSast : Nat → SastExit × List Finding
  filterSecurityFinding : Nat → Finding → Except PyExc SecurityFilterOutput
  auditors : Nat → Auditors

namespace Env

variable {τ : Type} (env : Env τ)

def taskBranch : String := s!"task/{env.taskId}"

def stateManager (raiseOnHalt : Bool) : StateManager :=
  ⟨env.taskId,raiseOnHalt,env.sanitizeSecretText,env.now⟩

/-- What the history records of a merge that failed with message `m`: `halt_human` and
`transition` both sanitize. -/
def mergeHaltText (m : String) : String :=
  env.sanitizeSecretText (env.sanitizeSecretText s!"Fast-Forward merge failed: {m}")

def config : Config := resolveConfig env.configFile env.legacyConfigFile

/-- `roles.logic_security` of `load_orchestrator_config`, which reads no legacy file. -/
def securityRole : SecurityRole := (env.configFile.bind Config.logicSecurity).getD .empty

/-- `subprocess.run` of a git command. -/
def runGit (cmd : GitCommand) : Job τ CommandResult := do
  let res ← Proc.ask fun n => env.git n cmd
  let m ← Proc.get
  Proc.modify fun m => { m with repo := m.repo.after cmd res }
  Proc.emit (.git cmd m.repo res)
  return res

def calledProcessError (cmd : GitCommand) (res : CommandResult) : PyExc :=
  .other "CalledProcessError"
    s!"Command '{cmd.args}' returned non-zero exit status {res.returncode}."

/-- `subprocess.check_output`. -/
def checkOutput (cmd : GitCommand) : Job τ String := do
  let res ← env.runGit cmd
  if res.ok then return res.stdout
  else Proc.stop (.raised (calledProcessError cmd res))

/-- `execute_logic_security_audit` as the orchestrator calls it. The specification is read inside
the call. -/
def logicSecurityAudit (sm : StateManager) (diffOutput : String) (exitProcess : Bool) :
    Job τ AuditResult := do
  let spec ← Proc.ask env.readSpec
  let specContent ← Proc.attempt spec
    (Proc.emit (.executeLogicSecurityAudit diffOutput env.securityRole))
  let auditors ← Proc.ask env.auditors
  let res ← sm.executeLogicSecurityAudit ⟨env.hasApiKey,auditors,specContent,diffOutput,
    env.securityRole,env.simulate,exitProcess⟩
  Proc.emit (.auditReturned res.passed)
  return res

end Env

/-- Surroundings in which nothing goes wrong: every gate passes, every command succeeds and
the auditor says PASS. File trees are numbers; the Worker's files are tree 1. -/
def calmEnv : Env Nat where
  taskId := "TASK-001"
  baseBranch := "dev"
  simulate := false
  configFile := none
  legacyConfigFile := none
  hasApiKey := fun _ => true
  sanitizeSecretText := id
  now := fun n => toString n
  runDiscovery := fun _ => true
  specExists := fun _ => true
  readSpec := fun _ => .ok "# SPEC"
  generateSpec := fun _ => .ok "# SPEC"
  validateSpec := fun _ => (true,"")
  createWorktree := fun _ => (true,".worktrees/wt_TASK-001")
  worktreeExists := fun _ => true
  generateCodeAndTests := fun _ _ _ => (1,.ok ())
  git := fun _ _ => ⟨0,"",""⟩
  validateDiff := fun _ => (true,[])
  runTests := fun _ => (true,⟨"","",0⟩)
  triageFailure := fun _ _ => .ok ⟨"","",0,"","",""⟩
  runSast := fun _ => (.noFindings,[])
  filterSecurityFinding := fun _ _ => .ok ⟨"",.falsePositive,""⟩
  auditors := fun _ _ _ _ _ => .ok ⟨.pass,[],none,""⟩

/-- A base branch with tree 0 and no task branch. -/
def freshRepo : Repo Nat := ⟨0,none,0,0⟩

end SoftwareFactory
