import SoftwareFactory.Orchestrator.Env

namespace SoftwareFactory

open Process

namespace Env

variable {τ : Type} (env : Env τ)

def isRepoClean : Job τ (Bool × String) := do
  let res ← env.runGit (.status false)
  return (res.ok && PyText.strip res.stdout = "",PyText.strip res.stdout)

def divergedMessage (baseBranch taskBranch taskId : String) : String :=
  s!"TREE DIVERGENCE DETECTED: The branch '{baseBranch}' received manual commits " ++
  s!"while the orchestrator was working on '{taskBranch}'.\n" ++
  "To resolve it safely:\n" ++
  s!"  git checkout {taskBranch}\n" ++
  s!"  git rebase {baseBranch}\n" ++
  s!"  git checkout {baseBranch}\n" ++
  s!"  python scripts/merge_gate.py {taskId} {baseBranch}"

def fastForward : Job τ (Bool × String) := do
  let (clean,dirtyFiles) ← env.isRepoClean
  if !clean then
    return (false,"Main repository has uncommitted modifications. Merge aborted.\n" ++
      s!"Detected files:\n{dirtyFiles}")
  let coRes ← env.runGit (.checkout env.baseBranch)
  if !coRes.ok then
    return (false,s!"Failed to checkout base branch '{env.baseBranch}': " ++
      PyText.strip coRes.stderr)
  let ancestorCheck ← env.runGit (.isAncestor env.baseBranch env.taskBranch)
  if !ancestorCheck.ok then
    return (false,divergedMessage env.baseBranch env.taskBranch env.taskId)
  let mergeRes ← env.runGit (.mergeFfOnly env.taskBranch)
  if !mergeRes.ok then
    return (false,s!"Fast-Forward merge failed: {PyText.strip mergeRes.stderr}")
  return (true,s!"Successful Fast-Forward merge of '{env.taskBranch}' into " ++
    s!"'{env.baseBranch}'.")

def executeFastForwardMerge : Job τ (Bool × String) := do
  let (passed,message) ← env.fastForward
  let m ← Proc.get
  Proc.emit (.executeFastForwardMerge passed message m.repo.base)
  return (passed,message)

end Env

end SoftwareFactory
