namespace SoftwareFactory

/-- The git commands the orchestrator runs, each with the argument list of its
`subprocess` call in `args`. -/
inductive GitCommand where
  | addAll
  | commit (message : String)
  | diff (base : String)
  | status (inWorktree : Bool)
  | branchList (branch : String)
  | checkout (branch : String)
  | isAncestor (base branch : String)
  | mergeFfOnly (branch : String)
  deriving DecidableEq, Repr

def GitCommand.args : GitCommand → List String
  | .addAll => ["git","add","."]
  | .commit m => ["git","commit","-m",m]
  | .diff b => ["git","diff",s!"{b}...HEAD"]
  | .status _ => ["git","status","--porcelain"]
  | .branchList b => ["git","branch","--list",b]
  | .checkout b => ["git","checkout",b]
  | .isAncestor b t => ["git","merge-base","--is-ancestor",b,t]
  | .mergeFfOnly t => ["git","merge","--ff-only",t]

/-- The commands that only look. -/
def GitCommand.isQuery : GitCommand → Bool
  | .addAll => false
  | .commit _ => false
  | .mergeFfOnly _ => false
  | _ => true

structure CommandResult where
  returncode : Int
  stdout : String
  stderr : String
  deriving DecidableEq, Repr

def CommandResult.ok (r : CommandResult) : Bool := r.returncode = 0

/-- The file trees git keeps for one task: the tip of the base branch, the tip of
`task/<id>` once that branch exists, and the index and files of the worktree. -/
@[ext] structure Repo (τ : Type) where
  base : τ
  task : Option τ
  index : τ
  work : τ
  deriving DecidableEq, Repr

namespace Repo

variable {τ : Type}

/-- A new task branch starts at the base branch. -/
def head (r : Repo τ) : τ := r.task.getD r.base

/-- `git worktree add`: an existing task branch is reused, else it is created, and the
fresh worktree is a checkout of its tip. -/
def attach (r : Repo τ) : Repo τ := ⟨r.base,some r.head,r.head,r.head⟩

def write (r : Repo τ) (files : τ) : Repo τ := { r with work := files }

/-- What a command that exits with 0 does to the trees. -/
def applied (r : Repo τ) : GitCommand → Repo τ
  | .addAll => { r with index := r.work }
  | .commit _ => { r with task := some r.index }
  | .mergeFfOnly _ => { r with base := r.head }
  | _ => r

def after (r : Repo τ) (cmd : GitCommand) (res : CommandResult) : Repo τ :=
  if res.ok then r.applied cmd else r

end Repo

end SoftwareFactory
