import SoftwareFactory.Lib.Flow
import SoftwareFactory.Orchestrator.Recovery

namespace SoftwareFactory

open Process

/-- The three entry points of the orchestrator. -/
inductive Program where
  | pipeline
  | resumeMerge
  | resumeAudit
  deriving DecidableEq, Repr

/-- Where a process is between two of its events. The points from `auditPending` to
`merged` are shared by the programs and say which one is running; in `securityReplan` and
`renewing` it is there when the replan was asked for by the logic audit. -/
inductive Point where
  | launched
  | opening (p : Program)
  | opened (p : Program)
  | specifying
  | designing
  | designed
  | gating
  | specRetry
  | regating
  | isolating
  | building
  | registering
  | working
  | staging
  | committing
  | committed
  | diffGating
  | diffPassed
  | testing
  | testsFailed
  | triaging
  | retrying
  | logicReplan
  | securityReplan (p : Option Program)
  | renewing (p : Option Program)
  | testsPassed
  | scanning
  | filterPending
  | filtering
  | scanned
  | checkingMerge
  | checkingAudit
  | diffing
  | auditPending (p : Program) (diff : String)
  | auditing (p : Program) (left : List Candidate)
  | asking (p : Program) (c : Candidate) (left : List Candidate)
  | querying (p : Program) (c : Candidate) (left : List Candidate)
  | recording (p : Program)
  | approved (p : Program)
  | rejected (p : Program)
  | checkingAncestor
  | mergePending (p : Program)
  | detaching (p : Program)
  | merging (p : Program)
  | fastForwarded (p : Program)
  | merged (p : Program)
  | mergeFailed (p : Program) (message : String)
  | completing
  | completed
  | halting
  | failing
  | crashReport
  | halted
  | suspending
  | pausing
  | blocking
  | reviewReport
  | suspended
  | crashed
  | refused
  deriving DecidableEq, Repr

/-- Where a program begins. -/
def Program.entry : Program → Point
  | .pipeline => .launched
  | p => .opening p

/-- Where a program goes on after a passed audit. -/
def Program.afterPass : Program → Point
  | .pipeline => .mergePending .pipeline
  | _ => .checkingAncestor

/-- Where a program goes on after the verdict FAIL: the pipeline builds again. -/
def Program.afterFail : Program → Point
  | .pipeline => .building
  | _ => .refused

/-- The transitions: in which point, to which FSM state with which recorded details, and
the point after it. The details matter where a failed merge is recorded: `text` is what
becomes of its message. -/
inductive Enters (text : String → String) : Point → FsmState → String → Point → Prop
  | init (s : String) : Enters text (.opened .pipeline) .init s .specifying
  | specDesign (s : String) : Enters text .specifying .specDesign s .designing
  | specGate (s : String) : Enters text .specifying .specGate s .gating
  | specGateDesigned (s : String) : Enters text .designed .specGate s .gating
  | building (s : String) : Enters text .building .building s .registering
  | diffGate (s : String) : Enters text .committed .diffGate s .diffGating
  | testing (s : String) : Enters text .diffPassed .testing s .testing
  | triaging (s : String) : Enters text .testsFailed .triaging s .triaging
  | sastScan (s : String) : Enters text .testsPassed .sastScan s .scanning
  | sastFilter (s : String) : Enters text .filterPending .sastFilter s .filtering
  | resumeAudit (s : String) : Enters text .checkingAudit .logicAudit s .diffing
  | fallback (s : String) (p : Program) (c : Candidate) (left : List Candidate)
      (h : c.isFallback = true) :
      Enters text (.auditing p (c::left)) .logicAudit s (.asking p c left)
  | autoMerge (s : String) (p : Program) :
      Enters text (.mergePending p) .autoMerge s (.detaching p)
  | recovered (s : String) : Enters text (.merged .resumeMerge) .autoMerge s .completing
  | halt (s : String) : Enters text .halting .haltHuman s .failing
  | mergeHalt (p : Program) (m : String) (h : p ≠ .resumeMerge) :
      Enters text (.mergeFailed p m) .haltHuman (text m) .failing
  | review (s : String) : Enters text .suspending .humanReview s .pausing

/-- The other saves: `d` is the data before, `d'` what is saved. -/
inductive Writes (d : StateData) : Point → StateData → Point → Prop
  | specRetry : Writes d .specRetry (d.withBudgets StateManager.countSpecSyntaxRetry)
      (if d.budgets.specSyntaxRetriesUsed+1 > d.budgets.maxSpecSyntaxRetries then .halting
        else .regating)
  | worker (he : d.budgets.workerAttemptsInEpoch < d.budgets.maxWorkerPerEpoch)
      (hc : d.budgets.totalCumulativeWorkerRuns < d.budgets.maxCumulativeWorkerRuns) :
      Writes d .registering (d.withBudgets StateManager.countWorkerRun) .working
  | logicReplan : Writes d .logicReplan (d.withBudgets StateManager.countLogicReplan)
      (if d.budgets.logicReplansUsed+1 > d.budgets.maxLogicReplans then .halting
        else .renewing none)
  | securityReplan (p : Option Program) :
      Writes d (.securityReplan p) (d.withBudgets StateManager.countSecurityReplan)
      (if d.budgets.securityReplansUsed+1 > d.budgets.maxSecurityReplans then .halting
        else .renewing p)
  | newEpoch : Writes d (.renewing none) d.newEpoch .building
  | newEpochAudit (p : Program) : Writes d (.renewing (some p)) d.newEpoch (.rejected p)
  | record (p : Program) (m : AuditModel) : Writes d (.recording p) (d.auditedBy m) (.approved p)
  | fail : Writes d .failing (d.withStatus .failed) .crashReport
  | pause : Writes d .pausing (d.withStatus .needsHumanReview) .blocking
  | block (reason ts : String) : Writes d .blocking (d.blocked ⟨"LOGIC_AUDIT",reason,ts⟩)
      .reviewReport
  | complete (p : Program) (h : p ≠ .resumeMerge) :
      Writes d (.merged p) (d.withStatus .completed) .completed
  | completeRecovered : Writes d .completing (d.withStatus .completed) .completed

/-- Where an auditor's answer leads. -/
inductive Answers (p : Program) (left : List Candidate) :
    Except PyExc LogicAuditOutput → Point → Prop
  | unavailable (e : PyExc) (h : e.isAvailabilityFailure = true) :
      Answers p left (.error e) (.auditing p left)
  | other (e : PyExc) (h : e.isAvailabilityFailure = false) : Answers p left (.error e) .halting
  | fail (out : LogicAuditOutput) (h : out.status = .fail) :
      Answers p left (.ok out) (.securityReplan (some p))
  | review (out : LogicAuditOutput) (h : out.status = .unavailable ∨ out.status = .uncertain) :
      Answers p left (.ok out) .suspending
  | live (out : LogicAuditOutput) (h : out.status = .simulated) : Answers p left (.ok out) .halting
  | pass (out : LogicAuditOutput) (h : out.status = .pass ∨ out.status = .simulated) :
      Answers p left (.ok out) (.recording p)

variable {τ : Type}

/-- The other events: `d` is the data, `r` and `r'` are the trees before and after. -/
inductive Calls (d : StateData) (r : Repo τ) : Point → Event τ → Repo τ → Point → Prop
  | discovery (b : Bool) : Calls d r .launched (.runDiscovery b) r
      (if b then .opening .pipeline else .refused)
  | generateSpec (text : String) : Calls d r .designing (.generateSpec (.ok text)) r .designed
  | generateSpecRaises (e : PyExc) : Calls d r .designing (.generateSpec (.error e)) r .crashed
  | validateSpec (b : Bool) (m : String) : Calls d r .gating (.validateSpec b m) r
      (if b then .isolating else .specRetry)
  | revalidateSpec (b : Bool) (m : String) : Calls d r .regating (.validateSpec b m) r
      (if b then .isolating else .halting)
  | createWorktree (info : String) :
      Calls d r .isolating (.createWorktree true info) r.attach .building
  | createWorktreeFails (info : String) :
      Calls d r .isolating (.createWorktree false info) r .halting
  | worker (fb : Option Feedback) (files : τ) :
      Calls d r .working (.generateCodeAndTests d.epoch fb) (r.write files) .staging
  | add (res : CommandResult) :
      Calls d r .staging (.git .addAll r res) (r.after .addAll res) .committing
  | commit (m : String) (res : CommandResult) :
      Calls d r .committing (.git (.commit m) r res) (r.after (.commit m) res) .committed
  | diffGate (b : Bool) (vs : List String) : Calls d r .diffGating (.validateDiff b vs) r
      (if b then .diffPassed else .retrying)
  | runTests (b : Bool) : Calls d r .testing (.runTests r.work b) r
      (if b then .testsPassed else .testsFailed)
  | triage (out : TriageOutput) : Calls d r .triaging (.triageFailure (.ok out)) r .retrying
  | triageRaises (e : PyExc) : Calls d r .triaging (.triageFailure (.error e)) r .crashed
  | sast (code : SastExit) : Calls d r .scanning (.runSast r.work code) r
      (if code = .findings then .filterPending else .scanned)
  | filter (f : Finding) (out : SecurityFilterOutput) :
      Calls d r .filtering (.filterSecurityFinding f (.ok out)) r
        (if out.classification = .truePositive then .securityReplan none else .filtering)
  | filterRaises (f : Finding) (e : PyExc) :
      Calls d r .filtering (.filterSecurityFinding f (.error e)) r .crashed
  | diff (base : String) (res : CommandResult) : Calls d r .scanned (.git (.diff base) r res) r
      (if res.ok then .auditPending .pipeline res.stdout else .crashed)
  | diffAgain (base : String) (res : CommandResult) :
      Calls d r .diffing (.git (.diff base) r res) r
        (if res.ok then .auditPending .resumeAudit res.stdout else .halting)
  | audit (p : Program) (diff : String) (role : SecurityRole) :
      Calls d r (.auditPending p diff) (.executeLogicSecurityAudit diff role) r
        (.auditing p role.candidates)
  | adapter (p : Program) (c : Candidate) (left : List Candidate) :
      Calls d r (.asking p c left) (.createSecurityAdapter c.provider c.model) r
        (.querying p c left)
  | unknownProvider (p : Program) (c : Candidate) (left : List Candidate) :
      Calls d r (.asking p c left) (.createSecurityAdapter c.provider c.model) r .halting
  | query (p : Program) (c : Candidate) (left : List Candidate) (client : Adapter)
      (res : Except PyExc LogicAuditOutput) (q : Point) (h : Answers p left res q) :
      Calls d r (.querying p c left) (.auditLogicAndSecurity client res) r q
  | approve (p : Program) : Calls d r (.approved p) (.auditReturned true) r p.afterPass
  | reject (p : Program) : Calls d r (.rejected p) (.auditReturned false) r p.afterFail
  | haltedAudit : Calls d r .halted (.auditReturned false) r .refused
  | suspendedAudit : Calls d r .suspended (.auditReturned false) r .refused
  | ancestor (base branch : String) (res : CommandResult) :
      Calls d r .checkingAncestor (.git (.isAncestor base branch) r res) r
        (if res.ok then .mergePending .resumeAudit else .halting)
  | checkMerge (cmd : GitCommand) (res : CommandResult) (h : cmd.isQuery = true) :
      Calls d r .checkingMerge (.git cmd r res) r .checkingMerge
  | checkAudit (cmd : GitCommand) (res : CommandResult) (h : cmd.isQuery = true) :
      Calls d r .checkingAudit (.git cmd r res) r .checkingAudit
  | detach (p : Program) : Calls d r (.detaching p) .removeWorktree r (.merging p)
  | checkGate (p : Program) (cmd : GitCommand) (res : CommandResult) (h : cmd.isQuery = true) :
      Calls d r (.merging p) (.git cmd r res) r (.merging p)
  | fastForward (p : Program) (branch : String) (res : CommandResult) :
      Calls d r (.merging p) (.git (.mergeFfOnly branch) r res) (r.after (.mergeFfOnly branch) res)
        (if res.ok then .fastForwarded p else .merging p)
  | mergePassed (p : Program) (m : String) :
      Calls d r (.fastForwarded p) (.executeFastForwardMerge true m r.base) r (.merged p)
  | mergeRefused (p : Program) (m : String) :
      Calls d r (.merging p) (.executeFastForwardMerge false m r.base) r (.mergeFailed p m)
  | crashReport (path text : String) : Calls d r .crashReport (.report path text) r .halted
  | reviewReport (path text : String) : Calls d r .reviewReport (.report path text) r .suspended

/-- Choices the program makes without an event; `d` is the data in memory. -/
inductive Chooses (d : StateData) : Point → Point → Prop
  | denied (h : d.budgets.maxWorkerPerEpoch ≤ d.budgets.workerAttemptsInEpoch ∨
      d.budgets.maxCumulativeWorkerRuns ≤ d.budgets.totalCumulativeWorkerRuns) :
      Chooses d .registering .halting
  | specUnread : Chooses d .working .crashed
  | workerRaises : Chooses d .staging .crashed
  | auditUnread (p : Program) (left : List Candidate) : Chooses d (.auditing p left) .crashed
  | retry (h : StateManager.canWorkerRetryInEpoch d = true) : Chooses d .retrying .building
  | replan (h : StateManager.canWorkerRetryInEpoch d = false) : Chooses d .retrying .logicReplan
  | filtered : Chooses d .filtering .scanned
  | primary (p : Program) (c : Candidate) (left : List Candidate) (h : c.isFallback = false) :
      Chooses d (.auditing p (c::left)) (.asking p c left)
  | exhausted (p : Program) : Chooses d (.auditing p []) .suspending
  | refuseMerge (h : (StateManager.canResumeMerge d).1 = false) :
      Chooses d (.opened .resumeMerge) .refused
  | allowMerge (h : (StateManager.canResumeMerge d).1 = true) :
      Chooses d (.opened .resumeMerge) .checkingMerge
  | leaveMerge : Chooses d .checkingMerge .refused
  | startMerge : Chooses d .checkingMerge (.merging .resumeMerge)
  | failedAgain (m : String) : Chooses d (.mergeFailed .resumeMerge m) .refused
  | refuseAudit (h : (StateManager.canResumeAuditFsm d).1 = false) :
      Chooses d (.opened .resumeAudit) .refused
  | allowAudit (h : (StateManager.canResumeAuditFsm d).1 = true) :
      Chooses d (.opened .resumeAudit) .checkingAudit
  | leaveAudit : Chooses d .checkingAudit .refused

theorem Calls.isSave {d : StateData} {r r' : Repo τ} {p q : Point} {e : Event τ}
    (h : Calls d r p e r' q) : e.isSave = false := by
  cases h <;> rfl

/-- One step of a process. -/
inductive Step (text : String → String) : Flow Point (Memory τ) (Event τ)
  | load (p : Program) (sm : StateManager) (config : Config) (w : TaskWorld τ) :
      Step text (.opening p,w) (.opened p,(sm.load config w).2)
  | enter {p q : Point} {st : FsmState} {details : String} (h : Enters text p st details q)
      (ts : String) (w : TaskWorld τ) :
      Step text (p,w) (q,saved w (w.mem.data.transitioned st details ts))
  | write {p q : Point} {w : TaskWorld τ} {d : StateData} (h : Writes w.mem.data p d q) :
      Step text (p,w) (q,saved w d)
  | call {p q : Point} {w : TaskWorld τ} {e : Event τ} {r : Repo τ}
      (h : Calls w.mem.data w.mem.repo p e r q) :
      Step text (p,w) (q,⟨{ w.mem with repo := r },w.trace++[e]⟩)
  | move {p q : Point} {w : TaskWorld τ} (h : Chooses w.mem.data p q) : Step text (p,w) (q,w)

end SoftwareFactory
