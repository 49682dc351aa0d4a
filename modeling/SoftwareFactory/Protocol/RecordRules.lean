import SoftwareFactory.Protocol.Session

namespace SoftwareFactory

open Process

variable {τ : Type}

/-- The events that leave a text in a file: the state file and the reports. -/
def Event.isRecord : Event τ → Bool
  | .save _ => true
  | .report _ _ => true
  | _ => false

/-- The events besides records and merges. -/
def Event.isRoutine : Event τ → Bool
  | .save _ => false
  | .report _ _ => false
  | .git (.mergeFfOnly _) _ _ => false
  | .executeFastForwardMerge _ _ _ => false
  | _ => true

theorem isSave_of_isRecord {e : Event τ} (he : e.isRecord = false) : e.isSave = false := by
  cases e <;> simp_all [Event.isRecord,Event.isSave]

theorem isRecord_of_isRoutine {e : Event τ} (he : e.isRoutine = true) : e.isRecord = false := by
  cases e <;> simp_all [Event.isRecord,Event.isRoutine]

/-- What every single write of the orchestrator keeps before a merge, once the state file is
loaded; `clean` is its sanitizer. -/
structure Keeping (clean : String → String) (I : TaskWorld τ → Prop) : Prop where
  trees : ∀ {w} r,I w → I ⟨{ w.mem with repo := r },w.trace⟩
  event : ∀ {w} e,Event.isRoutine e = true → I w → I (w.emit e)
  transition : ∀ {w} st s timestamp,st ≠ .autoMerge → I w →
    I (saved w (w.mem.data.transitioned st (clean s) timestamp))
  status : ∀ {w} status,I w → I (saved w (w.mem.data.withStatus status))
  budgets : ∀ {w} count,I w → I (saved w (w.mem.data.withBudgets count))
  newEpoch : ∀ {w},I w → I (saved w w.mem.data.newEpoch)
  blocked : ∀ {w} s timestamp,I w →
    I (saved w (w.mem.data.blocked ⟨"LOGIC_AUDIT",clean s,timestamp⟩))
  audited : ∀ {w} provider model,I w → I (saved w (w.mem.data.auditedBy
    ⟨PyText.lower (PyText.strip (clean provider)),PyText.strip (clean model)⟩))
  crash : ∀ {w} (sm : StateManager) path d date s,I w →
    I (w.emit (.report path (sm.crashReport d date (clean s))))
  review : ∀ {w} (sm : StateManager) path date s,I w →
    I (w.emit (.report path (sm.humanReviewReport date "LOGIC_AUDIT" (clean s))))

/-- What a merge keeps, too. -/
structure MergeKeeping (clean : String → String) (J : TaskWorld τ → Prop) : Prop
    extends Keeping clean J where
  merge : ∀ {w} e,Event.isRecord e = false → J w → J (w.emit e)
  autoMerge : ∀ {w} s timestamp,J w →
    J (saved w (w.mem.data.transitioned .autoMerge (clean s) timestamp))

/-- From what holds of a process before it has loaded the state file to what holds after. -/
structure Opening (I₀ I : TaskWorld τ → Prop) : Prop where
  discovery : ∀ {w} passed,I₀ w → I₀ (w.emit (.runDiscovery passed))
  fresh : ∀ {w} taskId config,stateFile w.trace = none → I₀ w →
    I (saved w (initState taskId config))
  restored : ∀ {w} d,stateFile w.trace = some d → I₀ w →
    I ⟨{ w.mem with data := d },w.trace⟩

namespace Keeping

variable {α β : Type} {I₀ I J : TaskWorld τ → Prop}

theorem ask (answer : Nat → α) : Keeps I (Proc.ask answer : Job τ α) := fun _ h => h

theorem read : Keeps I (Proc.get : Job τ (Memory τ)) := fun _ h => h

theorem branch {c : Prop} [Decidable c] {m m' : Job τ α} (h : Keeps I m) (h' : Keeps I m') :
    Keeps I (if c then m else m') := by
  split_ifs
  · exact h
  · exact h'

theorem andThen {m : Job τ (Control α)} {f : α → Job τ (Control β)} (hm : Keeps I m)
    (hf : ∀ a,Keeps I (f a)) : Keeps I (Control.andThen m f) := by
  refine hm.bind fun r => ?_
  cases r with
  | proceed a => exact hf a
  | again triageInfo => exact .pure _
  | leave => exact .pure _

section manager

variable {sm : StateManager} {clean : String → String}

theorem emit (h : Keeping clean I) (e : Event τ)
    (he : e.isRoutine = true) : Keeps I (Proc.emit e : Job τ Unit) := fun _ hw => h.event e he hw

theorem call (h : Keeping clean I) (answer : Nat → α)
    (event : α → Event τ) (he : ∀ a,(event a).isRoutine = true) :
    Keeps I (Proc.call answer event : Job τ α) :=
  (ask answer).bind fun a => (h.emit _ (he a)).bind fun _ => .pure a

theorem tryCall (h : Keeping clean I) (answer : Nat → Except PyExc α)
    (event : Except PyExc α → Event τ) (he : ∀ r,(event r).isRoutine = true) :
    Keeps I (Proc.tryCall answer event : Job τ α) := by
  refine (h.call answer event he).bind fun r => ?_
  cases r with
  | ok a => exact .pure a
  | error e => exact .stop _

theorem write (h : Keeping clean I) (f : Repo τ → Repo τ) :
    Keeps I (Proc.modify fun m => { m with repo := f m.repo } : Job τ Unit) :=
  fun w hw => h.trees (f w.mem.repo) hw

theorem opens_load (h₀ : Opening I₀ I) (h : Keeping clean I) (config : Config) :
    Triple I₀ (sm.load config : Job τ Unit) (fun _ => I) (fun _ w => I₀ w ∨ I w) := by
  intro w hw
  cases hfile : stateFile w.trace with
  | none =>
    rw [sm.load_none config w hfile]
    exact h₀.fresh sm.taskId config hfile hw
  | some d =>
    have hd := h₀.restored d hfile hw
    rw [sm.load_some config w d hfile,StateData.recovered]
    split_ifs
    · exact h.status .interrupted hd
    · exact hd

theorem keeps_transition (h : Keeping sm.sanitizeSecretText I) {st : FsmState}
    (hst : st ≠ .autoMerge) (details : String) :
    Keeps I (sm.transition st details : Job τ Unit) :=
  fun w hw => h.transition st details (sm.now w.trace.length) hst hw

theorem keeps_status (h : Keeping clean I) (status : ExecutionStatus) :
    Keeps I (StateManager.setExecutionStatus status : Job τ Unit) :=
  fun _ hw => h.status status hw

theorem keeps_newEpoch (h : Keeping clean I) :
    Keeps I (StateManager.newEpoch : Job τ Unit) := fun _ hw => h.newEpoch hw

theorem keeps_leave (error : String) (exitProcess : Bool) (code : Nat) :
    Keeps I (sm.leave error exitProcess code : Job τ Unit) :=
  branch (.stop _) (branch (.stop _) (.pure ()))

theorem keeps_haltHuman (h : Keeping sm.sanitizeSecretText I) (reason : String)
    (exitProcess : Bool) :
    Keeps I (sm.haltHuman reason exitProcess : Job τ Unit) := by
  refine (keeps_transition h (by decide) _).bind fun _ => (keeps_status h _).bind fun _ => ?_
  refine (ask _).bind fun date => read.bind fun m => ?_
  have hreport : Keeps I (Proc.emit (.report s!"CRASH_REPORT_{sm.taskId}.md"
      (sm.crashReport m.data date (sm.sanitizeSecretText reason))) : Job τ Unit) :=
    fun _ hw => h.crash sm _ m.data date reason hw
  exact hreport.bind fun _ => keeps_leave _ _ _

theorem keeps_requestHumanReview (h : Keeping sm.sanitizeSecretText I) (reason : String)
    (exitProcess : Bool) :
    Keeps I (sm.requestHumanReview reason "LOGIC_AUDIT" exitProcess : Job τ Unit) := by
  refine (keeps_transition h (by decide) _).bind fun _ => (keeps_status h _).bind fun _ => ?_
  refine (ask _).bind fun timestamp => ?_
  have hblocked : Keeps I (StateManager.update fun d =>
      d.blocked ⟨"LOGIC_AUDIT",sm.sanitizeSecretText reason,timestamp⟩ : Job τ Unit) :=
    fun _ hw => h.blocked reason timestamp hw
  refine hblocked.bind fun _ => (ask _).bind fun date => ?_
  have hreport : Keeps I (Proc.emit (.report s!"HUMAN_REVIEW_{sm.taskId}.md"
      (sm.humanReviewReport date "LOGIC_AUDIT" (sm.sanitizeSecretText reason))) : Job τ Unit) :=
    fun _ hw => h.review sm _ date reason hw
  exact hreport.bind fun _ => keeps_leave _ _ _

theorem keeps_registerWorkerRun (h : Keeping sm.sanitizeSecretText I) :
    Keeps I (sm.registerWorkerRun : Job τ Bool) := by
  refine read.bind fun m => ?_
  refine branch ((keeps_haltHuman h _ _).bind fun _ => .pure false) ?_
  refine branch ((keeps_haltHuman h _ _).bind fun _ => .pure false) ?_
  have hcount : Keeps I (StateManager.update fun d =>
      d.withBudgets StateManager.countWorkerRun : Job τ Unit) := fun _ hw => h.budgets _ hw
  exact hcount.bind fun _ => .pure true

theorem keeps_consume (h : Keeping sm.sanitizeSecretText I) (count : Budgets → Budgets)
    (exhausted : Budgets → Bool) (message : String) {granted : Job τ Unit}
    (hgranted : Keeps I granted) :
    Keeps I (sm.consume count exhausted message granted : Job τ Bool) := by
  have hcount : Keeps I (StateManager.update fun d => d.withBudgets count : Job τ Unit) :=
    fun _ hw => h.budgets count hw
  refine hcount.bind fun _ => read.bind fun m => ?_
  refine branch ((keeps_haltHuman h _ _).bind fun _ => .pure false) ?_
  exact hgranted.bind fun _ => .pure true

theorem keeps_recordAuditModel (h : Keeping sm.sanitizeSecretText I) (provider model : String) :
    Keeps I (sm.recordAuditModel provider model : Job τ Unit) :=
  fun _ hw => h.audited provider model hw

end manager

section audit

variable {sm : StateManager} (call : AuditCall)

theorem keeps_judge (h : Keeping sm.sanitizeSecretText I) (c : Candidate) (res : LogicAuditOutput) :
    Keeps I (sm.judge call c res : Job τ AuditResult) := by
  refine branch ((keeps_consume h _ _ _ (keeps_newEpoch h)).bind fun _ => .pure _) ?_
  refine branch ((keeps_requestHumanReview h _ _).bind fun _ => .pure _) ?_
  refine branch ((keeps_haltHuman h _ _).bind fun _ => .pure _) ?_
  exact (keeps_recordAuditModel h _ _).bind fun _ => .pure _

theorem keeps_announceFallback (h : Keeping sm.sanitizeSecretText I) (c : Candidate) :
    Keeps I (sm.announceFallback c : Job τ Unit) :=
  branch (keeps_transition h (by decide) _) (.pure ())

attribute [local irreducible] StateManager.auditCandidates

theorem keeps_auditCandidates (h : Keeping sm.sanitizeSecretText I) (i : Nat)
    (cs : List Candidate) (errors : List String) :
    Keeps I (sm.auditCandidates call i cs errors : Job τ AuditResult) := by
  induction cs generalizing i errors with
  | nil =>
    rw [StateManager.auditCandidates]
    exact (keeps_requestHumanReview h _ _).bind fun _ => .pure _
  | cons c cs ih =>
    rw [StateManager.auditCandidates]
    have hcreate : Keeps I (Proc.emit (.createSecurityAdapter c.provider c.model) : Job τ Unit) :=
      h.emit _ rfl
    generalize createSecurityAdapter call.hasApiKey c.provider c.model call.simulate = created
    refine (keeps_announceFallback h c).bind fun _ => ?_
    refine hcreate.bind fun _ => ?_
    cases created with
    | error e => exact (keeps_haltHuman h _ _).bind fun _ => .pure _
    | ok client =>
      dsimp only
      generalize call.auditors i client call.specContent call.diffOutput = res
      refine (h.emit (.auditLogicAndSecurity client res) rfl).bind fun _ => ?_
      cases res with
      | ok out => exact keeps_judge call h c out
      | error e =>
        cases e with
        | networkTransport => exact ih _ _
        | _ => exact branch (ih _ _) ((keeps_haltHuman h _ _).bind fun _ => .pure _)

theorem keeps_executeAudit (h : Keeping sm.sanitizeSecretText I) :
    Keeps I (sm.executeLogicSecurityAudit call : Job τ AuditResult) := by
  refine (h.emit (.executeLogicSecurityAudit call.diffOutput call.role) rfl).bind fun _ => ?_
  exact keeps_auditCandidates call h 0 call.role.candidates []

end audit

section programs

variable (env : Env τ) {sm : StateManager}

attribute [local irreducible] StateManager.executeLogicSecurityAudit

theorem keeps_runGit {clean : String → String} (h : Keeping clean I) {cmd : GitCommand}
    (hcmd : ∀ branch,cmd ≠ .mergeFfOnly branch) : Keeps I (env.runGit cmd) := by
  refine (ask _).bind fun res => read.bind fun m => ?_
  refine (h.write fun r => r.after cmd res).bind fun _ => ?_
  have hroutine : (Event.git cmd m.repo res).isRoutine = true := by
    cases cmd with
    | mergeFfOnly branch => exact absurd rfl (hcmd branch)
    | _ => rfl
  exact (h.emit (.git cmd m.repo res) hroutine).bind fun _ => .pure res

theorem keeps_attempt (res : Except PyExc α) {onError : Job τ Unit} (h : Keeps I onError) :
    Keeps I (Proc.attempt res onError) := by
  cases res with
  | ok a => exact .pure a
  | error e => exact h.bind fun _ => .stop _

theorem keeps_logicSecurityAudit (h : Keeping sm.sanitizeSecretText I) (diff : String)
    (exitProcess : Bool) : Keeps I (env.logicSecurityAudit sm diff exitProcess) := by
  refine (ask _).bind fun spec => (keeps_attempt spec (h.emit _ rfl)).bind fun specContent => ?_
  refine (ask _).bind fun auditors => ?_
  refine (keeps_executeAudit _ h).bind fun res => ?_
  exact (h.emit (.auditReturned res.passed) rfl).bind fun _ => .pure res

theorem keeps_specDesign (h : Keeping sm.sanitizeSecretText I) : Keeps I (env.specDesign sm) := by
  refine (ask _).bind fun found => branch (.pure ()) ?_
  refine (keeps_transition h (by decide) _).bind fun _ => ?_
  exact (h.tryCall env.generateSpec .generateSpec fun _ => rfl).bind fun _ => .pure ()

theorem keeps_specGate (h : Keeping sm.sanitizeSecretText I) : Keeps I (env.specGate sm) := by
  have hvalidate := h.call env.validateSpec (fun r => .validateSpec r.1 r.2) fun _ => rfl
  refine (keeps_specDesign env h).bind fun _ => (keeps_transition h (by decide) _).bind fun _ => ?_
  refine hvalidate.bind fun r => branch (.pure true) ?_
  refine (keeps_consume h _ _ _ (.pure ())).bind fun granted => branch (.pure false) ?_
  refine hvalidate.bind fun r => branch (.pure true) ?_
  exact (keeps_haltHuman h _ _).bind fun _ => .pure false

theorem keeps_worktreeIsolation (h : Keeping sm.sanitizeSecretText I) :
    Keeps I (env.worktreeIsolation sm) := by
  refine (ask _).bind fun r => ?_
  have hattach : Keeps I (Proc.modify fun m =>
      if r.1 then { m with repo := m.repo.attach } else m : Job τ Unit) := by
    intro w hw
    rw [Proc.modify_apply]
    split_ifs
    · exact h.trees w.mem.repo.attach hw
    · exact hw
  refine hattach.bind fun _ => (h.emit (.createWorktree r.1 r.2) rfl).bind fun _ => ?_
  refine branch (.pure true) ?_
  exact (keeps_haltHuman h _ _).bind fun _ => .pure false

theorem keeps_callWorker {clean : String → String} (h : Keeping clean I)
    (triageInfo : Option Feedback) : Keeps I (env.callWorker triageInfo) := by
  refine read.bind fun m => (ask _).bind fun r => ?_
  refine (h.emit (.generateCodeAndTests m.data.epoch triageInfo) rfl).bind fun _ => ?_
  refine (h.write fun repo => repo.write r.1).bind fun _ => ?_
  obtain ⟨files,res⟩ := r
  cases res with
  | ok _ => exact .pure ()
  | error e => exact .stop _

theorem keeps_invokeWorker {clean : String → String} (h : Keeping clean I)
    (triageInfo : Option Feedback) : Keeps I (env.invokeWorker triageInfo) := by
  refine (ask _).bind fun spec => (keeps_attempt spec (.pure ())).bind fun _ => ?_
  exact keeps_callWorker env h triageInfo

theorem keeps_building (h : Keeping sm.sanitizeSecretText I) (triageInfo : Option Feedback) :
    Keeps I (env.building sm triageInfo) := by
  refine read.bind fun m => (keeps_transition h (by decide) _).bind fun _ => ?_
  refine (keeps_registerWorkerRun h).bind fun granted => branch (.pure _) ?_
  refine (keeps_invokeWorker env h triageInfo).bind fun _ => ?_
  have hcommit : Keeps I env.commitChanges :=
    (keeps_runGit env h fun _ => GitCommand.noConfusion).bind fun _ => read.bind fun m =>
      (keeps_runGit env h fun _ => GitCommand.noConfusion).bind fun _ => .pure ()
  exact hcommit.bind fun _ => .pure _

theorem keeps_diffGate (h : Keeping sm.sanitizeSecretText I) (triageInfo : Option Feedback) :
    Keeps I (env.diffGate sm triageInfo) := by
  refine (keeps_transition h (by decide) _).bind fun _ => ?_
  refine (h.call env.validateDiff (fun r => .validateDiff r.1 r.2) fun _ => rfl).bind fun r => ?_
  refine branch (.pure _) (read.bind fun m => branch (.pure _) ?_)
  exact (keeps_consume h _ _ _ (keeps_newEpoch h)).bind fun _ => .pure _

theorem keeps_testingGate (h : Keeping sm.sanitizeSecretText I) :
    Keeps I (env.testingGate sm) := by
  refine (keeps_transition h (by decide) _).bind fun _ => read.bind fun m => ?_
  refine (h.call env.runTests (fun r => .runTests m.repo.work r.1) fun _ => rfl).bind fun r => ?_
  refine branch (.pure _) ((keeps_transition h (by decide) _).bind fun _ => ?_)
  refine (h.tryCall _ .triageFailure fun _ => rfl).bind fun triage => ?_
  refine read.bind fun m => branch (.pure _) ?_
  refine (keeps_consume h _ _ _ (keeps_newEpoch h)).bind fun granted => ?_
  exact branch (.pure _) (.pure _)

theorem keeps_filterFindings {clean : String → String} (h : Keeping clean I)
    (findings : List Finding) : Keeps I (env.filterFindings findings) := by
  induction findings with
  | nil => exact .pure false
  | cons f fs ih =>
    refine (h.tryCall _ (.filterSecurityFinding f) fun _ => rfl).bind fun r => ?_
    exact branch (.pure true) ih

theorem keeps_sastGate (h : Keeping sm.sanitizeSecretText I) (triageInfo : Option Feedback) :
    Keeps I (env.sastGate sm triageInfo) := by
  refine (keeps_transition h (by decide) _).bind fun _ => read.bind fun m => ?_
  refine (h.call env.runSast (fun r => .runSast m.repo.work r.1) fun _ => rfl).bind fun r => ?_
  have hfilter : Keeps I (env.sastFilter sm r.1 r.2) :=
    branch ((keeps_transition h (by decide) _).bind fun _ => keeps_filterFindings env h r.2)
      (.pure false)
  refine hfilter.bind fun found => branch (.pure _) ?_
  refine (keeps_consume h _ _ _ (keeps_newEpoch h)).bind fun granted => ?_
  exact branch (.pure _) (.pure _)

theorem keeps_mergeFfOnly {clean : String → String} (h : MergeKeeping clean J)
    (branch : String) : Keeps J (env.runGit (.mergeFfOnly branch)) := by
  refine (ask _).bind fun res => read.bind fun m => ?_
  refine (h.write fun r => r.after (.mergeFfOnly branch) res).bind fun _ => ?_
  have hmerge : Keeps J (Proc.emit (.git (.mergeFfOnly branch) m.repo res) : Job τ Unit) :=
    fun _ hw => h.merge _ rfl hw
  exact hmerge.bind fun _ => .pure res

theorem keeps_executeFastForwardMerge {clean : String → String} (h : MergeKeeping clean J) :
    Keeps J env.executeFastForwardMerge := by
  have hk := h.toKeeping
  have hclean : Keeps J env.isRepoClean :=
    (keeps_runGit env hk fun _ => GitCommand.noConfusion).bind fun res => .pure _
  have hmerge : Keeps J env.fastForward := by
    refine hclean.bind fun r => branch (.pure _) ?_
    refine (keeps_runGit env hk fun _ => GitCommand.noConfusion).bind fun coRes => ?_
    refine branch (.pure _) ?_
    refine (keeps_runGit env hk fun _ => GitCommand.noConfusion).bind fun ancestorCheck => ?_
    refine branch (.pure _) ?_
    exact (keeps_mergeFfOnly env h _).bind fun mergeRes => branch (.pure _) (.pure _)
  refine hmerge.bind fun r => read.bind fun m => ?_
  have hdone : Keeps J (Proc.emit (.executeFastForwardMerge r.1 r.2 m.repo.base) : Job τ Unit) :=
    fun _ hw => h.merge _ rfl hw
  exact hdone.bind fun _ => .pure _

theorem keeps_enterMerge (h : MergeKeeping sm.sanitizeSecretText J) (details : String) :
    Keeps J (sm.transition .autoMerge details : Job τ Unit) :=
  fun w hw => h.autoMerge details (sm.now w.trace.length) hw

theorem keeps_autoMerge (h : MergeKeeping sm.sanitizeSecretText J) (modelInfo : AuditModel) :
    Keeps J (env.autoMerge sm modelInfo) := by
  have hk := h.toKeeping
  refine (keeps_enterMerge h _).bind fun _ => (hk.emit .removeWorktree rfl).bind fun _ => ?_
  refine (keeps_executeFastForwardMerge env h).bind fun r => ?_
  exact branch (keeps_status hk _) (keeps_haltHuman hk _ _)

theorem keeps_mergeAudited (h : MergeKeeping sm.sanitizeSecretText J) (modelInfo : AuditModel) :
    Keeps J (env.mergeAudited sm modelInfo) := by
  have hk := h.toKeeping
  refine (keeps_runGit env hk fun _ => GitCommand.noConfusion).bind fun ancestorCheck => ?_
  refine branch ((keeps_haltHuman hk _ _).bind fun _ => .pure false) ?_
  refine (keeps_enterMerge h _).bind fun _ => (hk.emit .removeWorktree rfl).bind fun _ => ?_
  refine (keeps_executeFastForwardMerge env h).bind fun r => ?_
  refine branch ((keeps_haltHuman hk _ _).bind fun _ => .pure false) ?_
  exact (keeps_status hk _).bind fun _ => .pure true

theorem keeps_branchExists {clean : String → String} (h : Keeping clean I) :
    Keeps I env.branchExists :=
  (keeps_runGit env h fun _ => GitCommand.noConfusion).bind fun _ => .pure _

theorem keeps_canResumeAudit {clean : String → String} (h : Keeping clean I) :
    Keeps I env.canResumeAudit := by
  refine read.bind fun m => branch (.pure _) ?_
  refine (keeps_branchExists env h).bind fun found => branch (.pure _) ?_
  refine (ask _).bind fun present => branch (.pure _) ?_
  refine (keeps_runGit env h fun _ => GitCommand.noConfusion).bind fun wtStatus => ?_
  refine branch (.pure _) ?_
  refine (keeps_runGit env h fun _ => GitCommand.noConfusion).bind fun rootStatus => ?_
  refine branch (.pure _) ?_
  refine (keeps_runGit env h fun _ => GitCommand.noConfusion).bind fun ancestorCheck => ?_
  exact branch (.pure _) (.pure _)

end programs

end Keeping

/-- The phases of a process: `I₀` before the state file is loaded, `I` after, and `J` once the
task is approved for the merge, by an audit now or by the record of an earlier one. -/
structure Phases (env : Env τ) (I₀ I J : TaskWorld τ → Prop) : Prop where
  opening : Opening I₀ I
  working : Keeping env.sanitizeSecretText I
  merging : MergeKeeping env.sanitizeSecretText J
  falls : ∀ {w},J w → I w
  recovered : ∀ {w},I w → (StateManager.canResumeMerge w.mem.data).1 = true → J w
  approved : ∀ raiseOnHalt diff exitProcess,Triple I
    (env.logicSecurityAudit (env.stateManager raiseOnHalt) diff exitProcess)
    (fun res w => if res.passed then J w else I w) (fun _ => I)

namespace Phases

open Keeping

attribute [local irreducible] Env.logicSecurityAudit

variable {α β : Type} {env : Env τ} {I₀ I J : TaskWorld τ → Prop}

/-- A process that knows one invariant. -/
theorem single (h₀ : Opening I₀ I) (h : MergeKeeping env.sanitizeSecretText I) :
    Phases env I₀ I I where
  opening := h₀
  working := h.toKeeping
  merging := h
  falls := fun hw => hw
  recovered := fun hw _ => hw
  approved := by
    intro raiseOnHalt diff exitProcess
    have hk : Keeping (env.stateManager raiseOnHalt).sanitizeSecretText I := h.toKeeping
    refine (keeps_logicSecurityAudit env hk diff exitProcess).mono (fun _ hw => hw) ?_
      (fun _ _ hw => hw)
    intro res w hw
    split_ifs
    · exact hw
    · exact hw

theorem triple {m : Job τ α} (h : Keeps I m) : Triple I m (fun _ => I) (fun _ => I) := h

/-- The merge, from the point of view of the rest. -/
theorem merged (h : Phases env I₀ I J) {m : Job τ α} (hm : Keeps J m) :
    Triple J m (fun _ => I) (fun _ => I) :=
  hm.mono (fun _ hw => hw) (fun _ _ hw => h.falls hw) (fun _ _ hw => h.falls hw)

/-- What a gate leaves behind: `J` if the process goes on from it. -/
def After (I J : TaskWorld τ → Prop) : Control α → TaskWorld τ → Prop
  | .proceed _,w => J w
  | _,w => I w

theorem andThen {m : Job τ (Control α)} {f : α → Job τ (Control β)} (hm : Keeps I m)
    (hf : ∀ a,Triple I (f a) (After I J) (fun _ => I)) :
    Triple I (Control.andThen m f) (After I J) (fun _ => I) := by
  refine Triple.bind (Q := fun _ => I) hm fun r => ?_
  cases r with
  | proceed a => exact hf a
  | again triageInfo => exact fun _ hw => hw
  | leave => exact fun _ hw => hw

theorem auditGate (h : Phases env I₀ I J) (triageInfo : Option Feedback) :
    Triple I (env.auditGate (env.stateManager false) triageInfo) (After I J) (fun _ => I) := by
  have hdiff : Keeps I (env.checkOutput (.diff env.baseBranch)) :=
    (keeps_runGit env h.working fun _ => GitCommand.noConfusion).bind fun res =>
      branch (.pure _) (.stop _)
  refine Triple.bind (Q := fun _ => I) hdiff fun diff => ?_
  refine (h.approved false diff _).bind fun res => ?_
  cases hpassed : res.passed with
  | false =>
    simp only [Bool.not_false,if_true,Bool.false_eq_true,if_false]
    split_ifs
    · exact fun _ hw => hw
    · exact fun _ hw => hw
  | true =>
    simp only [Bool.not_true,Bool.false_eq_true,if_false,if_true]
    cases res.modelInfo with
    | some modelInfo => exact fun _ hw => hw
    | none => exact fun _ hw => h.falls hw

/-- What the build loop leaves behind: `J` if there is something to merge. -/
def Built (I J : TaskWorld τ → Prop) : Option AuditModel → TaskWorld τ → Prop
  | some _,w => J w
  | none,w => I w

theorem buildLoop (h : Phases env I₀ I J) :
    Triple I (env.buildLoop (env.stateManager false)) (Built I J) (fun _ => I) := by
  have hk : Keeping (env.stateManager false).sanitizeSecretText I := h.working
  refine Triple.bind (Q := fun _ => I) read fun m => ?_
  refine Triple.loop (J := fun _ _ => I) (fun _ _ hw => hw) (fun _ triageInfo => ?_) _ none
  have hgates := andThen (keeps_building env hk triageInfo) fun _ =>
    andThen (keeps_diffGate env hk triageInfo) fun _ => andThen (keeps_testingGate env hk) fun _ =>
    andThen (keeps_sastGate env hk triageInfo) fun _ => h.auditGate triageInfo
  refine hgates.bind fun r => ?_
  cases r with
  | proceed modelInfo => exact fun _ hw => hw
  | again triageInfo => exact fun _ hw => hw
  | leave => exact fun _ hw => hw

/-- After the state file is loaded. -/
theorem within {m : Job τ α} (h : Triple I m (fun _ => I) (fun _ => I)) :
    Triple I m (fun _ => I) (fun _ w => I₀ w ∨ I w) :=
  h.mono (fun _ hw => hw) (fun _ _ hw => hw) (fun _ _ hw => .inr hw)

theorem runPipeline (h : Phases env I₀ I J) :
    Triple I₀ env.runPipeline (fun _ => I) (fun _ w => I₀ w ∨ I w) := by
  have hk : Keeping (env.stateManager false).sanitizeSecretText I := h.working
  have hm : MergeKeeping (env.stateManager false).sanitizeSecretText J := h.merging
  have hdiscovery : Triple I₀ (Proc.call env.runDiscovery .runDiscovery : Job τ Bool)
      (fun _ => I₀) (fun _ w => I₀ w ∨ I w) := fun _ hw => h.opening.discovery _ hw
  refine hdiscovery.bind fun found => ?_
  split_ifs
  · refine (opens_load h.opening h.working env.config).bind fun _ => within ?_
    refine Triple.bind (triple (keeps_transition hk (by decide) _)) fun _ => ?_
    refine Triple.bind (triple (keeps_specGate env hk)) fun valid => ?_
    split_ifs
    · exact fun _ hw => hw
    · refine Triple.bind (triple (keeps_worktreeIsolation env hk)) fun isolated => ?_
      split_ifs
      · exact fun _ hw => hw
      · refine h.buildLoop.bind fun modelInfo => ?_
        cases modelInfo with
        | some modelInfo => exact h.merged (keeps_autoMerge env hm modelInfo)
        | none => exact fun _ hw => hw
  · exact fun _ hw => .inl hw

theorem resumeMerge (h : Phases env I₀ I J) :
    Triple I₀ env.resumeMerge (fun _ => I) (fun _ w => I₀ w ∨ I w) := by
  have hk := h.merging.toKeeping
  have hm : MergeKeeping (env.stateManager false).sanitizeSecretText J := h.merging
  have hclean : Keeps J env.isRepoClean :=
    (keeps_runGit env hk fun _ => GitCommand.noConfusion).bind fun res => .pure _
  refine (opens_load h.opening h.working env.config).bind fun _ => within ?_
  intro w hw
  rw [Proc.bind_of_ok (Proc.get_apply w)]
  cases hresume : (StateManager.canResumeMerge w.mem.data).1 with
  | false => exact hw
  | true =>
    have hrest : Keeps J (do
        if !(← env.branchExists) then return false
        if !(← env.isRepoClean).1 then return false
        if !(← env.executeFastForwardMerge).1 then return false
        (env.stateManager false).transition .autoMerge
          s!"Fast-Forward merge successfully recovered into '{env.baseBranch}'."
        StateManager.setExecutionStatus .completed
        return true : Job τ Bool) := by
      refine (keeps_branchExists env hk).bind fun found => branch (.pure false) ?_
      refine hclean.bind fun r => branch (.pure false) ?_
      refine (keeps_executeFastForwardMerge env h.merging).bind fun r => branch (.pure false) ?_
      exact (keeps_enterMerge hm _).bind fun _ => (keeps_status hk _).bind fun _ => .pure true
    exact h.merged hrest w (h.recovered hw hresume)

theorem resumeAudit (h : Phases env I₀ I J) (raiseOnHalt : Bool) :
    Triple I₀ (env.resumeAudit raiseOnHalt) (fun _ => I) (fun _ w => I₀ w ∨ I w) := by
  have hk : Keeping (env.stateManager raiseOnHalt).sanitizeSecretText I := h.working
  have hm : MergeKeeping (env.stateManager raiseOnHalt).sanitizeSecretText J := h.merging
  refine (opens_load h.opening h.working env.config).bind fun _ => within ?_
  refine Triple.bind (triple (keeps_canResumeAudit env h.working)) fun r => ?_
  split_ifs
  · exact fun _ hw => hw
  · refine Triple.bind (triple (ask _)) fun found => ?_
    split_ifs
    · exact fun _ hw => hw
    · refine Triple.bind (triple (keeps_transition hk (by decide) _)) fun _ => ?_
      refine Triple.bind
        (triple (keeps_runGit env h.working fun _ => GitCommand.noConfusion)) fun diffRes => ?_
      split_ifs
      · exact (keeps_haltHuman hk _ _).bind fun _ => .pure false
      · refine (h.approved raiseOnHalt _ _).bind fun res => ?_
        cases hpassed : res.passed with
        | false => exact fun _ hw => hw
        | true =>
          cases res.modelInfo with
          | some modelInfo => exact h.merged (keeps_mergeAudited env hm modelInfo)
          | none => exact fun _ hw => h.falls hw

/-- The invariant rule for whole processes: how they end makes no difference. -/
theorem run (h : Phases env I₀ I J) (p : Program) {w : TaskWorld τ} (hw : I₀ w) :
    I₀ (p.run env w).2 ∨ I (p.run env w).2 := by
  have hrun : Triple I₀ (p.run env) (fun _ => I) (fun _ w => I₀ w ∨ I w) := by
    cases p with
    | pipeline => exact h.runPipeline
    | resumeMerge => exact h.resumeMerge.bind fun _ => within (Keeps.pure ())
    | resumeAudit => exact (h.resumeAudit false).bind fun _ => within (Keeps.pure ())
  have hpost := hrun w hw
  cases hr : p.run env w with
  | mk r w' =>
    rw [hr] at hpost
    cases r with
    | ok _ => exact .inr hpost
    | error _ => exact hpost

end Phases

end SoftwareFactory
