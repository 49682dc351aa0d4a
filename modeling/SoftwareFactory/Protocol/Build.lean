import SoftwareFactory.Protocol.AuditMerge

namespace SoftwareFactory

open Process

variable {τ α β : Type} {text : String → String} (env : Env τ) (sm : StateManager)

section rounds

attribute [local irreducible] StateManager.auditCandidates

/-- Where a stretch of the build loop leaves the process. -/
def Hands (next : α → Point → Prop) : Control α → Point → Prop
  | .proceed a,q => next a q
  | .again _,q => q = .building
  | .leave,_ => False

theorem walks_andThen {p : Point} {m : Job τ (Control α)} {f : α → Job τ (Control β)}
    {next : α → Point → Prop} {last : β → Point → Prop} (hm : Walks text p m (Hands next))
    (hf : ∀ a q,next a q → Walks text q (f a) (Hands last)) :
    Walks text p (Control.andThen m f) (Hands last) := by
  refine hm.bind fun r q hq => ?_
  cases r with
  | proceed a => exact hf a q hq
  | again triageInfo => exact .pure hq
  | leave => exact hq.elim

theorem walks_specDesign :
    Walks text .specifying (env.specDesign sm) (fun _ q => q = .specifying ∨ q = .designed) := by
  refine .read (fun w => ⟨_,rfl⟩) fun present => ?_
  cases present with
  | true => exact .pure (.inl rfl)
  | false =>
    refine (walks_transition sm _ (.specDesign _)).bind ?_
    intro _ _ heq
    subst heq
    refine (walks_tryCall (fun _ _ _ => .generateSpec _)
      (fun _ _ _ => .generateSpecRaises _)).bind fun _ _ hq => ?_
    exact .pure (.inr hq)

theorem walks_specGate :
    Walks text .specifying (env.specGate sm) (fun b q => b = true ∧ q = .isolating) := by
  refine (walks_specDesign env sm).bind fun _ q hq => ?_
  have hgate : Walks text q (sm.transition .specGate "Validating SPEC.md contract..." : Job τ Unit)
      (fun _ x => x = .gating) := by
    rcases hq with rfl | rfl
    · exact walks_transition sm _ (.specGate _)
    · exact walks_transition sm _ (.specGateDesigned _)
  refine hgate.bind ?_
  intro _ _ heq
  subst heq
  refine (walks_call fun r _ _ => .validateSpec r.1 r.2).bind ?_
  intro answer _ heq
  obtain ⟨specValid,specMsg⟩ := answer
  subst heq
  cases specValid with
  | true => exact .pure ⟨rfl,rfl⟩
  | false =>
    refine (walks_specRetry sm specMsg).bind ?_
    intro _ _ h
    obtain ⟨rfl,rfl⟩ := h
    refine (walks_call fun r _ _ => .revalidateSpec r.1 r.2).bind ?_
    intro answer _ heq
    obtain ⟨specValid,specMsg⟩ := answer
    subst heq
    cases specValid with
    | true => exact .pure ⟨rfl,rfl⟩
    | false => exact walks_haltAway sm (.halt _)

theorem walks_worktreeIsolation :
    Walks text .isolating (env.worktreeIsolation sm) (fun b q => b = true ∧ q = .building) := by
  refine .read (fun w => ⟨_,rfl⟩) ?_
  intro answer
  obtain ⟨wtOk,wtDir⟩ := answer
  cases wtOk with
  | true =>
    intro c w hw
    exact ⟨_,⟨rfl,rfl⟩,hw.step (.call (.createWorktree wtDir))⟩
  | false =>
    refine .read (fun w => ⟨_,rfl⟩) fun _ => ?_
    refine (walks_emit fun _ _ => .createWorktreeFails wtDir).bind ?_
    intro _ _ heq
    subst heq
    exact walks_haltAway sm (.halt _)

theorem walks_callWorker (triageInfo : Option Feedback) :
    Walks text .working (env.callWorker triageInfo) (fun _ q => q = .staging) := by
  intro c w hw
  let answer := env.generateCodeAndTests w.trace.length triageInfo w.mem.repo.work
  have hs : At (Step text) c .staging ⟨{ w.mem with repo := w.mem.repo.write answer.1 },
      w.trace++[.generateCodeAndTests w.mem.data.epoch triageInfo]⟩ :=
    hw.step (.call (.worker triageInfo answer.1))
  rcases hr : answer.2 with e | files
  · have he : env.callWorker triageInfo w =
        (.error (.raised e),⟨{ w.mem with repo := w.mem.repo.write answer.1 },
          w.trace++[.generateCodeAndTests w.mem.data.epoch triageInfo]⟩) := by
      simp only [Env.callWorker,Proc.bind_apply,Proc.get_apply,Proc.ask_apply,
        Proc.emit_apply,Proc.modify_apply,answer] at hr ⊢
      rw [hr]
      rfl
    rw [he]
    exact ⟨_,.inl rfl,hs.step (.move .workerRaises)⟩
  · have he : env.callWorker triageInfo w =
        (.ok (),⟨{ w.mem with repo := w.mem.repo.write answer.1 },
          w.trace++[.generateCodeAndTests w.mem.data.epoch triageInfo]⟩) := by
      simp only [Env.callWorker,Proc.bind_apply,Proc.get_apply,Proc.ask_apply,
        Proc.emit_apply,Proc.modify_apply,answer] at hr ⊢
      rw [hr]
      rfl
    rw [he]
    exact ⟨_,rfl,hs⟩

theorem walks_invokeWorker (triageInfo : Option Feedback) :
    Walks text .working (env.invokeWorker triageInfo) (fun _ q => q = .staging) := by
  unfold Env.invokeWorker
  refine .read (fun w => ⟨_,rfl⟩) fun spec => ?_
  cases spec with
  | error e =>
    apply Follows.bind_ended
    exact .move (fun w => .move .specUnread) (.stop (.inl rfl))
  | ok specContent => exact .read (fun w => ⟨_,rfl⟩) fun _ => walks_callWorker env triageInfo

theorem walks_commitChanges :
    Walks text .staging env.commitChanges (fun _ q => q = .committed) := by
  refine (walks_git env fun _ _ res => .add res).bind ?_
  intro _ _ heq
  subst heq
  refine .read (fun w => ⟨_,rfl⟩) fun m => ?_
  exact (walks_git env fun _ _ res => .commit _ res).bind fun _ _ hq => .pure hq

theorem walks_building (triageInfo : Option Feedback) :
    Walks text .building (env.building sm triageInfo)
      (fun r q => r = .proceed () ∧ q = .committed) := by
  refine .read (fun w => ⟨_,rfl⟩) fun m => ?_
  refine (walks_transition sm _ (.building _)).bind ?_
  intro _ _ heq
  subst heq
  refine (walks_registerWorkerRun sm).bind ?_
  intro _ _ h
  obtain ⟨rfl,rfl⟩ := h
  refine (walks_invokeWorker env triageInfo).bind ?_
  intro _ _ heq
  subst heq
  exact (walks_commitChanges env).bind fun _ _ hq => .pure ⟨rfl,hq⟩

/-- The choice between a retry in the epoch and a logic replan. -/
theorem walks_retry {f : Memory τ → Job τ α} {next : α → Point → Prop}
    (hretry : ∀ m : Memory τ,StateManager.canWorkerRetryInEpoch m.data = true →
      Walks text .building (f m) next)
    (hreplan : ∀ m : Memory τ,StateManager.canWorkerRetryInEpoch m.data = false →
      Walks text .logicReplan (f m) next) :
    Walks text .retrying (Proc.get >>= f) next := by
  intro c w hw
  rw [Proc.bind_of_ok (Proc.get_apply w)]
  cases hr : StateManager.canWorkerRetryInEpoch w.mem.data with
  | true => exact hretry w.mem hr c w (hw.step (.move (.retry hr)))
  | false => exact hreplan w.mem hr c w (hw.step (.move (.replan hr)))

theorem walks_diffGate (triageInfo : Option Feedback) :
    Walks text .committed (env.diffGate sm triageInfo) (Hands fun _ q => q = .diffPassed) := by
  refine (walks_transition sm _ (.diffGate _)).bind ?_
  intro _ _ heq
  subst heq
  refine (walks_call fun r _ _ => .diffGate r.1 r.2).bind ?_
  intro answer _ heq
  obtain ⟨diffPassed,violations⟩ := answer
  subst heq
  cases diffPassed with
  | true => exact .pure rfl
  | false =>
    refine walks_retry (fun m hm => ?_) (fun m hm => ?_)
    · simp only [hm]
      exact .pure rfl
    · simp only [hm]
      refine (walks_logicReplan sm _).bind ?_
      intro _ _ h
      obtain ⟨_,hq⟩ := h
      exact .pure hq

/-- A gate that is run on the files of the worktree. -/
theorem walks_fileGate {p : Point} {answer : Nat → α} {event : Memory τ → α → Event τ}
    {f : α → Job τ β} {next : α → Point} {last : β → Point → Prop}
    (h : ∀ a (m : Memory τ),Calls m.data m.repo p (event m a) m.repo (next a))
    (hf : ∀ a,Walks text (next a) (f a) last) :
    Walks text p (Proc.get >>= fun m => Proc.call answer (event m) >>= f) last := by
  intro c w hw
  rw [Proc.bind_of_ok (Proc.get_apply w),Proc.bind_of_ok (Proc.call_apply _ _ w)]
  exact hf _ c _ (hw.step (.call (h _ _)))

theorem walks_testingGate :
    Walks text .diffPassed (env.testingGate sm) (Hands fun _ q => q = .testsPassed) := by
  refine (walks_transition sm _ (.testing _)).bind ?_
  intro _ _ heq
  subst heq
  refine walks_fileGate (fun r _ => .runTests r.1) ?_
  intro answer
  obtain ⟨testsPassed,payload⟩ := answer
  cases testsPassed with
  | true => exact .pure rfl
  | false =>
    refine (walks_transition sm _ (.triaging _)).bind ?_
    intro _ _ heq
    subst heq
    refine (walks_tryCall (fun _ _ _ => .triage _) (fun _ _ _ => .triageRaises _)).bind ?_
    intro triageRes _ heq
    subst heq
    refine walks_retry (fun m hm => ?_) (fun m hm => ?_)
    · simp only [hm]
      exact .pure rfl
    · simp only [hm]
      refine (walks_logicReplan sm _).bind ?_
      intro _ _ h
      obtain ⟨rfl,hq⟩ := h
      exact .pure hq

theorem walks_filterFindings (fs : List Finding) :
    Walks text .filtering (env.filterFindings fs)
      (fun found q => q = if found then .securityReplan none else .scanned) := by
  induction fs with
  | nil => exact .move (fun _ => .move .filtered) (.pure rfl)
  | cons f fs ih =>
    refine (walks_tryCall (fun _ _ _ => .filter f _) (fun _ _ _ => .filterRaises f _)).bind ?_
    intro filtRes _ heq
    subst heq
    by_cases ht : filtRes.classification = .truePositive
    · simp only [ht,if_true]
      exact .pure rfl
    · simp only [ht,if_false]
      exact ih

theorem walks_sastFilter (sastCode : SastExit) (findings : List Finding) :
    Walks text (if sastCode = .findings then .filterPending else .scanned)
      (env.sastFilter sm sastCode findings)
      (fun found q => q = if found then .securityReplan none else .scanned) := by
  unfold Env.sastFilter
  split_ifs
  · refine (walks_transition sm _ (.sastFilter _)).bind ?_
    intro _ _ heq
    subst heq
    exact walks_filterFindings env findings
  · exact .pure rfl

theorem walks_sastGate (triageInfo : Option Feedback) :
    Walks text .testsPassed (env.sastGate sm triageInfo) (Hands fun _ q => q = .scanned) := by
  refine (walks_transition sm _ (.sastScan _)).bind ?_
  intro _ _ heq
  subst heq
  refine walks_fileGate (fun r _ => .sast r.1) ?_
  intro answer
  obtain ⟨sastCode,findings⟩ := answer
  refine Follows.bind (walks_sastFilter env sm sastCode findings) ?_
  intro hasTruePositive _ heq
  subst heq
  cases hasTruePositive with
  | false => exact .pure rfl
  | true =>
    refine (walks_securityReplan sm none _).bind ?_
    intro _ _ h
    obtain ⟨rfl,hq⟩ := h
    exact .pure hq

theorem walks_auditGate (triageInfo : Option Feedback) (hsm : sm.raiseOnHalt = false) :
    Walks text .scanned (env.auditGate sm triageInfo)
      (Hands fun _ q => q = .mergePending .pipeline) := by
  have hdiff : Walks text .scanned (env.checkOutput (.diff env.baseBranch))
      (fun diff q => q = .auditPending .pipeline diff) := by
    refine (walks_query env rfl fun _ _ res => .diff _ res).bind ?_
    intro res _ heq
    subst heq
    split_ifs
    · exact .pure rfl
    · exact .stop (.inl rfl)
  refine hdiff.bind ?_
  intro diffOutput _ heq
  subst heq
  refine (walks_logicSecurityAudit env sm .pipeline diffOutput _).bind fun res q hq => ?_
  unfold AuditReturns at hq
  cases hp : res.passed with
  | false =>
    rw [hp,if_neg Bool.false_ne_true] at hq
    split_ifs at hq with hf
    · simp only [hf]
      exact .pure hq
    · rw [hsm] at hq
      exact absurd hq.1 (by decide)
  | true =>
    rw [hp,if_pos rfl] at hq
    obtain ⟨rfl,hm⟩ := hq
    rcases hi : res.modelInfo with _ | modelInfo
    · exact absurd hi hm
    · exact .pure rfl

/-- What a round of the build loop leaves behind. -/
def Rounds : Option Feedback ⊕ Option AuditModel → Point → Prop
  | .inl _,q => q = .building
  | .inr (some _),q => q = .mergePending .pipeline
  | .inr none,_ => False

theorem walks_gates (triageInfo : Option Feedback) (hsm : sm.raiseOnHalt = false) :
    Walks text .committed (Control.andThen (env.diffGate sm triageInfo) fun _ =>
      Control.andThen (env.testingGate sm) fun _ =>
      Control.andThen (env.sastGate sm triageInfo) fun _ => env.auditGate sm triageInfo)
      (Hands fun _ q => q = .mergePending .pipeline) := by
  refine walks_andThen (walks_diffGate env sm triageInfo) fun _ _ hq => hq ▸ ?_
  refine walks_andThen (walks_testingGate env sm) fun _ _ hq => hq ▸ ?_
  refine walks_andThen (walks_sastGate env sm triageInfo) fun _ _ hq => hq ▸ ?_
  exact walks_auditGate env sm triageInfo hsm

theorem walks_buildRound (triageInfo : Option Feedback) (hsm : sm.raiseOnHalt = false) :
    Walks text .building (env.buildRound sm triageInfo) Rounds := by
  have hbuilt : Walks text .building (env.building sm triageInfo) (Hands fun _ q => q = .committed) := by
    refine (walks_building env sm triageInfo).mono ?_
    intro _ _ h
    obtain ⟨rfl,hq⟩ := h
    exact hq
  refine (walks_andThen hbuilt
    fun _ _ hq => hq ▸ walks_gates env sm triageInfo hsm).bind fun r q hq => ?_
  cases r with
  | proceed modelInfo => exact .pure hq
  | again triageInfo => exact .pure hq
  | leave => exact hq.elim

end rounds

end SoftwareFactory
