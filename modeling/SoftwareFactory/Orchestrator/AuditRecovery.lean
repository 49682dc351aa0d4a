import SoftwareFactory.Orchestrator.AuditRules
import SoftwareFactory.Orchestrator.Recovery

namespace SoftwareFactory

open Process

variable {τ α : Type}

/-- The states in which a task may be left: merged, suspended or halted. -/
def StateData.Rests (d : StateData) : Prop :=
  (d.currentState = .autoMerge ∧ d.executionStatus = .completed) ∨
    (d.currentState = .humanReview ∧ d.executionStatus = .needsHumanReview) ∨
    (d.currentState = .haltHuman ∧ d.executionStatus = .failed)

/-- An auditor gives the verdict FAIL. -/
def Event.isFail : Event τ → Bool
  | .auditLogicAndSecurity _ (.ok out) => out.status = .fail
  | _ => false

def Event.isAuditCall : Event τ → Bool
  | .executeLogicSecurityAudit _ _ => true
  | _ => false

/-- What strands a recovery, as the event after `n` others: the verdict FAIL, or the call of an
audit that cannot read the specification. -/
def Env.isFault (env : Env τ) (n : Nat) (e : Event τ) : Bool :=
  e.isFail || e.isAuditCall && !(env.readSpec n).isOk

/-- There is such an event after the first `k` events. -/
def Failed (env : Env τ) (k : Nat) (t : List (Event τ)) : Prop :=
  ∃ n e,k ≤ n ∧ t[n]? = some e ∧ env.isFault n e = true

/-- Data with `P` is on file, and there is no such event after the first `k` events. -/
structure Calm (env : Env τ) (k : Nat) (P : StateData → Prop) (w : TaskWorld τ) : Prop where
  data : P w.mem.data
  synced : StateManager.Synced w
  begun : k ≤ w.trace.length
  passed : ¬Failed env k w.trace

/-- The task is left in `LOGIC_AUDIT` after a verdict FAIL. -/
structure Stranded (env : Env τ) (k : Nat) (w : TaskWorld τ) : Prop where
  failed : Failed env k w.trace
  begun : k ≤ w.trace.length
  synced : StateManager.Synced w
  active : w.mem.data.currentState = .logicAudit

section faults

variable {env : Env τ} {k : Nat} {t : List (Event τ)}

theorem failed_append (e : Event τ) : Failed env k (t++[e]) ↔
    Failed env k t ∨ (k ≤ t.length ∧ env.isFault t.length e = true) := by
  constructor
  · intro h
    obtain ⟨n,e',hk,he,hfault⟩ := h
    rcases Nat.lt_trichotomy n t.length with hn | rfl | hn
    · rw [List.getElem?_append_left hn] at he
      exact .inl ⟨n,e',hk,he,hfault⟩
    · rw [List.getElem?_concat_length] at he
      rw [← Option.some.inj he] at hfault
      exact .inr ⟨hk,hfault⟩
    · rw [List.getElem?_eq_none (by simp; omega)] at he
      cases he
  · intro h
    rcases h with ⟨n,e',hk,he,hfault⟩ | ⟨hk,hfault⟩
    · have hn : n < t.length := (List.getElem?_eq_some_iff.mp he).1
      exact ⟨n,e',hk,by rwa [List.getElem?_append_left hn],hfault⟩
    · exact ⟨t.length,e,hk,List.getElem?_concat_length,hfault⟩

theorem Failed.append (h : Failed env k t) (e : Event τ) : Failed env k (t++[e]) :=
  (failed_append e).mpr (.inl h)

theorem isFault_other {e : Event τ} (hf : e.isFail = false) (hc : e.isAuditCall = false)
    (n : Nat) : env.isFault n e = false := by
  rw [Env.isFault,hf,hc]
  rfl

/-- The two kinds of fault, said of the events and of the answers to the reading. -/
theorem not_failed_iff : ¬Failed env k t ↔ (¬∃ e ∈ t.drop k,e.isFail = true) ∧
    ∀ n diff role,k ≤ n → t[n]? = some (.executeLogicSecurityAudit diff role) →
      ∃ spec,env.readSpec n = .ok spec := by
  constructor
  · intro h
    constructor
    · intro hfail
      obtain ⟨e,he,hf⟩ := hfail
      obtain ⟨i,hi⟩ := List.mem_iff_getElem?.mp he
      rw [List.getElem?_drop] at hi
      exact h ⟨k+i,e,Nat.le_add_right k i,hi,by rw [Env.isFault,hf]; rfl⟩
    · intro n diff role hk hn
      cases hr : env.readSpec n with
      | ok spec => exact ⟨spec,rfl⟩
      | error e => exact absurd ⟨n,_,hk,hn,by rw [Env.isFault,hr]; rfl⟩ h
  · intro hparts hfailed
    obtain ⟨hfail,hread⟩ := hparts
    obtain ⟨n,e,hk,hn,hfault⟩ := hfailed
    rw [Env.isFault,Bool.or_eq_true,Bool.and_eq_true] at hfault
    rcases hfault with hf | ⟨hcall,hnot⟩
    · apply hfail
      refine ⟨e,List.mem_iff_getElem?.mpr ⟨n-k,?_⟩,hf⟩
      rw [List.getElem?_drop,Nat.add_sub_cancel' hk]
      exact hn
    · cases e with
      | executeLogicSecurityAudit diff role =>
        obtain ⟨spec,hspec⟩ := hread n diff role hk hn
        rw [hspec] at hnot
        cases hnot
      | _ => cases hcall

end faults

namespace Calm

variable {env : Env τ} {k : Nat} {P P' : StateData → Prop} {w : TaskWorld τ}

theorem mono (h : Calm env k P w) (hP : ∀ d,P d → P' d) : Calm env k P' w :=
  ⟨hP _ h.data,h.synced,h.begun,h.passed⟩

theorem emit (h : Calm env k P w) {e : Event τ} (hs : e.isSave = false)
    (hf : env.isFault w.trace.length e = false) : Calm env k P (w.emit e) := by
  refine ⟨h.data,StateManager.synced_emit h.synced e hs,?_,?_⟩
  · rw [World.emit_trace,List.length_append]
    exact h.begun.trans (Nat.le_add_right _ _)
  · rw [World.emit_trace,failed_append,hf]
    simpa using h.passed

theorem saved (h : Calm env k P w) {d : StateData} (hd : P' d) : Calm env k P' (saved w d) := by
  refine ⟨hd,StateManager.synced_saved w d,?_,?_⟩
  · rw [saved_trace,List.length_append]
    exact h.begun.trans (Nat.le_add_right _ _)
  · rw [saved_trace,failed_append,isFault_other rfl rfl]
    simpa using h.passed

end Calm

section steps

variable {k : Nat} {P P' : StateData → Prop} {X : Ending PyExc → TaskWorld τ → Prop}
  {env : Env τ} (sm : StateManager)

theorem calm_pure (a : α) : Triple (Calm env k P) (pure a : Job τ α) (fun _ => Calm env k P) X :=
  fun _ h => h

theorem calm_emit {e : Event τ} (hs : e.isSave = false) (hf : e.isFail = false)
    (hc : e.isAuditCall = false) :
    Triple (Calm env k P) (Proc.emit e : Job τ Unit) (fun _ => Calm env k P) X :=
  fun _ h => h.emit hs (isFault_other hf hc _)

theorem calm_ask (answer : Nat → α) :
    Triple (Calm env k P) (Proc.ask answer : Job τ α) (fun _ => Calm env k P) X :=
  fun _ h => h

theorem calm_get : Triple (Calm env k P) (Proc.get : Job τ (Memory τ))
    (fun m w => Calm env k P w ∧ P m.data) X :=
  fun _ h => ⟨h,h.data⟩

theorem calm_runGit (cmd : GitCommand) :
    Triple (Calm env k P) (env.runGit cmd) (fun _ => Calm env k P) X := by
  intro w h
  exact (⟨h.data,h.synced,h.begun,h.passed⟩ : Calm env k P
    { w with mem := { w.mem with repo := w.mem.repo.after cmd (env.git w.trace.length cmd) } }).emit
    rfl (isFault_other rfl rfl _)

theorem calm_update {f : StateData → StateData} (hf : ∀ d,P d → P' (f d)) :
    Triple (Calm env k P) (StateManager.update f : Job τ Unit) (fun _ => Calm env k P') X :=
  fun _ h => h.saved (hf _ h.data)

theorem calm_setExecutionStatus {status : ExecutionStatus}
    (h : ∀ d,P d → P' (d.withStatus status)) :
    Triple (Calm env k P) (StateManager.setExecutionStatus status : Job τ Unit)
      (fun _ => Calm env k P') X :=
  calm_update h

theorem calm_transition (st : FsmState) (details : String) :
    Triple (Calm env k P) (sm.transition st details : Job τ Unit)
      (fun _ => Calm env k fun d => d.currentState = st) X :=
  fun _ h => h.saved rfl

/-- Leaving without an exception and without an exit is returning. -/
theorem calm_leave (hsm : sm.raiseOnHalt = false) (error : String) (code : Nat) :
    Triple (Calm env k P) (sm.leave error false code : Job τ Unit) (fun _ => Calm env k P) X := by
  intro w h
  rw [sm.leave_apply,StateManager.leaving,hsm]
  exact h

theorem calm_haltHuman (hsm : sm.raiseOnHalt = false) (reason : String) :
    Triple (Calm env k P) (sm.haltHuman reason false : Job τ Unit)
      (fun _ => Calm env k StateData.Rests) X := by
  have hrests (d : StateData) (hd : d.currentState = .haltHuman) : (d.withStatus .failed).Rests :=
    .inr (.inr ⟨hd,rfl⟩)
  unfold StateManager.haltHuman
  refine (calm_transition sm _ _).bind fun _ => ?_
  refine (calm_setExecutionStatus hrests).bind fun _ => ?_
  refine (calm_ask _).bind fun date => calm_get.bind fun m w h => ?_
  exact ((calm_emit rfl rfl rfl).bind fun _ => calm_leave sm hsm _ 1) w h.1

theorem calm_requestHumanReview (hsm : sm.raiseOnHalt = false) (reason gate : String) :
    Triple (Calm env k P) (sm.requestHumanReview reason gate false : Job τ Unit)
      (fun _ => Calm env k StateData.Rests) X := by
  have hrests (d : StateData) (hd : d.currentState = .humanReview) :
      (d.withStatus .needsHumanReview).Rests := .inr (.inl ⟨hd,rfl⟩)
  have hblocked (b : BlockedReason) (d : StateData) (hd : d.Rests) : (d.blocked b).Rests := hd
  unfold StateManager.requestHumanReview
  refine (calm_transition sm _ _).bind fun _ => ?_
  refine (calm_setExecutionStatus hrests).bind fun _ => ?_
  refine (calm_ask _).bind fun timestamp => ?_
  refine (calm_update (hblocked _)).bind fun _ => ?_
  refine (calm_ask _).bind fun date => (calm_emit rfl rfl rfl).bind fun _ => ?_
  exact calm_leave sm hsm _ 0

end steps

section audit

variable {env : Env τ} {k : Nat} (sm : StateManager) (call : AuditCall)

/-- The data while the audit of a recovery is running. -/
def InAudit (d : StateData) : Prop := d.currentState = .logicAudit

/-- Where an audit of a recovery leaves the task: only the verdict FAIL leaves it in
`LOGIC_AUDIT`. -/
def AuditLeaves (env : Env τ) (k : Nat) (res : AuditResult) (w : TaskWorld τ) : Prop :=
  if res.passed then Calm env k InAudit w ∧ res.modelInfo ≠ none
  else Calm env k StateData.Rests w ∨ Stranded env k w

theorem calm_attempted {w : TaskWorld τ} (h : Calm env k InAudit w) (c : Candidate) :
    Calm env k InAudit (sm.attempted c w) := by
  have ha : Calm env k InAudit (sm.announceFallback c w).2 := by
    unfold StateManager.announceFallback
    split_ifs
    · exact h.saved rfl
    · exact h
  exact ha.emit rfl (isFault_other rfl rfl _)

theorem calm_answered {w : TaskWorld τ} (h : Calm env k InAudit w) (c : Candidate)
    (client : Adapter) {res : Except PyExc LogicAuditOutput}
    (hr : (Event.auditLogicAndSecurity client res : Event τ).isFail = false) :
    Calm env k InAudit (sm.answered c client res w) :=
  (calm_attempted sm h c).emit rfl (isFault_other hr rfl _)

theorem failed_answered {w : TaskWorld τ} (h : Calm env k InAudit w) (c : Candidate)
    (client : Adapter) {out : LogicAuditOutput} (hf : out.status = .fail) :
    Failed env k (sm.answered c client (.ok out) w).trace ∧
      k ≤ (sm.answered c client (.ok out) w).trace.length ∧
      InAudit (sm.answered c client (.ok out) w).mem.data := by
  have ha := calm_attempted sm h c
  refine ⟨?_,?_,ha.data⟩
  · rw [StateManager.answered,World.emit_trace,failed_append]
    exact .inr ⟨ha.begun,by simp [Env.isFault,Event.isFail,hf]⟩
  · rw [StateManager.answered,World.emit_trace,List.length_append]
    exact ha.begun.trans (Nat.le_add_right _ _)

theorem failed_halted {w : TaskWorld τ} (h : Failed env k w.trace) (reason : String) :
    Failed env k (sm.halted w reason).trace :=
  ((h.append _).append _).append _

/-- A halt that exits does not return. -/
theorem leaving_away (error : String) (code : Nat) : ∃ s,sm.leaving error true code = .error s := by
  unfold StateManager.leaving
  by_cases hr : sm.raiseOnHalt = true
  · rw [if_pos hr]
    exact ⟨_,rfl⟩
  · rw [if_neg hr]
    exact ⟨_,rfl⟩

/-- The verdict FAIL: with budget left the task stays in `LOGIC_AUDIT`, without it the halt
exits. -/
theorem audit_fail (c : Candidate) (out : LogicAuditOutput) (hf : out.status = .fail)
    {w : TaskWorld τ} (h : Failed env k w.trace) (hk : k ≤ w.trace.length)
    (hd : InAudit w.mem.data) :
    Post (AuditLeaves env k) (fun _ w => Failed env k w.trace) (sm.judge call c out w) := by
  obtain ⟨reason,hj⟩ := sm.judge_fail call c out w hf
  rw [hj,StateManager.consumeSecurityReplan,sm.replan_then]
  dsimp only
  split_ifs with hx
  · obtain ⟨s,hs⟩ := leaving_away sm _ 1
    rw [hs]
    exact failed_halted sm (h.append _) _
  · refine .inr ⟨(h.append _).append _,?_,StateManager.synced_saved _ _,hd⟩
    simp only [saved_trace,List.length_append]
    omega

/-- A halt or a suspension of the audit. -/
theorem audit_rests {m : Job τ Unit} {P : StateData → Prop} {X : Ending PyExc → TaskWorld τ → Prop}
    (hm : Triple (Calm env k P) m (fun _ => Calm env k StateData.Rests) X) (res : AuditResult)
    (hr : res.passed = false) : Triple (Calm env k P) (m >>= fun _ => pure res) (AuditLeaves env k) X := by
  refine hm.bind fun _ w h => ?_
  unfold AuditLeaves
  rw [Proc.pure_apply,post_ok,hr]
  exact .inl h

/-- A verdict other than FAIL. -/
theorem audit_verdict (hsm : sm.raiseOnHalt = false) (hx : call.exitProcess = false)
    (c : Candidate) (out : LogicAuditOutput) (hf : out.status ≠ .fail) {w : TaskWorld τ}
    (h : Calm env k InAudit w) :
    Post (AuditLeaves env k) (fun _ w => Failed env k w.trace) (sm.judge call c out w) := by
  by_cases hr : out.status = .unavailable ∨ out.status = .uncertain
  · obtain ⟨reason,hj⟩ := sm.judge_review call c out w hr
    rw [hj,hx]
    exact audit_rests (calm_requestHumanReview sm hsm _ _) _ rfl w h
  by_cases hl : out.status = .simulated ∧ call.simulate = false
  · obtain ⟨reason,hj⟩ := sm.judge_live call c out w hl.1 hl.2
    rw [hj,hx]
    exact audit_rests (calm_haltHuman sm hsm _) _ rfl w h
  · have hp : out.status = .pass ∨ out.status = .simulated ∧ call.simulate = true := by
      cases hs : out.status <;> simp_all
    rw [sm.judge_pass call c out w hp]
    exact ⟨h.saved h.data,nofun⟩

attribute [local irreducible] StateManager.auditCandidates

/-- The loop over the candidates, from any index on. -/
theorem audit_candidates (hsm : sm.raiseOnHalt = false) (hx : call.exitProcess = false)
    (i : Nat) (cs : List Candidate) (errors : List String) :
    Triple (Calm env k InAudit) (sm.auditCandidates call i cs errors : Job τ AuditResult)
      (AuditLeaves env k) (fun _ w => Failed env k w.trace) := by
  intro w h
  induction cs generalizing i errors w with
  | nil =>
    obtain ⟨reason,hr⟩ := sm.auditCandidates_exhausted call i errors w
    rw [hr,hx]
    exact audit_rests (calm_requestHumanReview sm hsm _ _) _ rfl w h
  | cons c cs ih =>
    cases ho : call.outcome i c with
    | unknownProvider =>
      obtain ⟨reason,hr⟩ := sm.auditCandidates_unknown call i c cs errors w ho
      rw [hr,hx]
      exact audit_rests (calm_haltHuman sm hsm _) _ rfl _ (calm_attempted sm h c)
    | unavailable =>
      obtain ⟨client,e,message,_,_,_,hr⟩ := sm.auditCandidates_unavailable call i c cs errors w ho
      rw [hr]
      exact ih (i+1) _ _ (calm_answered sm h c client rfl)
    | otherException =>
      obtain ⟨client,e,reason,_,_,hr⟩ :=
        sm.auditCandidates_otherException call i c cs errors w ho
      rw [hr,hx]
      exact audit_rests (calm_haltHuman sm hsm _) _ rfl _ (calm_answered sm h c client rfl)
    | verdict s =>
      obtain ⟨client,out,_,_,_,hr⟩ := sm.auditCandidates_verdict call i c cs errors w s ho
      rw [hr]
      by_cases hf : out.status = .fail
      · obtain ⟨h₁,hk,hd⟩ := failed_answered sm h c client hf
        exact audit_fail sm call c out hf h₁ hk hd
      · refine audit_verdict sm call hsm hx c out hf (calm_answered sm h c client ?_)
        exact decide_eq_false hf

end audit

section recovery

attribute [local irreducible] StateManager.auditCandidates

variable {k : Nat} {P : StateData → Prop} {X : Ending PyExc → TaskWorld τ → Prop} (env : Env τ)
  (sm : StateManager)

/-- The audit of a recovery whose specification can be read. -/
theorem calm_readAudit (hsm : sm.raiseOnHalt = false) {call : AuditCall}
    (hx : call.exitProcess = false) {w : TaskWorld τ} (h : Calm env k InAudit w)
    (hread : (env.readSpec w.trace.length).isOk = true) :
    Post (AuditLeaves env k) (fun _ w => Failed env k w.trace)
      (sm.executeLogicSecurityAudit call w) := by
  have hcalled : Calm env k InAudit
      (w.emit (.executeLogicSecurityAudit call.diffOutput call.role)) := by
    apply h.emit rfl
    rw [Env.isFault,hread]
    rfl
  exact audit_candidates sm call hsm hx 0 call.role.candidates [] _ hcalled

/-- What the audit returns is recorded. -/
theorem calm_auditReturned (res : AuditResult) :
    Triple (AuditLeaves env k res) (Proc.emit (.auditReturned res.passed) : Job τ Unit)
      (fun _ => AuditLeaves env k res) (fun _ w => Failed env k w.trace) := by
  intro w h
  have hother : env.isFault w.trace.length (.auditReturned res.passed) = false :=
    isFault_other rfl rfl _
  unfold AuditLeaves at h ⊢
  cases hp : res.passed with
  | true =>
    rw [hp,if_pos rfl] at h
    exact ⟨h.1.emit rfl (hp ▸ hother),h.2⟩
  | false =>
    rw [hp,if_neg Bool.false_ne_true] at h
    rcases h with h | ⟨hf,hk,hs,ha⟩
    · exact .inl (h.emit rfl (hp ▸ hother))
    · refine .inr ⟨hf.append _,?_,StateManager.synced_emit hs _ rfl,ha⟩
      rw [World.emit_trace,List.length_append]
      exact hk.trans (Nat.le_add_right _ _)

theorem calm_logicSecurityAudit (hsm : sm.raiseOnHalt = false) (diff : String) :
    Triple (Calm env k InAudit) (env.logicSecurityAudit sm diff false) (AuditLeaves env k)
      (fun _ w => Failed env k w.trace) := by
  intro w h
  unfold Env.logicSecurityAudit
  rw [Proc.bind_of_ok (Proc.ask_apply _ w)]
  cases hr : env.readSpec w.trace.length with
  | error e =>
    have hfailed : Failed env k
        (w.emit (.executeLogicSecurityAudit diff env.securityRole)).trace := by
      rw [World.emit_trace,failed_append]
      exact .inr ⟨h.begun,by rw [Env.isFault,hr]; rfl⟩
    exact hfailed
  | ok specContent =>
    rw [Proc.attempt_ok,Proc.bind_of_ok (Proc.pure_apply specContent w),
      Proc.bind_of_ok (Proc.ask_apply _ w)]
    have haudit : Triple (fun v => v = w) (sm.executeLogicSecurityAudit ⟨env.hasApiKey,
        env.auditors w.trace.length,specContent,diff,env.securityRole,env.simulate,false⟩ :
          Job τ AuditResult) (AuditLeaves env k) (fun _ w => Failed env k w.trace) := by
      intro v heq
      subst heq
      exact calm_readAudit env sm hsm rfl h (by rw [hr]; rfl)
    exact (haudit.bind fun res => (calm_auditReturned env res).bind fun _ => .pure res) w rfl

theorem calm_executeFastForwardMerge :
    Triple (Calm env k P) env.executeFastForwardMerge (fun _ => Calm env k P) X := by
  have hclean : Triple (Calm env k P) env.isRepoClean (fun _ => Calm env k P) X :=
    (calm_runGit _).bind fun _ => calm_pure _
  have hff : Triple (Calm env k P) env.fastForward (fun _ => Calm env k P) X := by
    refine hclean.bind fun ⟨clean,dirtyFiles⟩ => ?_
    cases clean with
    | false => exact calm_pure _
    | true =>
      refine (calm_runGit _).bind fun coRes => ?_
      cases hco : coRes.ok with
      | false => exact calm_pure _
      | true =>
        refine (calm_runGit _).bind fun ancestorCheck => ?_
        cases hac : ancestorCheck.ok with
        | false => exact calm_pure _
        | true =>
          refine (calm_runGit _).bind fun mergeRes => ?_
          cases hmr : mergeRes.ok with
          | false => exact calm_pure _
          | true => exact calm_pure _
  refine hff.bind fun ⟨passed,message⟩ => calm_get.bind fun m w h => ?_
  exact ((calm_emit rfl rfl rfl).bind fun _ => calm_pure _) w h.1

/-- A halt of the recovery, which then returns `False`. -/
theorem calm_haltFalse (hsm : sm.raiseOnHalt = false) (reason : String) :
    Triple (Calm env k P) (sm.haltHuman reason false >>= fun _ => pure false : Job τ Bool)
      (fun _ => Calm env k StateData.Rests) X :=
  (calm_haltHuman sm hsm reason).bind fun _ => calm_pure _

/-- After a passed audit the recovery returns, and the task is merged or halted. -/
theorem calm_mergeAudited (hsm : sm.raiseOnHalt = false) (modelInfo : AuditModel) :
    Triple (Calm env k P) (env.mergeAudited sm modelInfo) (fun _ => Calm env k StateData.Rests) X := by
  have hdone (d : StateData) (hd : d.currentState = .autoMerge) : (d.withStatus .completed).Rests :=
    .inl ⟨hd,rfl⟩
  unfold Env.mergeAudited
  refine (calm_runGit _).bind fun ancestorCheck => ?_
  cases ha : ancestorCheck.ok with
  | false => exact calm_haltFalse env sm hsm _
  | true =>
    refine (calm_transition sm _ _).bind fun _ => (calm_emit rfl rfl rfl).bind fun _ => ?_
    refine (calm_executeFastForwardMerge env).bind fun ⟨mergePassed,mergeMsg⟩ => ?_
    cases mergePassed with
    | false => exact calm_haltFalse env sm hsm _
    | true => exact (calm_setExecutionStatus hdone).bind fun _ => calm_pure _

/-- How a recovery leaves the task. -/
def RecoveryLeaves (k : Nat) (w : TaskWorld τ) : Prop := Calm env k StateData.Rests w ∨ Stranded env k w

theorem calm_auditAgain (hsm : sm.raiseOnHalt = false) :
    Triple (Calm env k P) (env.auditAgain sm) (fun _ => RecoveryLeaves env k) (fun _ w => Failed env k w.trace) := by
  unfold Env.auditAgain
  refine (calm_transition sm _ _).bind fun _ => (calm_runGit _).bind fun diffRes => ?_
  cases hd : diffRes.ok with
  | false => exact (calm_haltFalse env sm hsm _).mono (fun _ h => h) (fun _ _ h => .inl h) fun _ _ h => h
  | true =>
    refine (calm_logicSecurityAudit env sm hsm _).bind fun res => ?_
    intro w h
    unfold AuditLeaves at h
    cases hp : res.passed with
    | false =>
      rw [hp,if_neg Bool.false_ne_true] at h
      exact h
    | true =>
      rw [hp,if_pos rfl] at h
      obtain ⟨hc,hm⟩ := h
      rcases hi : res.modelInfo with _ | modelInfo
      · exact absurd hi hm
      · have hmerge := calm_mergeAudited (X := fun _ w => Failed env k w.trace) env sm hsm modelInfo w hc
        exact hmerge.mono (fun _ _ h => .inl h) fun _ _ h => h

theorem calm_branchExists : Triple (Calm env k P) env.branchExists (fun _ => Calm env k P) X :=
  (calm_runGit _).bind fun _ => calm_pure _

theorem calm_canResumeInRepo : Triple (Calm env k P) env.canResumeInRepo (fun _ => Calm env k P) X := by
  refine (calm_branchExists env).bind fun found => ?_
  cases found with
  | false => exact calm_pure _
  | true =>
    refine (calm_ask _).bind fun present => ?_
    cases present with
    | false => exact calm_pure _
    | true =>
      refine (calm_runGit _).bind fun wtStatus => ?_
      split_ifs
      · exact calm_pure _
      · refine (calm_runGit _).bind fun rootStatus => ?_
        split_ifs
        · exact calm_pure _
        · refine (calm_runGit _).bind fun ancestorCheck => ?_
          split_ifs <;> exact calm_pure _

theorem calm_canResumeAudit : Triple (Calm env k P) env.canResumeAudit (fun _ => Calm env k P) X := by
  refine calm_get.bind fun m => ?_
  cases hc : (StateManager.canResumeAuditFsm m.data).1 with
  | false => exact fun w h => calm_pure _ w h.1
  | true => exact fun w h => calm_canResumeInRepo env w h.1

/-- The state file a recovery is started on. -/
theorem calm_load (config : Config) {w : TaskWorld τ} {d : StateData}
    (hd : stateFile w.trace = some d) (hr : d.executionStatus ≠ .running) :
    Post (fun _ => Calm env w.trace.length (fun d' => d' = d)) X
      (sm.load config w) := by
  rw [sm.load_some config w d hd,if_neg hr]
  have heq : d.recovered = d := by rw [StateData.recovered,if_neg hr]
  rw [heq]
  refine ⟨rfl,hd,le_refl _,?_⟩
  intro hfailed
  obtain ⟨n,e,hn,he,-⟩ := hfailed
  rw [List.getElem?_eq_none hn] at he
  cases he

theorem accepted_status {d : StateData} (h : (StateManager.canResumeAuditFsm d).1 = true) :
    d.currentState = .humanReview ∧ d.executionStatus = .needsHumanReview := by
  unfold StateManager.canResumeAuditFsm at h
  split_ifs at h with hs hn
  exact ⟨not_not.mp hs,not_not.mp hn⟩

/-- A recovery started on an accepted task. -/
theorem resumeAudit_leaves {w : TaskWorld τ} {d : StateData} (hd : stateFile w.trace = some d)
    (ha : (StateManager.canResumeAuditFsm d).1 = true) :
    Post (fun _ => RecoveryLeaves env w.trace.length) (fun _ w' => Failed env w.trace.length w'.trace)
      (env.resumeAudit false w) := by
  obtain ⟨hstate,hstatus⟩ := accepted_status ha
  have hrest (d' : StateData) (h : d' = d) : d'.Rests := .inr (.inl ⟨h ▸ hstate,h ▸ hstatus⟩)
  have hload : Triple (fun v => v = w) ((env.stateManager false).load env.config : Job τ Unit)
      (fun _ => Calm env w.trace.length fun d' => d' = d) (fun _ w' => Failed env w.trace.length w'.trace) := by
    intro v heq
    subst heq
    exact calm_load env _ env.config hd (by rw [hstatus]; decide)
  have hrefuse : Triple (Calm env w.trace.length fun d' => d' = d) (pure false : Job τ Bool)
      (fun _ => RecoveryLeaves env w.trace.length) (fun _ w' => Failed env w.trace.length w'.trace) :=
    fun v h => .inl (h.mono hrest)
  have hrun : Triple (fun v => v = w) (env.resumeAudit false)
      (fun _ => RecoveryLeaves env w.trace.length) (fun _ w' => Failed env w.trace.length w'.trace) := by
    refine hload.bind fun _ => (calm_canResumeAudit env).bind fun ⟨allowed,reason⟩ => ?_
    cases allowed with
    | false => exact hrefuse
    | true =>
      refine (calm_ask _).bind fun present => ?_
      cases present with
      | false => exact hrefuse
      | true => exact calm_auditAgain env _ rfl
  exact hrun w rfl

/-- A recovery of an accepted task returns and leaves the task at rest, exactly if no auditor
gives the verdict FAIL and the specification can be read when the audit is called. -/
theorem resumeAudit_rests_iff {w : TaskWorld τ} {d : StateData} (hd : stateFile w.trace = some d)
    (ha : (StateManager.canResumeAuditFsm d).1 = true) :
    ((∃ b,(env.resumeAudit false w).1 = .ok b) ∧
        ∃ d',stateFile (env.resumeAudit false w).2.trace = some d' ∧ d'.Rests) ↔
      (¬∃ e ∈ (env.resumeAudit false w).2.trace.drop w.trace.length,e.isFail = true) ∧
        ∀ n diff role,w.trace.length ≤ n →
          (env.resumeAudit false w).2.trace[n]? = some (.executeLogicSecurityAudit diff role) →
          ∃ spec,env.readSpec n = .ok spec := by
  have h := resumeAudit_leaves env hd ha
  rw [← not_failed_iff]
  rcases hr : env.resumeAudit false w with ⟨s | b,w'⟩ <;> rw [hr] at h
  · refine iff_of_false ?_ (not_not.mpr h)
    intro hparts
    obtain ⟨⟨b,hb⟩,_⟩ := hparts
    cases hb
  · rcases h with h | ⟨hf,_,hs,hactive⟩
    · exact iff_of_true ⟨⟨b,rfl⟩,_,h.synced,h.data⟩ h.passed
    · refine iff_of_false ?_ (not_not.mpr hf)
      intro hparts
      obtain ⟨_,d',hd',hrests⟩ := hparts
      cases hs.symm.trans hd'
      unfold StateData.Rests at hrests
      rw [hactive] at hrests
      simp at hrests

end recovery

/-- A task that `request_human_review` has suspended in the logic audit. -/
def suspendedState : StateData :=
  { initState "TASK-001" defaultConfig with
    currentState := .humanReview
    executionStatus := .needsHumanReview
    history := [⟨"0",.logicAudit,.humanReview,"",1⟩]
    blockedReason := some ⟨"LOGIC_AUDIT","","0"⟩ }

/-- Its world: tree 1 waits on the task branch. -/
def suspendedWorld : TaskWorld Nat := ⟨⟨default,⟨0,some 1,1,1⟩⟩,[.save suspendedState]⟩

/-- The task branch exists, and the auditor answers again. -/
def restoredEnv : Env Nat :=
  { calmEnv with git := fun _ cmd => match cmd with
      | .branchList branch => ⟨0,branch,""⟩
      | _ => ⟨0,"",""⟩ }

/-- The auditor answers again, with the verdict FAIL. -/
def rejectingEnv : Env Nat :=
  { restoredEnv with auditors := fun _ _ _ _ _ => .ok ⟨.fail,["SEC-01"],none,""⟩ }

theorem suspendedState_accepted : (StateManager.canResumeAuditFsm suspendedState).1 = true := by
  decide

theorem restoredEnv_rests :
    (∃ b,(restoredEnv.resumeAudit false suspendedWorld).1 = .ok b) ∧
      ∃ d,stateFile (restoredEnv.resumeAudit false suspendedWorld).2.trace = some d ∧
        d.Rests := by
  refine (resumeAudit_rests_iff restoredEnv rfl suspendedState_accepted).mpr ⟨?_,?_⟩
  · rw [← List.any_eq_true]
    decide +kernel
  · exact fun _ _ _ _ _ => ⟨"# SPEC",rfl⟩

/-- With the budget for a redesign left, the verdict FAIL strands the task. -/
theorem rejectingEnv_strands :
    (StateManager.canResumeAuditFsm suspendedState).1 = true ∧
    ¬((∃ b,(rejectingEnv.resumeAudit false suspendedWorld).1 = .ok b) ∧
      ∃ d,stateFile (rejectingEnv.resumeAudit false suspendedWorld).2.trace = some d ∧
        d.Rests) := by
  have hf : (stateFile (rejectingEnv.resumeAudit false suspendedWorld).2.trace).map
      StateData.currentState = some .logicAudit := by
    decide +kernel
  refine ⟨suspendedState_accepted,?_⟩
  intro h
  obtain ⟨_,d,hd,hrests⟩ := h
  rw [hd,Option.map_some] at hf
  unfold StateData.Rests at hrests
  rw [Option.some.inj hf] at hrests
  simp at hrests

end SoftwareFactory
