import SoftwareFactory.Protocol.Refinement

namespace SoftwareFactory

open Process

variable {τ α β : Type} {text : String → String} (env : Env τ) (sm : StateManager)

section audit

variable (call : AuditCall)

/-- Where the audit leaves a process: `res` is what it returns. -/
def AuditLands (p : Program) (exitProcess : Bool) (res : AuditResult) (q : Point) : Prop :=
  if res.passed then q = .approved p ∧ res.modelInfo ≠ none
  else if res.output.map LogicAuditOutput.status = some .fail then q = .rejected p
  else exitProcess = false ∧ (q = .halted ∨ q = .suspended)

theorem lands_halted (p : Program) : ∀ (_ : Unit) q,
    call.exitProcess = false ∧ q = .halted →
      Walks text q (pure ⟨false,none,none⟩ : Job τ AuditResult) (AuditLands p call.exitProcess) :=
  fun _ _ h => .pure ⟨h.1,.inl h.2⟩

theorem at_asking (p : Program) (c : Candidate) (cs : List Candidate)
    {c₀ : Point × TaskWorld τ} {w : TaskWorld τ} (h : At (Step text) c₀ (.auditing p (c::cs)) w) :
    At (Step text) c₀ (.asking p c cs) (sm.announceFallback c w).2 := by
  unfold StateManager.announceFallback
  split_ifs with hf
  · exact h.step (.enter (.fallback _ p c cs hf) _ w)
  · exact h.step (.move (.primary p c cs (Bool.not_eq_true _ ▸ hf)))

theorem at_answered (p : Program) (c : Candidate) (cs : List Candidate) (client : Adapter)
    {res : Except PyExc LogicAuditOutput} {q : Point} (hq : Answers p cs res q)
    {c₀ : Point × TaskWorld τ} {w : TaskWorld τ} (h : At (Step text) c₀ (.auditing p (c::cs)) w) :
    At (Step text) c₀ q (sm.answered c client res w) :=
  ((at_asking sm p c cs h).step (.call (.adapter p c cs))).step (.call (.query p c cs _ _ _ hq))

theorem walks_judge (p : Program) (c : Candidate) (cs : List Candidate) (client : Adapter)
    (out : LogicAuditOutput) {c₀ : Point × TaskWorld τ} {w : TaskWorld τ}
    (h : At (Step text) c₀ (.auditing p (c::cs)) w) :
    Post (fun res w => ∃ q,AuditLands p call.exitProcess res q ∧ At (Step text) c₀ q w)
      (Ended (Step text) Ends c₀) (sm.judge call c out (sm.answered c client (.ok out) w)) := by
  by_cases hf : out.status = .fail
  · obtain ⟨reason,hj⟩ := sm.judge_fail call c out (sm.answered c client (.ok out) w) hf
    rw [hj]
    refine (walks_securityReplan sm (some p) reason).bind ?_ c₀ _
      (at_answered sm p c cs client (.fail out hf) h)
    intro b q hparts
    obtain ⟨_,rfl⟩ := hparts
    exact .pure (by simp [AuditLands,hf,Point.redesigned])
  by_cases hr : out.status = .unavailable ∨ out.status = .uncertain
  · obtain ⟨reason,hj⟩ := sm.judge_review call c out (sm.answered c client (.ok out) w) hr
    rw [hj]
    refine (walks_review sm reason call.exitProcess).bind ?_ c₀ _
      (at_answered sm p c cs client (.review out hr) h)
    intro _ q hparts
    obtain ⟨he,rfl⟩ := hparts
    exact .pure (by simp [AuditLands,hf,he])
  by_cases hl : out.status = .simulated ∧ call.simulate = false
  · obtain ⟨reason,hj⟩ := sm.judge_live call c out (sm.answered c client (.ok out) w) hl.1 hl.2
    rw [hj]
    exact (walks_haltHuman sm (.halt _) call.exitProcess).bind (lands_halted call p) c₀ _
      (at_answered sm p c cs client (.live out hl.1) h)
  · have hp : out.status = .pass ∨ out.status = .simulated ∧ call.simulate = true := by
      cases hs : out.status <;> simp_all
    rw [sm.judge_pass call c out _ hp]
    refine Follows.bind (walks_update fun d => .record p _) ?_ c₀ _
      (at_answered sm p c cs client (.pass out (hp.imp_right And.left)) h)
    intro _ q heq
    subst heq
    exact .pure (by simp [AuditLands])

attribute [local irreducible] StateManager.auditCandidates

theorem walks_auditCandidates (p : Program) (i : Nat) (cs : List Candidate)
    (errors : List String) :
    Walks text (.auditing p cs) (sm.auditCandidates call i cs errors : Job τ AuditResult)
      (AuditLands p call.exitProcess) := by
  induction cs generalizing i errors with
  | nil =>
    intro c₀ w hw
    obtain ⟨reason,hr⟩ := sm.auditCandidates_exhausted call i errors w
    rw [hr]
    refine (walks_review sm reason call.exitProcess).bind ?_ c₀ w
      (hw.step (.move (.exhausted p)))
    intro _ q h
    obtain ⟨he,rfl⟩ := h
    exact .pure (by simp [AuditLands,he])
  | cons c cs ih =>
    intro c₀ w hw
    cases ho : call.outcome i c with
    | unknownProvider =>
      obtain ⟨reason,hr⟩ := sm.auditCandidates_unknown call i c cs errors w ho
      rw [hr]
      exact (walks_haltHuman sm (.halt _) call.exitProcess).bind (lands_halted call p) c₀ _
        ((at_asking sm p c cs hw).step (.call (.unknownProvider p c cs)))
    | unavailable =>
      obtain ⟨client,e,message,_,_,he,hr⟩ :=
        sm.auditCandidates_unavailable call i c cs errors w ho
      rw [hr]
      exact ih (i+1) _ c₀ _ (at_answered sm p c cs client (.unavailable e he) hw)
    | otherException =>
      obtain ⟨client,e,reason,_,he,hr⟩ :=
        sm.auditCandidates_otherException call i c cs errors w ho
      rw [hr]
      exact (walks_haltHuman sm (.halt _) call.exitProcess).bind (lands_halted call p) c₀ _
        (at_answered sm p c cs client (.other e he) hw)
    | verdict s =>
      obtain ⟨client,out,_,_,_,hr⟩ := sm.auditCandidates_verdict call i c cs errors w s ho
      rw [hr]
      exact walks_judge sm call p c cs client out hw

/-- Where a process is once the result of the audit is recorded. -/
def AuditReturns (p : Program) (exitProcess : Bool) (res : AuditResult) (q : Point) : Prop :=
  if res.passed then q = p.afterPass ∧ res.modelInfo ≠ none
  else if res.output.map LogicAuditOutput.status = some .fail then q = p.afterFail
  else exitProcess = false ∧ q = .refused

theorem walks_executeAudit (p : Program) :
    Walks text (.auditPending p call.diffOutput) (sm.executeLogicSecurityAudit call : Job τ AuditResult)
      (AuditLands p call.exitProcess) := by
  unfold StateManager.executeLogicSecurityAudit
  refine (walks_emit fun _ _ => .audit p call.diffOutput call.role).bind ?_
  intro _ _ heq
  subst heq
  exact walks_auditCandidates sm call p 0 call.role.candidates []

/-- A specification that cannot be read ends the process inside the call. -/
theorem walks_unread {α β : Type} {f : α → Job τ β} {next : β → Point → Prop} (p : Program)
    (diff : String) (role : SecurityRole) (e : PyExc) : Walks text (.auditPending p diff)
      (Proc.attempt (.error e) (Proc.emit (.executeLogicSecurityAudit diff role)) >>= f) next := by
  apply Follows.bind_ended
  rw [Proc.attempt_error]
  refine (walks_emit fun _ _ => .audit p diff role).bind ?_
  intro _ _ heq
  subst heq
  exact .move (fun w => .move (.auditUnread p role.candidates)) (.stop (.inl rfl))

theorem walks_logicSecurityAudit (p : Program) (diff : String) (exitProcess : Bool) :
    Walks text (.auditPending p diff) (env.logicSecurityAudit sm diff exitProcess)
      (AuditReturns p exitProcess) := by
  unfold Env.logicSecurityAudit
  refine .read (fun w => ⟨_,rfl⟩) fun spec => ?_
  cases spec with
  | error e => exact walks_unread p diff env.securityRole e
  | ok specContent =>
  refine .read (fun w => ⟨_,rfl⟩) fun specContent => .read (fun w => ⟨_,rfl⟩) fun auditors => ?_
  have haudit (call : AuditCall) : Walks text (.auditPending p call.diffOutput)
      (sm.executeLogicSecurityAudit call : Job τ AuditResult) (AuditLands p call.exitProcess) :=
    walks_executeAudit sm call p
  refine (haudit ⟨env.hasApiKey,auditors,specContent,diff,env.securityRole,env.simulate,
    exitProcess⟩).bind fun res q hq => ?_
  have hreturn (q' : Point) (hc : ∀ d (r : Repo τ),Calls d r q (.auditReturned res.passed) r q')
      (hr : AuditReturns p exitProcess res q') :
      Walks text q (do Proc.emit (.auditReturned res.passed); return res : Job τ AuditResult)
        (AuditReturns p exitProcess) :=
    (walks_emit hc).bind fun _ _ hx => .pure (hx ▸ hr)
  unfold AuditLands at hq
  cases hp : res.passed with
  | true =>
    rw [hp] at hq hreturn
    obtain ⟨rfl,hm⟩ := hq
    exact hreturn _ (fun _ _ => .approve p) (by simp [AuditReturns,hp,hm])
  | false =>
    rw [hp] at hq hreturn
    by_cases hf : res.output.map LogicAuditOutput.status = some .fail
    · rw [if_neg Bool.false_ne_true,if_pos hf] at hq
      subst hq
      exact hreturn _ (fun _ _ => .reject p) (by simp [AuditReturns,hp,hf])
    · rw [if_neg Bool.false_ne_true,if_neg hf] at hq
      have he : exitProcess = false := hq.1
      have hr : AuditReturns p exitProcess res .refused := by simp [AuditReturns,hp,hf,he]
      obtain ⟨_,rfl | rfl⟩ := hq
      · exact hreturn _ (fun _ _ => .haltedAudit) hr
      · exact hreturn _ (fun _ _ => .suspendedAudit) hr

end audit

section merge

theorem walks_isRepoClean {p : Point}
    (h : ∀ d (r : Repo τ) res,Calls d r p (.git (.status false) r res) r p) :
    Walks text p env.isRepoClean (fun _ q => q = p) :=
  (walks_query env rfl h).bind fun _ _ hq => .pure hq

theorem walks_fastForward (p : Program) : Walks text (.merging p) env.fastForward
    (fun res q => q = if res.1 then .fastForwarded p else .merging p) := by
  have check {cmd : GitCommand} (hc : cmd.isQuery = true) :
      Walks text (.merging p) (env.runGit cmd) (fun _ q => q = .merging p) :=
    walks_query env hc fun _ _ res => .checkGate p cmd res hc
  refine (walks_isRepoClean env fun _ _ res => .checkGate p _ res rfl).bind ?_
  intro answer _ heq
  obtain ⟨clean,dirtyFiles⟩ := answer
  subst heq
  cases clean with
  | false => exact .pure rfl
  | true =>
    refine (check rfl).bind ?_
    intro coRes _ heq
    subst heq
    cases hco : coRes.ok with
    | false => exact .pure rfl
    | true =>
      refine (check rfl).bind ?_
      intro ancestorCheck _ heq
      subst heq
      cases ha : ancestorCheck.ok with
      | false => exact .pure rfl
      | true =>
        refine (walks_git env fun _ _ res => .fastForward p _ res).bind fun mergeRes _ hq => ?_
        cases hm : mergeRes.ok with
        | false =>
          simp only [hm] at hq ⊢
          exact .pure hq
        | true =>
          simp only [hm] at hq ⊢
          exact .pure hq

theorem walks_merge (p : Program) : Walks text (.merging p) env.executeFastForwardMerge
    (fun res q => q = if res.1 then .merged p else .mergeFailed p res.2) := by
  refine (walks_fastForward env p).bind ?_
  intro answer q hq
  obtain ⟨passed,message⟩ := answer
  intro c w hw
  cases passed with
  | false =>
    subst hq
    exact ⟨_,rfl,hw.step (.call (.mergeRefused p message))⟩
  | true =>
    subst hq
    exact ⟨_,rfl,hw.step (.call (.mergePassed p message))⟩

end merge

end SoftwareFactory
