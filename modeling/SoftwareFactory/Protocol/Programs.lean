import SoftwareFactory.Protocol.Rounds

namespace SoftwareFactory

open Process

variable {τ α β : Type} {text : String → String} (env : Env τ) (sm : StateManager)

section pipeline

attribute [local irreducible] StateManager.auditCandidates

theorem walks_autoMerge (modelInfo : AuditModel) (raiseOnHalt : Bool) :
    Walks env.mergeHaltText (.mergePending .pipeline)
      (env.autoMerge (env.stateManager raiseOnHalt) modelInfo) (fun _ q => q = .completed) := by
  refine (walks_transition _ _ (.autoMerge _ .pipeline)).bind ?_
  intro _ _ heq
  subst heq
  refine (walks_emit fun _ _ => .detach .pipeline).bind ?_
  intro _ _ heq
  subst heq
  refine (walks_merge env .pipeline).bind ?_
  intro answer _ heq
  obtain ⟨mergePassed,mergeMsg⟩ := answer
  subst heq
  cases mergePassed with
  | true => exact walks_update fun _ => .complete .pipeline (by decide)
  | false =>
    refine (walks_haltHuman _ (.mergeHalt .pipeline mergeMsg (by decide)) true).mono ?_
    intro _ _ hparts
    obtain ⟨h,_⟩ := hparts
    cases h

theorem walks_load (p : Program) (config : Config) :
    Walks text (.opening p) (sm.load config : Job τ Unit) (fun _ q => q = .opened p) := by
  refine .act fun w => ⟨(),(sm.load config w).2,_,?_,rfl,.load p sm config w⟩
  rcases h : stateFile w.trace with _ | d
  · rw [sm.load_none config w h]
  · rw [sm.load_some config w d h]

theorem walks_runPipeline : Walks env.mergeHaltText .launched env.runPipeline (fun _ q => q = .completed) := by
  refine (walks_call fun b _ _ => .discovery b).bind ?_
  intro discPassed _ heq
  subst heq
  cases discPassed with
  | false => exact .stop (.inr rfl)
  | true =>
    refine (walks_load (env.stateManager false) .pipeline env.config).bind ?_
    intro _ _ heq
    subst heq
    refine (walks_transition _ _ (.init _)).bind ?_
    intro _ _ heq
    subst heq
    refine (walks_specGate env _).bind ?_
    intro _ _ h
    obtain ⟨rfl,rfl⟩ := h
    refine (walks_worktreeIsolation env _).bind ?_
    intro _ _ h
    obtain ⟨rfl,rfl⟩ := h
    refine (walks_buildLoop env (env.stateManager false) rfl).bind ?_
    intro modelInfo _ h
    obtain ⟨hm,rfl⟩ := h
    rcases modelInfo with _ | modelInfo
    · exact absurd rfl hm
    · exact walks_autoMerge env modelInfo false

end pipeline

section recovery

attribute [local irreducible] StateManager.auditCandidates

theorem walks_branchExists {p : Point} (h : ∀ d (r : Repo τ) res,
    Calls d r p (.git (.branchList env.taskBranch) r res) r p) :
    Walks text p env.branchExists (fun _ q => q = p) :=
  (walks_query env rfl h).bind fun _ _ hq => .pure hq

/-- A choice made by a check of the data in memory. -/
theorem walks_choice {p yes no : Point} {check : StateData → Bool} {f : Memory τ → Job τ α}
    {last : α → Point → Prop} (hyes : ∀ d,check d = true → Chooses d p yes)
    (hno : ∀ d,check d = false → Chooses d p no)
    (h : ∀ m : Memory τ,Walks text (if check m.data then yes else no) (f m) last) :
    Walks text p (Proc.get >>= f) last := by
  intro c w hw
  rw [Proc.bind_of_ok (Proc.get_apply w)]
  have hf := h w.mem
  cases hc : check w.mem.data with
  | true =>
    rw [hc] at hf
    exact hf c w (hw.step (.move (hyes _ hc)))
  | false =>
    rw [hc] at hf
    exact hf c w (hw.step (.move (hno _ hc)))

/-- Where a recovery leaves the process: only a success completes the task. -/
def Recovers (b : Bool) (q : Point) : Prop :=
  if b then q = .completed else q = .refused ∨ q = .halted

theorem walks_refuse {p : Point} (h : ∀ d,Chooses d p .refused) :
    Walks text p (pure false : Job τ Bool) Recovers :=
  .move (fun _ => .move (h _)) (.pure (.inl rfl))

theorem walks_resumeMerge :
    Walks text (.opening .resumeMerge) env.resumeMerge Recovers := by
  refine (walks_load (env.stateManager false) .resumeMerge env.config).bind ?_
  intro _ _ heq
  subst heq
  refine walks_choice (fun _ => .allowMerge) (fun _ => .refuseMerge) fun m => ?_
  cases hm : (StateManager.canResumeMerge m.data).1 with
  | false =>
    exact .pure (.inl rfl)
  | true =>
    refine Follows.bind (walks_branchExists env fun _ _ res => .checkMerge _ res rfl) ?_
    intro found _ heq
    subst heq
    cases found with
    | false => exact walks_refuse fun _ => .leaveMerge
    | true =>
      refine (walks_isRepoClean env fun _ _ res => .checkMerge _ res rfl).bind ?_
      intro answer _ heq
      obtain ⟨clean,dirtyFiles⟩ := answer
      subst heq
      cases clean with
      | false => exact walks_refuse fun _ => .leaveMerge
      | true =>
        refine .move (fun _ => .move .startMerge) ((walks_merge env .resumeMerge).bind ?_)
        intro answer _ heq
        obtain ⟨mergePassed,mergeMsg⟩ := answer
        subst heq
        cases mergePassed with
        | false => exact walks_refuse fun _ => .failedAgain _
        | true =>
          refine (walks_transition _ _ (.recovered _)).bind ?_
          intro _ _ heq
          subst heq
          refine (walks_update fun _ => .completeRecovered).bind ?_
          intro _ _ heq
          subst heq
          exact .pure rfl

theorem walks_canResumeInRepo :
    Walks text .checkingAudit env.canResumeInRepo (fun _ q => q = .checkingAudit) := by
  have check {cmd : GitCommand} (hc : cmd.isQuery = true) :
      Walks text .checkingAudit (env.runGit cmd) (fun _ q => q = .checkingAudit) :=
    walks_query env hc fun _ _ res => .checkAudit cmd res hc
  refine (walks_branchExists env fun _ _ res => .checkAudit _ res rfl).bind ?_
  intro found _ heq
  subst heq
  cases found with
  | false => exact .pure rfl
  | true =>
    refine .read (fun w => ⟨_,rfl⟩) fun present => ?_
    cases present with
    | false => exact .pure rfl
    | true =>
      refine (check rfl).bind ?_
      intro wtStatus _ heq
      subst heq
      split_ifs
      · exact .pure rfl
      · refine (check rfl).bind ?_
        intro rootStatus _ heq
        subst heq
        split_ifs
        · exact .pure rfl
        · refine (check rfl).bind ?_
          intro ancestorCheck _ heq
          subst heq
          split_ifs <;> exact .pure rfl

theorem walks_mergeAudited (modelInfo : AuditModel) (raiseOnHalt : Bool) :
    Walks env.mergeHaltText .checkingAncestor
      (env.mergeAudited (env.stateManager raiseOnHalt) modelInfo) Recovers := by
  refine (walks_query env rfl fun _ _ res => .ancestor _ _ res).bind ?_
  intro ancestorCheck _ heq
  subst heq
  cases ha : ancestorCheck.ok with
  | false =>
    refine (walks_haltHuman _ (.halt _) false).bind ?_
    intro _ _ h
    obtain ⟨_,rfl⟩ := h
    exact .pure (.inr rfl)
  | true =>
    refine (walks_transition _ _ (.autoMerge _ .resumeAudit)).bind ?_
    intro _ _ heq
    subst heq
    refine (walks_emit fun _ _ => .detach .resumeAudit).bind ?_
    intro _ _ heq
    subst heq
    refine (walks_merge env .resumeAudit).bind ?_
    intro answer _ heq
    obtain ⟨mergePassed,mergeMsg⟩ := answer
    subst heq
    cases mergePassed with
    | true =>
      refine (walks_update fun _ => .complete .resumeAudit (by decide)).bind ?_
      intro _ _ heq
      subst heq
      exact .pure rfl
    | false =>
      refine (walks_haltHuman _ (.mergeHalt .resumeAudit mergeMsg (by decide)) false).bind ?_
      intro _ _ h
      obtain ⟨_,rfl⟩ := h
      exact .pure (.inr rfl)

theorem walks_auditAgain (raiseOnHalt : Bool) : Walks env.mergeHaltText .checkingAudit
    (env.auditAgain (env.stateManager raiseOnHalt)) Recovers := by
  refine (walks_transition _ _ (.resumeAudit _)).bind ?_
  intro _ _ heq
  subst heq
  refine (walks_query env rfl fun _ _ res => .diffAgain _ res).bind ?_
  intro diffRes _ heq
  subst heq
  cases hd : diffRes.ok with
  | false =>
    refine (walks_haltHuman _ (.halt _) false).bind ?_
    intro _ _ h
    obtain ⟨_,rfl⟩ := h
    exact .pure (.inr rfl)
  | true =>
    refine (walks_logicSecurityAudit env _ .resumeAudit diffRes.stdout false).bind
      fun res q hq => ?_
    unfold AuditReturns at hq
    cases hp : res.passed with
    | false =>
      rw [hp,if_neg Bool.false_ne_true] at hq
      refine .pure (.inl ?_)
      split_ifs at hq with hf
      · exact hq
      · exact hq.2
    | true =>
      rw [hp,if_pos rfl] at hq
      obtain ⟨rfl,hm⟩ := hq
      rcases hi : res.modelInfo with _ | modelInfo
      · exact absurd hi hm
      · exact walks_mergeAudited env modelInfo raiseOnHalt

theorem walks_resumeAudit (raiseOnHalt : Bool) :
    Walks env.mergeHaltText (.opening .resumeAudit) (env.resumeAudit raiseOnHalt) Recovers := by
  refine (walks_load (env.stateManager raiseOnHalt) .resumeAudit env.config).bind ?_
  intro _ _ heq
  subst heq
  have hallowed : Walks env.mergeHaltText (.opened .resumeAudit) env.canResumeAudit
      (fun r q => q = .checkingAudit ∨ r.1 = false ∧ q = .refused) := by
    refine walks_choice (fun _ => .allowAudit) (fun _ => .refuseAudit) fun m => ?_
    cases hm : (StateManager.canResumeAuditFsm m.data).1 with
    | false =>
      simp only [Bool.not_false,if_true]
      exact .pure (.inr ⟨hm,rfl⟩)
    | true => exact Follows.mono (walks_canResumeInRepo env) fun _ _ h => .inl h
  refine hallowed.bind ?_
  intro answer q hq
  obtain ⟨allowed,reason⟩ := answer
  rcases hq with rfl | ⟨rfl,rfl⟩
  · cases allowed with
    | false => exact walks_refuse fun _ => .leaveAudit
    | true =>
      refine .read (fun w => ⟨_,rfl⟩) fun present => ?_
      cases present with
      | false => exact walks_refuse fun _ => .leaveAudit
      | true => exact walks_auditAgain env raiseOnHalt
  · exact .pure (.inl rfl)

end recovery

/-- A program as the command line starts it. -/
def Program.run (p : Program) (env : Env τ) : Job τ Unit :=
  match p with
  | .pipeline => env.runPipeline
  | .resumeMerge => do let _ ← env.resumeMerge
  | .resumeAudit => do let _ ← env.resumeAudit false

/-- Where a program that returns has got to. -/
def Program.Returned : Program → Point → Prop
  | .pipeline,q => q = .completed
  | _,q => q = .completed ∨ q = .refused ∨ q = .halted

theorem walks_run (p : Program) : Walks env.mergeHaltText p.entry (p.run env) (fun _ => p.Returned) := by
  have recovered (b : Bool) (q : Point) (h : Recovers b q) :
      q = .completed ∨ q = .refused ∨ q = .halted := by
    unfold Recovers at h
    split_ifs at h
    · exact .inl h
    · exact .inr h
  cases p with
  | pipeline => exact walks_runPipeline env
  | resumeMerge => exact (walks_resumeMerge env).bind fun b q h => .pure (recovered b q h)
  | resumeAudit => exact (walks_resumeAudit env false).bind fun b q h => .pure (recovered b q h)

end SoftwareFactory
