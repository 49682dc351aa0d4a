import SoftwareFactory.Adapters.AuditReplies
import SoftwareFactory.Protocol.RecordRules

namespace SoftwareFactory

open Process

variable {τ : Type} {t : List (Event τ)} {e : Event τ} {w : TaskWorld τ} {d : StateData}
  {answers : Adapter → LogicAuditOutput → Prop}

/-- An auditor has said PASS, in an answer of the kind `answers`. -/
def LivePass (answers : Adapter → LogicAuditOutput → Prop) (t : List (Event τ)) : Prop :=
  ∃ client out,.auditLogicAndSecurity client (.ok out) ∈ t ∧ out.status = .pass ∧
    answers client out

/-- The task is or was in AUTO_MERGE. -/
def StateData.merges (d : StateData) : Bool :=
  d.currentState = .autoMerge || d.history.any fun e => e.fromState = .autoMerge

/-- The events that want an approval: a fast-forward that is tried, and a saved AUTO_MERGE. -/
def Event.wantsPass : Event τ → Bool
  | .git (.mergeFfOnly _) _ _ => true
  | .save d => d.merges
  | _ => false

def Approved (answers : Adapter → LogicAuditOutput → Prop) (t : List (Event τ)) : Prop :=
  ∀ before e after,t = before++e::after → e.wantsPass = true → LivePass answers before

/-- A process that is not a simulation, with what its clients pass. -/
structure LiveRun (answers : Adapter → LogicAuditOutput → Prop) (env : Env τ) : Prop where
  live : env.simulate = false
  heard : ∀ provider model client,
    createSecurityAdapter env.hasApiKey provider model false = .ok client →
    ∀ n i spec diff out,env.auditors n i client spec diff = .ok out → out.status = .pass →
      answers client out

/-- A history of such processes on one task. -/
inductive LiveSession (Run : Env τ → Prop) : List (Event τ) → Prop
  | nil : LiveSession Run []
  | process {past t : List (Event τ)} (p : Program) (env : Env τ) (repo : Repo τ)
      (before : LiveSession Run past) (hpast : past <+: t) (ht : t <+: p.traced env past repo)
      (hrun : Run env) : LiveSession Run t

theorem LivePass.append (h : LivePass answers t) (e : Event τ) : LivePass answers (t++[e]) := by
  obtain ⟨client,out,hmem,hrest⟩ := h
  exact ⟨client,out,List.mem_append_left _ hmem,hrest⟩

theorem approved_append (h : Approved answers t) (he : e.wantsPass = true → LivePass answers t) :
    Approved answers (t++[e]) := by
  intro before e' after heq hwants
  cases List.eq_nil_or_concat after with
  | inl hnil =>
    rw [hnil] at heq
    obtain ⟨rfl,hlast⟩ := List.append_inj' heq rfl
    obtain rfl := (List.cons.inj hlast).1
    exact he hwants
  | inr hmore =>
    obtain ⟨front,last,rfl⟩ := hmore
    rw [List.concat_eq_append,← List.cons_append,← List.append_assoc] at heq
    obtain ⟨hfront,_⟩ := List.append_inj' heq rfl
    exact h before e' front hfront hwants

theorem Approved.of_initial {t' : List (Event τ)} (h : Approved answers t') (ht : t <+: t') :
    Approved answers t := by
  intro before e after heq hwants
  obtain ⟨rest,rfl⟩ := ht
  exact h before e (after++rest) (by rw [heq]; simp) hwants

section audit

variable {α β : Type} {sm : StateManager} {call : AuditCall}

/-- A run that is asked nothing. -/
theorem triple_any (P : TaskWorld τ → Prop) (m : Job τ α) :
    Triple P m (fun _ _ => True) (fun _ _ => True) := by
  intro w _
  cases h : m w with
  | mk r w' =>
    cases r with
    | ok a => trivial
    | error s => trivial

theorem triple_refuses {m : Job τ β} {res : AuditResult} (hres : res.passed = false) :
    Triple (fun _ => True) (m >>= fun _ => pure res : Job τ AuditResult)
      (fun res w => res.passed = true → LivePass answers w.trace) (fun _ _ => True) := by
  refine (triple_any _ m).bind fun _ => ?_
  intro w _ hpassed
  rw [hres] at hpassed
  cases hpassed

theorem judge_live (hlive : call.simulate = false) (c : Candidate) (client : Adapter)
    (out : LogicAuditOutput) (hheard : out.status = .pass → answers client out) :
    Triple (fun w => .auditLogicAndSecurity client (.ok out) ∈ w.trace)
      (sm.judge call c out : Job τ AuditResult)
      (fun res w => res.passed = true → LivePass answers w.trace) (fun _ _ => True) := by
  intro w hw
  rw [StateManager.judge]
  split_ifs with hfail hreview hsimulated
  · exact triple_refuses rfl w trivial
  · exact triple_refuses rfl w trivial
  · exact triple_refuses rfl w trivial
  · have hpass : out.status = .pass := by
      rw [hlive] at hsimulated
      cases hstatus : out.status <;> simp_all
    intro _
    exact LivePass.append ⟨client,out,hw,hpass,hheard hpass⟩ _

attribute [local irreducible] StateManager.auditCandidates

theorem auditCandidates_live (hlive : call.simulate = false)
    (hheard : ∀ provider model client,
      createSecurityAdapter call.hasApiKey provider model false = .ok client →
      ∀ i spec diff out,call.auditors i client spec diff = .ok out → out.status = .pass →
        answers client out) (i : Nat) (cs : List Candidate) (errors : List String) :
    Triple (fun _ => True) (sm.auditCandidates call i cs errors : Job τ AuditResult)
      (fun res w => res.passed = true → LivePass answers w.trace) (fun _ _ => True) := by
  induction cs generalizing i errors with
  | nil =>
    rw [StateManager.auditCandidates]
    exact triple_refuses rfl
  | cons c cs ih =>
    rw [StateManager.auditCandidates]
    have hclient := hheard c.provider c.model
    rw [← hlive] at hclient
    generalize createSecurityAdapter call.hasApiKey c.provider c.model call.simulate = created
      at hclient ⊢
    refine (triple_any _ (sm.announceFallback c)).bind fun _ => ?_
    refine (triple_any _ (Proc.emit (.createSecurityAdapter c.provider c.model))).bind fun _ => ?_
    cases created with
    | error e => exact triple_refuses rfl
    | ok client =>
      dsimp only
      cases hres : call.auditors i client call.specContent call.diffOutput with
      | ok out =>
        have hemit : Triple (fun _ : TaskWorld τ => True)
            (Proc.emit (.auditLogicAndSecurity client (.ok out)) : Job τ Unit)
            (fun _ w => .auditLogicAndSecurity client (.ok out) ∈ w.trace) (fun _ _ => True) :=
          fun w _ => List.mem_append_right _ (List.mem_singleton_self _)
        refine hemit.bind fun _ => judge_live hlive c client out ?_
        exact hclient client rfl i _ _ out hres
      | error e =>
        refine (triple_any _ (Proc.emit (.auditLogicAndSecurity client (.error e)))).bind
          fun _ => ?_
        cases e with
        | networkTransport => exact ih _ _
        | _ =>
          dsimp only
          split_ifs
          · exact ih _ _
          · exact triple_refuses rfl

theorem executeAudit_live (hlive : call.simulate = false)
    (hheard : ∀ provider model client,
      createSecurityAdapter call.hasApiKey provider model false = .ok client →
      ∀ i spec diff out,call.auditors i client spec diff = .ok out → out.status = .pass →
        answers client out) :
    Triple (fun _ => True) (sm.executeLogicSecurityAudit call : Job τ AuditResult)
      (fun res w => res.passed = true → LivePass answers w.trace) (fun _ _ => True) := by
  rw [StateManager.executeLogicSecurityAudit]
  refine Triple.bind (Q := fun _ _ => True) (triple_any _ _) fun _ => ?_
  exact auditCandidates_live hlive hheard 0 call.role.candidates []

end audit

section invariant

attribute [local irreducible] StateManager.executeLogicSecurityAudit

theorem logicSecurityAudit_live {env : Env τ} (h : LiveRun answers env) (sm : StateManager)
    (diff : String) (exitProcess : Bool) :
    Triple (fun _ => True) (env.logicSecurityAudit sm diff exitProcess)
      (fun res w => res.passed = true → LivePass answers w.trace) (fun _ _ => True) := by
  refine (triple_any _ (Proc.ask env.readSpec)).bind fun spec => ?_
  refine (triple_any _ (Proc.attempt spec _)).bind fun specContent => ?_
  intro w _
  rw [Proc.bind_of_ok (Proc.ask_apply _ w)]
  have haudit (call : AuditCall) (hlive : call.simulate = false)
      (hkeys : call.hasApiKey = env.hasApiKey)
      (hauditors : call.auditors = env.auditors w.trace.length) :
      Triple (fun _ => True) (sm.executeLogicSecurityAudit call : Job τ AuditResult)
        (fun res w => res.passed = true → LivePass answers w.trace) (fun _ _ => True) := by
    apply executeAudit_live hlive
    intro provider model client hcreated
    rw [hkeys] at hcreated
    rw [hauditors]
    exact h.heard provider model client hcreated w.trace.length
  refine (haudit ⟨env.hasApiKey,env.auditors w.trace.length,specContent,diff,env.securityRole,
    env.simulate,exitProcess⟩ h.live rfl rfl).bind (fun res => ?_) w trivial
  intro w hw hpassed
  exact (hw hpassed).append _

/-- Before the approval: what wants one has had it. -/
def Unapproved (answers : Adapter → LogicAuditOutput → Prop) (w : TaskWorld τ) : Prop :=
  Approved answers w.trace ∧ (w.mem.data.merges = true → LivePass answers w.trace)

/-- After the approval. -/
def Cleared (answers : Adapter → LogicAuditOutput → Prop) (w : TaskWorld τ) : Prop :=
  Approved answers w.trace ∧ LivePass answers w.trace

theorem Unapproved.other (h : Unapproved answers w) (he : e.wantsPass = false) :
    Unapproved answers (w.emit e) := by
  refine ⟨approved_append h.1 fun hwants => ?_,fun hm => (h.2 hm).append e⟩
  rw [he] at hwants
  cases hwants

theorem Unapproved.save (h : Unapproved answers w)
    (hd : d.merges = true → w.mem.data.merges = true) :
    Unapproved answers (saved w d) :=
  ⟨approved_append h.1 fun hwants => h.2 (hd hwants),fun hm => (h.2 (hd hm)).append _⟩

theorem Cleared.emit (h : Cleared answers w) (e : Event τ) : Cleared answers (w.emit e) :=
  ⟨approved_append h.1 fun _ => h.2,h.2.append e⟩

theorem Cleared.save (h : Cleared answers w) (d : StateData) : Cleared answers (saved w d) :=
  ⟨approved_append h.1 fun _ => h.2,h.2.append _⟩

theorem merges_transitioned {st : FsmState} (hst : st ≠ .autoMerge) {details timestamp : String}
    (h : (d.transitioned st details timestamp).merges = true) : d.merges = true := by
  simp only [StateData.merges,StateData.transitioned,List.any_append,List.any_cons,List.any_nil,
    Bool.or_eq_true,Bool.or_false] at h ⊢
  rcases h with h | h | h
  · exact absurd (of_decide_eq_true h) hst
  · exact .inr h
  · exact .inl h

theorem wantsPass_of_isRoutine (he : e.isRoutine = true) : e.wantsPass = false := by
  cases e with
  | git cmd before res => cases cmd <;> simp_all [Event.isRoutine,Event.wantsPass]
  | _ => simp_all [Event.isRoutine,Event.wantsPass]

theorem unapproved_keeping (clean : String → String) :
    Keeping clean (Unapproved answers : TaskWorld τ → Prop) where
  trees := fun _ h => h
  event := fun _ he h => h.other (wantsPass_of_isRoutine he)
  transition := fun _ _ _ hst h => h.save (merges_transitioned hst)
  status := fun _ h => h.save id
  budgets := fun _ h => h.save id
  newEpoch := fun h => h.save id
  blocked := fun _ _ h => h.save id
  audited := fun _ _ h => h.save id
  crash := fun _ _ _ _ _ h => h.other rfl
  review := fun _ _ _ _ h => h.other rfl

theorem cleared_keeping (clean : String → String) :
    MergeKeeping clean (Cleared answers : TaskWorld τ → Prop) where
  trees := fun _ h => h
  event := fun e _ h => h.emit e
  merge := fun e _ h => h.emit e
  transition := fun _ _ _ _ h => h.save _
  autoMerge := fun _ _ h => h.save _
  status := fun _ h => h.save _
  budgets := fun _ h => h.save _
  newEpoch := fun h => h.save _
  blocked := fun _ _ h => h.save _
  audited := fun _ _ h => h.save _
  crash := fun _ _ _ _ _ h => h.emit _
  review := fun _ _ _ _ h => h.emit _

theorem unapproved_opening :
    Opening (fun w => Approved answers w.trace) (Unapproved answers : TaskWorld τ → Prop) where
  discovery := fun _ h => approved_append h fun hwants => by cases hwants
  fresh := by
    intro w taskId config _ h
    have hnew : (initState taskId config).merges = false := by simp [StateData.merges,initState]
    refine ⟨approved_append h fun hwants => ?_,fun hm => ?_⟩
    · exact absurd (hnew.symm.trans hwants) Bool.false_ne_true
    · exact absurd (hnew.symm.trans hm) Bool.false_ne_true
  restored := by
    intro w d hfile h
    refine ⟨h,fun hm => ?_⟩
    have hmem : .save d ∈ w.trace :=
      EverySaved.stateFile (P := fun d => .save d ∈ w.trace) (fun _ hd => hd) hfile
    obtain ⟨before,after,heq⟩ := List.append_of_mem hmem
    obtain ⟨client,out,hpass,hrest⟩ := h before (.save d) after heq hm
    refine ⟨client,out,?_,hrest⟩
    rw [heq]
    exact List.mem_append_left _ hpass

theorem canResumeMerge_merges (h : (StateManager.canResumeMerge d).1 = true) :
    d.merges = true := by
  unfold StateManager.canResumeMerge at h
  split_ifs at h with hstate hstatus
  cases hlast : d.history.getLast? with
  | none =>
    rw [hlast] at h
    cases h
  | some last =>
    rw [hlast] at h
    dsimp only at h
    split_ifs at h with hmove
    rw [not_or,not_not] at hmove
    rw [StateData.merges,Bool.or_eq_true,List.any_eq_true]
    exact .inr ⟨last,List.mem_of_getLast? hlast,decide_eq_true hmove.1⟩

theorem live_phases {env : Env τ} (h : LiveRun answers env) :
    Phases env (fun w => Approved answers w.trace) (Unapproved answers) (Cleared answers) where
  opening := unapproved_opening
  working := unapproved_keeping _
  merging := cleared_keeping _
  falls := fun hw => ⟨hw.1,fun _ => hw.2⟩
  recovered := fun hw hresume => ⟨hw.1,hw.2 (canResumeMerge_merges hresume)⟩
  approved := by
    intro raiseOnHalt diff exitProcess
    have hk : Keeping (env.stateManager raiseOnHalt).sanitizeSecretText
        (Unapproved answers : TaskWorld τ → Prop) := unapproved_keeping _
    have hkept := Keeping.keeps_logicSecurityAudit env hk diff exitProcess
    have hlive := logicSecurityAudit_live h (env.stateManager raiseOnHalt) diff exitProcess
    refine (Triple.and hkept hlive).mono (fun _ hw => ⟨hw,trivial⟩) ?_ (fun _ _ hw => hw.1)
    intro res w hw
    split_ifs with hpassed
    · exact ⟨hw.1.1,hw.2 hpassed⟩
    · exact hw.1

end invariant

theorem liveSession_approved {Run : Env τ → Prop} (hRun : ∀ env,Run env → LiveRun answers env)
    (h : LiveSession Run t) : Approved answers t := by
  induction h with
  | nil =>
    intro before e after heq _
    exact absurd heq.symm (by simp)
  | @process past t p env repo _ _ ht hrun ih =>
    rw [Program.traced] at ht
    cases (live_phases (hRun env hrun)).run p (w := launch past repo) ih with
    | inl hearly => exact hearly.of_initial ht
    | inr hlate => exact hlate.1.of_initial ht

section online

variable {lib : Libraries} {keyed : AdapterKind → Prop} {served : Request → Response → Prop}

theorem createSecurityAdapter_key {hasApiKey : AdapterKind → Bool} {provider model : String}
    {client : Adapter} (h : createSecurityAdapter hasApiKey provider model false = .ok client)
    (hreal : client.isSimulation = false) : hasApiKey client.kind = true := by
  rw [createSecurityAdapter] at h
  cases hkind : adapterKind provider with
  | none =>
    rw [hkind] at h
    cases h
  | some kind =>
    rw [hkind] at h
    rw [← Except.ok.inj h] at hreal ⊢
    simpa using hreal

/-- A verdict of a provider with a key: the server's reply to a request of a client that is not
simulated, in a response that `raise_for_status` lets pass, decoded by that client. -/
def Vouched (lib : Libraries) (keyed : AdapterKind → Prop) (served : Request → Response → Prop)
    (client : Adapter) (out : LogicAuditOutput) : Prop :=
  client.isSimulation = false ∧ keyed client.kind ∧
    ∃ environ spec diff resp reply,
      let req := client.auditRequest environ spec diff
      served req resp ∧ lib.raiseForStatus resp req.url = .ok () ∧
        lib.replyOf client.kind resp = .ok reply ∧ lib.decodeReply reply = .ok out

/-- A process with the adapters' own clients. The API keys in its environment are of the providers
`keyed`; a request is answered by what its server has `served`, or fails. -/
def OnlineRun (lib : Libraries) (keyed : AdapterKind → Prop) (served : Request → Response → Prop)
    (env : Env τ) : Prop :=
  env.simulate = false ∧
    ∃ (toFloat : String → Option (Retry.Seconds ℚ)) (environ : String → Option (List Char))
      (net : Nat → Nat → Request → Nat → Except PyExc Response),
      env.hasApiKey = AdapterKind.hasApiKey environ ∧
      (∀ kind,kind.hasApiKey environ = true → keyed kind) ∧
      (∀ n i req k resp,net n i req k = .ok resp → served req resp) ∧
      env.auditors = fun n i client spec diff =>
        (client.audit toFloat environ lib (net n i) spec diff).1

theorem onlineRun_live {env : Env τ} (h : OnlineRun lib keyed served env) :
    LiveRun (Vouched lib keyed served) env := by
  obtain ⟨hlive,toFloat,environ,net,hkeys,hkeyed,hserved,hauditors⟩ := h
  refine ⟨hlive,fun provider model client hcreated n i spec diff out hout hpass => ?_⟩
  rw [hauditors] at hout
  dsimp only at hout
  have hreal : client.isSimulation = false := by
    by_contra hsim
    rw [Adapter.audit_simulated _ _ _ _ _ _ _ (Bool.eq_true_of_not_eq_false hsim)] at hout
    rw [← Except.ok.inj hout] at hpass
    cases hpass
  have hkey := createSecurityAdapter_key hcreated hreal
  rw [hkeys] at hkey
  rw [Adapter.audit_live _ _ _ _ _ _ _ hreal] at hout
  obtain ⟨k,hk⟩ := Retry.retryWithBackoff_ok _ _ _ hout
  rw [Adapter.auditOutcome] at hk
  cases hresp : net n i (client.auditRequest environ spec diff) k with
  | error e =>
    rw [hresp] at hk
    cases hk
  | ok resp =>
    rw [hresp] at hk
    obtain ⟨hstatus,reply,hreply,hdecoded⟩ := answered_ok hk
    exact ⟨hreal,hkeyed _ hkey,environ,spec,diff,resp,reply,hserved _ _ _ _ _ hresp,hstatus,
      hreply,hdecoded⟩

/-- In live operation no fast-forward is tried and no AUTO_MERGE is recorded before the server of
a provider with an API key has replied with a PASS, whatever processes run and wherever they are
killed; without any key there is never a merge. -/
theorem live_merges (h : LiveSession (OnlineRun lib keyed served) t) :
    Approved (Vouched lib keyed served) t ∧
      ((∀ kind,¬keyed kind) → ∀ e ∈ t,e.wantsPass = false) := by
  have happroved := liveSession_approved (fun _ => onlineRun_live) h
  refine ⟨happroved,fun hnone e hmem => ?_⟩
  by_contra hwants
  obtain ⟨before,after,heq⟩ := List.append_of_mem hmem
  obtain ⟨client,_,_,_,_,hkey,_⟩ :=
    happroved before e after heq (Bool.eq_true_of_not_eq_false hwants)
  exact hnone client.kind hkey

/-- Two processes that have keys, and servers that pass everything. -/
theorem live_merges_passed :
    let out : LogicAuditOutput := ⟨.pass,[],none,""⟩
    let resp : Response := ⟨200,some "OK",none,
      String.ofList (Json.text 0 (AdapterKind.gemini.envelope out.document))⟩
    let environ : String → Option (List Char) := fun _ => some ['k']
    let toFloat : String → Option (Retry.Seconds ℚ) := fun _ => none
    let env := { calmEnv with
      hasApiKey := AdapterKind.hasApiKey environ
      auditors := fun _ _ client spec diff =>
        (client.audit toFloat environ plainLibraries (fun _ _ => .ok resp) spec diff).1 }
    let t := Program.traced .resumeMerge env (Program.traced .pipeline env [] freshRepo) freshRepo
    Approved (Vouched plainLibraries (fun _ => True) fun _ resp' => resp' = resp) t ∧
      ((∀ _ : AdapterKind,¬True) → ∀ e ∈ t,e.wantsPass = false) := by
  intro out resp environ toFloat env t
  have hrun : OnlineRun plainLibraries (fun _ => True) (fun _ resp' => resp' = resp) env := by
    refine ⟨rfl,toFloat,environ,fun _ _ _ _ => .ok resp,rfl,by simp,?_,rfl⟩
    intro n i req k resp' hresp
    exact (Except.ok.inj hresp).symm
  have hfirst : LiveSession (OnlineRun plainLibraries (fun _ => True) fun _ resp' => resp' = resp)
      (Program.traced .pipeline env [] freshRepo) :=
    .process .pipeline env freshRepo .nil List.nil_prefix (List.prefix_refl _) hrun
  exact live_merges (.process .resumeMerge env freshRepo hfirst (traced_extends _ _ _ _)
    (List.prefix_refl _) hrun)

end online

end SoftwareFactory
