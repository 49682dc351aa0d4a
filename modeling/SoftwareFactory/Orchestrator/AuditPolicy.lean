import SoftwareFactory.Orchestrator.AuditRules

namespace SoftwareFactory

open Process

variable {τ : Type}

/-- The candidates whose adapter was asked for, in order. -/
def attempts (t : List (Event τ)) : List (String × String) :=
  t.filterMap fun e => match e with
    | .createSecurityAdapter provider model => some (provider,model)
    | _ => none

/-- The clients that were queried, in order. -/
def clientCalls (t : List (Event τ)) : List Adapter :=
  t.filterMap fun e => match e with
    | .auditLogicAndSecurity client _ => some client
    | _ => none

/-- The index of the first candidate whose outcome is no availability failure; the length
of the list when there is none. -/
def decisiveIndex (assigned : List (Candidate × AuditOutcome)) : Nat :=
  assigned.findIdx fun p => p.2 ≠ .unavailable

def decisive (assigned : List (Candidate × AuditOutcome)) : Option (Candidate × AuditOutcome) :=
  assigned[decisiveIndex assigned]?

/-- The verdicts that let a merge go ahead. -/
def AuditOutcome.passes (simulate : Bool) : AuditOutcome → Bool
  | .verdict .pass => true
  | .verdict .simulated => simulate
  | _ => false

def AuditOutcome.suspends : AuditOutcome → Bool
  | .verdict .uncertain => true
  | .verdict .unavailable => true
  | _ => false

def AuditOutcome.halts (simulate : Bool) : AuditOutcome → Bool
  | .unknownProvider => true
  | .otherException => true
  | .verdict .simulated => !simulate
  | _ => false

/-- The recorded form of a candidate. -/
def StateManager.recorded (sm : StateManager) (c : Candidate) : AuditModel :=
  ⟨PyText.lower (PyText.strip (sm.sanitizeSecretText c.provider)),
    PyText.strip (sm.sanitizeSecretText c.model)⟩

def ReturnsTrue (r : Except (Ending PyExc) AuditResult × TaskWorld τ) : Prop :=
  ∃ res, r.1 = .ok res ∧ res.passed = true

/-- What the decisive outcome does to the task. `d` is the state before, `r` the result. -/
structure Concludes (sm : StateManager) (simulate : Bool)
    (dec : Option (Candidate × AuditOutcome)) (d : StateData)
    (r : Except (Ending PyExc) AuditResult × TaskWorld τ) : Prop where
  passes : ReturnsTrue r ↔ ∃ c o, dec = some (c,o) ∧ o.passes simulate = true
  records : ∀ c o, dec = some (c,o) → o.passes simulate = true →
    r.2.mem.data.auditModelUsed = some (sm.recorded c)
  keepsModel : ¬ReturnsTrue r → r.2.mem.data.auditModelUsed = d.auditModelUsed
  charges : ∀ c, dec = some (c,.verdict .fail) →
    r.2.mem.data.budgets.securityReplansUsed = d.budgets.securityReplansUsed+1
  keepsBudgets : (∀ c, dec ≠ some (c,.verdict .fail)) →
    r.2.mem.data.budgets = d.budgets ∧ r.2.mem.data.epoch = d.epoch
  suspends : (∀ c o, dec = some (c,o) → o.suspends = true) →
    r.2.mem.data.currentState = .humanReview ∧
      r.2.mem.data.executionStatus = .needsHumanReview
  halts : ∀ c o, dec = some (c,o) → o.halts simulate = true →
    r.2.mem.data.currentState = .haltHuman ∧ r.2.mem.data.executionStatus = .failed

/-- What the policy reads of the state before. -/
def SameLedger (d d' : StateData) : Prop :=
  d'.budgets = d.budgets ∧ d'.epoch = d.epoch ∧ d'.auditModelUsed = d.auditModelUsed

theorem Concludes.of_same {sm : StateManager} {simulate : Bool}
    {dec : Option (Candidate × AuditOutcome)} {d d' : StateData}
    {r : Except (Ending PyExc) AuditResult × TaskWorld τ} (hs : SameLedger d d')
    (h : Concludes sm simulate dec d' r) : Concludes sm simulate dec d r := by
  obtain ⟨hb,he,hm⟩ := hs
  refine ⟨h.passes,h.records,?_,?_,?_,h.suspends,h.halts⟩
  · intro hn
    rw [← hm]
    exact h.keepsModel hn
  · intro c hc
    rw [← hb]
    exact h.charges c hc
  · intro hn
    rw [← hb,← he]
    exact h.keepsBudgets hn

namespace StateManager

variable (sm : StateManager) (call : AuditCall)

theorem map_returns_false (x : Except (Ending PyExc) Unit) (res : AuditResult)
    (hres : res.passed = false) (w : TaskWorld τ) :
    ¬ReturnsTrue (x.map fun _ => res,w) := by
  intro hparts
  obtain ⟨res',h,ht⟩ := hparts
  cases x with
  | error s => cases h
  | ok u =>
    cases h
    rw [hres] at ht
    cases ht

theorem concludes_halt (reason : String) (exitProcess : Bool) (res : AuditResult)
    (hres : res.passed = false) (c : Candidate) (o : AuditOutcome) (simulate : Bool)
    (ho : o.halts simulate = true) (w : TaskWorld τ) :
    Concludes sm simulate (some (c,o)) w.mem.data
      ((sm.haltHuman reason exitProcess >>= fun _ => pure res : Job τ AuditResult) w) := by
  rw [haltHuman_then]
  have hf := map_returns_false (sm.leaving
    s!"Circuit Breaker triggered: {sm.sanitizeSecretText reason}" exitProcess 1) res hres
    (sm.halted w reason)
  have hp : o.passes simulate = false := by
    cases o with
    | verdict s => cases s <;> simp_all [AuditOutcome.halts,AuditOutcome.passes]
    | _ => rfl
  refine ⟨iff_of_false hf ?_,?_,fun _ => rfl,?_,fun _ => ⟨rfl,rfl⟩,?_,fun _ _ _ _ => ⟨rfl,rfl⟩⟩
  · intro hparts
    obtain ⟨c',o',h,ht⟩ := hparts
    cases h
    rw [hp] at ht
    cases ht
  · intro c' o' h ht
    cases h
    rw [hp] at ht
    cases ht
  · intro c' h
    cases h
    cases ho
  · intro h
    have hs := h c o rfl
    cases o with
    | verdict s => cases s <;> simp_all [AuditOutcome.halts,AuditOutcome.suspends]
    | _ => cases hs

theorem concludes_review (reason gate : String) (exitProcess : Bool) (res : AuditResult)
    (hres : res.passed = false) (dec : Option (Candidate × AuditOutcome)) (simulate : Bool)
    (hd : ∀ c o, dec = some (c,o) → o.suspends = true) (w : TaskWorld τ) :
    Concludes sm simulate dec w.mem.data
      ((sm.requestHumanReview reason gate exitProcess >>= fun _ => pure res :
        Job τ AuditResult) w) := by
  rw [requestHumanReview_then]
  have hf := map_returns_false (sm.leaving
    s!"Human review required ({gate}): {sm.sanitizeSecretText reason}" exitProcess 0) res hres
    (sm.suspended w reason gate)
  have hp (c : Candidate) (o : AuditOutcome) (h : dec = some (c,o)) :
      o.passes simulate = false ∧ o.halts simulate = false ∧ o ≠ .verdict .fail := by
    have hs := hd c o h
    cases o with
    | verdict s => cases s <;> simp_all [AuditOutcome.halts,AuditOutcome.suspends,AuditOutcome.passes]
    | _ => cases hs
  refine ⟨iff_of_false hf ?_,?_,fun _ => rfl,?_,fun _ => ⟨rfl,rfl⟩,fun _ => ⟨rfl,rfl⟩,?_⟩
  · intro hparts
    obtain ⟨c,o,h,ht⟩ := hparts
    rw [(hp c o h).1] at ht
    cases ht
  · intro c o h ht
    rw [(hp c o h).1] at ht
    cases ht
  · intro c h
    exact absurd rfl (hp c _ h).2.2
  · intro c o h ht
    rw [(hp c o h).2.1] at ht
    cases ht

theorem concludes_fail (c : Candidate) (out : LogicAuditOutput) (h : out.status = .fail)
    (simulate : Bool) (w : TaskWorld τ) :
    Concludes sm simulate (some (c,.verdict .fail)) w.mem.data (sm.judge call c out w) := by
  obtain ⟨reason,hj⟩ := sm.judge_fail call c out w h
  rw [hj,consumeSecurityReplan,replan_then]
  have hp (c' : Candidate) (o : AuditOutcome)
      (hd : some (c,AuditOutcome.verdict .fail) = some (c',o)) :
      o.passes simulate = false ∧ o.halts simulate = false ∧ o.suspends = false := by
    cases hd
    exact ⟨rfl,rfl,rfl⟩
  have conclude (r : Except (Ending PyExc) AuditResult × TaskWorld τ) (hf : ¬ReturnsTrue r)
      (hm : r.2.mem.data.auditModelUsed = w.mem.data.auditModelUsed)
      (hb : r.2.mem.data.budgets.securityReplansUsed =
        w.mem.data.budgets.securityReplansUsed+1) :
      Concludes sm simulate (some (c,.verdict .fail)) w.mem.data r := by
    refine ⟨iff_of_false hf ?_,?_,fun _ => hm,fun _ _ => hb,fun hn => absurd rfl (hn c),?_,?_⟩
    · intro hparts
      obtain ⟨c',o,hd,ht⟩ := hparts
      rw [(hp c' o hd).1] at ht
      cases ht
    · intro c' o hd ht
      rw [(hp c' o hd).1] at ht
      cases ht
    · intro hs
      have := hs c _ rfl
      rw [(hp c _ rfl).2.2] at this
      cases this
    · intro c' o hd ht
      rw [(hp c' o hd).2.1] at ht
      cases ht
  dsimp only
  split_ifs with hx
  · exact conclude _ (map_returns_false _ _ rfl _) rfl rfl
  · refine conclude _ ?_ rfl rfl
    intro hparts
    obtain ⟨res,hr,ht⟩ := hparts
    cases hr
    cases ht

theorem concludes_pass (c : Candidate) (out : LogicAuditOutput)
    (h : out.status = .pass ∨ out.status = .simulated ∧ call.simulate = true)
    (w : TaskWorld τ) :
    Concludes sm call.simulate (some (c,.verdict out.status)) w.mem.data
      (sm.judge call c out w) := by
  rw [sm.judge_pass call c out w h]
  have hp : (AuditOutcome.verdict out.status).passes call.simulate = true ∧
      (AuditOutcome.verdict out.status).halts call.simulate = false ∧
      (AuditOutcome.verdict out.status).suspends = false ∧ out.status ≠ .fail := by
    rcases h with h | ⟨h,hs⟩
    · rw [h]
      exact ⟨rfl,rfl,rfl,by decide⟩
    · rw [h,hs]
      exact ⟨rfl,rfl,rfl,by decide⟩
  have ht : ReturnsTrue ((sm.recordAuditModel c.provider c.model >>=
      fun _ => pure ⟨true,some out,some ⟨c.provider,c.model⟩⟩ : Job τ AuditResult) w) :=
    ⟨_,rfl,rfl⟩
  refine ⟨iff_of_true ht ⟨c,_,rfl,hp.1⟩,?_,fun hn => absurd ht hn,?_,fun _ => ⟨rfl,rfl⟩,?_,?_⟩
  · intro c' o hd _
    cases hd
    rfl
  · intro c' hd
    simp only [Option.some.injEq,Prod.mk.injEq,AuditOutcome.verdict.injEq] at hd
    exact absurd hd.2 hp.2.2.2
  · intro hs
    have := hs c _ rfl
    rw [hp.2.2.1] at this
    cases this
  · intro c' o hd hh
    cases hd
    rw [hp.2.1] at hh
    cases hh

/-- The verdict part of the loop body, one case per status. -/
theorem concludes_judge (c : Candidate) (out : LogicAuditOutput) (w : TaskWorld τ) :
    Concludes sm call.simulate (some (c,.verdict out.status)) w.mem.data
      (sm.judge call c out w) := by
  have review (h : out.status = .unavailable ∨ out.status = .uncertain) :
      Concludes sm call.simulate (some (c,.verdict out.status)) w.mem.data
        (sm.judge call c out w) := by
    obtain ⟨reason,hj⟩ := sm.judge_review call c out w h
    rw [hj]
    refine sm.concludes_review _ _ _ _ rfl _ _ ?_ w
    intro c' o hd
    cases hd
    rcases h with h | h <;> rw [h] <;> rfl
  cases hs : out.status with
  | pass => exact hs ▸ sm.concludes_pass call c out (.inl hs) w
  | fail => exact sm.concludes_fail call c out hs _ w
  | unavailable => exact hs ▸ review (.inl hs)
  | uncertain => exact hs ▸ review (.inr hs)
  | simulated =>
    cases hsim : call.simulate with
    | true => exact hs ▸ hsim ▸ sm.concludes_pass call c out (.inr ⟨hs,hsim⟩) w
    | false =>
      obtain ⟨reason,hj⟩ := sm.judge_live call c out w hs hsim
      rw [hj]
      exact sm.concludes_halt _ _ _ rfl c _ _ rfl w

end StateManager

/-- Between `w` and `w'` exactly these adapters were asked for and these clients queried. -/
def Queries (w w' : TaskWorld τ) (asked : List (String × String)) (called : List Adapter) :
    Prop :=
  ∃ ext, w'.trace = w.trace++ext ∧ attempts ext = asked ∧ clientCalls ext = called

theorem Queries.trans {w₁ w₂ w₃ : TaskWorld τ} {a a' : List (String × String)}
    {c c' : List Adapter} (h : Queries w₁ w₂ a c) (h' : Queries w₂ w₃ a' c') :
    Queries w₁ w₃ (a++a') (c++c') := by
  obtain ⟨e,he,ha,hc⟩ := h
  obtain ⟨e',he',ha',hc'⟩ := h'
  refine ⟨e++e',by rw [he',he,List.append_assoc],?_,?_⟩
  · rw [← ha,← ha']
    exact List.filterMap_append
  · rw [← hc,← hc']
    exact List.filterMap_append

namespace StateManager

variable (sm : StateManager) (call : AuditCall)

theorem queries_saved (w : TaskWorld τ) (d : StateData) : Queries w (saved w d) [] [] :=
  ⟨[.save d],rfl,rfl,rfl⟩

theorem queries_halted (w : TaskWorld τ) (reason : String) :
    Queries w (sm.halted w reason) [] [] :=
  (queries_saved w _).trans ((queries_saved _ _).trans ⟨[_],rfl,rfl,rfl⟩)

theorem queries_suspended (w : TaskWorld τ) (reason gate : String) :
    Queries w (sm.suspended w reason gate) [] [] :=
  (queries_saved w _).trans ((queries_saved _ _).trans
    ((queries_saved _ _).trans ⟨[_],rfl,rfl,rfl⟩))

theorem queries_attempted (c : Candidate) (w : TaskWorld τ) :
    Queries w (sm.attempted c w) [(c.provider,c.model)] [] := by
  have ha : Queries w (sm.announceFallback c w).2 [] [] := by
    unfold announceFallback
    split_ifs
    · exact queries_saved w _
    · exact ⟨[],(List.append_nil _).symm,rfl,rfl⟩
  exact ha.trans ⟨[_],rfl,rfl,rfl⟩

theorem queries_answered (c : Candidate) (client : Adapter)
    (res : Except PyExc LogicAuditOutput) (w : TaskWorld τ) :
    Queries w (sm.answered c client res w) [(c.provider,c.model)] [client] :=
  (sm.queries_attempted c w).trans ⟨[_],rfl,rfl,rfl⟩

theorem queries_judge (c : Candidate) (out : LogicAuditOutput) (w : TaskWorld τ) :
    Queries w (sm.judge call c out w).2 [] [] := by
  by_cases hf : out.status = .fail
  · obtain ⟨reason,hj⟩ := sm.judge_fail call c out w hf
    rw [hj,consumeSecurityReplan,replan_then]
    dsimp only
    split_ifs
    · exact (queries_saved w _).trans (sm.queries_halted _ _)
    · exact (queries_saved w _).trans (queries_saved _ _)
  by_cases hr : out.status = .unavailable ∨ out.status = .uncertain
  · obtain ⟨reason,hj⟩ := sm.judge_review call c out w hr
    rw [hj,requestHumanReview_then]
    exact sm.queries_suspended w _ _
  by_cases hl : out.status = .simulated ∧ call.simulate = false
  · obtain ⟨reason,hj⟩ := sm.judge_live call c out w hl.1 hl.2
    rw [hj,haltHuman_then]
    exact sm.queries_halted w _
  · have hp : out.status = .pass ∨ out.status = .simulated ∧ call.simulate = true := by
      cases hs : out.status <;> simp_all
    rw [sm.judge_pass call c out w hp]
    exact queries_saved w _

theorem sameLedger_announced (c : Candidate) (w : TaskWorld τ) :
    SameLedger w.mem.data (sm.announceFallback c w).2.mem.data := by
  unfold announceFallback
  split_ifs <;> exact ⟨rfl,rfl,rfl⟩

end StateManager

/-- The adapter a candidate gets, when its provider is known. -/
def AuditCall.adapter? (call : AuditCall) (c : Candidate) : Option Adapter :=
  match call.adapter c with
  | .ok client => some client
  | .error _ => none

/-- The policy for a list of candidates with their outcomes: candidates `0..k` are asked
for, those with a known provider are queried, and the decisive outcome concludes. -/
structure AuditPolicy (sm : StateManager) (call : AuditCall)
    (assigned : List (Candidate × AuditOutcome)) (w : TaskWorld τ)
    (r : Except (Ending PyExc) AuditResult × TaskWorld τ) : Prop where
  queries : let tried := (assigned.take (decisiveIndex assigned+1)).map Prod.fst
    Queries w r.2 (tried.map fun c => (c.provider,c.model)) (tried.filterMap call.adapter?)
  concludes : Concludes sm call.simulate (decisive assigned) w.mem.data r

section policy

variable (sm : StateManager) (call : AuditCall)

-- The loop is taken apart by its rules, never unfolded by the unifier.
attribute [local irreducible] StateManager.auditCandidates

theorem AuditPolicy.of_decisive {c : Candidate} {o : AuditOutcome}
    {rest : List (Candidate × AuditOutcome)} {w : TaskWorld τ}
    {r : Except (Ending PyExc) AuditResult × TaskWorld τ} (ho : o ≠ .unavailable)
    (hq : Queries w r.2 [(c.provider,c.model)] (call.adapter? c).toList)
    (hc : Concludes sm call.simulate (some (c,o)) w.mem.data r) :
    AuditPolicy sm call ((c,o)::rest) w r := by
  have hk : decisiveIndex ((c,o)::rest) = 0 := by
    simp [decisiveIndex,List.findIdx_cons,ho]
  refine ⟨?_,?_⟩
  · simp only [hk,Nat.zero_add,List.take_succ_cons,List.take_zero,List.map_cons,List.map_nil]
    cases ha : call.adapter? c <;> simpa [ha] using hq
  · rw [decisive,hk]
    exact hc

theorem AuditPolicy.of_unavailable {c : Candidate} {client : Adapter}
    {rest : List (Candidate × AuditOutcome)} {w w' : TaskWorld τ}
    {r : Except (Ending PyExc) AuditResult × TaskWorld τ}
    (ha : call.adapter c = .ok client)
    (hq : Queries w w' [(c.provider,c.model)] [client])
    (hs : SameLedger w.mem.data w'.mem.data) (h : AuditPolicy sm call rest w' r) :
    AuditPolicy sm call ((c,.unavailable)::rest) w r := by
  have hk : decisiveIndex ((c,.unavailable)::rest) = decisiveIndex rest+1 := by
    simp [decisiveIndex,List.findIdx_cons]
  have ha' : call.adapter? c = some client := by rw [AuditCall.adapter?,ha]
  refine ⟨?_,?_⟩
  · have hqs := hq.trans h.queries
    simpa only [hk,List.take_succ_cons,List.map_cons,List.filterMap_cons,ha',
      List.singleton_append] using hqs
  · rw [decisive,hk,List.getElem?_cons_succ]
    exact Concludes.of_same hs h.concludes

theorem AuditCall.adapter?_ok {c : Candidate} {client : Adapter}
    (ha : call.adapter c = .ok client) : call.adapter? c = some client := by
  rw [AuditCall.adapter?,ha]

theorem AuditCall.adapter?_unknown {i : Nat} {c : Candidate}
    (ho : call.outcome i c = .unknownProvider) : call.adapter? c = none := by
  rw [AuditCall.adapter?]
  rcases ha : call.adapter c with e | client
  · rfl
  · simp only [AuditCall.outcome,ha] at ho
    split at ho
    · split_ifs at ho
    · cases ho

section decisive

variable (i : Nat) (c : Candidate) (cs : List Candidate) (errors : List String) (w : TaskWorld τ)

theorem auditCandidates_of_unknown (ho : call.outcome i c = .unknownProvider) :
    AuditPolicy sm call ((c,.unknownProvider)::call.assigned (i+1) cs) w
      (sm.auditCandidates call i (c::cs) errors w) := by
  obtain ⟨reason,hr⟩ := sm.auditCandidates_unknown call i c cs errors w ho
  have ledger := sm.sameLedger_announced c w
  rw [hr]
  refine AuditPolicy.of_decisive sm call (by decide) ?_
    (Concludes.of_same ledger (sm.concludes_halt _ _ _ rfl c _ _ rfl (sm.attempted c w)))
  rw [StateManager.haltHuman_then,call.adapter?_unknown ho]
  exact (sm.queries_attempted c w).trans (sm.queries_halted _ _)

theorem auditCandidates_of_exception (ho : call.outcome i c = .otherException) :
    AuditPolicy sm call ((c,.otherException)::call.assigned (i+1) cs) w
      (sm.auditCandidates call i (c::cs) errors w) := by
  obtain ⟨client,e,reason,ha,_,hr⟩ := sm.auditCandidates_otherException call i c cs errors w ho
  have ledger := sm.sameLedger_announced c w
  rw [hr]
  refine AuditPolicy.of_decisive sm call (by decide) ?_
    (Concludes.of_same ledger (sm.concludes_halt _ _ _ rfl c _ _ rfl
      (sm.answered c client (.error e) w)))
  rw [StateManager.haltHuman_then,call.adapter?_ok ha]
  exact (sm.queries_answered c client _ w).trans (sm.queries_halted _ _)

theorem auditCandidates_of_verdict {s : AuditStatus} (ho : call.outcome i c = .verdict s) :
    AuditPolicy sm call ((c,.verdict s)::call.assigned (i+1) cs) w
      (sm.auditCandidates call i (c::cs) errors w) := by
  obtain ⟨client,out,ha,_,rfl,hr⟩ := sm.auditCandidates_verdict call i c cs errors w s ho
  have hconcludes := Concludes.of_same (sm.sameLedger_announced c w)
    (sm.concludes_judge call c out (sm.answered c client (.ok out) w))
  rw [hr]
  refine AuditPolicy.of_decisive sm call (by intro h; cases h) ?_ hconcludes
  rw [call.adapter?_ok ha]
  exact (sm.queries_answered c client _ w).trans (sm.queries_judge call c out _)

end decisive

/-- The loop over the candidates follows the policy, from any index on. -/
theorem auditCandidates_policy (i : Nat) (cs : List Candidate) (errors : List String)
    (w : TaskWorld τ) :
    AuditPolicy sm call (call.assigned i cs) w (sm.auditCandidates call i cs errors w) := by
  induction cs generalizing i errors w with
  | nil =>
    obtain ⟨reason,hr⟩ := sm.auditCandidates_exhausted call i errors w
    rw [hr]
    refine ⟨?_,?_⟩
    · rw [sm.requestHumanReview_then]
      exact sm.queries_suspended w _ _
    · exact sm.concludes_review _ _ _ _ rfl _ _ (fun c o h => by simp [decisive] at h) w
  | cons c cs ih =>
    rw [call.assigned_cons]
    cases ho : call.outcome i c with
    | unknownProvider => exact auditCandidates_of_unknown sm call i c cs errors w ho
    | unavailable =>
      obtain ⟨client,e,message,ha,_,_,hr⟩ :=
        sm.auditCandidates_unavailable call i c cs errors w ho
      rw [hr]
      exact AuditPolicy.of_unavailable sm call ha (sm.queries_answered c client _ w)
        (sm.sameLedger_announced c w) (ih (i+1) _ _)
    | otherException => exact auditCandidates_of_exception sm call i c cs errors w ho
    | verdict s => exact auditCandidates_of_verdict sm call i c cs errors w ho

/-- `execute_logic_security_audit` follows the fallback policy for every candidate list
and every assignment of outcomes. -/
theorem executeLogicSecurityAudit_policy (w : TaskWorld τ) :
    AuditPolicy sm call (call.assigned 0 call.role.candidates) w
      (sm.executeLogicSecurityAudit call w) := by
  have hstart : Queries w (w.emit (.executeLogicSecurityAudit call.diffOutput call.role)) [] [] :=
    ⟨[_],rfl,rfl,rfl⟩
  have h := auditCandidates_policy sm call 0 call.role.candidates []
    (w.emit (.executeLogicSecurityAudit call.diffOutput call.role))
  have he : sm.executeLogicSecurityAudit call w =
      sm.auditCandidates call 0 call.role.candidates []
        (w.emit (.executeLogicSecurityAudit call.diffOutput call.role)) := rfl
  rw [he]
  refine ⟨?_,?_⟩
  · have hq := hstart.trans h.queries
    simpa only [List.nil_append] using hq
  · exact Concludes.of_same ⟨rfl,rfl,rfl⟩ h.concludes

end policy

end SoftwareFactory
