import SoftwareFactory.Orchestrator.Audit

namespace SoftwareFactory

open Process

/-- What an outcome says about the candidate's adapter and its answer. -/
theorem AuditCall.outcome_cases (call : AuditCall) (i : Nat) (c : Candidate) :
    (call.outcome i c = .unknownProvider ∧ ∃ e,call.adapter c = .error e) ∨
    ∃ client,call.adapter c = .ok client ∧
      ((∃ e,call.auditors i client call.specContent call.diffOutput = .error e ∧
          call.outcome i c =
            if e.isAvailabilityFailure then .unavailable else .otherException) ∨
        ∃ out,call.auditors i client call.specContent call.diffOutput = .ok out ∧
          call.outcome i c = .verdict out.status) := by
  simp only [outcome]
  rcases call.adapter c with e | client
  · exact .inl ⟨rfl,e,rfl⟩
  · refine .inr ⟨client,rfl,?_⟩
    dsimp only
    rcases call.auditors i client call.specContent call.diffOutput with e | out
    · exact .inl ⟨e,rfl,rfl⟩
    · exact .inr ⟨out,rfl,rfl⟩

theorem AuditCall.outcome_error {call : AuditCall} {i : Nat} {c : Candidate}
    (h : call.outcome i c = .unavailable ∨ call.outcome i c = .otherException) :
    ∃ client e,call.adapter c = .ok client ∧
      call.auditors i client call.specContent call.diffOutput = .error e ∧
      (e.isAvailabilityFailure = true ↔ call.outcome i c = .unavailable) := by
  obtain ⟨ho,-⟩ | ⟨client,ha,⟨e,hr,ho⟩ | ⟨out,-,ho⟩⟩ := call.outcome_cases i c
  · simp [ho] at h
  · refine ⟨client,e,ha,hr,?_⟩
    rw [ho]
    split_ifs with hav <;> simp [hav]
  · simp [ho] at h

namespace StateManager

variable {τ : Type} (sm : StateManager) (call : AuditCall)

/-- The world once a candidate's adapter has been asked for. -/
def attempted (c : Candidate) (w : TaskWorld τ) : TaskWorld τ :=
  (sm.announceFallback c w).2.emit (.createSecurityAdapter c.provider c.model)

/-- The world once its client has answered `res`. -/
def answered (c : Candidate) (client : Adapter) (res : Except PyExc LogicAuditOutput)
    (w : TaskWorld τ) : TaskWorld τ :=
  (sm.attempted c w).emit (.auditLogicAndSecurity client res)

@[simp] theorem announceFallback_apply (c : Candidate) (w : TaskWorld τ) :
    sm.announceFallback c w = (.ok (),(sm.announceFallback c w).2) := by
  unfold announceFallback
  split_ifs <;> rfl

theorem auditCandidates_exhausted (i : Nat) (errors : List String) (w : TaskWorld τ) :
    ∃ reason,sm.auditCandidates call i [] errors w =
      (sm.requestHumanReview reason "LOGIC_AUDIT" call.exitProcess >>=
        fun _ => pure ⟨false,none,none⟩) w :=
  ⟨_,rfl⟩

theorem auditCandidates_unknown (i : Nat) (c : Candidate) (cs : List Candidate)
    (errors : List String) (w : TaskWorld τ) (h : call.outcome i c = .unknownProvider) :
    ∃ reason,sm.auditCandidates call i (c::cs) errors w =
      (sm.haltHuman reason call.exitProcess >>= fun _ => pure ⟨false,none,none⟩)
        (sm.attempted c w) := by
  obtain ⟨-,e,ha⟩ | ⟨client,-,⟨e,-,ho⟩ | ⟨out,-,ho⟩⟩ := call.outcome_cases i c
  · refine ⟨"Security adapter initialization failed: " ++ sm.sanitizeSecretText e.message,?_⟩
    rw [auditCandidates,Proc.bind_of_ok (sm.announceFallback_apply c w),
      Proc.bind_of_ok (Proc.emit_apply _ _)]
    rw [AuditCall.adapter] at ha
    rw [ha]
    rfl
  · rw [ho] at h
    split_ifs at h
  · rw [ho] at h
    cases h

theorem auditCandidates_answered (i : Nat) (c : Candidate) (cs : List Candidate)
    (errors : List String) (w : TaskWorld τ) (client : Adapter)
    (ha : call.adapter c = .ok client) :
    sm.auditCandidates call i (c::cs) errors w =
      let res := call.auditors i client call.specContent call.diffOutput
      (match res with
      | .error (.networkTransport message status _) =>
        sm.auditCandidates call (i+1) cs (errors++[unavailableMessage sm c status message])
      | .error e =>
        let t := isTransientNetworkError some e
        if t.isRetryable then
          sm.auditCandidates call (i+1) cs
            (errors++[unavailableMessage sm c t.statusCode e.message])
        else
          sm.haltHuman (s!"Non-availability failure in Logic Security Audit " ++
            s!"({c.provider}:{c.model}): {sm.sanitizeSecretText e.message}")
            call.exitProcess >>= fun _ => pure ⟨false,none,none⟩
      | .ok out => sm.judge call c out) (sm.answered c client res w) := by
  rw [auditCandidates,Proc.bind_of_ok (sm.announceFallback_apply c w),
    Proc.bind_of_ok (Proc.emit_apply _ _)]
  rw [AuditCall.adapter] at ha
  rw [ha]
  rfl

/-- An availability failure moves on to the next candidate. -/
theorem auditCandidates_unavailable (i : Nat) (c : Candidate) (cs : List Candidate)
    (errors : List String) (w : TaskWorld τ) (h : call.outcome i c = .unavailable) :
    ∃ client e message,call.adapter c = .ok client ∧
      call.auditors i client call.specContent call.diffOutput = .error e ∧
      e.isAvailabilityFailure = true ∧
      sm.auditCandidates call i (c::cs) errors w =
        sm.auditCandidates call (i+1) cs (errors++[message])
          (sm.answered c client (.error e) w) := by
  obtain ⟨client,e,ha,hr,hiff⟩ := AuditCall.outcome_error (.inl h)
  have hav := hiff.mpr h
  rw [sm.auditCandidates_answered call i c cs errors w client ha]
  simp only [hr]
  cases e with
  | networkTransport m s r => exact ⟨client,_,_,ha,hr,hav,rfl⟩
  | timeout m => exact ⟨client,_,_,ha,hr,hav,rfl⟩
  | connection m => exact ⟨client,_,_,ha,hr,hav,rfl⟩
  | http m resp =>
    refine ⟨client,_,unavailableMessage sm c
      (isTransientNetworkError some (.http m resp)).statusCode m,ha,hr,hav,?_⟩
    simp only [PyExc.isAvailabilityFailure] at hav
    simp only [hav,if_true]
    rfl
  | other t m => cases hav

/-- An exception of another kind halts the task. -/
theorem auditCandidates_otherException (i : Nat) (c : Candidate) (cs : List Candidate)
    (errors : List String) (w : TaskWorld τ) (h : call.outcome i c = .otherException) :
    ∃ client e reason,call.adapter c = .ok client ∧ e.isAvailabilityFailure = false ∧
      sm.auditCandidates call i (c::cs) errors w =
        (sm.haltHuman reason call.exitProcess >>= fun _ => pure ⟨false,none,none⟩)
          (sm.answered c client (.error e) w) := by
  obtain ⟨client,e,ha,hr,hiff⟩ := AuditCall.outcome_error (.inr h)
  have hav : ¬ e.isAvailabilityFailure = true := by
    intro hav
    rw [hiff.mp hav] at h
    cases h
  rw [sm.auditCandidates_answered call i c cs errors w client ha]
  simp only [hr]
  cases e with
  | networkTransport m s r => exact absurd rfl hav
  | timeout m => exact absurd rfl hav
  | connection m => exact absurd rfl hav
  | http m resp =>
    refine ⟨client,.http m resp,s!"Non-availability failure in Logic Security Audit " ++
      s!"({c.provider}:{c.model}): {sm.sanitizeSecretText m}",ha,by simpa using hav,?_⟩
    simp only [PyExc.isAvailabilityFailure] at hav
    simp only [hav]
    rfl
  | other t m => exact ⟨client,_,_,ha,rfl,rfl⟩

/-- A verdict is judged and no later candidate is looked at. -/
theorem auditCandidates_verdict (i : Nat) (c : Candidate) (cs : List Candidate)
    (errors : List String) (w : TaskWorld τ) (s : AuditStatus)
    (h : call.outcome i c = .verdict s) :
    ∃ client out,call.adapter c = .ok client ∧
      call.auditors i client call.specContent call.diffOutput = .ok out ∧ out.status = s ∧
      sm.auditCandidates call i (c::cs) errors w =
        sm.judge call c out (sm.answered c client (.ok out) w) := by
  obtain ⟨ho,-⟩ | ⟨client,ha,⟨e,-,ho⟩ | ⟨out,hr,ho⟩⟩ := call.outcome_cases i c
  · rw [ho] at h
    cases h
  · rw [ho] at h
    split_ifs at h
  · rw [ho] at h
    refine ⟨client,out,ha,hr,AuditOutcome.verdict.inj h,?_⟩
    rw [sm.auditCandidates_answered call i c cs errors w client ha]
    simp only [hr]

theorem judge_fail (c : Candidate) (out : LogicAuditOutput) (w : TaskWorld τ)
    (h : out.status = .fail) :
    ∃ reason,sm.judge call c out w =
      (sm.consumeSecurityReplan reason >>= fun _ => pure ⟨false,some out,none⟩) w := by
  refine ⟨s!"Invariant violation ({c.provider}:{c.model}): {out.justification}",?_⟩
  unfold judge
  rw [if_pos h]

theorem judge_review (c : Candidate) (out : LogicAuditOutput) (w : TaskWorld τ)
    (h : out.status = .unavailable ∨ out.status = .uncertain) :
    ∃ reason,sm.judge call c out w =
      (sm.requestHumanReview reason "LOGIC_AUDIT" call.exitProcess >>=
        fun _ => pure ⟨false,some out,none⟩) w := by
  have hf : out.status ≠ .fail := by rcases h with h | h <;> rw [h] <;> decide
  refine ⟨s!"Inconclusive audit ({out.status.name}) from " ++
    s!"{c.provider}:{c.model}: {out.justification}",?_⟩
  unfold judge
  rw [if_neg hf,if_pos h]

theorem judge_live (c : Candidate) (out : LogicAuditOutput) (w : TaskWorld τ)
    (h : out.status = .simulated) (hs : call.simulate = false) :
    ∃ reason,sm.judge call c out w =
      (sm.haltHuman reason call.exitProcess >>= fun _ => pure ⟨false,none,none⟩) w := by
  refine ⟨s!"Simulated audit received from {c.provider}:{c.model} in live run. " ++
    "Merge blocked.",?_⟩
  unfold judge
  rw [if_neg (by rw [h]; decide),if_neg (by rw [h]; decide),if_pos ⟨h,by rw [hs]; rfl⟩]

theorem judge_pass (c : Candidate) (out : LogicAuditOutput) (w : TaskWorld τ)
    (h : out.status = .pass ∨ out.status = .simulated ∧ call.simulate = true) :
    sm.judge call c out w = (sm.recordAuditModel c.provider c.model >>=
      fun _ => pure ⟨true,some out,some ⟨c.provider,c.model⟩⟩) w := by
  have hf : out.status ≠ .fail := by rcases h with h | ⟨h,_⟩ <;> rw [h] <;> decide
  have hr : ¬(out.status = .unavailable ∨ out.status = .uncertain) := by
    rcases h with h | ⟨h,_⟩ <;> rw [h] <;> decide
  have hl : ¬(out.status = .simulated ∧ (!call.simulate) = true) := by
    rcases h with h | ⟨_,h⟩
    · rw [h]
      exact fun hh => nomatch hh.1
    · rw [h]
      exact fun hh => nomatch hh.2
  unfold judge
  rw [if_neg hf,if_neg hr,if_neg hl]

end StateManager

end SoftwareFactory
