import SoftwareFactory.Protocol.PipelineRun

namespace SoftwareFactory

open Process

variable {τ : Type} {text : String → String}

/-- The role and the answers so far of the last audit. -/
def lastAudit (t : List (Event τ)) :
    Option (SecurityRole × List (Except PyExc LogicAuditOutput)) :=
  t.foldl (fun a e => match e with
    | .executeLogicSecurityAudit _ role => some (role,[])
    | .auditLogicAndSecurity _ res => a.map fun p => (p.1,p.2++[res])
    | _ => a) none

/-- The auditor could not be reached. -/
def Unreached (res : Except PyExc LogicAuditOutput) : Prop :=
  ∃ e,res = .error e ∧ e.isAvailabilityFailure = true

/-- In the last audit the primary auditor could not be reached, and there is a usable
fallback. -/
def FellBack (t : List (Event τ)) : Prop :=
  ∃ role res answers,lastAudit t = some (role,res::answers) ∧ Unreached res ∧
    role.fallbacks.filterMap FallbackEntry.candidate ≠ []

/-- The history has a `LOGIC_AUDIT -> HUMAN_REVIEW` transition. -/
def StateData.WasSuspended (d : StateData) : Prop :=
  d.history.any StateManager.isAuditSuspension = true

/-- The state file of an earlier run has one. -/
def SuspendedBefore (past : List (Event τ)) : Prop :=
  ∃ d,stateFile past = some d ∧ d.WasSuspended

/-- An audit with `left` candidates still to ask: those before them could not be reached.
The FSM is in `LOGIC_AUDIT` once at least `n` have answered. -/
def Underway (n : Nat) (left : List Candidate) (d : StateData) (t : List (Event τ)) : Prop :=
  ∃ role answers tried,lastAudit t = some (role,answers) ∧ role.candidates = tried++left ∧
    tried.length = answers.length ∧ (∀ res ∈ answers,Unreached res) ∧
    (d.currentState = .logicAudit ↔ n ≤ answers.length)

/-- What is known of the data and the events at each point of `run_pipeline`. -/
def Point.ReviewFacts (past : List (Event τ)) : Point → StateData → List (Event τ) → Prop
  | .launched,_,t => stateFile (past++t) = stateFile past
  | .opening _,_,t => stateFile (past++t) = stateFile past
  | .scanning,d,_ => (d.WasSuspended ↔ SuspendedBefore past) ∧ d.currentState ≠ .logicAudit
  | .filterPending,d,_ => (d.WasSuspended ↔ SuspendedBefore past) ∧ d.currentState ≠ .logicAudit
  | .filtering,d,_ => (d.WasSuspended ↔ SuspendedBefore past) ∧ d.currentState ≠ .logicAudit
  | .scanned,d,_ => (d.WasSuspended ↔ SuspendedBefore past) ∧ d.currentState ≠ .logicAudit
  | .auditPending _ _,d,_ =>
    (d.WasSuspended ↔ SuspendedBefore past) ∧ d.currentState ≠ .logicAudit
  | .auditing _ left,d,t => (d.WasSuspended ↔ SuspendedBefore past) ∧ Underway 2 left d t
  | .asking _ c left,d,t => (d.WasSuspended ↔ SuspendedBefore past) ∧ Underway 1 (c::left) d t
  | .querying _ c left,d,t => (d.WasSuspended ↔ SuspendedBefore past) ∧ Underway 1 (c::left) d t
  | .suspending,d,t =>
    (d.WasSuspended ↔ SuspendedBefore past) ∧ (d.currentState = .logicAudit ↔ FellBack t)
  | .pausing,d,t => (d.WasSuspended ↔ SuspendedBefore past ∨ FellBack t) ∧
    d.currentState = .humanReview
  | .blocking,d,t => (d.WasSuspended ↔ SuspendedBefore past ∨ FellBack t) ∧
    d.currentState = .humanReview ∧ d.executionStatus = .needsHumanReview
  | .reviewReport,d,t => stateFile (past++t) = some d ∧
    ((StateManager.canResumeAuditFsm d).1 = true ↔ SuspendedBefore past ∨ FellBack t)
  | .suspended,d,t => stateFile (past++t) = some d ∧
    ((StateManager.canResumeAuditFsm d).1 = true ↔ SuspendedBefore past ∨ FellBack t)
  | .refused,_,_ => True
  | _,d,_ => d.WasSuspended ↔ SuspendedBefore past

/-- Events that belong to no audit. -/
def Event.isAudit : Event τ → Bool
  | .executeLogicSecurityAudit _ _ => true
  | .auditLogicAndSecurity _ _ => true
  | _ => false

section facts

variable {t past : List (Event τ)} {e : Event τ} {d : StateData}

theorem lastAudit_other (he : e.isAudit = false) : lastAudit (t++[e]) = lastAudit t := by
  unfold lastAudit
  rw [List.foldl_append]
  cases e <;> first | rfl | cases he

theorem fellBack_other (he : e.isAudit = false) : FellBack (t++[e]) ↔ FellBack t := by
  unfold FellBack
  rw [lastAudit_other he]

theorem Underway.other {n : Nat} {left : List Candidate} (h : Underway n left d t)
    (he : e.isAudit = false) : Underway n left d (t++[e]) := by
  unfold Underway
  rw [lastAudit_other he]
  exact h

/-- Only the transition to human review adds to the suspensions. -/
theorem wasSuspended_transitioned (st : FsmState) (details ts : String) :
    (d.transitioned st details ts).WasSuspended ↔
      d.WasSuspended ∨ d.currentState = .logicAudit ∧ st = .humanReview := by
  unfold StateData.WasSuspended
  rw [StateData.transitioned_history,List.any_append]
  simp [StateManager.isAuditSuspension]

theorem wasSuspended_entered {st : FsmState} (hst : st ≠ .humanReview) (details ts : String) :
    (d.transitioned st details ts).WasSuspended ↔ d.WasSuspended := by
  rw [wasSuspended_transitioned]
  constructor
  · intro hcase
    rcases hcase with h | ⟨_,h⟩
    · exact h
    · exact absurd h hst
  · exact .inl

/-- The check of the state file that `request_human_review` leaves behind. -/
theorem canResumeAuditFsm_blocked (hstate : d.currentState = .humanReview)
    (hstatus : d.executionStatus = .needsHumanReview) (reason ts : String) :
    (StateManager.canResumeAuditFsm (d.blocked ⟨"LOGIC_AUDIT",reason,ts⟩)).1 = true ↔
      d.WasSuspended := by
  unfold StateData.WasSuspended
  simp only [StateManager.canResumeAuditFsm,StateData.blocked_state,StateData.blocked_status,
    StateData.blocked_blocked,StateData.blocked_history,hstate,hstatus,ne_eq,not_true,if_false,
    Option.map_some]
  by_cases he : d.history = []
  · simp [he]
  · by_cases ha : d.history.any StateManager.isAuditSuspension = true
    · simp [he,ha]
    · simp [he,ha]

theorem candidates_split {role : SecurityRole} {tried left : List Candidate} {c : Candidate}
    (h : role.candidates = tried++c::left) : c.isFallback = true ↔ tried ≠ [] := by
  cases tried with
  | nil =>
    simp only [SecurityRole.candidates,List.nil_append,List.cons.injEq] at h
    obtain ⟨rfl,_⟩ := h
    simp
  | cons c₀ tried =>
    simp only [SecurityRole.candidates,List.cons_append,List.cons.injEq] at h
    obtain ⟨_,h⟩ := h
    have hc : c ∈ role.fallbacks.filterMap FallbackEntry.candidate := by
      rw [h]
      simp
    obtain ⟨fb,_,hfb⟩ := List.mem_filterMap.mp hc
    unfold FallbackEntry.candidate at hfb
    split at hfb
    · split_ifs at hfb
      cases hfb
      simp
    · cases hfb

theorem Underway.start (diff : String) (role : SecurityRole) (hd : d.currentState ≠ .logicAudit) :
    Underway 2 role.candidates d (t++[.executeLogicSecurityAudit diff role]) := by
  refine ⟨role,[],[],?_,rfl,rfl,fun _ h => absurd h List.not_mem_nil,?_⟩
  · simp [lastAudit]
  · exact ⟨fun h => absurd h hd,fun h => absurd h (by decide)⟩

/-- The primary candidate is asked without a transition. -/
theorem Underway.primary {c : Candidate} {left : List Candidate} (h : Underway 2 (c::left) d t)
    (hc : c.isFallback = false) : Underway 1 (c::left) d t := by
  obtain ⟨role,answers,tried,hl,hsplit,hlen,hall,hs⟩ := h
  have htried : tried = [] := by
    by_contra hn
    rw [(candidates_split hsplit).mpr hn] at hc
    cases hc
  have hnone : answers.length = 0 := by rw [← hlen,htried,List.length_nil]
  refine ⟨role,answers,tried,hl,hsplit,hlen,hall,?_⟩
  rw [hs]
  omega

/-- A fallback is announced by a transition. -/
theorem Underway.fallback {c : Candidate} {left : List Candidate} (h : Underway 2 (c::left) d t)
    (hc : c.isFallback = true) (d' : StateData) (hd : d'.currentState = .logicAudit) :
    Underway 1 (c::left) d' t := by
  obtain ⟨role,answers,tried,hl,hsplit,hlen,hall,_⟩ := h
  have htried : 0 < tried.length := List.length_pos_iff.mpr ((candidates_split hsplit).mp hc)
  exact ⟨role,answers,tried,hl,hsplit,hlen,hall,fun _ => by omega,fun _ => hd⟩

theorem lastAudit_answer (client : Adapter) (res : Except PyExc LogicAuditOutput) :
    lastAudit (t++[.auditLogicAndSecurity client res]) =
      (lastAudit t).map fun p => (p.1,p.2++[res]) := by
  simp [lastAudit]

/-- The candidate could not be reached. -/
theorem Underway.unreached {c : Candidate} {left : List Candidate} (h : Underway 1 (c::left) d t)
    (client : Adapter) {res : Except PyExc LogicAuditOutput} (hr : Unreached res) :
    Underway 2 left d (t++[.auditLogicAndSecurity client res]) := by
  obtain ⟨role,answers,tried,hl,hsplit,hlen,hall,hs⟩ := h
  refine ⟨role,answers++[res],tried++[c],?_,?_,?_,?_,?_⟩
  · rw [lastAudit_answer,hl]
    rfl
  · rw [hsplit]
    simp
  · simp [hlen]
  · intro res' hres
    rcases List.mem_append.mp hres with hres | hres
    · exact hall res' hres
    · rw [List.mem_singleton.mp hres]
      exact hr
  · rw [hs,List.length_append,List.length_singleton]
    omega

theorem fellBack_iff {role : SecurityRole} {answers : List (Except PyExc LogicAuditOutput)}
    (h : lastAudit t = some (role,answers)) :
    FellBack t ↔ (∃ res rest,answers = res::rest ∧ Unreached res) ∧
      2 ≤ role.candidates.length := by
  have hlen : 2 ≤ role.candidates.length ↔
      role.fallbacks.filterMap FallbackEntry.candidate ≠ [] := by
    rw [SecurityRole.candidates,List.length_cons,← List.length_pos_iff]
    omega
  rw [hlen]
  constructor
  · intro hparts
    obtain ⟨role',res,rest,hl,hr,hf⟩ := hparts
    cases h.symm.trans hl
    exact ⟨⟨res,rest,rfl,hr⟩,hf⟩
  · intro hparts
    obtain ⟨⟨res,rest,rfl,hr⟩,hf⟩ := hparts
    exact ⟨role,res,rest,h,hr,hf⟩

/-- Nobody is left to ask. -/
theorem Underway.exhausted (h : Underway 2 [] d t) : d.currentState = .logicAudit ↔ FellBack t := by
  obtain ⟨role,answers,tried,hl,hsplit,hlen,hall,hs⟩ := h
  have htried : role.candidates.length = answers.length := by
    rw [hsplit,List.append_nil,hlen]
  rw [hs,fellBack_iff hl,htried]
  refine ⟨fun hn => ⟨?_,hn⟩,fun hf => hf.2⟩
  rcases answers with _ | ⟨res,rest⟩
  · exact absurd hn (by decide)
  · exact ⟨res,rest,rfl,hall res List.mem_cons_self⟩

/-- A candidate has answered without deciding. -/
theorem Underway.answered {c : Candidate} {left : List Candidate} (h : Underway 1 (c::left) d t)
    (client : Adapter) (out : LogicAuditOutput) :
    d.currentState = .logicAudit ↔ FellBack (t++[.auditLogicAndSecurity client (.ok out)]) := by
  obtain ⟨role,answers,tried,hl,hsplit,hlen,hall,hs⟩ := h
  have hlast : lastAudit (t++[.auditLogicAndSecurity client (.ok out)]) =
      some (role,answers++[.ok out]) := by
    rw [lastAudit_answer,hl]
    rfl
  have hcount : role.candidates.length = answers.length+1+left.length := by
    rw [hsplit,List.length_append,List.length_cons]
    omega
  rw [hs,fellBack_iff hlast,hcount]
  constructor
  · intro hn
    rcases answers with _ | ⟨res,rest⟩
    · exact absurd hn (by decide)
    · exact ⟨⟨res,rest++[.ok out],rfl,hall res List.mem_cons_self⟩,by omega⟩
  · intro hparts
    obtain ⟨⟨res,rest,heq,e,rfl,_⟩,_⟩ := hparts
    rcases answers with _ | ⟨res',rest'⟩
    · cases heq
    · simp

end facts

section steps

variable {p q : Point} {d d' : StateData} {past t : List (Event τ)}

theorem Enters.reviewFacts {st : FsmState} {details : String} (h : Enters text p st details q)
    (hl : p.ofPipeline = true) (hp : p.ReviewFacts past d t) (ts : String) :
    q.ReviewFacts past (d.transitioned st details ts)
      (t++[.save (d.transitioned st details ts)]) := by
  have same (hst : st ≠ .humanReview) (hd : d.WasSuspended ↔ SuspendedBefore past) :
      (d.transitioned st details ts).WasSuspended ↔ SuspendedBefore past :=
    (wasSuspended_entered hst details ts).trans hd
  cases h with
  | sastScan => exact ⟨same nofun hp,nofun⟩
  | sastFilter => exact ⟨same nofun hp.1,nofun⟩
  | resumeAudit => cases hl
  | fallback s p c left hc =>
    exact ⟨same nofun hp.1,(hp.2.fallback hc _ rfl).other rfl⟩
  | autoMerge => exact same nofun hp
  | recovered => cases hl
  | review =>
    refine ⟨?_,rfl⟩
    rw [wasSuspended_transitioned,hp.1,fellBack_other rfl,← hp.2]
    simp
  | _ => exact same nofun hp

theorem Writes.reviewFacts (h : Writes d p d' q) (hl : p.ofPipeline = true)
    (hp : p.ReviewFacts past d t) : q.ReviewFacts past d' (t++[.save d']) := by
  cases h with
  | specRetry => split_ifs <;> exact hp
  | logicReplan => split_ifs <;> exact hp
  | securityReplan => split_ifs <;> exact hp
  | completeRecovered => cases hl
  | pause =>
    refine ⟨?_,hp.2,rfl⟩
    rw [fellBack_other rfl]
    exact hp.1
  | block reason ts =>
    obtain ⟨hs,hstate,hstatus⟩ := hp
    refine ⟨?_,?_⟩
    · rw [← List.append_assoc]
      exact stateFile_save _ _
    · rw [fellBack_other rfl,← hs]
      exact canResumeAuditFsm_blocked hstate hstatus reason ts
  | _ => exact hp

theorem Answers.reviewFacts {p : Program} {c : Candidate} {left : List Candidate}
    {res : Except PyExc LogicAuditOutput} (h : Answers p left res q)
    (hp : Point.ReviewFacts past (.querying p c left) d t) (client : Adapter) :
    q.ReviewFacts past d (t++[.auditLogicAndSecurity client res]) := by
  cases h with
  | unavailable e he => exact ⟨hp.1,hp.2.unreached client ⟨e,rfl,he⟩⟩
  | review out => exact ⟨hp.1,hp.2.answered client out⟩
  | _ => exact hp.1

theorem Calls.reviewFacts {r r' : Repo τ} {e : Event τ} (h : Calls d r p e r' q)
    (hl : p.ofPipeline = true) (hp : p.ReviewFacts past d t) : q.ReviewFacts past d (t++[e]) := by
  have file (hf : stateFile (past++t) = stateFile past) (he : e.isSave = false) :
      stateFile (past++(t++[e])) = stateFile past := by
    rw [← List.append_assoc,stateFile_other _ _ he]
    exact hf
  cases h with
  | discovery b =>
    cases b with
    | false => trivial
    | true => exact file hp rfl
  | sast code => split_ifs <;> exact hp
  | filter f out =>
    split_ifs
    · exact hp.1
    · exact hp
  | diff base res =>
    split_ifs
    · exact hp
    · exact hp.1
  | diffAgain => cases hl
  | audit p diff role => exact ⟨hp.1,.start diff role hp.2⟩
  | adapter p c left => exact ⟨hp.1,hp.2.other rfl⟩
  | unknownProvider => exact hp.1
  | query p c left client res q h => exact h.reviewFacts hp client
  | approve p =>
    obtain rfl : p = .pipeline := of_decide_eq_true hl
    exact hp
  | reject p =>
    obtain rfl : p = .pipeline := of_decide_eq_true hl
    exact hp
  | ancestor => cases hl
  | reviewReport path content =>
    refine ⟨?_,?_⟩
    · rw [← List.append_assoc,stateFile_other _ _ rfl]
      exact hp.1
    · rw [fellBack_other rfl]
      exact hp.2
  | _ => first | exact hp | exact hp.1 | trivial | (split_ifs <;> exact hp)

theorem Chooses.reviewFacts (h : Chooses d p q) (hl : p.ofPipeline = true)
    (hp : p.ReviewFacts past d t) : q.ReviewFacts past d t := by
  cases h with
  | primary p c left hc => exact ⟨hp.1,hp.2.primary hc⟩
  | exhausted p => exact ⟨hp.1,hp.2.exhausted⟩
  | auditUnread => exact hp.1
  | filtered => exact hp
  | allowMerge => cases hl
  | startMerge => cases hl
  | allowAudit => cases hl
  | _ => first | exact hp | trivial

end steps

/-- Loading keeps the history. -/
theorem load_reviewFacts (sm : StateManager) (config : Config) {w : TaskWorld τ}
    {past : List (Event τ)} (h : stateFile w.trace = stateFile past) :
    (sm.load config w).2.mem.data.WasSuspended ↔ SuspendedBefore past := by
  unfold SuspendedBefore
  rcases hf : stateFile w.trace with _ | d
  · rw [sm.load_none config w hf,← h,hf]
    constructor
    · intro hs
      cases hs
    · intro hparts
      obtain ⟨d,hd,_⟩ := hparts
      cases hd
  · rw [sm.load_data config w d hf,← h,hf]
    unfold StateData.WasSuspended
    rw [d.recovered_eq,StateData.withStatus_history]
    constructor
    · exact fun hs => ⟨d,rfl,hs⟩
    · intro hparts
      obtain ⟨d',hd,hs⟩ := hparts
      cases hd
      exact hs

/-- A run of `run_pipeline` that suspends the audit leaves a task that can be resumed exactly
if an earlier suspension is on file already, or the audit had fallen back. -/
theorem suspension_resumable_iff (env : Env τ) (past : List (Event τ)) (repo : Repo τ)
    (hs : Program.outcome .pipeline env past repo = .error (.exited 0)) :
    (∃ d,stateFile (Program.traced .pipeline env past repo) = some d ∧
        (StateManager.canResumeAuditFsm d).1 = true) ↔
      SuspendedBefore past ∨ FellBack (Program.events .pipeline env past repo) := by
  have hload (sm : StateManager) (config : Config) (w : TaskWorld τ) (t : List (Event τ))
      (ht : w.trace = past++t) (hi : stateFile (past++t) = stateFile past) :
      ∃ t',(sm.load config w).2.trace = past++t' ∧
        ((sm.load config w).2.mem.data.WasSuspended ↔ SuspendedBefore past) := by
    have hd := load_reviewFacts sm config ((congrArg stateFile ht).trans hi)
    rcases (sm.load_effect config w).2 with he | ⟨d,he⟩ <;> rw [he,ht]
    · exact ⟨t,rfl,hd⟩
    · exact ⟨t++[.save d],List.append_assoc _ _ _,hd⟩
  obtain ⟨q,m,hq,hi,htrace⟩ := pipeline_keeps (I := fun p m t => p.ReviewFacts past m.data t)
    env past repo (congrArg stateFile (List.append_nil past)) hload
    (fun _ _ _ _ ts _ _ h hl hp => h.reviewFacts hl hp ts)
    (fun _ _ _ _ _ h hl hp => h.reviewFacts hl hp)
    (fun _ _ _ _ _ _ h hl hp => h.reviewFacts hl hp)
    (fun _ _ _ _ h hl hp => h.reviewFacts hl hp)
  rw [hs] at hq
  obtain rfl : q = .suspended := hq
  rw [htrace]
  obtain ⟨hf,hr⟩ := hi
  rw [← hr,hf]
  simp

/-- The first auditor cannot be reached and the fallback cannot decide. -/
def unreachableAuditor : Env Nat :=
  { calmEnv with
    configFile := some ⟨none,some ⟨none,none,[⟨some "deepseek",some "deepseek-chat"⟩]⟩⟩
    auditors := fun _ i _ _ _ =>
      if i = 0 then .error (.networkTransport "HTTP 503" (some 503) none)
      else .ok ⟨.uncertain,[],none,""⟩ }

/-- With a fallback that was asked the suspended task can be resumed. -/
theorem unreachableAuditor_resumable :
    Program.outcome .pipeline unreachableAuditor [] freshRepo = .error (.exited 0) ∧
    ∃ d,stateFile (Program.traced .pipeline unreachableAuditor [] freshRepo) = some d ∧
      (StateManager.canResumeAuditFsm d).1 = true := by
  have hs : Program.outcome .pipeline unreachableAuditor [] freshRepo = .error (.exited 0) := by
    rw [Program.outcome]
    decide +kernel
  refine ⟨hs,(suspension_resumable_iff unreachableAuditor [] freshRepo hs).mpr (.inr ?_)⟩
  have hl : lastAudit (Program.events .pipeline unreachableAuditor [] freshRepo) =
      some (⟨none,none,[⟨some "deepseek",some "deepseek-chat"⟩]⟩,
        [.error (.networkTransport "HTTP 503" (some 503) none),.ok ⟨.uncertain,[],none,""⟩]) := by
    rw [Program.events,Program.traced]
    decide +kernel
  exact ⟨_,_,_,hl,⟨_,rfl,rfl⟩,by decide⟩

/-- The only auditor cannot decide. -/
def undecidedAuditor : Env Nat :=
  { calmEnv with auditors := fun _ _ _ _ _ => .ok ⟨.uncertain,[],none,""⟩ }

/-- A task suspended by its primary auditor cannot be resumed. -/
theorem undecidedAuditor_stranded :
    Program.outcome .pipeline undecidedAuditor [] freshRepo = .error (.exited 0) ∧
    ¬∃ d,stateFile (Program.traced .pipeline undecidedAuditor [] freshRepo) = some d ∧
      (StateManager.canResumeAuditFsm d).1 = true := by
  refine ⟨by rw [Program.outcome]; decide +kernel,?_⟩
  have hf : (stateFile (Program.traced .pipeline undecidedAuditor [] freshRepo)).map
      (fun d => (StateManager.canResumeAuditFsm d).1) = some false := by
    rw [Program.traced]
    decide +kernel
  intro h
  obtain ⟨d,hd,hr⟩ := h
  rw [hd,Option.map_some,hr] at hf
  cases hf

end SoftwareFactory
