import SoftwareFactory.Protocol.WorkerBound

namespace SoftwareFactory

open Process

variable {τ : Type} {text : String → String}

/-- The status says no more than the FSM state does. -/
structure StatusAgrees (d : StateData) : Prop where
  completed : d.executionStatus = .completed → d.currentState = .autoMerge
  failed : d.executionStatus = .failed → d.currentState = .haltHuman
  review : d.executionStatus = .needsHumanReview → d.currentState = .humanReview

/-- Neither finished nor suspended. -/
def StateData.Active (d : StateData) : Prop :=
  d.executionStatus = .running ∨ d.executionStatus = .interrupted

theorem StateData.Active.agrees {d : StateData} (h : d.Active) : StatusAgrees d := by
  rcases h with h | h <;> refine ⟨?_,?_,?_⟩ <;> rw [h] <;> nofun

/-- The loaded data `d` sends the program on while its status is still the old one. -/
def Program.Settled : Program → StateData → Prop
  | .pipeline,d => ¬d.Active
  | .resumeMerge,d => (StateManager.canResumeMerge d).1 = true
  | .resumeAudit,d => (StateManager.canResumeAuditFsm d).1 = true

/-- A process that is not started on a settled task. -/
def Unsettled (past : List (Event τ)) (p : Program) : Prop :=
  ∀ d,stateFile past = some d → ¬p.Settled d.recovered

/-- Killed or refused before its first save. -/
def SavesNothing (past t : List (Event τ)) : Prop :=
  ∃ ext,t = past++ext ∧ ∀ e ∈ ext,e.isSave = false

/-- A process that writes the state file at all is not started on a settled task. -/
def unsettledWriter (past : List (Event τ)) (p : Program) (t : List (Event τ)) : Prop :=
  SavesNothing past t ∨ Unsettled past p

def AllAgree (t : List (Event τ)) : Prop := ∀ d,.save d ∈ t → StatusAgrees d

theorem AllAgree.save {t : List (Event τ)} {d : StateData} (h : AllAgree t)
    (hd : StatusAgrees d) : AllAgree (t++[.save d]) := by
  intro d' hd'
  rcases List.mem_append.mp hd' with hd' | hd'
  · exact h d' hd'
  · simp only [List.mem_singleton,Event.save.injEq] at hd'
    exact hd' ▸ hd

theorem AllAgree.other {t : List (Event τ)} {e : Event τ} (h : AllAgree t)
    (he : e.isSave = false) : AllAgree (t++[e]) := by
  intro d hd
  rcases List.mem_append.mp hd with hd | hd
  · exact h d hd
  · simp only [List.mem_singleton] at hd
    rw [← hd] at he
    cases he

/-- What the data must be at a point, in a process started on an unsettled task. -/
def Point.Expects : Point → StateData → Prop
  | .launched,_ => True
  | .opening _,_ => True
  | .opened p,d => ¬p.Settled d
  | .checkingMerge,_ => False
  | .checkingAudit,_ => False
  | .mergePending p,d => p ≠ .resumeMerge ∧ d.Active
  | .detaching p,d => p ≠ .resumeMerge ∧ d.Active ∧ d.currentState = .autoMerge
  | .merging p,d => p ≠ .resumeMerge ∧ d.Active ∧ d.currentState = .autoMerge
  | .fastForwarded p,d => p ≠ .resumeMerge ∧ d.Active ∧ d.currentState = .autoMerge
  | .merged p,d => p ≠ .resumeMerge ∧ d.Active ∧ d.currentState = .autoMerge
  | .mergeFailed p _,d => p ≠ .resumeMerge ∧ d.Active
  | .completing,_ => False
  | .failing,d => d.currentState = .haltHuman
  | .pausing,d => d.currentState = .humanReview
  | .blocking,d => d.currentState = .humanReview ∧ d.executionStatus = .needsHumanReview
  | .crashReport,_ => True
  | .reviewReport,_ => True
  | .halted,_ => True
  | .suspended,_ => True
  | .completed,_ => True
  | .crashed,_ => True
  | .refused,_ => True
  | _,d => d.Active

theorem Enters.expects {p q : Point} {st : FsmState} {details : String} (h : Enters text p st details q) {d : StateData}
    (hp : p.Expects d) (ts : String) :
    StatusAgrees (d.transitioned st details ts) ∧
      q.Expects (d.transitioned st details ts) := by
  have active (ha : d.Active) : (d.transitioned st details ts).Active := ha
  have both (ha : d.Active) (hq : (d.transitioned st details ts).Active →
      (d.transitioned st details ts).currentState = st → q.Expects (d.transitioned st details ts)) :
      StatusAgrees (d.transitioned st details ts) ∧ q.Expects (d.transitioned st details ts) :=
    ⟨(active ha).agrees,hq (active ha) rfl⟩
  cases h with
  | init => exact both (not_not.mp hp) fun ha _ => ha
  | resumeAudit => exact hp.elim
  | autoMerge _ p => exact both hp.2 fun ha hs => ⟨hp.1,ha,hs⟩
  | recovered => exact absurd rfl hp.1
  | halt => exact both hp fun _ hs => hs
  | mergeHalt p m h => exact both hp.2 fun _ hs => hs
  | review => exact both hp fun _ hs => hs
  | _ => exact both hp fun ha _ => ha

theorem Writes.expects {p q : Point} {d d' : StateData} (h : Writes d p d' q)
    (hp : p.Expects d) : StatusAgrees d' ∧ q.Expects d' := by
  have active (ha : d'.Active) (hq : d'.Active → q.Expects d') :
      StatusAgrees d' ∧ q.Expects d' :=
    ⟨ha.agrees,hq ha⟩
  cases h with
  | specRetry => exact active hp fun ha => by split_ifs <;> exact ha
  | logicReplan => exact active hp fun ha => by split_ifs <;> exact ha
  | securityReplan p => exact active hp fun ha => by split_ifs <;> exact ha
  | fail => exact ⟨⟨nofun,fun _ => hp,nofun⟩,trivial⟩
  | pause => exact ⟨⟨nofun,nofun,fun _ => hp⟩,hp,rfl⟩
  | block =>
    obtain ⟨hs,hn⟩ := hp
    refine ⟨⟨?_,?_,fun _ => hs⟩,trivial⟩ <;> rw [StateData.blocked_status,hn] <;> nofun
  | complete p h => exact ⟨⟨fun _ => hp.2.2,nofun,nofun⟩,trivial⟩
  | completeRecovered => exact hp.elim
  | _ => exact active hp id

theorem Answers.expects {p : Program} {left : List Candidate}
    {res : Except PyExc LogicAuditOutput} {q : Point} (h : Answers p left res q) {d : StateData}
    (hd : d.Active) : q.Expects d := by
  cases h <;> exact hd

theorem Calls.expects {d : StateData} {r r' : Repo τ} {p q : Point} {e : Event τ}
    (h : Calls d r p e r' q) (hp : p.Expects d) : q.Expects d := by
  cases h with
  | discovery b => cases b <;> trivial
  | query p c left client res q h => exact h.expects hp
  | approve p => cases p <;> first | exact hp | exact ⟨nofun,hp⟩
  | reject p => cases p <;> first | exact hp | trivial
  | ancestor base branch res =>
    split_ifs
    · exact ⟨nofun,hp⟩
    · exact hp
  | fastForward p branch res => split_ifs <;> exact hp
  | mergeRefused p m => exact ⟨hp.1,hp.2.1⟩
  | _ => first | exact hp | trivial | (split_ifs <;> first | exact hp | trivial)

theorem Chooses.expects {d : StateData} {p q : Point} (h : Chooses d p q) (hp : p.Expects d) :
    q.Expects d := by
  cases h with
  | allowMerge h => exact absurd h hp
  | allowAudit h => exact absurd h hp
  | leaveMerge => exact hp.elim
  | startMerge => exact hp.elim
  | leaveAudit => exact hp.elim
  | failedAgain => exact absurd rfl hp.1
  | _ => first | exact hp | trivial

/-- What is known of the state file before it is loaded. -/
def Point.Opens : Point → List (Event τ) → Prop
  | .launched,t => Unsettled t .pipeline
  | .opening p,t => Unsettled t p
  | _,_ => True

/-- The invariant of the statuses along a process started on an unsettled task. -/
def StatusInv (p : Point) (w : TaskWorld τ) : Prop :=
  AllAgree w.trace ∧ p.Expects w.mem.data ∧ p.Opens w.trace

theorem Unsettled.other {t : List (Event τ)} {p : Program} {e : Event τ} (h : Unsettled t p)
    (he : e.isSave = false) : Unsettled (t++[e]) p := by
  intro d hd
  rw [stateFile_other t e he] at hd
  exact h d hd

theorem Answers.opens {p : Program} {left : List Candidate}
    {res : Except PyExc LogicAuditOutput} {q : Point} (h : Answers p left res q)
    (t : List (Event τ)) : q.Opens t := by
  cases h <;> trivial

theorem Calls.opens {d : StateData} {r r' : Repo τ} {p q : Point} {e : Event τ}
    (h : Calls d r p e r' q) {t : List (Event τ)} (hp : p.Opens t) : q.Opens (t++[e]) := by
  cases h with
  | discovery b =>
    cases b
    · trivial
    · exact Unsettled.other hp rfl
  | query p c left client res q h => exact h.opens _
  | approve p => cases p <;> trivial
  | reject p => cases p <;> trivial
  | _ => first | trivial | (split_ifs <;> trivial)

theorem initState_unsettled (taskId : String) (config : Config) (p : Program) :
    ¬p.Settled (initState taskId config) := by
  cases p with
  | pipeline => exact not_not.mpr (.inl rfl)
  | resumeMerge => nofun
  | resumeAudit => nofun

theorem recovered_agrees {d : StateData} (h : d.executionStatus = .running) :
    StatusAgrees d.recovered := by
  have hr : d.recovered = d.withStatus .interrupted := by rw [StateData.recovered,if_pos h]
  rw [hr]
  exact StateData.Active.agrees (.inr rfl)

theorem load_expects (sm : StateManager) (config : Config) {p : Program} {w : TaskWorld τ}
    (hu : Unsettled w.trace p) (ha : AllAgree w.trace) :
    AllAgree (sm.load config w).2.trace ∧ ¬p.Settled (sm.load config w).2.mem.data := by
  rcases hf : stateFile w.trace with _ | d
  · rw [sm.load_none config w hf]
    exact ⟨ha.save (StateData.Active.agrees (.inl rfl)),initState_unsettled _ _ p⟩
  · rw [sm.load_some config w d hf]
    dsimp only
    split_ifs with hr
    · exact ⟨ha.save (recovered_agrees hr),hu d hf⟩
    · exact ⟨ha,hu d hf⟩

theorem StatusInv.step {p : Point} {w : TaskWorld τ} {q : Point} {w' : TaskWorld τ}
    (h : Step text (p,w) (q,w')) (hi : StatusInv p w) : StatusInv q w' := by
  obtain ⟨ha,he,ho⟩ := hi
  cases h with
  | load k sm config =>
    obtain ⟨ha',hs⟩ := load_expects sm config ho ha
    exact ⟨ha',hs,trivial⟩
  | enter h ts =>
    obtain ⟨hd,hq⟩ := h.expects he ts
    exact ⟨ha.save hd,hq,by cases h <;> trivial⟩
  | write h =>
    obtain ⟨hd,hq⟩ := h.expects he
    refine ⟨ha.save hd,hq,?_⟩
    cases h <;> first | trivial | (split_ifs <;> trivial)
  | call h => exact ⟨ha.other h.isSave,h.expects he,h.opens ho⟩
  | move h => exact ⟨ha,h.expects he,by cases h <;> trivial⟩

theorem AllAgree.of_savesNothing {past t : List (Event τ)} (h : AllAgree past)
    (hs : SavesNothing past t) : AllAgree t := by
  obtain ⟨ext,rfl,he⟩ := hs
  intro d hd
  rcases List.mem_append.mp hd with hd | hd
  · exact h d hd
  · exact absurd (he _ hd) (by simp [Event.isSave])

theorem unsettled_agrees {past t : List (Event τ)} {p : Program} {env : Env τ} {repo : Repo τ}
    (ha : AllAgree past) (hu : Unsettled past p) (hpast : past <+: t)
    (ht : t <+: p.traced env past repo) : AllAgree t := by
  have hin : StatusInv p.entry (launch past repo) := by
    cases p <;> exact ⟨ha,trivial,hu⟩
  obtain ⟨q,w,hi,rfl⟩ := run_keeps (I := StatusInv) (fun _ _ _ _ => StatusInv.step) hin hpast ht
  exact hi.1

section settled

/-- The points of a program before its first save, when its start needs no recovery. -/
inductive Silent : Program → Point → Prop
  | launched : Silent .pipeline .launched
  | opening (p : Program) : Silent p (.opening p)
  | opened (p : Program) : Silent p (.opened p)
  | refused (p : Program) : Silent p .refused
  | checkingMerge : Silent .resumeMerge .checkingMerge
  | merging : Silent .resumeMerge (.merging .resumeMerge)
  | fastForwarded : Silent .resumeMerge (.fastForwarded .resumeMerge)
  | merged : Silent .resumeMerge (.merged .resumeMerge)
  | mergeFailed (m : String) : Silent .resumeMerge (.mergeFailed .resumeMerge m)
  | checkingAudit : Silent .resumeAudit .checkingAudit

theorem Silent.call {k : Program} {d : StateData} {r r' : Repo τ} {p q : Point} {e : Event τ}
    (hp : Silent k p) (h : Calls d r p e r' q) : Silent k q := by
  cases h with
  | discovery b =>
    cases hp
    cases b
    · exact .refused _
    · exact .opening _
  | checkMerge => exact hp
  | checkAudit => exact hp
  | checkGate => exact hp
  | fastForward p branch res =>
    cases hp
    split_ifs
    · exact .fastForwarded
    · exact .merging
  | mergePassed =>
    cases hp
    exact .merged
  | mergeRefused p m =>
    cases hp
    exact .mergeFailed m
  | _ => cases hp

theorem Silent.choice {k : Program} {d : StateData} {p q : Point} (hp : Silent k p)
    (h : Chooses d p q) : Silent k q := by
  cases h with
  | allowMerge =>
    cases hp
    exact .checkingMerge
  | startMerge =>
    cases hp
    exact .merging
  | allowAudit =>
    cases hp
    exact .checkingAudit
  | _ =>
    cases hp
    try exact .refused _

/-- The status each program finds on a settled task. -/
theorem Program.Settled.status {p : Program} {d : StateData} (h : p.Settled d) :
    ¬d.Active ∧ (p = .resumeMerge → d.executionStatus = .failed) := by
  cases p with
  | pipeline => exact ⟨h,nofun⟩
  | resumeMerge =>
    have hs : d.executionStatus = .failed := by
      simp only [Program.Settled,StateManager.canResumeMerge] at h
      by_contra hn
      split_ifs at h
    refine ⟨?_,fun _ => hs⟩
    rintro (ha | ha) <;> rw [hs] at ha <;> cases ha
  | resumeAudit =>
    have hs : d.executionStatus = .needsHumanReview := by
      simp only [Program.Settled,StateManager.canResumeAuditFsm] at h
      by_contra hn
      split_ifs at h
    refine ⟨?_,nofun⟩
    rintro (ha | ha) <;> rw [hs] at ha <;> cases ha

/-- The first transition of a program on a settled task keeps the old status. -/
theorem Program.Settled.disagrees {p q : Point} {st : FsmState} {k : Program} {d : StateData}
    {details : String} (hk : k.Settled d) (hp : Silent k p) (h : Enters text p st details q)
    (ts : String) :
    ¬StatusAgrees (d.transitioned st details ts) := by
  obtain ⟨hn,hm⟩ := hk.status
  intro ha
  have status (hst : st ≠ .autoMerge ∧ st ≠ .haltHuman ∧ st ≠ .humanReview) : False := by
    cases hs : d.executionStatus with
    | running => exact hn (.inl hs)
    | interrupted => exact hn (.inr hs)
    | completed => exact hst.1 (ha.completed hs)
    | failed => exact hst.2.1 (ha.failed hs)
    | needsHumanReview => exact hst.2.2 (ha.review hs)
  cases h with
  | init =>
    cases hp
    exact status (by decide)
  | resumeAudit => exact status (by decide)
  | recovered =>
    cases hp
    cases ha.failed (hm rfl)
  | mergeHalt p m h =>
    cases hp
    exact h rfl
  | _ => cases hp

/-- Along a process started on a settled task with file `d`: a save that disagrees has been
written, or nothing has been saved yet. -/
def SettledInv (k : Program) (past : List (Event τ)) (d : StateData) (p : Point)
    (w : TaskWorld τ) : Prop :=
  ¬AllAgree w.trace ∨
    Silent k p ∧ SavesNothing past w.trace ∧ stateFile w.trace = some d ∧
      (p.loaded = true → w.mem.data = d)

theorem AllAgree.of_append {t : List (Event τ)} {e : Event τ} (h : AllAgree (t++[e])) :
    AllAgree t :=
  fun d hd => h d (List.mem_append_left _ hd)

theorem step_allAgree {p q : Point} {w w' : TaskWorld τ} (h : Step text (p,w) (q,w'))
    (ha : AllAgree w'.trace) : AllAgree w.trace := by
  rcases step_gradual text _ _ h with he | ⟨e,he⟩
  · exact (he : w'.trace = w.trace) ▸ ha
  · have he : w'.trace = w.trace++[e] := he
    rw [he] at ha
    exact ha.of_append

theorem SavesNothing.other {past t : List (Event τ)} {e : Event τ} (h : SavesNothing past t)
    (he : e.isSave = false) : SavesNothing past (t++[e]) := by
  obtain ⟨ext,rfl,hs⟩ := h
  refine ⟨ext++[e],List.append_assoc _ _ _,fun e' he' => ?_⟩
  rcases List.mem_append.mp he' with he' | he'
  · exact hs e' he'
  · rw [List.mem_singleton.mp he']
    exact he

theorem SettledInv.step {k : Program} {past : List (Event τ)} {d : StateData}
    (hk : k.Settled d) {p : Point} {w : TaskWorld τ} {q : Point} {w' : TaskWorld τ}
    (h : Step text (p,w) (q,w')) (hi : SettledInv k past d p w) : SettledInv k past d q w' := by
  rcases hi with hi | ⟨hp,hs,hf,hd⟩
  · exact .inl fun ha => hi (step_allAgree h ha)
  have hr : d.recovered = d := by
    rw [StateData.recovered,if_neg fun hr => hk.status.1 (.inl hr)]
  cases h with
  | load j sm config =>
    have hl : (sm.load config w).2 = { w with mem := { w.mem with data := d } } := by
      rw [sm.load_some config w d hf,hr,if_neg fun hr => hk.status.1 (.inl hr)]
    refine .inr ⟨?_,by rw [hl]; exact hs,by rw [hl]; exact hf,fun _ => by rw [hl]⟩
    cases hp
    exact .opened _
  | enter h ts =>
    have hdata : w.mem.data = d := hd (by cases h <;> rfl)
    rw [hdata]
    refine .inl fun ha => hk.disagrees hp h ts (ha _ ?_)
    exact List.mem_append_right _ (List.mem_singleton_self _)
  | write h =>
    cases h with
    | complete p h =>
      cases hp
      exact absurd rfl h
    | _ => cases hp
  | call h =>
    refine .inr ⟨hp.call h,hs.other h.isSave,(stateFile_other _ _ h.isSave).trans hf,
      fun hq => ?_⟩
    rcases h.loaded with hl | ⟨hl,_⟩
    · exact hd hl
    · rw [hl] at hq
      cases hq
  | move h =>
    exact .inr ⟨hp.choice h,hs,hf,fun _ => hd (by cases h <;> rfl)⟩

/-- A process started on a settled task that writes the state file at all writes a
disagreeing state first. -/
theorem settled_disagrees {past t : List (Event τ)} {p : Program} {env : Env τ} {repo : Repo τ}
    (hu : ¬Unsettled past p) (hpast : past <+: t) (ht : t <+: p.traced env past repo) :
    SavesNothing past t ∨ ¬AllAgree t := by
  simp only [Unsettled,not_forall,not_not] at hu
  obtain ⟨d,hf,hk⟩ := hu
  have hr : d.recovered = d := by
    by_contra hr
    have ha : d.executionStatus = .running := by
      by_contra hn
      exact hr (by rw [StateData.recovered,if_neg hn])
    refine hk.status.1 (.inr ?_)
    rw [StateData.recovered,if_pos ha]
    rfl
  rw [hr] at hk
  have hin : SettledInv p past d p.entry (launch past repo) := by
    refine .inr ⟨by cases p <;> constructor,⟨[],?_,?_⟩,hf,?_⟩
    · exact (List.append_nil past).symm
    · exact fun e he => absurd he List.not_mem_nil
    · intro hl
      cases p <;> cases hl
  obtain ⟨q,w,hi,rfl⟩ := run_keeps (I := SettledInv p past d)
    (fun _ _ _ _ => SettledInv.step hk) hin hpast ht
  rcases hi with hi | ⟨_,hs,_⟩
  · exact .inr hi
  · exact .inl hs

end settled

/-- Exactly the sessions whose writing processes are not started on a settled task have
every saved status agree with its FSM state. -/
theorem session_statuses_agree_iff (t : List (Event τ)) :
    Session unsettledWriter t ↔ Session anyProcess t ∧ AllAgree t := by
  constructor
  · intro h
    induction h with
    | nil => exact ⟨.nil,fun _ hd => absurd hd List.not_mem_nil⟩
    | process p env repo before hpast ht hok ih =>
      refine ⟨.process p env repo ih.1 hpast ht trivial,?_⟩
      rcases hok with hs | hu
      · exact ih.2.of_savesNothing hs
      · exact unsettled_agrees ih.2 hu hpast ht
  · intro hparts
    obtain ⟨h,ha⟩ := hparts
    induction h with
    | nil => exact .nil
    | @process past t p env repo before hpast ht hok ih =>
      have hpa := ih fun d hd => ha d (hpast.subset hd)
      refine .process p env repo hpa hpast ht ?_
      by_cases hu : Unsettled past p
      · exact .inr hu
      · exact .inl ((settled_disagrees hu hpast ht).resolve_right (not_not.mpr ha))

/-- The worktree cannot be created, so the task halts before the build loop. -/
def lockedWorktree : Env Nat := { calmEnv with createWorktree := fun _ => (false,"locked") }

/-- `run_pipeline` halts a task and is started on it once more. -/
def restartedTask : List (Event Nat) :=
  Program.traced .pipeline lockedWorktree
    (Program.traced .pipeline lockedWorktree [] freshRepo) freshRepo

/-- A restart after a halt saves INIT with the status FAILED. -/
theorem restartedTask_disagrees : Session anyProcess restartedTask ∧ ¬AllAgree restartedTask := by
  refine ⟨(Session.nil.andThen _ _ _).andThen _ _ _,fun h => ?_⟩
  have hsaved : (restartedTask.any fun e => (stateFile [e]).any fun d =>
      decide (d.executionStatus = .failed ∧ d.currentState = .init)) = true := by
    simp only [restartedTask,Program.traced]
    rfl
  obtain ⟨e,he,hany⟩ := List.any_eq_true.mp hsaved
  obtain ⟨d,hd,hstate⟩ := (Option.any_eq_true _ _).mp hany
  obtain rfl := stateFile_singleton.mp hd
  obtain ⟨hf,hs⟩ := of_decide_eq_true hstate
  cases hs.symm.trans ((h d he).failed hf)

end SoftwareFactory
