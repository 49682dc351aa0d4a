import SoftwareFactory.Protocol.WorkerBound

namespace SoftwareFactory

open Process

variable {τ : Type} {text : String → String}

/-- No Worker is invoked in these events. -/
def NoWorker (t : List (Event τ)) : Prop := ∀ e ∈ t,e.builtEpoch = none

/-- The logic audit has passed and the Worker has not been invoked since. -/
def AuditStands (t : List (Event τ)) : Prop :=
  ∃ a b,t = a++.auditReturned true::b ∧ NoWorker b

/-- The last transition in `d` was saved right after a failed merge, which followed a
passed audit; no Worker has been invoked since that audit. -/
def MergeHalted (t : List (Event τ)) (d : StateData) : Prop :=
  ∃ a b message tree d' c,
    t = a++.auditReturned true::b++[.executeFastForwardMerge false message tree,.save d']++c ∧
      NoWorker b ∧ NoWorker c ∧ d'.history = d.history ∧
      ∃ last,d.history.getLast? = some last ∧ last.fromState = .autoMerge ∧
        last.toState = .haltHuman

theorem NoWorker.append {t t' : List (Event τ)} (h : NoWorker t) (h' : NoWorker t') :
    NoWorker (t++t') := by
  intro e he
  rcases List.mem_append.mp he with he | he
  · exact h e he
  · exact h' e he

theorem NoWorker.singleton {e : Event τ} (he : e.builtEpoch = none) : NoWorker [e] := by
  intro e' he'
  rw [List.mem_singleton.mp he']
  exact he

theorem NoWorker.nil : NoWorker ([] : List (Event τ)) := fun _ he => absurd he List.not_mem_nil

theorem AuditStands.append {t : List (Event τ)} {e : Event τ} (h : AuditStands t)
    (he : e.builtEpoch = none) : AuditStands (t++[e]) := by
  obtain ⟨a,b,rfl,hb⟩ := h
  exact ⟨a,b++[e],by simp,hb.append (.singleton he)⟩

theorem MergeHalted.append {t : List (Event τ)} {d d' : StateData} {e : Event τ}
    (h : MergeHalted t d) (he : e.builtEpoch = none) (hd : d'.history = d.history) :
    MergeHalted (t++[e]) d' := by
  obtain ⟨a,b,m,tree,s,c,rfl,hb,hc,hs,hlast⟩ := h
  refine ⟨a,b,m,tree,s,c++[e],by simp,hb,hc.append (.singleton he),hs.trans hd.symm,?_⟩
  rw [hd]
  exact hlast

theorem MergeHalted.auditStands {t : List (Event τ)} {d : StateData} (h : MergeHalted t d) :
    AuditStands t := by
  obtain ⟨a,b,m,tree,s,c,rfl,hb,hc,_,_⟩ := h
  refine ⟨a,b++[.executeFastForwardMerge false m tree,.save s]++c,by simp,?_⟩
  refine (hb.append fun e he => ?_).append hc
  simp only [List.mem_cons,List.not_mem_nil,or_false] at he
  rcases he with rfl | rfl <;> rfl

/-- What the history in the state file stands for. -/
structure Accountable (t : List (Event τ)) (d : StateData) : Prop where
  last : ∀ e,d.history.getLast? = some e → e.toState = d.currentState
  merge : d.currentState = .autoMerge → AuditStands t
  halt : ∀ e,d.history.getLast? = some e → e.fromState = .autoMerge →
    e.toState = .haltHuman → MergeHalted t d

namespace Accountable

variable {t : List (Event τ)} {d d' : StateData}

/-- Another event, and data with the same transitions. -/
theorem append (h : Accountable t d) {e : Event τ} (he : e.builtEpoch = none)
    (hs : d'.currentState = d.currentState) (hd : d'.history = d.history) :
    Accountable (t++[e]) d' := by
  refine ⟨?_,?_,?_⟩
  · rw [hd,hs]
    exact h.last
  · rw [hs]
    exact fun hm => (h.merge hm).append he
  · rw [hd]
    exact fun e' hl hf ht => (h.halt e' hl hf ht).append he hd

/-- A transition; only the two that concern a merge ask for anything. -/
theorem transitioned (st : FsmState) (details ts : String)
    (hm : st = .autoMerge → AuditStands t)
    (hh : d.currentState = .autoMerge → st = .haltHuman →
      ∃ a b message tree,t = a++.auditReturned true::b++
        [.executeFastForwardMerge false message tree] ∧ NoWorker b) :
    Accountable (t++[.save (d.transitioned st details ts)]) (d.transitioned st details ts) := by
  have hl : (d.transitioned st details ts).history.getLast? =
      some ⟨ts,d.currentState,st,details,d.epoch⟩ := by simp
  refine ⟨?_,fun hs => (hm hs).append rfl,?_⟩
  · intro e he
    rw [hl] at he
    cases he
    rfl
  · intro e he hf ht
    rw [hl] at he
    cases he
    obtain ⟨a,b,m,tree,rfl,hb⟩ := hh hf ht
    exact ⟨a,b,m,tree,_,[],by simp,hb,.nil,rfl,_,hl,hf,ht⟩

/-- While the Worker runs the task is in BUILDING, so nothing about merges is claimed. -/
theorem worker (h : Accountable t d) (e : Event τ) (hs : d.currentState = .building) :
    Accountable (t++[e]) d := by
  refine ⟨h.last,fun hm => ?_,fun e' hl _ ht => ?_⟩
  · rw [hs] at hm
    cases hm
  · rw [h.last e' hl,hs] at ht
    cases ht

theorem created (taskId : String) (config : Config) (e : Event τ) :
    Accountable (t++[e]) (initState taskId config) :=
  ⟨fun _ h => (by cases h),fun h => (by cases h),fun _ h => (by cases h)⟩

end Accountable

/-- What is known at a point besides. -/
def Point.MergeFacts : Point → List (Event τ) → StateData → Prop
  | .launched,_,_ => True
  | .opening _,_,_ => True
  | .opened _,_,_ => True
  | .registering,_,d => d.currentState = .building
  | .working,_,d => d.currentState = .building
  | .checkingMerge,t,_ => AuditStands t
  | .checkingAudit,_,_ => True
  | .checkingAncestor,t,d => AuditStands t ∧ d.currentState ≠ .autoMerge
  | .mergePending _,t,d => AuditStands t ∧ d.currentState ≠ .autoMerge
  | .detaching _,t,_ => AuditStands t
  | .merging _,t,_ => AuditStands t
  | .fastForwarded _,t,_ => AuditStands t
  | .merged _,t,_ => AuditStands t
  | .mergeFailed _ m,t,_ => ∃ a b tree,t = a++.auditReturned true::b++
      [.executeFastForwardMerge false m tree] ∧ NoWorker b
  | .completing,_,_ => True
  | .completed,_,_ => True
  | .failing,_,_ => True
  | .crashReport,_,_ => True
  | .halted,_,_ => True
  | .pausing,_,_ => True
  | .blocking,_,_ => True
  | .reviewReport,_,_ => True
  | .suspended,_,_ => True
  | .crashed,_,_ => True
  | .refused,_,_ => True
  | _,_,d => d.currentState ≠ .autoMerge

/-- The state file accounts for itself. -/
def FileAccountable (t : List (Event τ)) : Prop :=
  ∀ d,stateFile t = some d → Accountable t d

def MergeInv (p : Point) (w : TaskWorld τ) : Prop :=
  if p.loaded then StateManager.Synced w ∧ Accountable w.trace w.mem.data ∧
    p.MergeFacts w.trace w.mem.data
  else FileAccountable w.trace

theorem FileAccountable.of_synced {w : TaskWorld τ} (hs : StateManager.Synced w)
    (ha : Accountable w.trace w.mem.data) : FileAccountable w.trace := by
  intro d hd
  rw [hs] at hd
  cases hd
  exact ha

theorem MergeInv.fileAccountable {p : Point} {w : TaskWorld τ} (h : MergeInv p w) :
    FileAccountable w.trace := by
  unfold MergeInv at h
  split_ifs at h
  · exact .of_synced h.1 h.2.1
  · exact h

theorem MergeInv.of_loaded {p : Point} {w : TaskWorld τ} (hs : StateManager.Synced w)
    (ha : Accountable w.trace w.mem.data) (hp : p.MergeFacts w.trace w.mem.data) :
    MergeInv p w := by
  unfold MergeInv
  split_ifs
  · exact ⟨hs,ha,hp⟩
  · exact .of_synced hs ha

/-- The authorisation check and the history. -/
theorem canResumeMerge_last {d : StateData} (h : (StateManager.canResumeMerge d).1 = true) :
    ∃ e,d.history.getLast? = some e ∧ e.fromState = .autoMerge ∧ e.toState = .haltHuman := by
  unfold StateManager.canResumeMerge at h
  split_ifs at h
  rcases hl : d.history.getLast? with _ | e <;> rw [hl] at h
  · cases h
  · refine ⟨e,rfl,?_⟩
    by_contra hn
    have hor : e.fromState ≠ .autoMerge ∨ e.toState ≠ .haltHuman := by
      by_contra hc
      simp only [not_or,not_not] at hc
      exact hn hc
    simp only [hor,if_true] at h
    cases h

theorem load_accountable (sm : StateManager) (config : Config) {w : TaskWorld τ}
    (h : FileAccountable w.trace) :
    Accountable (sm.load config w).2.trace (sm.load config w).2.mem.data := by
  rcases hf : stateFile w.trace with _ | d
  · rw [sm.load_none config w hf]
    exact .created _ _ _
  · rw [sm.load_some config w d hf]
    dsimp only
    split_ifs
    · exact (h d hf).append rfl (by rw [d.recovered_eq]; rfl) (by rw [d.recovered_eq]; rfl)
    · obtain ⟨h₁,h₂,h₃⟩ := h d hf
      have hr : d.recovered = d := by rw [StateData.recovered,if_neg ‹_›]
      rw [hr]
      exact ⟨h₁,h₂,h₃⟩

theorem Enters.mergeFacts {p q : Point} {st : FsmState} {details : String}
    (h : Enters text p st details q) {t : List (Event τ)} {d : StateData}
    (hp : p.MergeFacts t d) (ts : String) :
    Accountable (t++[.save (d.transitioned st details ts)]) (d.transitioned st details ts) ∧
      q.MergeFacts (t++[.save (d.transitioned st details ts)])
        (d.transitioned st details ts) := by
  have plain (hs : st ≠ .autoMerge ∧ st ≠ .haltHuman) :
      Accountable (t++[.save (d.transitioned st details ts)]) (d.transitioned st details ts) :=
    .transitioned st details ts (fun hm => absurd hm hs.1) (fun _ hh => absurd hh hs.2)
  cases h with
  | autoMerge s p =>
    have ha := hp.1
    exact ⟨.transitioned _ _ _ (fun _ => ha) nofun,ha.append rfl⟩
  | recovered s =>
    exact ⟨.transitioned _ _ _ (fun _ => hp) nofun,trivial⟩
  | halt s => exact ⟨.transitioned _ _ _ nofun fun hs => absurd hs hp,trivial⟩
  | mergeHalt k m h =>
    obtain ⟨a,b,tree,ht,hb⟩ := hp
    exact ⟨.transitioned _ _ _ nofun fun _ _ => ⟨a,b,m,tree,ht,hb⟩,trivial⟩
  | _ => exact ⟨plain (by decide),by first | trivial | exact nofun⟩

theorem Writes.mergeFacts {p q : Point} {d d' : StateData} (h : Writes d p d' q)
    {t : List (Event τ)} (ha : Accountable t d) (hp : p.MergeFacts t d) :
    Accountable (t++[.save d']) d' ∧ q.MergeFacts (t++[.save d']) d' := by
  cases h with
  | specRetry => exact ⟨ha.append rfl rfl rfl,by split_ifs <;> exact hp⟩
  | logicReplan => exact ⟨ha.append rfl rfl rfl,by split_ifs <;> exact hp⟩
  | securityReplan => exact ⟨ha.append rfl rfl rfl,by split_ifs <;> exact hp⟩
  | _ => exact ⟨ha.append rfl rfl rfl,by trivial⟩

theorem Answers.mergeFacts {p : Program} {left : List Candidate}
    {res : Except PyExc LogicAuditOutput} {q : Point} (h : Answers p left res q)
    {t : List (Event τ)} {d : StateData} (hd : d.currentState ≠ .autoMerge) :
    q.MergeFacts t d := by
  cases h <;> exact hd

theorem Calls.mergeFacts {d : StateData} {r r' : Repo τ} {p q : Point} {e : Event τ}
    (h : Calls d r p e r' q) {t : List (Event τ)} (hp : p.MergeFacts t d) :
    q.MergeFacts (t++[e]) d := by
  cases h with
  | query p c left client res q h => exact h.mergeFacts hp
  | approve p =>
    have ha : AuditStands (t++[.auditReturned true]) := ⟨t,[],rfl,.nil⟩
    cases p <;> exact ⟨ha,hp⟩
  | reject p => cases p <;> first | exact hp | trivial
  | worker fb files =>
    have hs : d.currentState = .building := hp
    change d.currentState ≠ .autoMerge
    rw [hs]
    decide
  | ancestor base branch res =>
    split_ifs
    · exact ⟨hp.1.append rfl,hp.2⟩
    · exact hp.2
  | detach p => exact AuditStands.append hp rfl
  | checkMerge => exact AuditStands.append hp rfl
  | checkGate => exact AuditStands.append hp rfl
  | fastForward p branch res => split_ifs <;> exact AuditStands.append hp rfl
  | mergePassed => exact AuditStands.append hp rfl
  | mergeRefused p m =>
    obtain ⟨a,b,rfl,hb⟩ := hp
    exact ⟨a,b,_,rfl,hb⟩
  | _ => first | exact hp | trivial | (split_ifs <;> first | exact hp | trivial)

theorem Chooses.mergeFacts {d : StateData} {p q : Point} (h : Chooses d p q)
    {t : List (Event τ)} (ha : Accountable t d) (hp : p.MergeFacts t d) : q.MergeFacts t d := by
  cases h with
  | denied =>
    have hs : d.currentState = .building := hp
    change d.currentState ≠ .autoMerge
    rw [hs]
    decide
  | allowMerge h =>
    obtain ⟨e,hl,hf,ht⟩ := canResumeMerge_last h
    exact (ha.halt e hl hf ht).auditStands
  | _ => first | exact hp | trivial

theorem MergeInv.step {p : Point} {w : TaskWorld τ} {q : Point} {w' : TaskWorld τ}
    (h : Step text (p,w) (q,w')) (hi : MergeInv p w) : MergeInv q w' := by
  cases h with
  | load p sm config =>
    exact .of_loaded (sm.synced_load config w) (load_accountable sm config hi) trivial
  | enter h ts =>
    rw [MergeInv,if_pos (by cases h <;> rfl)] at hi
    obtain ⟨ha,hq⟩ := h.mergeFacts hi.2.2 ts
    exact .of_loaded (StateManager.synced_saved _ _) ha hq
  | write h =>
    rw [MergeInv,if_pos (by cases h <;> rfl)] at hi
    obtain ⟨ha,hq⟩ := h.mergeFacts hi.2.1 hi.2.2
    exact .of_loaded (StateManager.synced_saved _ _) ha hq
  | call h =>
    rcases h.loaded with hl | ⟨hl,hn⟩
    · rw [MergeInv,if_pos hl] at hi
      obtain ⟨hs,ha,hp⟩ := hi
      refine .of_loaded ((stateFile_other w.trace _ h.isSave).trans hs) ?_ (h.mergeFacts hp)
      rcases h.builtEpoch.2 with ⟨rfl,_⟩ | ⟨_,he⟩
      · exact ha.worker _ hp
      · exact ha.append he rfl rfl
    · have hf := hi.fileAccountable
      rw [MergeInv,if_neg (by simp [hl])]
      intro d hd
      rw [stateFile_other _ _ h.isSave] at hd
      exact (hf d hd).append hn rfl rfl
  | move h =>
    rw [MergeInv,if_pos (by cases h <;> rfl)] at hi
    exact .of_loaded hi.1 hi.2.1 (h.mergeFacts hi.2.1 hi.2.2)

theorem session_fileAccountable {ok : List (Event τ) → Program → List (Event τ) → Prop}
    {t : List (Event τ)} (h : Session ok t) : FileAccountable t := by
  have hnil : FileAccountable ([] : List (Event τ)) := fun d hd => by simp at hd
  have hin (past : List (Event τ)) (p : Program) (repo : Repo τ) (hi : FileAccountable past) :
      MergeInv p.entry (launch past repo) := by
    cases p <;> exact hi
  exact h.induct hnil hin (fun _ _ _ _ _ => MergeInv.step) fun _ _ => MergeInv.fileAccountable

/-- The message of a failed merge. -/
def Event.mergeFailure : Event τ → Option String
  | .executeFastForwardMerge false m _ => some m
  | _ => none

theorem Event.eq_of_mergeFailure {e : Event τ} {m : String} (h : e.mergeFailure = some m) :
    ∃ tree,e = .executeFastForwardMerge false m tree := by
  unfold mergeFailure at h
  split at h
  · cases h
    exact ⟨_,rfl⟩
  · cases h

/-- The messages of the merges that failed after `past`. -/
def mergeFailures (past t : List (Event τ)) : List String :=
  (t.drop past.length).filterMap Event.mergeFailure

theorem mergeFailures_append {past t : List (Event τ)} (h : past <+: t) (e : Event τ) :
    mergeFailures past (t++[e]) = mergeFailures past t++e.mergeFailure.toList := by
  unfold mergeFailures
  rw [List.drop_append_of_le_length h.length_le,List.filterMap_append]
  cases he : e.mergeFailure <;> simp [he]

/-- The history entry of a halt with `m` will pass the last check of `can_resume_merge`. -/
def Recognised (text : String → String) (m : String) : Prop :=
  PyText.contains (PyText.lower (text m)) "merge" = true

theorem canResumeMerge_halted {d : StateData} {m : String} (hm : Recognised text m)
    (hs : d.currentState = .autoMerge) (ts : String) :
    (StateManager.canResumeMerge ((d.transitioned .haltHuman (text m) ts).withStatus
      .failed)).1 = true := by
  simp only [StateManager.canResumeMerge,StateData.withStatus_state,StateData.transitioned_state,
    StateData.withStatus_status,StateData.withStatus_history,StateData.transitioned_history,
    List.getLast?_concat,hs]
  have hm : PyText.contains (PyText.lower (text m)) "merge" = true := hm
  simp [hm]

/-- Every failed merge of this process with a recognisable message has left `d` ready for
merge recovery. -/
def Recoverable (text : String → String) (past t : List (Event τ)) (d : StateData) : Prop :=
  ∀ m ∈ mergeFailures past t,Recognised text m → (StateManager.canResumeMerge d).1 = true

/-- The data with which a program tries the merge. -/
def Program.MergesWith : Program → StateData → Prop
  | .resumeMerge,d => (StateManager.canResumeMerge d).1 = true
  | _,d => d.currentState = .autoMerge

/-- What a failed merge means for the points after it, and which data it needs before. -/
def Point.HaltFacts (text : String → String) (past : List (Event τ)) :
    Point → List (Event τ) → StateData → Prop
  | .checkingMerge,t,d =>
    mergeFailures past t = [] ∧ (StateManager.canResumeMerge d).1 = true
  | .mergePending p,t,_ => mergeFailures past t = [] ∧ p ≠ .resumeMerge
  | .detaching p,t,d => mergeFailures past t = [] ∧ p.MergesWith d
  | .merging p,t,d => mergeFailures past t = [] ∧ p.MergesWith d
  | .mergeFailed p m,t,d => mergeFailures past t = [m] ∧ p.MergesWith d
  | .failing,t,d => Recoverable text past t (d.withStatus .failed)
  | .crashReport,t,d => Recoverable text past t d
  | .halted,t,d => Recoverable text past t d
  | .refused,t,d => Recoverable text past t d
  | _,t,_ => mergeFailures past t = []

section halts

variable {past t : List (Event τ)} {d d' : StateData} {p q : Point}

theorem mergeFailures_save (h : past <+: t) (d : StateData) :
    mergeFailures past (t++[.save d]) = mergeFailures past t := by
  rw [mergeFailures_append h]
  exact List.append_nil _

theorem Recoverable.of_nil (h : mergeFailures past t = []) : Recoverable text past t d := by
  intro m hm
  rw [h] at hm
  exact absurd hm List.not_mem_nil

theorem Recoverable.other (h : Recoverable text past t d) (ht : past <+: t) {e : Event τ}
    (he : e.mergeFailure = none) : Recoverable text past (t++[e]) d := by
  intro m hm
  rw [mergeFailures_append ht,he,Option.toList_none,List.append_nil] at hm
  exact h m hm

theorem Enters.haltFacts {st : FsmState} {details : String} (h : Enters text p st details q)
    (ht : past <+: t) (hp : p.HaltFacts text past t d) (ts : String) :
    q.HaltFacts text past (t++[.save (d.transitioned st details ts)])
      (d.transitioned st details ts) := by
  have hs := mergeFailures_save ht (d.transitioned st details ts)
  cases h with
  | autoMerge s p =>
    refine ⟨hs.trans hp.1,?_⟩
    cases p with
    | resumeMerge => exact absurd rfl hp.2
    | _ => rfl
  | halt => exact .of_nil (hs.trans hp)
  | mergeHalt p m h =>
    intro m' hm' hr
    rw [hs,hp.1,List.mem_singleton] at hm'
    subst hm'
    have hd : d.currentState = .autoMerge := by
      cases p with
      | resumeMerge => exact absurd rfl h
      | _ => exact hp.2
    exact canResumeMerge_halted hr hd ts
  | _ => exact hs.trans hp

theorem Writes.haltFacts (h : Writes d p d' q) (ht : past <+: t)
    (hp : p.HaltFacts text past t d) : q.HaltFacts text past (t++[.save d']) d' := by
  have hs := mergeFailures_save ht d'
  cases h with
  | specRetry => split_ifs <;> exact hs.trans hp
  | logicReplan => split_ifs <;> exact hs.trans hp
  | securityReplan => split_ifs <;> exact hs.trans hp
  | fail => exact Recoverable.other hp ht rfl
  | _ => exact hs.trans hp

theorem Answers.haltFacts {p : Program} {left : List Candidate}
    {res : Except PyExc LogicAuditOutput} (h : Answers p left res q)
    (hf : mergeFailures past t = []) : q.HaltFacts text past t d := by
  cases h <;> exact hf

theorem Calls.haltFacts {r r' : Repo τ} {e : Event τ} (h : Calls d r p e r' q)
    (ht : past <+: t) (hp : p.HaltFacts text past t d) :
    q.HaltFacts text past (t++[e]) d := by
  have hs := mergeFailures_append ht e
  have plain (he : e.mergeFailure = none) (hf : mergeFailures past t = []) :
      mergeFailures past (t++[e]) = [] := by
    rw [hs,hf,he]
    rfl
  cases h with
  | query p c left client res q h => exact h.haltFacts (plain rfl hp)
  | discovery b =>
    cases b
    · exact .of_nil (plain rfl hp)
    · exact plain rfl hp
  | approve p =>
    cases p with
    | pipeline => exact ⟨plain rfl hp,nofun⟩
    | _ => exact plain rfl hp
  | reject p =>
    cases p with
    | pipeline => exact plain rfl hp
    | _ => exact .of_nil (plain rfl hp)
  | haltedAudit => exact Recoverable.other hp ht rfl
  | suspendedAudit => exact .of_nil (plain rfl hp)
  | crashReport => exact Recoverable.other hp ht rfl
  | ancestor base branch res =>
    split_ifs
    · exact ⟨plain rfl hp,nofun⟩
    · exact plain rfl hp
  | detach p => exact ⟨plain rfl hp.1,hp.2⟩
  | checkMerge => exact ⟨plain rfl hp.1,hp.2⟩
  | checkGate => exact ⟨plain rfl hp.1,hp.2⟩
  | fastForward p branch res =>
    split_ifs
    · exact plain rfl hp.1
    · exact ⟨plain rfl hp.1,hp.2⟩
  | mergeRefused p m =>
    refine ⟨?_,hp.2⟩
    rw [hs,hp.1]
    rfl
  | _ => first | exact plain rfl hp | (split_ifs <;> exact plain rfl hp)

theorem Chooses.haltFacts (h : Chooses d p q) (hp : p.HaltFacts text past t d) :
    q.HaltFacts text past t d := by
  cases h with
  | allowMerge h => exact ⟨hp,h⟩
  | refuseMerge => exact .of_nil hp
  | leaveMerge => exact .of_nil hp.1
  | failedAgain m => exact fun _ _ _ => hp.2
  | refuseAudit => exact .of_nil hp
  | leaveAudit => exact .of_nil hp
  | _ => exact hp

end halts

/-- The invariant of a process that began after `past`. -/
def HaltInv (text : String → String) (past : List (Event τ)) (p : Point) (w : TaskWorld τ) :
    Prop :=
  past <+: w.trace ∧ (p.loaded = true ∨ mergeFailures past w.trace ≠ [] →
    StateManager.Synced w) ∧ p.HaltFacts text past w.trace w.mem.data

theorem HaltInv.step {past : List (Event τ)} {p : Point} {w : TaskWorld τ} {q : Point}
    {w' : TaskWorld τ} (h : Step text (p,w) (q,w')) (hi : HaltInv text past p w) :
    HaltInv text past q w' := by
  obtain ⟨ht,hs,hp⟩ := hi
  have hgrow : past <+: w'.trace := by
    rcases step_gradual text _ _ h with he | ⟨e,he⟩
    · exact (he : w'.trace = w.trace) ▸ ht
    · exact (he : w'.trace = w.trace++[e]) ▸ ht.trans (List.prefix_append _ _)
  refine ⟨hgrow,?_⟩
  cases h with
  | load p sm config =>
    refine ⟨fun _ => sm.synced_load config w,?_⟩
    have hn : mergeFailures past (sm.load config w).2.trace = mergeFailures past w.trace := by
      rcases hf : stateFile w.trace with _ | d
      · rw [sm.load_none config w hf]
        exact mergeFailures_save ht _
      · rw [sm.load_some config w d hf]
        dsimp only
        split_ifs
        · exact mergeFailures_save ht _
        · rfl
    exact hn.trans hp
  | enter h ts => exact ⟨fun _ => StateManager.synced_saved _ _,h.haltFacts ht hp ts⟩
  | write h => exact ⟨fun _ => StateManager.synced_saved _ _,h.haltFacts ht hp⟩
  | @call p q w e r h =>
    refine ⟨fun hq => ?_,h.haltFacts ht hp⟩
    have hsync : StateManager.Synced w := by
      refine hs ?_
      rcases h.loaded with hl | ⟨hl,_⟩
      · exact .inl hl
      · rcases hq with hq | hq
        · rw [hl] at hq
          cases hq
        · cases h with
          | discovery b =>
            rw [mergeFailures_append ht] at hq
            exact .inr fun hf => hq (by rw [hf]; rfl)
          | _ => exact .inl rfl
    exact (stateFile_other w.trace e h.isSave).trans hsync
  | move h => exact ⟨fun _ => hs (.inl (by cases h <;> rfl)),h.haltFacts hp⟩

/-- A process that is not killed ends at no point between a failed merge and its halt. -/
theorem HaltInv.recoverable {past : List (Event τ)} {q : Point} {w : TaskWorld τ}
    (hi : HaltInv text past q w) (hq : q.isFinal = true) :
    Recoverable text past w.trace w.mem.data := by
  obtain ⟨_,_,hf⟩ := hi
  cases q with
  | halted => exact hf
  | refused => exact hf
  | _ => first | exact .of_nil hf | cases hq

theorem run_recoverable (p : Program) (env : Env τ) (past : List (Event τ)) (repo : Repo τ)
    {m : String} (hm : m ∈ mergeFailures past (p.traced env past repo))
    (hr : Recognised env.mergeHaltText m) :
    ∃ d,stateFile (p.traced env past repo) = some d ∧
      (StateManager.canResumeMerge d).1 = true := by
  have hin : HaltInv env.mergeHaltText past p.entry (launch past repo) := by
    have hn : mergeFailures past (launch past repo).trace = [] := by
      simp [mergeFailures,launch]
    refine ⟨List.prefix_refl _,fun h => ?_,by cases p <;> exact hn⟩
    rcases h with h | h
    · cases p <;> cases h
    · exact absurd hn h
  obtain ⟨q,w,hq,hi,htrace⟩ := run_keeps_final (I := HaltInv env.mergeHaltText past)
    (fun _ _ _ _ => HaltInv.step) hin
  rw [← htrace] at hm ⊢
  refine ⟨w.mem.data,hi.2.1 (.inr fun hn => ?_),hi.recoverable hq.isFinal m hm hr⟩
  rw [hn] at hm
  exact absurd hm List.not_mem_nil

/-- A reason the sanitizer leaves alone is recognised: it names the merge. -/
theorem recognised_of_unchanged {env : Env τ} {m : String}
    (h : env.sanitizeSecretText s!"Fast-Forward merge failed: {m}" =
      s!"Fast-Forward merge failed: {m}") : Recognised env.mergeHaltText m := by
  unfold Recognised Env.mergeHaltText
  rw [h,h]
  refine PyText.contains_lower (by decide) ?_
  exact PyText.contains_append_left m (s := "Fast-Forward merge failed: ") (by decide)

/-- Merge recovery is authorised exactly after a failed merge: only when the last transition
on file is the halt of a merge whose audit has passed with no Worker since, and always after
a process that was not killed has seen its merge fail. -/
theorem mergeRecovery_authorised :
    (∀ t : List (Event τ),Session anyProcess t → ∀ d,stateFile t = some d →
      (StateManager.canResumeMerge d).1 = true → MergeHalted t d) ∧
    ∀ (p : Program) (env : Env τ) (past new : List (Event τ)) (repo : Repo τ) (m : String)
      (tree : τ),p.traced env past repo = past++new →
      .executeFastForwardMerge false m tree ∈ new →
      env.sanitizeSecretText s!"Fast-Forward merge failed: {m}" =
        s!"Fast-Forward merge failed: {m}" →
      ∃ d,stateFile (past++new) = some d ∧ (StateManager.canResumeMerge d).1 = true := by
  refine ⟨fun t ht d hd hc => ?_,fun p env past new repo m tree ht hm hs => ?_⟩
  · obtain ⟨e,hl,hf,hto⟩ := canResumeMerge_last hc
    exact (session_fileAccountable ht d hd).halt e hl hf hto
  · rw [← ht]
    refine run_recoverable p env past repo ?_ (recognised_of_unchanged hs)
    rw [ht,mergeFailures,List.drop_left]
    exact List.mem_filterMap.mpr ⟨_,hm,rfl⟩

/-- The base branch has moved on, so the merge is not a fast-forward. -/
def divergedBranch : Env Nat :=
  { calmEnv with git := fun _ cmd => match cmd with
      | .isAncestor _ _ => ⟨1,"",""⟩
      | _ => ⟨0,"",""⟩ }

/-- `run_pipeline` on a fresh task whose base branch moves on. -/
def divergedTask : List (Event Nat) := Program.traced .pipeline divergedBranch [] freshRepo

/-- A diverged task ends ready for merge recovery. -/
theorem divergedTask_authorised : ∃ d,stateFile divergedTask = some d ∧
    (StateManager.canResumeMerge d).1 = true ∧ MergeHalted divergedTask d := by
  have hfails : (divergedTask.any fun e => e.mergeFailure.isSome) = true := by
    rw [divergedTask,Program.traced]
    decide +kernel
  obtain ⟨e,he,hf⟩ := List.any_eq_true.mp hfails
  obtain ⟨m,hm⟩ := Option.isSome_iff_exists.mp hf
  obtain ⟨tree,rfl⟩ := Event.eq_of_mergeFailure hm
  have ht : Program.traced .pipeline divergedBranch [] freshRepo = []++divergedTask := rfl
  obtain ⟨d,hd,hc⟩ := mergeRecovery_authorised.2 .pipeline divergedBranch [] divergedTask
    freshRepo m tree ht he rfl
  exact ⟨d,hd,hc,mergeRecovery_authorised.1 divergedTask (Session.nil.andThen _ _ _) d hd hc⟩

end SoftwareFactory
