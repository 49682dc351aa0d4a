import SoftwareFactory.Orchestrator.ManagerRules

namespace SoftwareFactory

open Process

namespace StateManager

variable {τ : Type} (sm : StateManager)

/-- The data a new `StateManager` holds when it starts on what trace `t` left behind. -/
def reloaded (config : Config) (repo : Repo τ) (t : List (Event τ)) : StateData :=
  (sm.load config ⟨⟨default,repo⟩,t⟩).2.mem.data

theorem reloaded_save (config : Config) (repo : Repo τ) (t : List (Event τ)) (d : StateData) :
    sm.reloaded config repo (t++[.save d]) = d.recovered :=
  sm.load_data config _ d (stateFile_save t d)

/-- The composite operations: each saves more than once. -/
inductive Composite where
  | consumeLogicReplan (reason : String)
  | consumeSecurityReplan (reason : String)
  | haltHuman (reason : String) (exitProcess : Bool)
  | requestHumanReview (reason gate : String) (exitProcess : Bool)
  deriving DecidableEq, Repr

def Composite.run : Composite → Job τ Unit
  | .consumeLogicReplan r => do let _ ← sm.consumeLogicReplan r
  | .consumeSecurityReplan r => do let _ ← sm.consumeSecurityReplan r
  | .haltHuman r e => sm.haltHuman r e
  | .requestHumanReview r g e => sm.requestHumanReview r g e

/-- A process that dies right after any save of `op` leaves a file from which a new
`StateManager`, of any configuration, loads the state before `op` or the state after it.
Both are compared as they would be loaded themselves. -/
def CrashAtomic (op : Composite) (w : TaskWorld τ) : Prop :=
  ∀ (sm' : StateManager) (config : Config) (repo : Repo τ) (cut : List (Event τ)) (d : StateData),
    w.trace <+: cut → cut++[.save d] <+: (op.run sm w).2.trace →
      sm'.reloaded config repo (cut++[.save d]) = w.mem.data.recovered ∨
      sm'.reloaded config repo (cut++[.save d]) = (op.run sm w).2.mem.data.recovered

/-- The snapshots in a piece of trace, oldest first. -/
def snapshots (t : List (Event τ)) : List StateData :=
  t.filterMap fun e => match e with | .save d => some d | _ => none

/-- Crash atomicity looks at nothing but the snapshots an operation adds. -/
theorem crashAtomic_iff (op : Composite) (w : TaskWorld τ) (ext : List (Event τ))
    (h : (op.run sm w).2.trace = w.trace++ext) :
    CrashAtomic sm op w ↔ ∀ d ∈ snapshots ext, d.recovered = w.mem.data.recovered ∨
      d.recovered = (op.run sm w).2.mem.data.recovered := by
  constructor
  · intro ha d hd
    obtain ⟨e,he,hs⟩ := List.mem_filterMap.mp hd
    cases e <;> simp only [reduceCtorEq,Option.some.injEq] at hs
    rw [hs] at he
    obtain ⟨a,b,rfl⟩ := List.append_of_mem he
    have hc := ha sm defaultConfig w.mem.repo (w.trace++a) d (List.prefix_append _ _)
      (by rw [h]; exact ⟨b,by simp⟩)
    simpa only [reloaded_save] using hc
  · intro hs sm' config repo cut d hcut hfull
    rw [reloaded_save]
    apply hs
    obtain ⟨a,rfl⟩ := hcut
    rw [h,List.append_assoc,List.prefix_append_right_inj] at hfull
    obtain ⟨b,rfl⟩ := hfull
    exact List.mem_filterMap.mpr ⟨.save d,by simp,rfl⟩

theorem recovered_history (d : StateData) : d.recovered.history = d.history := by
  rw [StateData.recovered_eq,StateData.withStatus_history]

theorem recovered_budgets (d : StateData) : d.recovered.budgets = d.budgets := by
  rw [StateData.recovered_eq,StateData.withStatus_budgets]

theorem recovered_epoch (d : StateData) : d.recovered.epoch = d.epoch := by
  rw [StateData.recovered_eq,StateData.withStatus_epoch]

theorem recovered_blocked (d : StateData) : d.recovered.blockedReason = d.blockedReason := by
  rw [StateData.recovered_eq,StateData.withStatus_blocked]

/-- Loading tells a status apart from any status but RUNNING and INTERRUPTED. -/
theorem recovered_withStatus_eq (d : StateData) (status : ExecutionStatus)
    (hr : status ≠ .running) (hi : status ≠ .interrupted) :
    d.recovered = (d.withStatus status).recovered ↔ d.executionStatus = status := by
  have hs : (d.withStatus status).recovered = d.withStatus status := by
    simp [StateData.recovered,hr]
  rw [hs]
  constructor
  · intro h
    have he := congrArg StateData.executionStatus h
    unfold StateData.recovered at he
    split_ifs at he with hd
    · exact absurd he.symm hi
    · exact he
  · intro heq
    subst heq
    simp [StateData.recovered,hr,StateData.withStatus]

/-- A replan is torn by a crash after its first save, whatever comes of it: the counter is
saved alone. -/
theorem replan_torn (count : Budgets → Budgets) (exhausted : Budgets → Bool) (message : String)
    (w : TaskWorld τ) (hc : count w.mem.data.budgets ≠ w.mem.data.budgets) :
    ∃ ext, (sm.consume count exhausted message newEpoch w).2.trace = w.trace++ext ∧
      ∃ d ∈ snapshots ext, d.recovered ≠ w.mem.data.recovered ∧
        d.recovered ≠ (sm.consume count exhausted message newEpoch w).2.mem.data.recovered := by
  rw [replan_apply]
  have before : (w.mem.data.withBudgets count).recovered ≠ w.mem.data.recovered := by
    intro h
    have hb := congrArg StateData.budgets h
    rw [recovered_budgets,recovered_budgets] at hb
    exact hc hb
  dsimp only
  split_ifs with hx
  · refine ⟨_,by simp only [denied,halted,World.emit_trace,saved_trace,List.append_assoc]; rfl,
      w.mem.data.withBudgets count,by simp [snapshots],before,?_⟩
    intro h
    have hh := congrArg StateData.history h
    rw [recovered_history,recovered_history] at hh
    simp [denied,haltedData] at hh
  · refine ⟨_,by simp only [saved_trace,List.append_assoc]; rfl,
      w.mem.data.withBudgets count,by simp [snapshots],before,?_⟩
    intro h
    have he := congrArg StateData.epoch h
    rw [recovered_epoch,recovered_epoch] at he
    simp at he

/-- The states in which an operation survives every crash: a halt of a task that is
FAILED already, and a suspension that finds its own status and block in the file. -/
def Composite.Repeats (op : Composite) (w : TaskWorld τ) : Prop :=
  match op with
  | .consumeLogicReplan _ => False
  | .consumeSecurityReplan _ => False
  | .haltHuman _ _ => w.mem.data.executionStatus = .failed
  | .requestHumanReview reason gate _ =>
    w.mem.data.executionStatus = .needsHumanReview ∧ w.mem.data.blockedReason =
      some ⟨gate,sm.sanitizeSecretText reason,sm.now (w.trace.length+2)⟩

instance (op : Composite) (w : TaskWorld τ) : Decidable (Composite.Repeats sm op w) := by
  unfold Composite.Repeats
  cases op <;> infer_instance

theorem haltHuman_atomic_iff (reason : String) (exitProcess : Bool) (w : TaskWorld τ) :
    CrashAtomic sm (.haltHuman reason exitProcess) w ↔ w.mem.data.executionStatus = .failed := by
  let d₁ := w.mem.data.transitioned .haltHuman
    (sm.sanitizeSecretText (sm.sanitizeSecretText reason)) (sm.now w.trace.length)
  have htrace : (Composite.run sm (.haltHuman reason exitProcess) w).2.trace = w.trace++
      [.save d₁,.save (d₁.withStatus .failed),
        .report s!"CRASH_REPORT_{sm.taskId}.md" (sm.crashReport (d₁.withStatus .failed)
          (sm.now (w.trace.length+2)) (sm.sanitizeSecretText reason))] := by
    simp [Composite.run,haltHuman_apply,halted,d₁]
  have hdata : (Composite.run sm (.haltHuman reason exitProcess) w).2.mem.data =
      d₁.withStatus .failed := by
    simp [Composite.run,haltHuman_apply,haltedData,d₁]
  have hbefore : d₁.recovered ≠ w.mem.data.recovered := by
    intro h
    have hh := congrArg StateData.history h
    rw [recovered_history,recovered_history] at hh
    simp [d₁] at hh
  rw [crashAtomic_iff sm _ w _ htrace,hdata]
  have hfirst := recovered_withStatus_eq d₁ .failed (by decide) (by decide)
  constructor
  · intro h
    rcases h d₁ (by simp [snapshots]) with h | h
    · exact absurd h hbefore
    · exact hfirst.mp h
  · intro hs d hd
    simp only [snapshots,List.filterMap_cons,List.filterMap_nil,List.mem_cons,
      List.not_mem_nil,or_false] at hd
    rcases hd with rfl | rfl
    · exact .inr (hfirst.mpr hs)
    · exact .inr rfl

theorem requestHumanReview_atomic_iff (reason gate : String) (exitProcess : Bool)
    (w : TaskWorld τ) :
    CrashAtomic sm (.requestHumanReview reason gate exitProcess) w ↔
      Composite.Repeats sm (.requestHumanReview reason gate exitProcess) w := by
  let d₁ := w.mem.data.transitioned .humanReview (sm.sanitizeSecretText
    s!"Human review / service unavailable at {gate}: {sm.sanitizeSecretText reason}")
    (sm.now w.trace.length)
  let b : BlockedReason := ⟨gate,sm.sanitizeSecretText reason,sm.now (w.trace.length+2)⟩
  let d₂ := d₁.withStatus .needsHumanReview
  have htrace : (Composite.run sm (.requestHumanReview reason gate exitProcess) w).2.trace =
      w.trace++[.save d₁,.save d₂,.save (d₂.blocked b),
        .report s!"HUMAN_REVIEW_{sm.taskId}.md" (sm.humanReviewReport
          (sm.now (w.trace.length+3)) gate (sm.sanitizeSecretText reason))] := by
    simp [Composite.run,requestHumanReview_apply,suspended,d₁,d₂,b]
  have hdata : (Composite.run sm (.requestHumanReview reason gate exitProcess) w).2.mem.data =
      d₂.blocked b := by
    simp [Composite.run,requestHumanReview_apply,reviewedData,d₁,d₂,b]
  have hbefore (d : StateData) (hd : d.history = d₁.history) :
      d.recovered ≠ w.mem.data.recovered := by
    intro h
    have hh := congrArg StateData.history h
    rw [recovered_history,recovered_history,hd] at hh
    simp [d₁] at hh
  rw [crashAtomic_iff sm _ w _ htrace,hdata]
  have hlast : (d₂.blocked b).recovered = d₂.blocked b := by simp [StateData.recovered,d₂]
  constructor
  · intro h
    have hfirst := (h d₁ (by simp [snapshots])).resolve_left (hbefore d₁ rfl)
    have hblock := congrArg StateData.blockedReason hfirst
    rw [recovered_blocked,recovered_blocked] at hblock
    refine ⟨?_,hblock⟩
    have heq : d₁.recovered = d₂.recovered := by
      rw [hfirst,hlast]
      have hb : d₁.blockedReason = some b := hblock
      simp only [StateData.recovered,StateData.blocked,StateData.withStatus,d₂]
      rw [← hb]
      rfl
    exact (recovered_withStatus_eq d₁ .needsHumanReview (by decide) (by decide)).mp heq
  · intro hparts d hd
    obtain ⟨hs,hb⟩ := hparts
    have hb' : d₂.blocked b = d₁ := by
      have e1 : d₁.executionStatus = .needsHumanReview := hs
      have e2 : d₁.blockedReason = some b := hb
      simp only [StateData.blocked,StateData.withStatus,d₂]
      rw [← e1,← e2]
    have hb'' : d₂ = d₁ := by
      have e1 : d₁.executionStatus = .needsHumanReview := hs
      simp only [StateData.withStatus,d₂]
      rw [← e1]
    simp only [snapshots,List.filterMap_cons,List.filterMap_nil,List.mem_cons,
      List.not_mem_nil,or_false] at hd
    rcases hd with rfl | rfl | rfl
    · exact .inr (by rw [hb'])
    · exact .inr (by rw [hb',hb''])
    · exact .inr rfl

theorem composite_bind_trace (m : Job τ Bool) (w : TaskWorld τ) :
    ((m >>= fun _ => pure () : Job τ Unit) w).2 = (m w).2 := by
  rw [Proc.bind_apply]
  rcases m w with ⟨_ | _,_⟩ <;> rfl

theorem replan_not_atomic (op : Composite) (count : Budgets → Budgets)
    (exhausted : Budgets → Bool) (message : String) (w : TaskWorld τ)
    (hop : (op.run sm w).2 = (sm.consume count exhausted message newEpoch w).2)
    (hc : count w.mem.data.budgets ≠ w.mem.data.budgets) : ¬CrashAtomic sm op w := by
  obtain ⟨ext,ht,d,hd,hb,ha⟩ := sm.replan_torn count exhausted message w hc
  rw [crashAtomic_iff sm op w ext (by rw [hop,ht]),hop]
  intro h
  rcases h d hd with h | h
  · exact hb h
  · exact ha h

theorem consumeLogicReplan_not_atomic (reason : String) (w : TaskWorld τ) :
    ¬CrashAtomic sm (.consumeLogicReplan reason) w :=
  sm.replan_not_atomic _ countLogicReplan _ _ w (composite_bind_trace _ w)
    (by simp [countLogicReplan,Budgets.ext_iff])

theorem consumeSecurityReplan_not_atomic (reason : String) (w : TaskWorld τ) :
    ¬CrashAtomic sm (.consumeSecurityReplan reason) w :=
  sm.replan_not_atomic _ countSecurityReplan _ _ w (composite_bind_trace _ w)
    (by simp [countSecurityReplan,Budgets.ext_iff])

/-- Exactly when an operation is all-or-nothing under crashes. The replans never are. -/
theorem composite_crashAtomic_iff (op : Composite) (w : TaskWorld τ) :
    CrashAtomic sm op w ↔ Composite.Repeats sm op w := by
  cases op with
  | consumeLogicReplan r => exact iff_of_false (sm.consumeLogicReplan_not_atomic r w) id
  | consumeSecurityReplan r => exact iff_of_false (sm.consumeSecurityReplan_not_atomic r w) id
  | haltHuman r e => exact sm.haltHuman_atomic_iff r e w
  | requestHumanReview r g e => exact sm.requestHumanReview_atomic_iff r g e w

/-- A manager whose credentials never occur in a message and whose clock counts events. -/
def plainManager : StateManager := ⟨"TASK-001",false,id,fun n => toString n⟩

/-- A brand new task: the file has just been created. -/
def freshTask : TaskWorld Nat := (plainManager.load defaultConfig ⟨⟨default,⟨0,none,0,0⟩⟩,[]⟩).2

/-- On a brand new task a logic replan that dies after its first save has spent the
replan without opening its epoch. -/
theorem fresh_logicReplan_torn : ¬CrashAtomic plainManager
    (.consumeLogicReplan "Persistent code boundary violation (Diff Gate).") freshTask :=
  plainManager.consumeLogicReplan_not_atomic _ freshTask

end StateManager

end SoftwareFactory
