import Mathlib.Tactic.Ring
import SoftwareFactory.Orchestrator.ManagerRules

namespace SoftwareFactory

open Process

namespace StateManager

variable {τ : Type} (sm : StateManager)

/-- The calls a program can make on a `StateManager`, and the construction of a new one
on the same file. -/
inductive ManagerOp where
  | transition (newState details : String)
  | registerWorkerRun
  | consumeSpecSyntaxRetry (reason : String)
  | consumeLogicReplan (reason : String)
  | consumeSecurityReplan (reason : String)
  | haltHuman (reason : String) (exitProcess : Bool)
  | requestHumanReview (reason gate : String) (exitProcess : Bool)
  | recordAuditModel (provider model : String)
  | setExecutionStatus (status : ExecutionStatus)
  | reload (config : Config) (raiseOnHalt : Bool)
  deriving DecidableEq, Repr

/-- The manager that is in use after `op`. -/
def ManagerOp.manager : ManagerOp → StateManager
  | .reload _ raise => { sm with raiseOnHalt := raise }
  | _ => sm

/-- The state after `op`, however it ended: a caller may catch what it raised. -/
def ManagerOp.apply : ManagerOp → TaskWorld τ → TaskWorld τ
  | .transition st details,w => (sm.transitionNamed st details w).2
  | .registerWorkerRun,w => (sm.registerWorkerRun w).2
  | .consumeSpecSyntaxRetry r,w => (sm.consumeSpecSyntaxRetry r w).2
  | .consumeLogicReplan r,w => (sm.consumeLogicReplan r w).2
  | .consumeSecurityReplan r,w => (sm.consumeSecurityReplan r w).2
  | .haltHuman r e,w => (sm.haltHuman r e w).2
  | .requestHumanReview r g e,w => (sm.requestHumanReview r g e w).2
  | .recordAuditModel p m,w => (sm.recordAuditModel p m w).2
  | .setExecutionStatus s,w => (StateManager.setExecutionStatus s w).2
  | .reload config raise,w => (({ sm with raiseOnHalt := raise } : StateManager).load config w).2

def runOps (sm : StateManager) : List ManagerOp → TaskWorld τ → TaskWorld τ
  | [],w => w
  | op::ops,w => runOps (op.manager sm) ops (op.apply sm w)

/-- The world in which the first manager has just created the state file. -/
def created (config : Config) (m : Memory τ) : TaskWorld τ := (sm.load config ⟨m,[]⟩).2

end StateManager

/-- The budget ledger. `runs` bounds the Worker runs by the full epochs before the
current one and the attempts in it. -/
structure LedgerInv (d : StateData) : Prop where
  attempts : (d.budgets.workerAttemptsInEpoch : Int) ≤ d.budgets.maxWorkerPerEpoch
  total : (d.budgets.totalCumulativeWorkerRuns : Int) ≤ d.budgets.maxCumulativeWorkerRuns
  epoch : (d.epoch : Int) =
    1+min (d.budgets.logicReplansUsed : Int) d.budgets.maxLogicReplans+
      min (d.budgets.securityReplansUsed : Int) d.budgets.maxSecurityReplans
  runs : (d.budgets.totalCumulativeWorkerRuns : Int) ≤
    d.budgets.maxWorkerPerEpoch*(d.epoch-1)+d.budgets.workerAttemptsInEpoch
  historyEpochs : (d.history.map HistoryEntry.epoch).Pairwise (· ≤ ·)

/-- What never decreases from one state to a later one. -/
structure Advances (d d' : StateData) : Prop where
  logic : d.budgets.logicReplansUsed ≤ d'.budgets.logicReplansUsed
  security : d.budgets.securityReplansUsed ≤ d'.budgets.securityReplansUsed
  spec : d.budgets.specSyntaxRetriesUsed ≤ d'.budgets.specSyntaxRetriesUsed
  total : d.budgets.totalCumulativeWorkerRuns ≤ d'.budgets.totalCumulativeWorkerRuns
  epoch : d.epoch ≤ d'.epoch
  history : d.history.length ≤ d'.history.length

namespace Advances

theorem refl (d : StateData) : Advances d d :=
  ⟨le_rfl,le_rfl,le_rfl,le_rfl,le_rfl,le_rfl⟩

theorem trans {d₁ d₂ d₃ : StateData} (h : Advances d₁ d₂) (h' : Advances d₂ d₃) :
    Advances d₁ d₃ :=
  ⟨h.logic.trans h'.logic,h.security.trans h'.security,h.spec.trans h'.spec,
    h.total.trans h'.total,h.epoch.trans h'.epoch,h.history.trans h'.history⟩

end Advances

/-- What every operation keeps: the ledger, and that no recorded epoch is ahead of the
current one, so that the next entry keeps the history sorted. -/
structure LedgerOk (d : StateData) : Prop where
  inv : LedgerInv d
  past : ∀ t ∈ d.history, t.epoch ≤ d.epoch

/-- One move of the ledger. -/
def Moves (d d' : StateData) : Prop := LedgerOk d' ∧ Advances d d'

namespace LedgerOk

variable {d d' : StateData}

/-- Changes of status, of the audit model and of the block do not touch the ledger. -/
theorem same (h : LedgerOk d) (hb : d'.budgets = d.budgets) (he : d'.epoch = d.epoch)
    (hh : d'.history = d.history) : Moves d d' := by
  obtain ⟨⟨h1,h2,h3,h4,h5⟩,h6⟩ := h
  refine ⟨⟨⟨?_,?_,?_,?_,?_⟩,?_⟩,⟨?_,?_,?_,?_,?_,?_⟩⟩ <;>
    simp only [hb,he,hh,le_refl] <;> assumption

theorem transitioned (h : LedgerOk d) (st : FsmState) (details ts : String) :
    Moves d (d.transitioned st details ts) := by
  obtain ⟨⟨h1,h2,h3,h4,h5⟩,h6⟩ := h
  refine ⟨⟨⟨h1,h2,h3,h4,?_⟩,?_⟩,⟨le_rfl,le_rfl,le_rfl,le_rfl,le_rfl,?_⟩⟩
  · simp only [StateData.transitioned_history,List.map_append,List.map_cons,List.map_nil]
    refine List.pairwise_append.mpr ⟨h5,List.pairwise_singleton _ _,?_⟩
    intro a ha b hb
    obtain ⟨t,ht,rfl⟩ := List.mem_map.mp ha
    rw [List.mem_singleton.mp hb]
    exact h6 t ht
  · intro t ht
    simp only [StateData.transitioned_history,List.mem_append,List.mem_singleton] at ht
    rcases ht with ht | rfl
    · exact h6 t ht
    · exact le_rfl
  · simp

/-- A counted Worker run that both limits allow. -/
theorem workerRun (h : LedgerOk d)
    (ha : (d.budgets.workerAttemptsInEpoch : Int) < d.budgets.maxWorkerPerEpoch)
    (ht : (d.budgets.totalCumulativeWorkerRuns : Int) < d.budgets.maxCumulativeWorkerRuns) :
    Moves d (d.withBudgets StateManager.countWorkerRun) := by
  obtain ⟨⟨h1,h2,h3,h4,h5⟩,h6⟩ := h
  refine ⟨⟨⟨?_,?_,h3,?_,h5⟩,h6⟩,⟨le_rfl,le_rfl,le_rfl,?_,le_rfl,le_rfl⟩⟩
  · simp only [StateData.withBudgets_budgets,StateManager.countWorkerRun]
    omega
  · simp only [StateData.withBudgets_budgets,StateManager.countWorkerRun]
    omega
  · simp only [StateData.withBudgets_budgets,StateData.withBudgets_epoch,
      StateManager.countWorkerRun,Nat.cast_add,Nat.cast_one]
    omega
  · simp [StateManager.countWorkerRun]

theorem specRetry (h : LedgerOk d) :
    Moves d (d.withBudgets StateManager.countSpecSyntaxRetry) := by
  obtain ⟨⟨h1,h2,h3,h4,h5⟩,h6⟩ := h
  refine ⟨⟨⟨h1,h2,h3,h4,h5⟩,h6⟩,⟨le_rfl,le_rfl,?_,le_rfl,le_rfl,le_rfl⟩⟩
  simp [StateManager.countSpecSyntaxRetry]

end LedgerOk

/-- How many of the used replans were granted, by the two budgets together. -/
def grantedReplans (b : Budgets) : Int :=
  min (b.logicReplansUsed : Int) b.maxLogicReplans+
    min (b.securityReplansUsed : Int) b.maxSecurityReplans

/-- A replan counter leaves the Worker counters, all maxima and the other budgets alone. -/
structure ReplanCount (count : Budgets → Budgets) (b : Budgets) : Prop where
  attempts : (count b).workerAttemptsInEpoch = b.workerAttemptsInEpoch
  maxAttempts : (count b).maxWorkerPerEpoch = b.maxWorkerPerEpoch
  total : (count b).totalCumulativeWorkerRuns = b.totalCumulativeWorkerRuns
  maxTotal : (count b).maxCumulativeWorkerRuns = b.maxCumulativeWorkerRuns
  spec : (count b).specSyntaxRetriesUsed = b.specSyntaxRetriesUsed
  logic : b.logicReplansUsed ≤ (count b).logicReplansUsed
  security : b.securityReplansUsed ≤ (count b).securityReplansUsed

namespace LedgerOk

variable {d : StateData} {count : Budgets → Budgets}

/-- A replan beyond the maximum is counted but grants nothing. -/
theorem replanDenied (h : LedgerOk d) (hc : ReplanCount count d.budgets)
    (hg : grantedReplans (count d.budgets) = grantedReplans d.budgets) :
    Moves d (d.withBudgets count) := by
  obtain ⟨⟨h1,h2,h3,h4,h5⟩,h6⟩ := h
  obtain ⟨c1,c2,c3,c4,c5,c6,c7⟩ := hc
  refine ⟨⟨⟨?_,?_,?_,?_,h5⟩,h6⟩,⟨c6,c7,c5.ge,c3.ge,le_rfl,le_rfl⟩⟩
  · simpa only [StateData.withBudgets_budgets,c1,c2] using h1
  · simpa only [StateData.withBudgets_budgets,c3,c4] using h2
  · simp only [grantedReplans,StateData.withBudgets_budgets,StateData.withBudgets_epoch] at hg ⊢
    omega
  · simpa only [StateData.withBudgets_budgets,StateData.withBudgets_epoch,c1,c2,c3] using h4

/-- A granted replan opens an epoch: the attempts it closes are within the limit. -/
theorem replanGranted (h : LedgerOk d) (hc : ReplanCount count d.budgets)
    (hg : grantedReplans (count d.budgets) = grantedReplans d.budgets+1) :
    Moves d (d.withBudgets count).newEpoch := by
  obtain ⟨⟨h1,h2,h3,h4,h5⟩,h6⟩ := h
  obtain ⟨c1,c2,c3,c4,c5,c6,c7⟩ := hc
  refine ⟨⟨⟨?_,?_,?_,?_,h5⟩,?_⟩,⟨c6,c7,c5.ge,c3.ge,Nat.le_succ _,le_rfl⟩⟩
  · simp only [StateData.newEpoch_budgets,StateData.withBudgets_budgets,c2]
    omega
  · simpa only [StateData.newEpoch_budgets,StateData.withBudgets_budgets,c3,c4] using h2
  · simp only [grantedReplans,StateData.newEpoch_budgets,StateData.withBudgets_budgets,
      StateData.newEpoch_epoch,StateData.withBudgets_epoch] at hg ⊢
    omega
  · have hm : d.budgets.maxWorkerPerEpoch*(((d.epoch+1 : Nat) : Int)-1) =
        d.budgets.maxWorkerPerEpoch*((d.epoch : Int)-1)+d.budgets.maxWorkerPerEpoch := by
      push_cast
      ring
    simp only [StateData.newEpoch_budgets,StateData.withBudgets_budgets,
      StateData.newEpoch_epoch,StateData.withBudgets_epoch,c2,c3,hm]
    omega
  · intro t ht
    exact (h6 t ht).trans (Nat.le_succ _)

end LedgerOk

namespace Moves

variable {d₁ d₂ d₃ : StateData}

theorem trans (h : Moves d₁ d₂) (h' : LedgerOk d₂ → Moves d₂ d₃) : Moves d₁ d₃ :=
  ⟨(h' h.1).1,h.2.trans (h' h.1).2⟩

end Moves

section halts

variable (sm : StateManager) {d : StateData}

theorem LedgerOk.halted (h : LedgerOk d) (reason ts : String) :
    Moves d (sm.haltedData d reason ts) :=
  (h.transitioned _ _ _).trans fun h' => h'.same rfl rfl rfl

theorem LedgerOk.suspended (h : LedgerOk d) (reason gate ts : String) (b : BlockedReason) :
    Moves d ((sm.reviewedData d reason gate ts).blocked b) :=
  (h.transitioned _ _ _).trans fun h' => h'.same rfl rfl rfl

end halts

namespace StateManager

variable {τ : Type} (sm : StateManager)

theorem ledger_consume (count : Budgets → Budgets) (exhausted : Budgets → Bool)
    (message : String) (w : TaskWorld τ)
    (hdenied : exhausted (count w.mem.data.budgets) = true →
      Moves w.mem.data (w.mem.data.withBudgets count))
    (hgranted : exhausted (count w.mem.data.budgets) = false →
      Moves w.mem.data (w.mem.data.withBudgets count).newEpoch) :
    Moves w.mem.data (sm.consume count exhausted message newEpoch w).2.mem.data ∧
      Synced (sm.consume count exhausted message newEpoch w).2 := by
  rw [replan_apply]
  dsimp only
  split_ifs with hx
  · exact ⟨(hdenied hx).trans fun h => h.halted sm _ _,sm.synced_halted _ _⟩
  · exact ⟨hgranted (by simpa using hx),synced_saved _ _⟩

theorem ledger_logicReplan (reason : String) (w : TaskWorld τ) (h : LedgerOk w.mem.data) :
    Moves w.mem.data (sm.consumeLogicReplan reason w).2.mem.data ∧
      Synced (sm.consumeLogicReplan reason w).2 := by
  have hc : ReplanCount countLogicReplan w.mem.data.budgets :=
    ⟨rfl,rfl,rfl,rfl,rfl,Nat.le_succ _,le_rfl⟩
  refine sm.ledger_consume _ _ _ w (fun hx => h.replanDenied hc ?_)
    (fun hx => h.replanGranted hc ?_)
  · simp only [countLogicReplan,gt_iff_lt,decide_eq_true_eq] at hx
    simp only [grantedReplans,countLogicReplan]
    omega
  · simp only [countLogicReplan,gt_iff_lt,decide_eq_false_iff_not] at hx
    simp only [grantedReplans,countLogicReplan]
    omega

theorem ledger_securityReplan (reason : String) (w : TaskWorld τ) (h : LedgerOk w.mem.data) :
    Moves w.mem.data (sm.consumeSecurityReplan reason w).2.mem.data ∧
      Synced (sm.consumeSecurityReplan reason w).2 := by
  have hc : ReplanCount countSecurityReplan w.mem.data.budgets :=
    ⟨rfl,rfl,rfl,rfl,rfl,le_rfl,Nat.le_succ _⟩
  refine sm.ledger_consume _ _ _ w (fun hx => h.replanDenied hc ?_)
    (fun hx => h.replanGranted hc ?_)
  · simp only [countSecurityReplan,gt_iff_lt,decide_eq_true_eq] at hx
    simp only [grantedReplans,countSecurityReplan]
    omega
  · simp only [countSecurityReplan,gt_iff_lt,decide_eq_false_iff_not] at hx
    simp only [grantedReplans,countSecurityReplan]
    omega

theorem ledger_specRetry (reason : String) (w : TaskWorld τ) (h : LedgerOk w.mem.data) :
    Moves w.mem.data (sm.consumeSpecSyntaxRetry reason w).2.mem.data ∧
      Synced (sm.consumeSpecSyntaxRetry reason w).2 := by
  unfold consumeSpecSyntaxRetry
  rw [consume_apply]
  dsimp only
  split_ifs with hx
  · exact ⟨h.specRetry.trans fun h' => h'.halted sm _ _,sm.synced_halted _ _⟩
  · exact ⟨h.specRetry,synced_saved _ _⟩

theorem ledger_workerRun (w : TaskWorld τ) (h : LedgerOk w.mem.data) :
    Moves w.mem.data (sm.registerWorkerRun w).2.mem.data ∧
      Synced (sm.registerWorkerRun w).2 := by
  rw [registerWorkerRun_apply]
  dsimp only
  split_ifs with ha ht
  · exact ⟨h.halted sm _ _,sm.synced_halted _ _⟩
  · exact ⟨h.halted sm _ _,sm.synced_halted _ _⟩
  · exact ⟨h.workerRun (by omega) (by omega),synced_saved _ _⟩

/-- The step lemma: every operation on a good ledger is a move of the ledger. -/
theorem ledger_step (op : ManagerOp) (w : TaskWorld τ) (h : LedgerOk w.mem.data)
    (hs : Synced w) :
    Moves w.mem.data (op.apply sm w).mem.data ∧ Synced (op.apply sm w) := by
  cases op with
  | transition st details =>
    simp only [ManagerOp.apply,transitionNamed]
    cases FsmState.ofName st with
    | some st' => exact ⟨h.transitioned st' _ _,synced_saved _ _⟩
    | none => exact ⟨⟨h,Advances.refl _⟩,hs⟩
  | registerWorkerRun => exact sm.ledger_workerRun w h
  | consumeSpecSyntaxRetry r => exact sm.ledger_specRetry r w h
  | consumeLogicReplan r => exact sm.ledger_logicReplan r w h
  | consumeSecurityReplan r => exact sm.ledger_securityReplan r w h
  | haltHuman r e =>
    simp only [ManagerOp.apply,haltHuman_apply]
    exact ⟨h.halted sm _ _,sm.synced_halted w r⟩
  | requestHumanReview r g e =>
    simp only [ManagerOp.apply,requestHumanReview_apply,suspended_data]
    exact ⟨h.suspended sm _ _ _ _,sm.synced_suspended w r g⟩
  | recordAuditModel p m => exact ⟨h.same rfl rfl rfl,synced_saved _ _⟩
  | setExecutionStatus s => exact ⟨h.same rfl rfl rfl,synced_saved _ _⟩
  | reload config raise =>
    simp only [ManagerOp.apply]
    refine ⟨?_,synced_load _ config w⟩
    rw [load_data _ config w _ hs,StateData.recovered_eq]
    exact h.same rfl rfl rfl

/-- The run lemma. -/
theorem ledger_run (ops : List ManagerOp) (w : TaskWorld τ) (h : LedgerOk w.mem.data)
    (hs : Synced w) :
    Moves w.mem.data (runOps sm ops w).mem.data ∧ Synced (runOps sm ops w) := by
  induction ops generalizing sm w with
  | nil => exact ⟨⟨h,Advances.refl _⟩,hs⟩
  | cons op ops ih =>
    have hstep := sm.ledger_step op w h hs
    have hrest := ih (op.manager sm) _ hstep.1.1 hstep.2
    exact ⟨hstep.1.trans fun _ => hrest.1,hrest.2⟩

/-- The manager in use after a run. -/
def managerAfter (ops : List ManagerOp) : StateManager :=
  ops.foldl (fun s op => op.manager s) sm

theorem runOps_append (ops₁ ops₂ : List ManagerOp) (w : TaskWorld τ) :
    runOps sm (ops₁++ops₂) w = runOps (sm.managerAfter ops₁) ops₂ (runOps sm ops₁ w) := by
  induction ops₁ generalizing sm w with
  | nil => rfl
  | cons op ops₁ ih => exact ih (op.manager sm) (op.apply sm w)

/-- A new file with non-negative maxima holds a good ledger. -/
theorem ledger_created (config : Config) (m : Memory τ)
    (hw : 0 ≤ (initState sm.taskId config).budgets.maxWorkerPerEpoch)
    (ht : 0 ≤ (initState sm.taskId config).budgets.maxCumulativeWorkerRuns)
    (hl : 0 ≤ (initState sm.taskId config).budgets.maxLogicReplans)
    (hs : 0 ≤ (initState sm.taskId config).budgets.maxSecurityReplans) :
    LedgerOk (created sm config m).mem.data ∧ Synced (created sm config m) := by
  unfold created
  rw [load_none sm config _ stateFile_nil]
  refine ⟨⟨⟨hw,ht,?_,?_,List.Pairwise.nil⟩,by simp [initState]⟩,synced_saved _ _⟩
  · change (1 : Int) = 1+min 0 (initState sm.taskId config).budgets.maxLogicReplans+
      min 0 (initState sm.taskId config).budgets.maxSecurityReplans
    rw [min_eq_left hl,min_eq_left hs]
    rfl
  · change (0 : Int) ≤ _*((1 : Int)-1)+0
    simp

/-- The ledger holds after every sequence of operations and reloads, in memory and in the
file, and what it counts never decreases from any point of the sequence to a later one. -/
theorem runOps_ledger (config : Config) (m : Memory τ)
    (hw : 0 ≤ (initState sm.taskId config).budgets.maxWorkerPerEpoch)
    (ht : 0 ≤ (initState sm.taskId config).budgets.maxCumulativeWorkerRuns)
    (hl : 0 ≤ (initState sm.taskId config).budgets.maxLogicReplans)
    (hs : 0 ≤ (initState sm.taskId config).budgets.maxSecurityReplans)
    (ops₁ ops₂ : List ManagerOp) :
    let w₁ := runOps sm ops₁ (created sm config m)
    let w₂ := runOps sm (ops₁++ops₂) (created sm config m)
    LedgerInv w₁.mem.data ∧ stateFile w₁.trace = some w₁.mem.data ∧
      Advances w₁.mem.data w₂.mem.data := by
  intro w₁ w₂
  have h₀ := sm.ledger_created config m hw ht hl hs
  have h₁ := sm.ledger_run ops₁ _ h₀.1 h₀.2
  have h₂ := (sm.managerAfter ops₁).ledger_run ops₂ w₁ h₁.1.1 h₁.2
  refine ⟨h₁.1.1.inv,h₁.2,?_⟩
  have hw₂ : w₂ = runOps (sm.managerAfter ops₁) ops₂ w₁ := sm.runOps_append ops₁ ops₂ _
  rw [hw₂]
  exact h₂.1.2

/-- The shipped budgets over a run that exhausts an epoch, replans, and reloads. -/
theorem runOps_ledger_default :
    LedgerInv (runOps ⟨"TASK-001",true,id,fun n => toString n⟩
      [.registerWorkerRun,.registerWorkerRun,.registerWorkerRun,.consumeLogicReplan "tests",
        .reload defaultConfig false]
      (created ⟨"TASK-001",true,id,fun n => toString n⟩ defaultConfig
        ⟨default,⟨0,none,0,0⟩⟩ : TaskWorld Nat)).mem.data :=
  (runOps_ledger ⟨"TASK-001",true,id,fun n => toString n⟩ defaultConfig
    ⟨default,⟨0,none,0,0⟩⟩ (by decide) (by decide) (by decide) (by decide) _ []).1

end StateManager

end SoftwareFactory
