import SoftwareFactory.Orchestrator.StateManager

namespace SoftwareFactory

open Process

namespace StateManager

variable {τ : Type} (sm : StateManager)

@[simp] theorem update_apply (f : StateData → StateData) (w : TaskWorld τ) :
    update f w = (.ok (),saved w (f w.mem.data)) := rfl

@[simp] theorem transition_apply (st : FsmState) (details : String) (w : TaskWorld τ) :
    sm.transition st details w = (.ok (),saved w (w.mem.data.transitioned st
      (sm.sanitizeSecretText details) (sm.now w.trace.length))) := rfl

@[simp] theorem setExecutionStatus_apply (status : ExecutionStatus) (w : TaskWorld τ) :
    setExecutionStatus status w = (.ok (),saved w (w.mem.data.withStatus status)) := rfl

@[simp] theorem recordAuditModel_apply (provider model : String) (w : TaskWorld τ) :
    sm.recordAuditModel provider model w = (.ok (),saved w (w.mem.data.auditedBy
      ⟨PyText.lower (PyText.strip (sm.sanitizeSecretText provider)),
        PyText.strip (sm.sanitizeSecretText model)⟩)) := rfl

@[simp] theorem newEpoch_apply (w : TaskWorld τ) :
    newEpoch w = (.ok (),saved w w.mem.data.newEpoch) := rfl

/-- How `leave` ends; it emits nothing and changes nothing. -/
def leaving (error : String) (exitProcess : Bool) (code : Nat) : Except (Ending PyExc) Unit :=
  if sm.raiseOnHalt then .error (.raised (.other "RuntimeError" error))
  else if exitProcess then .error (.exited code)
  else .ok ()

@[simp] theorem leave_apply (error : String) (exitProcess : Bool) (code : Nat)
    (w : TaskWorld τ) :
    sm.leave error exitProcess code w = (sm.leaving error exitProcess code,w) := by
  unfold leave leaving
  split_ifs <;> rfl

/-- The data `halt_human` leaves behind; the reason is sanitized here and once more by
`transition`. -/
def haltedData (d : StateData) (reason timestamp : String) : StateData :=
  (d.transitioned .haltHuman (sm.sanitizeSecretText (sm.sanitizeSecretText reason))
    timestamp).withStatus .failed

/-- The world when `halt_human` is about to raise, exit or return. -/
def halted (w : TaskWorld τ) (reason : String) : TaskWorld τ :=
  let w₁ := saved w (w.mem.data.transitioned .haltHuman
    (sm.sanitizeSecretText (sm.sanitizeSecretText reason)) (sm.now w.trace.length))
  let w₂ := saved w₁ (w₁.mem.data.withStatus .failed)
  w₂.emit (.report s!"CRASH_REPORT_{sm.taskId}.md"
    (sm.crashReport w₂.mem.data (sm.now w₂.trace.length) (sm.sanitizeSecretText reason)))

theorem haltHuman_apply (reason : String) (exitProcess : Bool) (w : TaskWorld τ) :
    sm.haltHuman reason exitProcess w =
      (sm.leaving s!"Circuit Breaker triggered: {sm.sanitizeSecretText reason}" exitProcess 1,
        sm.halted w reason) :=
  sm.leave_apply _ exitProcess 1 (sm.halted w reason)

@[simp] theorem halted_data (w : TaskWorld τ) (reason : String) :
    (sm.halted w reason).mem.data =
      sm.haltedData w.mem.data reason (sm.now w.trace.length) := rfl
@[simp] theorem halted_repo (w : TaskWorld τ) (reason : String) :
    (sm.halted w reason).mem.repo = w.mem.repo := rfl

/-- The data after the two first saves of `request_human_review`. -/
def reviewedData (d : StateData) (reason gate timestamp : String) : StateData :=
  (d.transitioned .humanReview (sm.sanitizeSecretText
    s!"Human review / service unavailable at {gate}: {sm.sanitizeSecretText reason}")
    timestamp).withStatus .needsHumanReview

/-- The world when `request_human_review` is about to raise, exit or return. -/
def suspended (w : TaskWorld τ) (reason gate : String) : TaskWorld τ :=
  let w₁ := saved w (w.mem.data.transitioned .humanReview (sm.sanitizeSecretText
    s!"Human review / service unavailable at {gate}: {sm.sanitizeSecretText reason}")
    (sm.now w.trace.length))
  let w₂ := saved w₁ (w₁.mem.data.withStatus .needsHumanReview)
  let w₃ := saved w₂ (w₂.mem.data.blocked
    ⟨gate,sm.sanitizeSecretText reason,sm.now w₂.trace.length⟩)
  w₃.emit (.report s!"HUMAN_REVIEW_{sm.taskId}.md"
    (sm.humanReviewReport (sm.now w₃.trace.length) gate (sm.sanitizeSecretText reason)))

theorem requestHumanReview_apply (reason gate : String) (exitProcess : Bool)
    (w : TaskWorld τ) :
    sm.requestHumanReview reason gate exitProcess w =
      (sm.leaving s!"Human review required ({gate}): {sm.sanitizeSecretText reason}"
        exitProcess 0,sm.suspended w reason gate) :=
  sm.leave_apply _ exitProcess 0 (sm.suspended w reason gate)

@[simp] theorem suspended_data (w : TaskWorld τ) (reason gate : String) :
    (sm.suspended w reason gate).mem.data =
      (sm.reviewedData w.mem.data reason gate (sm.now w.trace.length)).blocked
        ⟨gate,sm.sanitizeSecretText reason,sm.now (w.trace.length+2)⟩ := by
  simp [suspended,reviewedData]
@[simp] theorem suspended_repo (w : TaskWorld τ) (reason gate : String) :
    (sm.suspended w reason gate).mem.repo = w.mem.repo := rfl

/-- `__init__` on an existing file. -/
theorem load_some (config : Config) (w : TaskWorld τ) (d : StateData)
    (h : stateFile w.trace = some d) :
    sm.load config w = (.ok (),if d.executionStatus = .running then saved w d.recovered
      else { w with mem := { w.mem with data := d.recovered } }) := by
  unfold load
  rw [Proc.bind_of_ok (Proc.emitted_apply w),h]
  unfold StateData.recovered
  dsimp only
  split_ifs with hr
  · rfl
  · rfl

theorem load_none (config : Config) (w : TaskWorld τ) (h : stateFile w.trace = none) :
    sm.load config w = (.ok (),saved w (initState sm.taskId config)) := by
  unfold load
  rw [Proc.bind_of_ok (Proc.emitted_apply w),h]
  rfl

/-- A halt followed by a plain return: `a` reaches the caller only when the halt
returns. -/
theorem haltHuman_then {α : Type} (reason : String) (exitProcess : Bool) (a : α)
    (w : TaskWorld τ) :
    (sm.haltHuman reason exitProcess >>= fun _ => pure a : Job τ α) w =
      ((sm.leaving s!"Circuit Breaker triggered: {sm.sanitizeSecretText reason}" exitProcess
        1).map fun _ => a,sm.halted w reason) := by
  rw [Proc.bind_apply,haltHuman_apply]
  rcases sm.leaving _ exitProcess 1 with _ | _ <;> rfl

theorem requestHumanReview_then {α : Type} (reason gate : String) (exitProcess : Bool) (a : α)
    (w : TaskWorld τ) :
    (sm.requestHumanReview reason gate exitProcess >>= fun _ => pure a : Job τ α) w =
      ((sm.leaving s!"Human review required ({gate}): {sm.sanitizeSecretText reason}"
        exitProcess 0).map fun _ => a,sm.suspended w reason gate) := by
  rw [Proc.bind_apply,requestHumanReview_apply]
  rcases sm.leaving _ exitProcess 0 with _ | _ <;> rfl

/-- A budget operation that halts. -/
def denied (w : TaskWorld τ) (reason : String) : Except (Ending PyExc) Bool × TaskWorld τ :=
  ((sm.leaving s!"Circuit Breaker triggered: {sm.sanitizeSecretText reason}" true 1).map
    fun _ => false,sm.halted w reason)

theorem haltFalse_apply (reason : String) (w : TaskWorld τ) :
    (sm.haltHuman reason >>= fun _ => pure false : Job τ Bool) w = sm.denied w reason :=
  sm.haltHuman_then reason true false w

/-- `register_worker_run`: both limits are checked before either counter moves. -/
theorem registerWorkerRun_apply (w : TaskWorld τ) :
    sm.registerWorkerRun w =
      let b := w.mem.data.budgets
      if b.workerAttemptsInEpoch ≥ b.maxWorkerPerEpoch then
        sm.denied w (s!"Worker attempt limit per epoch exceeded " ++
          s!"({b.maxWorkerPerEpoch} attempts per epoch).")
      else if b.totalCumulativeWorkerRuns ≥ b.maxCumulativeWorkerRuns then
        sm.denied w "Global cumulative worker build budget exceeded (ceiling of 5 runs)."
      else (.ok true,saved w (w.mem.data.withBudgets countWorkerRun)) := by
  unfold registerWorkerRun
  rw [Proc.bind_of_ok (Proc.get_apply w)]
  dsimp only
  split_ifs
  · exact sm.haltFalse_apply _ w
  · exact sm.haltFalse_apply _ w
  · rfl

theorem consume_apply (count : Budgets → Budgets) (exhausted : Budgets → Bool)
    (message : String) (granted : Job τ Unit) (w : TaskWorld τ) :
    sm.consume count exhausted message granted w =
      let w' := saved w (w.mem.data.withBudgets count)
      if exhausted (count w.mem.data.budgets) then sm.denied w' message
      else (granted >>= fun _ => pure true) w' := by
  unfold consume
  rw [Proc.bind_of_ok (update_apply _ w),Proc.bind_of_ok (Proc.get_apply _)]
  by_cases h : exhausted (count w.mem.data.budgets) = true
  · simp only [saved_data,StateData.withBudgets_budgets,h,if_true]
    exact sm.haltFalse_apply message _
  · simp only [saved_data,StateData.withBudgets_budgets,h]
    rfl

/-- The outcome of a replan: one more used, and a new epoch unless that was one too
many. -/
theorem replan_apply (count : Budgets → Budgets) (exhausted : Budgets → Bool)
    (message : String) (w : TaskWorld τ) :
    sm.consume count exhausted message newEpoch w =
      let w' := saved w (w.mem.data.withBudgets count)
      if exhausted (count w.mem.data.budgets) then sm.denied w' message
      else (.ok true,saved w' w'.mem.data.newEpoch) := by
  rw [consume_apply]
  rfl

theorem replan_then {α : Type} (count : Budgets → Budgets) (exhausted : Budgets → Bool)
    (message : String) (a : α) (w : TaskWorld τ) :
    (sm.consume count exhausted message newEpoch >>= fun _ => pure a : Job τ α) w =
      let w' := saved w (w.mem.data.withBudgets count)
      if exhausted (count w.mem.data.budgets) then
        ((sm.leaving s!"Circuit Breaker triggered: {sm.sanitizeSecretText message}" true
          1).map fun _ => a,sm.halted w' message)
      else (.ok a,saved w' w'.mem.data.newEpoch) := by
  rw [Proc.bind_apply,replan_apply]
  dsimp only
  split_ifs with hx
  · unfold denied
    rcases sm.leaving _ true 1 with _ | _ <;> rfl
  · rfl

/-- Memory and state file agree. -/
def Synced (w : TaskWorld τ) : Prop := stateFile w.trace = some w.mem.data

theorem synced_saved (w : TaskWorld τ) (d : StateData) : Synced (saved w d) :=
  stateFile_save w.trace d

theorem synced_emit {w : TaskWorld τ} (h : Synced w) (e : Event τ) (he : e.isSave = false) :
    Synced (w.emit e) :=
  (stateFile_other w.trace e he).trans h

theorem synced_halted (w : TaskWorld τ) (reason : String) : Synced (sm.halted w reason) :=
  synced_emit (synced_saved _ _) _ rfl

theorem synced_suspended (w : TaskWorld τ) (reason gate : String) :
    Synced (sm.suspended w reason gate) :=
  synced_emit (synced_saved _ _) _ rfl

theorem synced_load (config : Config) (w : TaskWorld τ) : Synced (sm.load config w).2 := by
  rcases h : stateFile w.trace with _ | d
  · rw [load_none sm config w h]
    exact synced_saved _ _
  · rw [load_some sm config w d h]
    dsimp only
    split_ifs with hr
    · exact synced_saved _ _
    · have hd : d.recovered = d := by rw [StateData.recovered,if_neg hr]
      rw [hd]
      exact h

theorem load_data (config : Config) (w : TaskWorld τ) (d : StateData)
    (h : stateFile w.trace = some d) : (sm.load config w).2.mem.data = d.recovered := by
  rw [load_some sm config w d h]
  split_ifs <;> rfl

/-- Loading saves at most once and leaves the trees alone. -/
theorem load_effect (config : Config) (w : TaskWorld τ) :
    (sm.load config w).2.mem.repo = w.mem.repo ∧
      ((sm.load config w).2.trace = w.trace ∨
        ∃ d,(sm.load config w).2.trace = w.trace++[.save d]) := by
  rcases h : stateFile w.trace with _ | d
  · rw [load_none sm config w h]
    exact ⟨rfl,.inr ⟨_,rfl⟩⟩
  · rw [load_some sm config w d h]
    dsimp only
    split_ifs
    · exact ⟨rfl,.inr ⟨_,rfl⟩⟩
    · exact ⟨rfl,.inl rfl⟩

end StateManager

end SoftwareFactory
