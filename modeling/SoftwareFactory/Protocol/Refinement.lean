import SoftwareFactory.Protocol.Flow
import SoftwareFactory.Orchestrator.AuditRules

namespace SoftwareFactory

open Process

/-- The points at which a process may end in the given way. It never runs out of fuel. -/
def Ends : Ending PyExc → Point → Prop
  | .exited 0,p => p = .suspended
  | .exited _,p => p = .halted ∨ p = .refused
  | .raised _,p => p = .crashed ∨ p = .halted ∨ p = .suspended
  | .outOfFuel,_ => False

variable {τ α β : Type} {text : String → String}

/-- `m` is a way from point `p` through the graph. -/
abbrev Walks (text : String → String) (p : Point) (m : Job τ α) (next : α → Point → Prop) : Prop :=
  Follows (Step text) Ends p m next

section primitives

variable {p q : Point}

theorem walks_call {answer : Nat → α} {event : α → Event τ} {next : α → Point}
    (h : ∀ a d (r : Repo τ),Calls d r p (event a) r (next a)) :
    Walks text p (Proc.call answer event) (fun a x => x = next a) :=
  .act fun _ => ⟨_,_,_,rfl,rfl,.call (h _ _ _)⟩

theorem walks_tryCall {answer : Nat → Except PyExc α} {event : Except PyExc α → Event τ}
    {next : α → Point} (hok : ∀ a d (r : Repo τ),Calls d r p (event (.ok a)) r (next a))
    (herr : ∀ e d (r : Repo τ),Calls d r p (event (.error e)) r .crashed) :
    Walks text p (Proc.tryCall answer event) (fun a x => x = next a) := by
  have hc : Walks text p (Proc.call answer event) (fun a x => x = match a with
      | .ok a => next a
      | .error _ => .crashed) := by
    refine walks_call fun a d r => ?_
    cases a with
    | ok a => exact hok a d r
    | error e => exact herr e d r
  refine hc.bind ?_
  intro answer x heq
  subst heq
  cases answer with
  | error e => exact .stop (.inl rfl)
  | ok a => exact .pure rfl

theorem walks_emit {e : Event τ} (h : ∀ d (r : Repo τ),Calls d r p e r q) :
    Walks text p (Proc.emit e) (fun _ x => x = q) :=
  .act fun _ => ⟨_,_,_,rfl,rfl,.call (h _ _)⟩

theorem walks_git (env : Env τ) {cmd : GitCommand} {next : CommandResult → Point}
    (h : ∀ d (r : Repo τ) res,Calls d r p (.git cmd r res) (r.after cmd res) (next res)) :
    Walks text p (env.runGit cmd) (fun res x => x = next res) :=
  .act fun _ => ⟨_,_,_,rfl,rfl,.call (h _ _ _)⟩

/-- A git command that only looks leaves the trees alone. -/
theorem after_query {cmd : GitCommand} (h : cmd.isQuery = true) (r : Repo τ)
    (res : CommandResult) : r.after cmd res = r := by
  unfold Repo.after
  split_ifs
  · cases cmd <;> first | rfl | cases h
  · rfl

theorem walks_query (env : Env τ) {cmd : GitCommand} (hcmd : cmd.isQuery = true)
    {next : CommandResult → Point} (h : ∀ d (r : Repo τ) res,Calls d r p (.git cmd r res) r (next res)) :
    Walks text p (env.runGit cmd) (fun res x => x = next res) :=
  walks_git env fun d r res => (after_query hcmd r res).symm ▸ h d r res

theorem walks_transition (sm : StateManager) {st : FsmState} (details : String)
    (h : Enters text p st (sm.sanitizeSecretText details) q) :
    Walks text p (sm.transition st details : Job τ Unit) (fun _ x => x = q) :=
  .act fun w => ⟨_,_,_,rfl,rfl,.enter h _ w⟩

theorem walks_update {f : StateData → StateData} (h : ∀ d,Writes d p (f d) q) :
    Walks text p (StateManager.update f : Job τ Unit) (fun _ x => x = q) :=
  .act fun _ => ⟨_,_,_,rfl,rfl,.write (h _)⟩

end primitives

section manager

variable (sm : StateManager)

theorem at_halted {p : Point} {reason : String} (hp : Enters text p .haltHuman
    (sm.sanitizeSecretText (sm.sanitizeSecretText reason)) .failing)
    {c : Point × TaskWorld τ} {w : TaskWorld τ} (h : At (Step text) c p w) :
    At (Step text) c .halted (sm.halted w reason) :=
  ((h.step (.enter hp _ w)).step (.write .fail)).step (.call (.crashReport _ _))

/-- A halt returns only when it is told not to leave the process. -/
theorem walks_haltHuman {p : Point} {reason : String} (hp : Enters text p .haltHuman
    (sm.sanitizeSecretText (sm.sanitizeSecretText reason)) .failing) (exitProcess : Bool) : Walks text p (sm.haltHuman reason exitProcess : Job τ Unit)
      (fun _ x => exitProcess = false ∧ x = .halted) := by
  intro c w hw
  have ha := at_halted sm hp hw
  rw [sm.haltHuman_apply,StateManager.leaving]
  split_ifs with hr he
  · exact ⟨_,.inr (.inl rfl),ha⟩
  · exact ⟨_,.inl rfl,ha⟩
  · exact ⟨_,⟨Bool.not_eq_true _ ▸ he,rfl⟩,ha⟩

theorem walks_review (reason : String) (exitProcess : Bool) :
    Walks text .suspending (sm.requestHumanReview reason "LOGIC_AUDIT" exitProcess : Job τ Unit)
      (fun _ x => exitProcess = false ∧ x = .suspended) := by
  intro c w hw
  have ha : At (Step text) c .suspended (sm.suspended w reason "LOGIC_AUDIT") :=
    (((hw.step (.enter (.review _) _ w)).step (.write .pause)).step
      (.write (.block _ _))).step (.call (.reviewReport _ _))
  rw [sm.requestHumanReview_apply,StateManager.leaving]
  split_ifs with hr he
  · exact ⟨_,.inr (.inr rfl),ha⟩
  · exact ⟨_,rfl,ha⟩
  · exact ⟨_,⟨Bool.not_eq_true _ ▸ he,rfl⟩,ha⟩

/-- A halt that always leaves. -/
theorem walks_haltAway {p : Point} {reason : String} (hp : Enters text p .haltHuman
    (sm.sanitizeSecretText (sm.sanitizeSecretText reason)) .failing)
    {f : Unit → Job τ α} {next : α → Point → Prop} :
    Walks text p (sm.haltHuman reason >>= f) next := by
  refine (walks_haltHuman sm hp true).bind ?_
  intro _ _ hparts
  obtain ⟨h,_⟩ := hparts
  cases h

/-- A budget operation either is granted or leaves through a halt. -/
theorem walks_consume {p q : Point} {count : Budgets → Budgets} {exhausted : Budgets → Bool}
    {message : String} {granted : Job τ Unit} {N : Unit → Point → Prop}
    (h : ∀ d,Writes d p (d.withBudgets count)
      (if exhausted (count d.budgets) = true then .halting else q))
    (hg : Walks text q granted N) :
    Walks text p (sm.consume count exhausted message granted)
      (fun b x => b = true ∧ N () x) := by
  intro c w hw
  rw [sm.consume_apply]
  have hs : At (Step text) c _ (saved w (w.mem.data.withBudgets count)) := hw.step (.write (h _))
  dsimp only
  split_ifs with hx
  · rw [if_pos hx] at hs
    rw [← sm.haltFalse_apply]
    exact walks_haltAway sm (.halt _) c _ hs
  · rw [if_neg hx] at hs
    exact hg.bind (fun _ x hx => .pure ⟨rfl,hx⟩) c _ hs

theorem walks_specRetry (reason : String) :
    Walks text .specRetry (sm.consumeSpecSyntaxRetry reason : Job τ Bool)
      (fun b x => b = true ∧ x = .regating) := by
  refine walks_consume (N := fun _ x => x = .regating) sm (fun d => ?_) (.pure rfl)
  have h := Writes.specRetry (d := d)
  simpa [StateManager.countSpecSyntaxRetry] using h

theorem walks_logicReplan (reason : String) :
    Walks text .logicReplan (sm.consumeLogicReplan reason : Job τ Bool)
      (fun b x => b = true ∧ x = .building) := by
  refine walks_consume (N := fun _ x => x = .building) sm (fun d => ?_)
    (walks_update fun d => .newEpoch)
  have h := Writes.logicReplan (d := d)
  simpa [StateManager.countLogicReplan] using h

/-- The point a granted security replan leads back to. -/
def Point.redesigned : Option Program → Point
  | none => .building
  | some p => .rejected p

theorem walks_securityReplan (p : Option Program) (reason : String) :
    Walks text (.securityReplan p) (sm.consumeSecurityReplan reason : Job τ Bool)
      (fun b x => b = true ∧ x = .redesigned p) := by
  refine walks_consume (q := .renewing p) (N := fun _ x => x = .redesigned p) sm
    (fun d => ?_) ?_
  · have h := Writes.securityReplan (d := d) p
    simpa [StateManager.countSecurityReplan] using h
  · cases p with
    | none => exact walks_update fun d => .newEpoch
    | some p => exact walks_update fun d => .newEpochAudit p

theorem walks_registerWorkerRun :
    Walks text .registering (sm.registerWorkerRun : Job τ Bool)
      (fun b x => b = true ∧ x = .working) := by
  intro c w hw
  rw [sm.registerWorkerRun_apply]
  have away (reason : String) (hd : Chooses w.mem.data .registering .halting) :
      Post (fun b w => ∃ q,(b = true ∧ q = .working) ∧ At (Step text) c q w) (Ended (Step text) Ends c)
        (sm.denied w reason) := by
    rw [← sm.haltFalse_apply]
    exact walks_haltAway sm (.halt _) c w (hw.step (.move hd))
  dsimp only
  split_ifs with h₁ h₂
  · exact away _ (.denied (.inl h₁))
  · exact away _ (.denied (.inr h₂))
  · exact ⟨_,⟨rfl,rfl⟩,hw.step (.write (.worker (by omega) (by omega)))⟩

end manager

end SoftwareFactory
