import SoftwareFactory.Protocol.Session

namespace SoftwareFactory

open Process

variable {τ : Type} {text : String → String}

/-- The epoch of a Worker invocation. -/
def Event.builtEpoch : Event τ → Option Nat
  | .generateCodeAndTests epoch _ => some epoch
  | _ => none

/-- One entry for every Worker invocation. -/
def epochsBuilt (t : List (Event τ)) : List Nat := t.filterMap Event.builtEpoch

theorem epochsBuilt_append (t : List (Event τ)) (e : Event τ) :
    epochsBuilt (t++[e]) = epochsBuilt t++e.builtEpoch.toList := by
  unfold epochsBuilt
  rw [List.filterMap_append]
  cases h : e.builtEpoch <;> simp [h]

theorem epochsBuilt_save (t : List (Event τ)) (d : StateData) :
    epochsBuilt (t++[.save d]) = epochsBuilt t := by
  simp [epochsBuilt_append,Event.builtEpoch]

/-- The counters of a state file account for the Worker invocations `built`. -/
structure Accounts (built : List Nat) (d : StateData) : Prop where
  total : built.length ≤ d.budgets.totalCumulativeWorkerRuns
  ceiling : d.budgets.totalCumulativeWorkerRuns ≤ d.budgets.maxCumulativeWorkerRuns.toNat
  attempts : d.budgets.workerAttemptsInEpoch ≤ d.budgets.maxWorkerPerEpoch.toNat
  current : built.count d.epoch ≤ d.budgets.workerAttemptsInEpoch
  earlier : ∀ e,e < d.epoch → built.count e ≤ d.budgets.maxWorkerPerEpoch.toNat
  later : ∀ e,d.epoch < e → built.count e = 0

/-- One run has been registered whose invocation is still to come. -/
def Registered (built : List Nat) (d : StateData) : Prop :=
  built.length < d.budgets.totalCumulativeWorkerRuns ∧
    built.count d.epoch < d.budgets.workerAttemptsInEpoch

namespace Accounts

variable {built : List Nat} {d d' : StateData}

theorem same (h : Accounts built d) (hb : d'.budgets = d.budgets) (he : d'.epoch = d.epoch) :
    Accounts built d' := by
  obtain ⟨h₁,h₂,h₃,h₄,h₅,h₆⟩ := h
  rw [← hb] at h₁ h₂ h₃ h₄ h₅
  rw [← he] at h₄ h₅ h₆
  exact ⟨h₁,h₂,h₃,h₄,h₅,h₆⟩

/-- A retry budget says nothing about the Worker. -/
theorem retried (h : Accounts built d) (count : Budgets → Budgets)
    (hc : ∀ b,(count b).totalCumulativeWorkerRuns = b.totalCumulativeWorkerRuns ∧
      (count b).maxCumulativeWorkerRuns = b.maxCumulativeWorkerRuns ∧
      (count b).workerAttemptsInEpoch = b.workerAttemptsInEpoch ∧
      (count b).maxWorkerPerEpoch = b.maxWorkerPerEpoch) :
    Accounts built (d.withBudgets count) := by
  obtain ⟨ht,hm,ha,hp⟩ := hc d.budgets
  obtain ⟨h₁,h₂,h₃,h₄,h₅,h₆⟩ := h
  refine ⟨?_,?_,?_,?_,?_,h₆⟩ <;>
    simp only [StateData.withBudgets_budgets,StateData.withBudgets_epoch,ht,hm,ha,hp]
  · exact h₁
  · exact h₂
  · exact h₃
  · exact h₄
  · exact h₅

theorem registered (h : Accounts built d)
    (he : d.budgets.workerAttemptsInEpoch < d.budgets.maxWorkerPerEpoch)
    (hc : d.budgets.totalCumulativeWorkerRuns < d.budgets.maxCumulativeWorkerRuns) :
    Accounts built (d.withBudgets StateManager.countWorkerRun) ∧
      Registered built (d.withBudgets StateManager.countWorkerRun) := by
  obtain ⟨h₁,h₂,h₃,h₄,h₅,h₆⟩ := h
  refine ⟨⟨?_,?_,?_,?_,h₅,h₆⟩,?_,?_⟩ <;>
    simp only [StateData.withBudgets_budgets,StateData.withBudgets_epoch,
      StateManager.countWorkerRun] <;> omega

/-- A new epoch starts with no attempt, and no Worker has run in it. -/
theorem newEpoch (h : Accounts built d) : Accounts built d.newEpoch := by
  obtain ⟨h₁,h₂,h₃,h₄,h₅,h₆⟩ := h
  refine ⟨h₁,h₂,Nat.zero_le _,?_,?_,?_⟩ <;>
    simp only [StateData.newEpoch_budgets,StateData.newEpoch_epoch]
  · exact (h₆ _ (Nat.lt_succ_self _)).le
  · intro e he
    rcases Nat.lt_succ_iff_lt_or_eq.mp he with he | rfl
    · exact h₅ e he
    · exact h₄.trans h₃
  · exact fun e he => h₆ e (Nat.lt_of_succ_lt he)

/-- The invocation of the Worker uses up its registration. -/
theorem invoked (h : Accounts built d) (hr : Registered built d) :
    Accounts (built++[d.epoch]) d := by
  obtain ⟨h₁,h₂,h₃,h₄,h₅,h₆⟩ := h
  obtain ⟨hl,hc⟩ := hr
  have hcount (e : Nat) (he : d.epoch ≠ e) : (built++[d.epoch]).count e = built.count e := by
    simp [List.count_append,he]
  refine ⟨?_,h₂,h₃,?_,?_,?_⟩
  · rw [List.length_append,List.length_singleton]
    exact hl
  · rw [List.count_append,List.count_singleton_self]
    exact hc
  · intro e he
    rw [hcount e (by omega)]
    exact h₅ e he
  · intro e he
    rw [hcount e (by omega)]
    exact h₆ e he

theorem epochs (h : Accounts built d) (e : Nat) :
    built.count e ≤ d.budgets.maxWorkerPerEpoch.toNat := by
  rcases Nat.lt_trichotomy e d.epoch with he | rfl | he
  · exact h.earlier e he
  · exact h.current.trans h.attempts
  · rw [h.later e he]
    exact Nat.zero_le _

theorem created (taskId : String) (config : Config) : Accounts [] (initState taskId config) :=
  ⟨Nat.zero_le _,Nat.zero_le _,Nat.zero_le _,Nat.zero_le _,fun _ _ => Nat.zero_le _,
    fun _ _ => rfl⟩

end Accounts

/-- What a trace owes its state file. -/
def Accounted (t : List (Event τ)) : Prop :=
  (stateFile t = none → epochsBuilt t = []) ∧
    ∀ d,stateFile t = some d → Accounts (epochsBuilt t) d

/-- The state file is in memory and the process may go on. -/
def Point.loaded : Point → Bool
  | .launched => false
  | .opening _ => false
  | .refused => false
  | _ => true

/-- The invariant of the Worker budget along a process. -/
def BudgetInv (p : Point) (w : TaskWorld τ) : Prop :=
  if p.loaded then StateManager.Synced w ∧ Accounts (epochsBuilt w.trace) w.mem.data ∧
    (p = .working → Registered (epochsBuilt w.trace) w.mem.data)
  else Accounted w.trace

theorem Accounted.of_synced {w : TaskWorld τ} (hs : StateManager.Synced w)
    (ha : Accounts (epochsBuilt w.trace) w.mem.data) : Accounted w.trace := by
  refine ⟨fun hn => ?_,fun d hd => ?_⟩
  · rw [hs] at hn
    cases hn
  · rw [hs] at hd
    cases hd
    exact ha

theorem BudgetInv.accounted {p : Point} {w : TaskWorld τ} (h : BudgetInv p w) :
    Accounted w.trace := by
  unfold BudgetInv at h
  split_ifs at h
  · exact .of_synced h.1 h.2.1
  · exact h

theorem BudgetInv.of_loaded {p : Point} {w : TaskWorld τ} (hp : p ≠ .working)
    (hs : StateManager.Synced w) (ha : Accounts (epochsBuilt w.trace) w.mem.data) :
    BudgetInv p w := by
  unfold BudgetInv
  split_ifs
  · exact ⟨hs,ha,fun h => absurd h hp⟩
  · exact .of_synced hs ha

theorem budgetInv_load (sm : StateManager) (config : Config) {w : TaskWorld τ}
    (h : Accounted w.trace) : Accounts (epochsBuilt (sm.load config w).2.trace)
      (sm.load config w).2.mem.data := by
  rcases hf : stateFile w.trace with _ | d
  · rw [sm.load_none config w hf]
    simp only [saved_trace,saved_data,epochsBuilt_save,h.1 hf]
    exact Accounts.created _ _
  · rw [sm.load_some config w d hf]
    have hd : Accounts (epochsBuilt w.trace) d.recovered :=
      (h.2 d hf).same (by rw [d.recovered_eq]; rfl) (by rw [d.recovered_eq]; rfl)
    dsimp only
    split_ifs
    · simp only [saved_trace,saved_data,epochsBuilt_save]
      exact hd
    · exact hd

/-- Only the Worker's point invokes the Worker, and no call leads there. -/
theorem Calls.builtEpoch {d : StateData} {r r' : Repo τ} {p q : Point} {e : Event τ}
    (h : Calls d r p e r' q) : q ≠ .working ∧
      (p = .working ∧ e.builtEpoch = some d.epoch ∨ p ≠ .working ∧ e.builtEpoch = none) := by
  cases h with
  | worker fb files => exact ⟨nofun,.inl ⟨rfl,rfl⟩⟩
  | query p c left client res q h => exact ⟨by cases h <;> nofun,.inr ⟨nofun,rfl⟩⟩
  | approve p => exact ⟨by cases p <;> nofun,.inr ⟨nofun,rfl⟩⟩
  | reject p => exact ⟨by cases p <;> nofun,.inr ⟨nofun,rfl⟩⟩
  | _ =>
    refine ⟨?_,.inr ⟨nofun,rfl⟩⟩
    first | (split_ifs <;> nofun) | nofun

/-- A process whose state file is not in memory makes one call only. -/
theorem Calls.loaded {d : StateData} {r r' : Repo τ} {p q : Point} {e : Event τ}
    (h : Calls d r p e r' q) : p.loaded = true ∨ q.loaded = false ∧ e.builtEpoch = none := by
  cases h with
  | discovery b => exact .inr ⟨by cases b <;> rfl,rfl⟩
  | _ => exact .inl rfl

theorem BudgetInv.step {p : Point} {w : TaskWorld τ} {q : Point} {w' : TaskWorld τ}
    (h : Step text (p,w) (q,w')) (hi : BudgetInv p w) : BudgetInv q w' := by
  have saves (d : StateData) (hq : q ≠ .working) (ha : Accounts (epochsBuilt w.trace) d) :
      BudgetInv q (saved w d) :=
    .of_loaded hq (StateManager.synced_saved w d) (epochsBuilt_save w.trace d ▸ ha)
  cases h with
  | load p sm config =>
    exact .of_loaded nofun (sm.synced_load config w) (budgetInv_load sm config hi)
  | enter h ts =>
    have hl : p.loaded = true := by cases h <;> rfl
    have hq : q ≠ .working := by cases h <;> nofun
    rw [BudgetInv,if_pos hl] at hi
    exact saves _ hq (hi.2.1.same rfl rfl)
  | write h =>
    have hl : p.loaded = true := by cases h <;> rfl
    rw [BudgetInv,if_pos hl] at hi
    obtain ⟨_,ha,_⟩ := hi
    cases h with
    | specRetry =>
      exact saves _ (by split_ifs <;> nofun) (ha.retried _ fun _ => ⟨rfl,rfl,rfl,rfl⟩)
    | worker he hc =>
      obtain ⟨ha',hr⟩ := ha.registered he hc
      rw [← epochsBuilt_save w.trace (w.mem.data.withBudgets StateManager.countWorkerRun)] at ha' hr
      exact ⟨StateManager.synced_saved _ _,ha',fun _ => hr⟩
    | logicReplan =>
      exact saves _ (by split_ifs <;> nofun) (ha.retried _ fun _ => ⟨rfl,rfl,rfl,rfl⟩)
    | securityReplan =>
      exact saves _ (by split_ifs <;> nofun) (ha.retried _ fun _ => ⟨rfl,rfl,rfl,rfl⟩)
    | newEpoch => exact saves _ nofun ha.newEpoch
    | newEpochAudit => exact saves _ nofun ha.newEpoch
    | _ => exact saves _ nofun (ha.same rfl rfl)
  | call h =>
    obtain ⟨hq,he⟩ := h.builtEpoch
    rcases h.loaded with hl | ⟨hl,hn⟩
    · rw [BudgetInv,if_pos hl] at hi
      obtain ⟨hs,ha,hr⟩ := hi
      refine .of_loaded hq ((stateFile_other w.trace _ h.isSave).trans hs) ?_
      rw [epochsBuilt_append]
      rcases he with ⟨rfl,he⟩ | ⟨_,he⟩
      · rw [he]
        exact ha.invoked (hr rfl)
      · rw [he,Option.toList_none,List.append_nil]
        exact ha
    · have hi := hi.accounted
      rw [BudgetInv,if_neg (by simp [hl]),Accounted,epochsBuilt_append,hn,
        stateFile_other _ _ h.isSave,Option.toList_none,List.append_nil]
      exact hi
  | move h =>
    have hl : p.loaded = true := by cases h <;> rfl
    have hq : q ≠ .working := by cases h <;> nofun
    rw [BudgetInv,if_pos hl] at hi
    exact .of_loaded hq hi.1 hi.2.1

theorem session_accounted {ok : List (Event τ) → Program → List (Event τ) → Prop}
    {t : List (Event τ)} (h : Session ok t) : Accounted t := by
  have hnil : Accounted ([] : List (Event τ)) := ⟨fun _ => rfl,fun d hd => by simp at hd⟩
  have hin (past : List (Event τ)) (p : Program) (repo : Repo τ) (hi : Accounted past) :
      BudgetInv p.entry (launch past repo) := by
    cases p <;> exact hi
  exact h.induct hnil hin (fun _ _ _ _ _ => BudgetInv.step) fun _ _ => BudgetInv.accounted

/-- The build loop ends, and over any number of processes on one task the Worker is never
invoked more often than the budgets of the state file allow. -/
theorem worker_budget :
    (∀ (env : Env τ) (w : TaskWorld τ),(env.runPipeline w).1 ≠ .error .outOfFuel) ∧
    (∀ t : List (Event τ),Session anyProcess t →
      (stateFile t = none → epochsBuilt t = []) ∧
      ∀ d,stateFile t = some d →
        (epochsBuilt t).length ≤ d.budgets.maxCumulativeWorkerRuns.toNat ∧
        ∀ epoch,(epochsBuilt t).count epoch ≤ d.budgets.maxWorkerPerEpoch.toNat) ∧
    (∀ (env : Env τ) (triageInfo next : Option Feedback) (w w' : TaskWorld τ),
      env.buildRound (env.stateManager false) triageInfo w = (.ok (.inl next),w') →
        w.mem.data.budgets.totalCumulativeWorkerRuns <
          w'.mem.data.budgets.totalCumulativeWorkerRuns) := by
  refine ⟨fun env w hf => ?_,fun t ht => ?_,fun env triageInfo next w w' h => ?_⟩
  · have hw := (walks_runPipeline env).run w
    rcases hr : env.runPipeline w with ⟨_ | _,w'⟩ <;> rw [hr] at hf hw
    · cases hf
      obtain ⟨_,he,_⟩ := hw
      exact he
    · cases hf
  · have ha := session_accounted ht
    refine ⟨ha.1,fun d hd => ⟨?_,(ha.2 d hd).epochs⟩⟩
    exact (ha.2 d hd).total.trans (ha.2 d hd).ceiling
  · have hc := buildRound_counts env (env.stateManager false) triageInfo rfl w
    rw [h] at hc
    exact hc.counted

end SoftwareFactory
