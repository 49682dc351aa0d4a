import SoftwareFactory.Protocol.RecordRules
import Mathlib.Data.List.Chain

namespace SoftwareFactory

open Process

namespace StateData

/-- A later state of the same file. -/
structure Continues (d d' : StateData) : Prop where
  task : d'.taskId = d.taskId
  history : d.history <+: d'.history
  epoch : d.epoch ≤ d'.epoch
  blocked : d.blockedReason ≠ none → d'.blockedReason ≠ none
  audited : d.auditModelUsed ≠ none → d'.auditModelUsed ≠ none

/-- The history is the walk from INIT to the current state. -/
structure Logged (d : StateData) : Prop where
  start : ∀ e ∈ d.history.head?,e.fromState = .init
  chain : d.history.IsChain fun e e' => e'.fromState = e.toState ∧ e.epoch ≤ e'.epoch
  current : d.currentState = (d.history.getLast?.map HistoryEntry.toState).getD .init
  epochs : ∀ e ∈ d.history,e.epoch ≤ d.epoch

variable {d d' d'' : StateData}

theorem Continues.refl (d : StateData) : Continues d d :=
  ⟨rfl,List.prefix_refl _,Nat.le_refl _,id,id⟩

theorem Continues.trans (h : Continues d d') (h' : Continues d' d'') : Continues d d'' where
  task := h'.task.trans h.task
  history := h.history.trans h'.history
  epoch := Nat.le_trans h.epoch h'.epoch
  blocked := fun hd => h'.blocked (h.blocked hd)
  audited := fun hd => h'.audited (h.audited hd)

theorem Continues.transitioned (st : FsmState) (details timestamp : String) :
    Continues d (d.transitioned st details timestamp) :=
  ⟨rfl,List.prefix_append _ _,Nat.le_refl _,id,id⟩

theorem Logged.init (taskId : String) (config : Config) : Logged (initState taskId config) where
  start := by simp [initState]
  chain := List.isChain_nil
  current := rfl
  epochs := by simp [initState]

theorem Logged.transitioned (h : Logged d) (st : FsmState) (details timestamp : String) :
    Logged (d.transitioned st details timestamp) where
  start := by
    intro e he
    cases hd : d.history with
    | nil =>
      have hinit := h.current
      rw [hd] at hinit
      rw [StateData.transitioned,hd] at he
      rw [← Option.some.inj he]
      exact hinit
    | cons first rest =>
      have hfirst := h.start first (by rw [hd]; rfl)
      rw [StateData.transitioned,hd] at he
      rwa [← Option.some.inj he]
  chain := by
    refine List.isChain_append.mpr ⟨h.chain,List.isChain_singleton _,?_⟩
    intro last hlast e he
    have hcurrent := h.current
    rw [Option.mem_def.mp hlast] at hcurrent
    rw [← Option.some.inj he]
    exact ⟨hcurrent,h.epochs last (List.mem_of_getLast? hlast)⟩
  current := by
    rw [StateData.transitioned,List.getLast?_concat]
    rfl
  epochs := by
    intro e he
    rw [StateData.transitioned,List.mem_append,List.mem_singleton] at he
    cases he with
    | inl hold => exact h.epochs e hold
    | inr hnew =>
      rw [hnew]
      exact Nat.le_refl _

/-- Nothing but `transition` moves the state or the history. -/
theorem Logged.same (h : Logged d) (hhistory : d'.history = d.history)
    (hstate : d'.currentState = d.currentState) (hepoch : d.epoch ≤ d'.epoch) : Logged d' where
  start := by
    rw [hhistory]
    exact h.start
  chain := by
    rw [hhistory]
    exact h.chain
  current := by
    rw [hhistory,hstate]
    exact h.current
  epochs := by
    intro e he
    rw [hhistory] at he
    exact Nat.le_trans (h.epochs e he) hepoch

end StateData

open StateData

variable {τ : Type} {t : List (Event τ)} {w : TaskWorld τ} {d : StateData}

/-- The states of the file, one after another. -/
def savedStates (t : List (Event τ)) : List StateData :=
  t.filterMap fun e => match e with
    | .save d => some d
    | _ => none

theorem savedStates_save (t : List (Event τ)) (d : StateData) :
    savedStates (t++[.save d]) = savedStates t++[d] := by
  simp [savedStates]

theorem savedStates_other (t : List (Event τ)) {e : Event τ} (he : e.isSave = false) :
    savedStates (t++[e]) = savedStates t := by
  cases e <;> simp_all [savedStates,Event.isSave]

theorem savedStates_last (t : List (Event τ)) : (savedStates t).getLast? = stateFile t := by
  induction t using List.reverseRecOn with
  | nil => rfl
  | append_singleton t e ih =>
    cases he : e.isSave with
    | false => rw [savedStates_other t he,stateFile_other t e he,ih]
    | true =>
      cases e with
      | save d => rw [savedStates_save,stateFile_save,List.getLast?_concat]
      | _ => cases he

/-- Every state of the file continues all the earlier ones. -/
structure Log (t : List (Event τ)) : Prop where
  grows : (savedStates t).Pairwise Continues
  logged : ∀ d ∈ savedStates t,Logged d

/-- Memory continues the file. -/
structure LoggedWorld (w : TaskWorld τ) : Prop where
  file : Log w.trace
  memory : Logged w.mem.data
  ahead : ∀ d ∈ savedStates w.trace,Continues d w.mem.data

theorem Log.other (h : Log t) {e : Event τ} (he : e.isSave = false) : Log (t++[e]) := by
  have hsame := savedStates_other t he
  refine ⟨?_,?_⟩
  · rw [hsame]
    exact h.grows
  · rw [hsame]
    exact h.logged

theorem Log.save (h : Log t) (hall : ∀ d' ∈ savedStates t,Continues d' d) (hd : Logged d) :
    Log (t++[.save d]) := by
  refine ⟨?_,?_⟩
  · rw [savedStates_save]
    refine List.pairwise_append.mpr ⟨h.grows,List.pairwise_singleton _ _,?_⟩
    intro d' hd' d'' hlast
    rw [List.mem_singleton.mp hlast]
    exact hall d' hd'
  · rw [savedStates_save]
    intro d' hmem
    cases List.mem_append.mp hmem with
    | inl hold => exact h.logged d' hold
    | inr hlast =>
      rw [List.mem_singleton.mp hlast]
      exact hd

theorem Log.ahead (h : Log t) (hd : stateFile t = some d) :
    ∀ d' ∈ savedStates t,Continues d' d := by
  rw [← savedStates_last] at hd
  obtain ⟨before,hbefore⟩ := List.getLast?_eq_some_iff.mp hd
  intro d' hmem
  have hgrows := h.grows
  rw [hbefore] at hmem hgrows
  cases List.mem_append.mp hmem with
  | inl hold => exact (List.pairwise_append.mp hgrows).2.2 d' hold d (List.mem_singleton_self d)
  | inr hlast =>
    rw [List.mem_singleton.mp hlast]
    exact .refl d

theorem LoggedWorld.save (h : LoggedWorld w) (hd : Logged d) (hc : Continues w.mem.data d) :
    LoggedWorld (saved w d) where
  file := h.file.save (fun d' hd' => (h.ahead d' hd').trans hc) hd
  memory := hd
  ahead := by
    intro d' hmem
    rw [saved_trace,savedStates_save,List.mem_append,List.mem_singleton] at hmem
    cases hmem with
    | inl hold => exact (h.ahead d' hold).trans hc
    | inr hlast =>
      rw [hlast]
      exact .refl d

theorem LoggedWorld.other (h : LoggedWorld w) {e : Event τ} (he : e.isSave = false) :
    LoggedWorld (w.emit e) where
  file := h.file.other he
  memory := h.memory
  ahead := by
    rw [World.emit_trace,savedStates_other w.trace he]
    exact h.ahead

theorem loggedWorld_keeping (clean : String → String) :
    MergeKeeping clean (LoggedWorld : TaskWorld τ → Prop) where
  trees := fun _ h => ⟨h.file,h.memory,h.ahead⟩
  event := fun _ he h => h.other (isSave_of_isRecord (isRecord_of_isRoutine he))
  merge := fun _ he h => h.other (isSave_of_isRecord he)
  transition := fun st _ timestamp _ h =>
    h.save (h.memory.transitioned st _ timestamp) (.transitioned st _ timestamp)
  autoMerge := fun _ timestamp h =>
    h.save (h.memory.transitioned _ _ timestamp) (.transitioned _ _ timestamp)
  status := fun _ h =>
    h.save (h.memory.same rfl rfl (Nat.le_refl _)) ⟨rfl,List.prefix_refl _,Nat.le_refl _,id,id⟩
  budgets := fun _ h =>
    h.save (h.memory.same rfl rfl (Nat.le_refl _)) ⟨rfl,List.prefix_refl _,Nat.le_refl _,id,id⟩
  newEpoch := fun h =>
    h.save (h.memory.same rfl rfl (Nat.le_succ _)) ⟨rfl,List.prefix_refl _,Nat.le_succ _,id,id⟩
  blocked := fun _ _ h => h.save (h.memory.same rfl rfl (Nat.le_refl _))
    ⟨rfl,List.prefix_refl _,Nat.le_refl _,fun _ => Option.some_ne_none _,id⟩
  audited := fun _ _ h => h.save (h.memory.same rfl rfl (Nat.le_refl _))
    ⟨rfl,List.prefix_refl _,Nat.le_refl _,id,fun _ => Option.some_ne_none _⟩
  crash := fun _ _ _ _ _ h => h.other rfl
  review := fun _ _ _ _ h => h.other rfl

theorem loggedWorld_opening :
    Opening (fun w => Log w.trace) (LoggedWorld : TaskWorld τ → Prop) where
  discovery := fun _ h => h.other rfl
  fresh := by
    intro w taskId config hfile h
    have hnone : savedStates w.trace = [] := by
      rw [← List.getLast?_eq_none_iff,savedStates_last,hfile]
    have hfirst : Log (w.trace++[.save (initState taskId config)]) := by
      refine h.save ?_ (.init taskId config)
      rw [hnone]
      exact fun _ hd => absurd hd List.not_mem_nil
    refine ⟨hfirst,.init taskId config,?_⟩
    intro d hd
    rw [saved_trace,savedStates_save,hnone,List.nil_append,List.mem_singleton] at hd
    rw [hd]
    exact .refl _
  restored := by
    intro w d hfile h
    have hlast : d ∈ savedStates w.trace := by
      rw [← savedStates_last] at hfile
      exact List.mem_of_getLast? hfile
    exact ⟨h,h.logged d hlast,h.ahead hfile⟩

theorem Log.of_initial {t' : List (Event τ)} (h : Log t') (ht : t <+: t') : Log t := by
  have hsub : savedStates t <+: savedStates t' := ht.filterMap _
  exact ⟨h.grows.sublist hsub.sublist,fun d hd => h.logged d (hsub.subset hd)⟩

/-- The state file of a task is a log: whatever processes ran and were killed, each of its
states continues all the earlier ones, and its history is the walk from INIT to the state it
is in. -/
theorem state_log {ok : List (Event τ) → Program → List (Event τ) → Prop} (h : Session ok t) :
    Log t := by
  induction h with
  | nil => exact ⟨List.Pairwise.nil,fun _ hd => absurd hd List.not_mem_nil⟩
  | process p env repo _ _ ht _ ih =>
    have hphases : Phases env (fun w => Log w.trace) LoggedWorld LoggedWorld :=
      .single loggedWorld_opening (loggedWorld_keeping env.sanitizeSecretText)
    have hrun := hphases.run p (w := launch _ repo) ih
    rw [Program.traced] at ht
    cases hrun with
    | inl hearly => exact hearly.of_initial ht
    | inr hlate => exact hlate.file.of_initial ht

/-- A task that is halted by its gate, then taken up again. -/
theorem state_log_again : Log (Program.traced .pipeline calmEnv
    (Program.traced .pipeline { calmEnv with validateSpec := fun _ => (false,"no scope") } []
      freshRepo) freshRepo) := by
  have hsession : Session anyProcess ([] : List (Event Nat)) := .nil
  exact state_log ((hsession.andThen .pipeline _ freshRepo).andThen .pipeline calmEnv freshRepo)

end SoftwareFactory
