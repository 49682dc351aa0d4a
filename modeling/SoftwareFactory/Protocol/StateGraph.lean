import SoftwareFactory.Protocol.Session

namespace SoftwareFactory

open Process

/-- The states a transition may go to. A new process begins at INIT again wherever the last one
was killed. -/
def FsmState.successors : FsmState → List FsmState
  | .init => [.init,.specDesign,.specGate]
  | .specDesign => [.init,.specGate]
  | .specGate => [.init,.building,.haltHuman]
  | .building => [.init,.diffGate,.haltHuman]
  | .diffGate => [.init,.testing,.building,.haltHuman]
  | .testing => [.init,.triaging,.sastScan]
  | .triaging => [.init,.building,.haltHuman]
  | .sastScan =>
    [.init,.sastFilter,.logicAudit,.building,.autoMerge,.humanReview,.haltHuman]
  | .sastFilter => [.init,.logicAudit,.building,.autoMerge,.humanReview,.haltHuman]
  | .logicAudit => [.init,.logicAudit,.building,.autoMerge,.humanReview,.haltHuman]
  | .autoMerge => [.init,.haltHuman]
  | .humanReview => [.init,.logicAudit]
  | .haltHuman => [.init,.autoMerge]

/-- Every transition in the history is one of the graph. -/
def StateData.InGraph (d : StateData) : Prop := ∀ e ∈ d.history,e.toState ∈ e.fromState.successors

/-- The states in which the audit is asked. -/
def auditStates : List FsmState := [.sastScan,.sastFilter,.logicAudit]

/-- The states in which a merge is tried. -/
def Program.mergeStates : Program → List FsmState
  | .resumeMerge => [.haltHuman]
  | _ => [.autoMerge]

/-- The states a process can be in at a point. -/
def Point.states : Point → List FsmState
  | .specifying => [.init]
  | .designing => [.specDesign]
  | .designed => [.specDesign]
  | .gating => [.specGate]
  | .specRetry => [.specGate]
  | .regating => [.specGate]
  | .isolating => [.specGate]
  | .building => [.specGate,.diffGate,.triaging,.sastScan,.sastFilter,.logicAudit]
  | .registering => [.building]
  | .working => [.building]
  | .staging => [.building]
  | .committing => [.building]
  | .committed => [.building]
  | .diffGating => [.diffGate]
  | .diffPassed => [.diffGate]
  | .testing => [.testing]
  | .testsFailed => [.testing]
  | .triaging => [.triaging]
  | .retrying => [.diffGate,.triaging]
  | .logicReplan => [.diffGate,.triaging]
  | .securityReplan none => [.sastFilter]
  | .renewing none => [.diffGate,.triaging,.sastFilter]
  | .testsPassed => [.testing]
  | .scanning => [.sastScan]
  | .filterPending => [.sastScan]
  | .filtering => [.sastFilter]
  | .scanned => [.sastScan,.sastFilter]
  | .checkingMerge => [.haltHuman]
  | .checkingAudit => [.humanReview]
  | .diffing => [.logicAudit]
  | .detaching p => p.mergeStates
  | .merging p => p.mergeStates
  | .fastForwarded p => p.mergeStates
  | .merged p => p.mergeStates
  | .mergeFailed p _ => p.mergeStates
  | .completing => [.autoMerge]
  | .completed => [.autoMerge]
  | .halting =>
    [.specGate,.building,.diffGate,.triaging,.sastScan,.sastFilter,.logicAudit]
  | .failing => [.haltHuman]
  | .crashReport => [.haltHuman]
  | .halted => [.haltHuman]
  | .pausing => [.humanReview]
  | .blocking => [.humanReview]
  | .reviewReport => [.humanReview]
  | .suspended => [.humanReview]
  | .securityReplan (some _) => auditStates
  | .renewing (some _) => auditStates
  | .auditPending _ _ => auditStates
  | .auditing _ _ => auditStates
  | .asking _ _ _ => auditStates
  | .querying _ _ _ => auditStates
  | .recording _ => auditStates
  | .approved _ => auditStates
  | .rejected _ => auditStates
  | .checkingAncestor => auditStates
  | .mergePending .resumeMerge => []
  | .mergePending _ => auditStates
  | .suspending => auditStates
  | .launched => validStates
  | .opening _ => validStates
  | .opened _ => validStates
  | .crashed => validStates
  | .refused => validStates

variable {τ : Type} {text : String → String} {p q : Point} {d : StateData}

theorem mem_validStates (st : FsmState) : st ∈ validStates := by
  cases st <;> decide

theorem Enters.inGraph {st : FsmState} {details : String} (h : Enters text p st details q)
    {s : FsmState} (hs : s ∈ p.states) : st ∈ s.successors ∧ st ∈ q.states := by
  have allowed (xs : List FsmState) (hsub : ∀ s ∈ xs,st ∈ s.successors) (hin : s ∈ xs)
      (hst : st ∈ q.states) : st ∈ s.successors ∧ st ∈ q.states := ⟨hsub s hin,hst⟩
  cases h with
  | init => exact ⟨by cases s <;> decide,by decide⟩
  | autoMerge _ p =>
    cases p with
    | resumeMerge => exact absurd hs List.not_mem_nil
    | _ => exact allowed auditStates (by decide) hs (by decide)
  | mergeHalt p m hp =>
    cases p with
    | resumeMerge => exact absurd rfl hp
    | _ => exact allowed [.autoMerge] (by decide) hs (by decide)
  | fallback => exact allowed auditStates (by decide) hs (by simp [Point.states,auditStates])
  | _ => exact allowed _ (by decide) hs (by decide)

/-- A set of states that is widened. -/
theorem mem_widened {xs ys : List FsmState} (hsub : ∀ s ∈ xs,s ∈ ys) {s : FsmState}
    (hs : s ∈ xs) : s ∈ ys := hsub s hs

theorem auditStates_halting {s : FsmState} (hs : s ∈ auditStates) : s ∈ Point.states .halting := by
  have hall : ∀ s ∈ auditStates,s ∈ Point.states .halting := by decide
  exact hall s hs

theorem Writes.same {d' : StateData} (h : Writes d p d' q) :
    d'.currentState = d.currentState ∧ d'.history = d.history := by
  cases h <;> exact ⟨rfl,rfl⟩

theorem Writes.states {d' : StateData} (h : Writes d p d' q) {s : FsmState}
    (hs : s ∈ p.states) : s ∈ q.states := by
  cases h with
  | specRetry =>
    split_ifs
    · exact mem_widened (by decide) hs
    · exact hs
  | logicReplan =>
    split_ifs
    · exact mem_widened (by decide) hs
    · exact mem_widened (by decide) hs
  | securityReplan k =>
    cases k with
    | none =>
      split_ifs
      · exact mem_widened (by decide) hs
      · exact mem_widened (by decide) hs
    | some k =>
      split_ifs
      · exact auditStates_halting hs
      · exact hs
  | newEpoch => exact mem_widened (by decide) hs
  | complete k hk =>
    cases k with
    | resumeMerge => exact absurd rfl hk
    | _ => exact hs
  | _ => exact hs

theorem Answers.states {k : Program} {left : List Candidate}
    {res : Except PyExc LogicAuditOutput} (h : Answers k left res q) {s : FsmState}
    (hs : s ∈ auditStates) : s ∈ q.states := by
  cases h with
  | other => exact auditStates_halting hs
  | live => exact auditStates_halting hs
  | _ => exact hs

theorem Calls.states {r r' : Repo τ} {e : Event τ} (h : Calls d r p e r' q) {s : FsmState}
    (hs : s ∈ p.states) : s ∈ q.states := by
  cases h with
  | query k c left client res q h => exact h.states hs
  | unknownProvider => exact auditStates_halting hs
  | approve k => cases k <;> exact hs
  | reject k =>
    cases k with
    | pipeline => exact mem_widened (by decide) hs
    | _ => exact mem_validStates s
  | ancestor base branch res =>
    split_ifs
    · exact hs
    · exact auditStates_halting hs
  | audit => exact hs
  | discovery b => cases b <;> exact mem_validStates s
  | diff base res =>
    have haudit : ∀ s ∈ Point.states .scanned,s ∈ auditStates := by decide
    split_ifs
    · exact haudit s hs
    · exact mem_validStates s
  | diffAgain base res =>
    have haudit : ∀ s ∈ Point.states .diffing,s ∈ auditStates := by decide
    split_ifs
    · exact haudit s hs
    · exact auditStates_halting (haudit s hs)
  | fastForward => split_ifs <;> exact hs
  | validateSpec b => cases b <;> exact hs
  | runTests b => cases b <;> exact hs
  | createWorktree => exact mem_widened (by decide) hs
  | createWorktreeFails => exact mem_widened (by decide) hs
  | triage => exact mem_widened (by decide) hs
  | _ =>
    first
    | exact hs
    | exact mem_validStates s
    | (split_ifs <;> first | exact hs | exact mem_widened (by decide) hs)

theorem Chooses.states (h : Chooses d p q) (hs : d.currentState ∈ p.states) :
    d.currentState ∈ q.states := by
  cases h with
  | allowMerge h =>
    have hstate : d.currentState = .haltHuman := by
      unfold StateManager.canResumeMerge at h
      by_contra hne
      rw [if_pos hne] at h
      cases h
    rw [hstate]
    decide
  | allowAudit h =>
    have hstate : d.currentState = .humanReview := by
      unfold StateManager.canResumeAuditFsm at h
      by_contra hne
      rw [if_pos hne] at h
      cases h
    rw [hstate]
    decide
  | denied => exact mem_widened (by decide) hs
  | retry => exact mem_widened (by decide) hs
  | filtered => exact mem_widened (by decide) hs
  | primary => exact hs
  | replan => exact hs
  | exhausted => exact hs
  | startMerge => exact hs
  | _ => exact mem_validStates d.currentState

theorem StateData.InGraph.transitioned (h : d.InGraph) {st : FsmState}
    (hst : st ∈ d.currentState.successors) (details timestamp : String) :
    (d.transitioned st details timestamp).InGraph := by
  intro e hmem
  rw [StateData.transitioned,List.mem_append,List.mem_singleton] at hmem
  cases hmem with
  | inl hold => exact h e hold
  | inr hnew =>
    rw [hnew]
    exact hst

theorem initState_inGraph (taskId : String) (config : Config) :
    (initState taskId config).InGraph := by
  intro e he
  exact absurd he List.not_mem_nil

/-- The invariant along a process: files and memory have walked the graph, and the state fits
the point. -/
structure GraphInv (p : Point) (w : TaskWorld τ) : Prop where
  files : EverySaved StateData.InGraph w.trace
  memory : w.mem.data.InGraph
  state : w.mem.data.currentState ∈ p.states

theorem load_inGraph (sm : StateManager) (config : Config) {w : TaskWorld τ}
    (h : EverySaved StateData.InGraph w.trace) :
    EverySaved StateData.InGraph (sm.load config w).2.trace ∧
      (sm.load config w).2.mem.data.InGraph := by
  cases hfile : stateFile w.trace with
  | none =>
    rw [sm.load_none config w hfile]
    exact ⟨h.save (initState_inGraph _ _),initState_inGraph _ _⟩
  | some d =>
    have hd := h.stateFile hfile
    have hrecovered : d.recovered.InGraph := by
      rw [StateData.recovered]
      split_ifs
      · exact hd
      · exact hd
    rw [sm.load_some config w d hfile]
    dsimp only
    split_ifs
    · exact ⟨h.save hrecovered,hrecovered⟩
    · exact ⟨h,hrecovered⟩

theorem GraphInv.step {w w' : TaskWorld τ} (h : Step text (p,w) (q,w')) (hi : GraphInv p w) :
    GraphInv q w' := by
  cases h with
  | load k sm config =>
    obtain ⟨hfiles,hmemory⟩ := load_inGraph sm config hi.files
    exact ⟨hfiles,hmemory,mem_validStates _⟩
  | @enter _ _ st details h ts =>
    obtain ⟨hst,hq⟩ := h.inGraph hi.state
    have hd := hi.memory.transitioned hst details ts
    exact ⟨hi.files.save hd,hd,hq⟩
  | @write _ _ _ d h =>
    obtain ⟨hsame,hhistory⟩ := h.same
    have hd : d.InGraph := by
      intro e he
      rw [hhistory] at he
      exact hi.memory e he
    refine ⟨hi.files.save hd,hd,?_⟩
    rw [saved_data,hsame]
    exact h.states hi.state
  | call h => exact ⟨hi.files.other h.isSave,hi.memory,h.states hi.state⟩
  | move h => exact ⟨hi.files,hi.memory,h.states hi.state⟩

/-- Whatever processes run on a task and wherever they are killed, the task goes from state to
state by the transitions of the graph alone. -/
theorem session_inGraph {ok : List (Event τ) → Program → List (Event τ) → Prop}
    {t : List (Event τ)} (h : Session ok t) : EverySaved StateData.InGraph t := by
  refine Session.induct (J := GraphInv) (everySaved_nil _) ?_
    (fun _ _ _ _ _ hs hi => hi.step hs) (fun _ _ hi => hi.files) h
  intro past p repo hpast
  refine ⟨hpast,initState_inGraph _ _,?_⟩
  cases p <;> exact mem_validStates _

/-- A task whose merge fails and is recovered. -/
theorem session_inGraph_recovered : EverySaved StateData.InGraph (Program.traced .resumeMerge calmEnv
    (Program.traced .pipeline { calmEnv with git := fun _ cmd =>
      match cmd with
      | .mergeFfOnly _ => ⟨1,"","not possible"⟩
      | _ => ⟨0,"",""⟩ } [] freshRepo) freshRepo) := by
  have hsession : Session anyProcess ([] : List (Event Nat)) := .nil
  exact session_inGraph ((hsession.andThen .pipeline _ freshRepo).andThen .resumeMerge calmEnv
    freshRepo)

end SoftwareFactory
