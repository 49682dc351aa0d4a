import SoftwareFactory.Adapters.Contracts
import SoftwareFactory.Adapters.SecurityAdapter
import SoftwareFactory.Lib.Proc
import SoftwareFactory.Orchestrator.State
import SoftwareFactory.Scripts.Git
import SoftwareFactory.Scripts.SastRunner

namespace SoftwareFactory

open Process

/-- What the Worker is told about the failed attempt before. -/
inductive Feedback where
  | diffViolations (violations : List String)
  | triage (res : TriageOutput)
  deriving DecidableEq, Repr

/-- Everything a process does that another party can see: the snapshots it writes to the
state file, its reports, and its calls to gates, models and git with their answers. -/
inductive Event (τ : Type) where
  | save (d : StateData)
  | report (path content : String)
  | runDiscovery (passed : Bool)
  | generateSpec (res : Except PyExc String)
  | validateSpec (valid : Bool) (message : String)
  | createWorktree (ok : Bool) (info : String)
  /-- Recorded when the Worker is invoked; `epoch` is the epoch of the state file then. -/
  | generateCodeAndTests (epoch : Nat) (feedback : Option Feedback)
  /-- `before` holds the trees the command finds. -/
  | git (cmd : GitCommand) (before : Repo τ) (res : CommandResult)
  | validateDiff (passed : Bool) (violations : List String)
  | runTests (files : τ) (passed : Bool)
  | triageFailure (res : Except PyExc TriageOutput)
  | runSast (files : τ) (code : SastExit)
  | filterSecurityFinding (finding : Finding) (res : Except PyExc SecurityFilterOutput)
  | executeLogicSecurityAudit (diff : String) (role : SecurityRole)
  | createSecurityAdapter (provider model : String)
  | auditLogicAndSecurity (adapter : Adapter) (res : Except PyExc LogicAuditOutput)
  | auditReturned (passed : Bool)
  | removeWorktree
  | executeFastForwardMerge (passed : Bool) (message : String) (base : τ)

/-- The `StateManager` object's data and the trees git keeps. -/
structure Memory (τ : Type) where
  data : StateData
  repo : Repo τ

abbrev TaskWorld (τ : Type) := World (Memory τ) (Event τ)
abbrev Job (τ α : Type) := Proc (Memory τ) (Event τ) PyExc α

variable {τ : Type}

/-- The contents of the state file after a trace: the snapshot saved last. -/
def stateFile (t : List (Event τ)) : Option StateData :=
  t.foldl (fun d e => match e with | .save d' => some d' | _ => d) none

@[simp] theorem stateFile_nil : stateFile ([] : List (Event τ)) = none := rfl
@[simp] theorem stateFile_save (t : List (Event τ)) (d : StateData) :
    stateFile (t++[.save d]) = some d := by
  simp [stateFile]

def Event.isSave : Event τ → Bool
  | .save _ => true
  | _ => false

theorem stateFile_other (t : List (Event τ)) (e : Event τ) (he : e.isSave = false) :
    stateFile (t++[e]) = stateFile t := by
  cases e <;> simp_all [stateFile,Event.isSave]

theorem stateFile_singleton {e : Event τ} {d : StateData} :
    stateFile [e] = some d ↔ e = .save d := by
  cases e <;> simp [stateFile]

/-- All states that are saved have the property. -/
def EverySaved (P : StateData → Prop) (t : List (Event τ)) : Prop := ∀ d,.save d ∈ t → P d

theorem everySaved_nil (P : StateData → Prop) : EverySaved P ([] : List (Event τ)) :=
  fun _ h => absurd h List.not_mem_nil

theorem EverySaved.save {P : StateData → Prop} {t : List (Event τ)} (h : EverySaved P t)
    {d : StateData} (hd : P d) : EverySaved P (t++[.save d]) := by
  intro d' hmem
  rw [List.mem_append,List.mem_singleton] at hmem
  cases hmem with
  | inl hold => exact h d' hold
  | inr hnew =>
    rw [Event.save.inj hnew]
    exact hd

theorem EverySaved.other {P : StateData → Prop} {t : List (Event τ)} (h : EverySaved P t)
    {e : Event τ} (he : e.isSave = false) : EverySaved P (t++[e]) := by
  intro d hmem
  rw [List.mem_append,List.mem_singleton] at hmem
  cases hmem with
  | inl hold => exact h d hold
  | inr hnew =>
    rw [← hnew] at he
    cases he

/-- The state file holds one of them. -/
theorem EverySaved.stateFile {P : StateData → Prop} {t : List (Event τ)} (h : EverySaved P t)
    {d : StateData} (hd : stateFile t = some d) : P d := by
  induction t using List.reverseRecOn with
  | nil => cases hd
  | append_singleton t e ih =>
    cases he : e.isSave with
    | false =>
      rw [stateFile_other t e he] at hd
      exact ih (fun d' hd' => h d' (List.mem_append_left _ hd')) hd
    | true =>
      cases e with
      | save d' =>
        rw [stateFile_save] at hd
        rw [← Option.some.inj hd]
        exact h d' (List.mem_append_right _ (List.mem_singleton_self _))
      | _ => cases he

/-- The world after memory and state file have both become `d`. -/
def saved (w : TaskWorld τ) (d : StateData) : TaskWorld τ :=
  ⟨{ w.mem with data := d },w.trace++[.save d]⟩

@[simp] theorem saved_data (w : TaskWorld τ) (d : StateData) : (saved w d).mem.data = d := rfl
@[simp] theorem saved_repo (w : TaskWorld τ) (d : StateData) :
    (saved w d).mem.repo = w.mem.repo := rfl
@[simp] theorem saved_trace (w : TaskWorld τ) (d : StateData) :
    (saved w d).trace = w.trace++[.save d] := rfl

end SoftwareFactory
