import SoftwareFactory.Protocol.Programs

namespace SoftwareFactory

open Process

variable {τ : Type}

theorem step_gradual (text : String → String) : Gradual (Step text : Flow Point (Memory τ) (Event τ)) := by
  intro c c' h
  cases h with
  | load p sm config w =>
    rcases h : stateFile w.trace with _ | d
    · rw [sm.load_none config w h]
      exact .inr ⟨_,rfl⟩
    · rw [sm.load_some config w d h]
      dsimp only
      split_ifs
      · exact .inr ⟨_,rfl⟩
      · exact .inl rfl
  | enter => exact .inr ⟨_,rfl⟩
  | write => exact .inr ⟨_,rfl⟩
  | call => exact .inr ⟨_,rfl⟩
  | move => exact .inl rfl

/-- A process about to start after the events of `past`; the trees are what others have
left behind. -/
def launch (past : List (Event τ)) (repo : Repo τ) : TaskWorld τ := ⟨⟨default,repo⟩,past⟩

/-- The trace when a process ends by itself. -/
@[irreducible] def Program.traced (p : Program) (env : Env τ) (past : List (Event τ)) (repo : Repo τ) :
    List (Event τ) :=
  (p.run env (launch past repo)).2.trace

/-- Where the graph has a process that ended by itself. -/
theorem run_ends (p : Program) (env : Env τ) (past : List (Event τ)) (repo : Repo τ) :
    ∃ q,(match (p.run env (launch past repo)).1 with
        | .ok _ => p.Returned q
        | .error s => Ends s q) ∧
      At (Step env.mergeHaltText) (p.entry,launch past repo) q (p.run env (launch past repo)).2 := by
  have h := (walks_run env p).run (launch past repo)
  rcases hr : p.run env (launch past repo) with ⟨_ | _,w⟩ <;> rw [hr] at h
  · exact h
  · exact h

theorem traced_extends (p : Program) (env : Env τ) (past : List (Event τ)) (repo : Repo τ) :
    past <+: p.traced env past repo := by
  rw [Program.traced]
  obtain ⟨q,_,hq⟩ := run_ends p env past repo
  exact (step_gradual _).extends hq

/-- What holds at the entry and is kept by every step holds of a process cut down at any
moment, or not at all. -/
theorem run_keeps {I : Point → TaskWorld τ → Prop}
    {p : Program} {env : Env τ}
    (hstep : ∀ p w q w',Step env.mergeHaltText (p,w) (q,w') → I p w → I q w')
    {past : List (Event τ)} {repo : Repo τ} (hin : I p.entry (launch past repo))
    {t : List (Event τ)} (hpast : past <+: t) (ht : t <+: p.traced env past repo) :
    ∃ q w,I q w ∧ w.trace = t := by
  rw [Program.traced] at ht
  obtain ⟨q,_,hq⟩ := run_ends p env past repo
  obtain ⟨q',w',hat,htrace⟩ := (step_gradual _).cut hq t hpast ht
  exact ⟨q',w',hat.keeps hstep hin,htrace⟩

/-- The points at which a process that is not killed may end. -/
def Point.isFinal : Point → Bool
  | .completed => true
  | .halted => true
  | .suspended => true
  | .crashed => true
  | .refused => true
  | _ => false

theorem Ends.isFinal {s : Ending PyExc} {q : Point} (h : Ends s q) : q.isFinal = true := by
  unfold Ends at h
  split at h
  · rw [h]
    rfl
  · rcases h with rfl | rfl <;> rfl
  · rcases h with rfl | rfl | rfl <;> rfl
  · exact h.elim

theorem Program.Returned.isFinal {p : Program} {q : Point} (h : p.Returned q) :
    q.isFinal = true := by
  cases p with
  | pipeline =>
    have h : q = .completed := h
    rw [h]
    rfl
  | _ => rcases h with rfl | rfl | rfl <;> rfl

/-- How a process ends that is not killed. -/
@[irreducible] def Program.outcome (p : Program) (env : Env τ) (past : List (Event τ))
    (repo : Repo τ) : Except (Ending PyExc) Unit :=
  (p.run env (launch past repo)).1

def Program.EndsAt (p : Program) (res : Except (Ending PyExc) Unit) (q : Point) : Prop :=
  match res with
  | .ok _ => p.Returned q
  | .error s => Ends s q

theorem Program.EndsAt.isFinal {p : Program} {res : Except (Ending PyExc) Unit} {q : Point}
    (h : p.EndsAt res q) : q.isFinal = true := by
  cases res with
  | ok => exact Program.Returned.isFinal h
  | error => exact Ends.isFinal h

/-- What holds at the entry and is kept by every step holds of a process that is not killed
when it ends. -/
theorem run_keeps_final {I : Point → TaskWorld τ → Prop} {p : Program} {env : Env τ}
    (hstep : ∀ p w q w',Step env.mergeHaltText (p,w) (q,w') → I p w → I q w')
    {past : List (Event τ)} {repo : Repo τ} (hin : I p.entry (launch past repo)) :
    ∃ q w,p.EndsAt (p.outcome env past repo) q ∧ I q w ∧ w.trace = p.traced env past repo := by
  obtain ⟨q,hend,hat⟩ := run_ends p env past repo
  refine ⟨q,_,?_,hat.keeps hstep hin,by rw [Program.traced]⟩
  rw [Program.outcome]
  exact hend

/-- A history of processes on one task. Each may be killed after any of its events, and
`ok` says which processes are admitted: it is given the events before, the program and
the events after. -/
inductive Session (ok : List (Event τ) → Program → List (Event τ) → Prop) :
    List (Event τ) → Prop
  | nil : Session ok []
  | process {past t : List (Event τ)} (p : Program) (env : Env τ) (repo : Repo τ)
      (before : Session ok past) (hpast : past <+: t) (ht : t <+: p.traced env past repo)
      (hok : ok past p t) : Session ok t

/-- Any process is admitted. -/
def anyProcess : List (Event τ) → Program → List (Event τ) → Prop := fun _ _ _ => True

/-- One more process that is not killed. -/
theorem Session.andThen {past : List (Event τ)} (h : Session anyProcess past) (p : Program)
    (env : Env τ) (repo : Repo τ) : Session anyProcess (p.traced env past repo) :=
  .process p env repo h (traced_extends p env past repo) (List.prefix_refl _) trivial

/-- The invariant rule for sessions: `I` is about traces, `J` about a running process. -/
theorem Session.induct {ok : List (Event τ) → Program → List (Event τ) → Prop}
    {I : List (Event τ) → Prop} {J : Point → TaskWorld τ → Prop} (hnil : I [])
    (hin : ∀ past (p : Program) repo,I past → J p.entry (launch past repo))
    (hstep : ∀ text p w q w',Step text (p,w) (q,w') → J p w → J q w')
    (hout : ∀ q w,J q w → I w.trace) {t : List (Event τ)} (h : Session ok t) : I t := by
  induction h with
  | nil => exact hnil
  | process p env repo before hpast ht hok ih =>
    obtain ⟨q,w,hj,rfl⟩ := run_keeps (hstep _) (hin _ p repo ih) hpast ht
    exact hout q w hj

end SoftwareFactory
