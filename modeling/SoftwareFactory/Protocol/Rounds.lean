import SoftwareFactory.Protocol.Build

namespace SoftwareFactory

open Process

/-- The state file has been read. -/
def Point.started : Point → Bool
  | .launched => false
  | .opening _ => false
  | _ => true

/-- A halt has been decided. -/
def Point.stopping : Point → Bool
  | .halting => true
  | .failing => true
  | .crashReport => true
  | .halted => true
  | .refused => true
  | _ => false

/-- What a step does to the lifetime budget of the Worker. -/
structure Tallies (p q : Point) (b b' : Budgets) : Prop where
  started : q.started = true
  ceiling : b'.maxCumulativeWorkerRuns = b.maxCumulativeWorkerRuns
  count : p ≠ .registering → b'.totalCumulativeWorkerRuns = b.totalCumulativeWorkerRuns
  register : p = .registering →
    q = .working ∧ (b.totalCumulativeWorkerRuns : Int) < b.maxCumulativeWorkerRuns ∧
      b'.totalCumulativeWorkerRuns = b.totalCumulativeWorkerRuns+1 ∨
    q = .halting ∧ b'.totalCumulativeWorkerRuns = b.totalCumulativeWorkerRuns
  top : p = .building → q = .registering
  stopping : p.stopping = true → q.stopping = true

variable {τ : Type} {text : String → String}

theorem Tallies.same {p q : Point} {b b' : Budgets} (hq : q.started = true)
    (hm : b'.maxCumulativeWorkerRuns = b.maxCumulativeWorkerRuns)
    (ht : b'.totalCumulativeWorkerRuns = b.totalCumulativeWorkerRuns)
    (hr : p ≠ .registering) (hb : p ≠ .building) (hs : p.stopping = true → q.stopping = true) :
    Tallies p q b b' :=
  ⟨hq,hm,fun _ => ht,fun h => absurd h hr,fun h => absurd h hb,hs⟩

theorem afterPass_started (p : Program) : p.afterPass.started = true := by
  cases p <;> rfl

theorem afterFail_started (p : Program) : p.afterFail.started = true := by
  cases p <;> rfl

theorem Answers.started {p : Program} {left : List Candidate} {res : Except PyExc LogicAuditOutput}
    {q : Point} (h : Answers p left res q) : q.started = true := by
  cases h <;> rfl

theorem step_tallies {p q : Point} {w w' : TaskWorld τ} (h : Step text (p,w) (q,w'))
    (hp : p.started = true) : Tallies p q w.mem.data.budgets w'.mem.data.budgets := by
  cases h with
  | load => cases hp
  | enter h =>
    cases h with
    | building => exact ⟨rfl,rfl,fun _ => rfl,nofun,fun _ => rfl,nofun⟩
    | _ => exact .same rfl rfl rfl nofun nofun (by simp [Point.stopping])
  | write h =>
    cases h with
    | worker _ hc => exact ⟨rfl,rfl,nofun,fun _ => .inl ⟨rfl,hc,rfl⟩,nofun,nofun⟩
    | _ =>
      refine .same ?_ rfl rfl nofun nofun (by simp [Point.stopping])
      first | rfl | (split_ifs <;> rfl)
  | call h =>
    cases h with
    | discovery => cases hp
    | audit p => exact .same rfl rfl rfl nofun nofun nofun
    | query p c left client res q h => exact .same h.started rfl rfl nofun nofun nofun
    | approve p => exact .same (afterPass_started p) rfl rfl nofun nofun nofun
    | reject p => exact .same (afterFail_started p) rfl rfl nofun nofun nofun
    | _ =>
      refine .same ?_ rfl rfl nofun nofun (by simp [Point.stopping])
      first | rfl | (split_ifs <;> rfl)
  | move h =>
    cases h with
    | denied => exact ⟨rfl,rfl,nofun,fun _ => .inr ⟨rfl,rfl⟩,nofun,nofun⟩
    | _ => exact .same rfl rfl rfl nofun nofun nofun

/-- Between `d₀` and `d` the Worker has been counted, which the ceiling allowed. -/
structure Counted (d₀ d : StateData) : Prop where
  ceiling : d.budgets.maxCumulativeWorkerRuns = d₀.budgets.maxCumulativeWorkerRuns
  counted : d₀.budgets.totalCumulativeWorkerRuns < d.budgets.totalCumulativeWorkerRuns
  allowed : (d₀.budgets.totalCumulativeWorkerRuns : Int) < d₀.budgets.maxCumulativeWorkerRuns

theorem Counted.step {d₀ : StateData} {p q : Point} {w w' : TaskWorld τ}
    (h : Step text (p,w) (q,w')) (hp : p.started = true) (hc : Counted d₀ w.mem.data) :
    Counted d₀ w'.mem.data := by
  have ht := step_tallies h hp
  refine ⟨ht.ceiling.trans hc.ceiling,?_,hc.allowed⟩
  have hcount := hc.counted
  by_cases hr : p = .registering
  · rcases ht.register hr with ⟨_,_,he⟩ | ⟨_,he⟩ <;> omega
  · have he := ht.count hr
    omega

/-- From the top of a round on: the Worker is about to be counted, or it has been, or the
process is on its way out. -/
def Lap (d₀ : StateData) (p : Point) (w : TaskWorld τ) : Prop :=
  p.started = true ∧
    (Counted d₀ w.mem.data ∨ p.stopping = true ∨
      (p = .building ∨ p = .registering) ∧
        w.mem.data.budgets.maxCumulativeWorkerRuns = d₀.budgets.maxCumulativeWorkerRuns ∧
        w.mem.data.budgets.totalCumulativeWorkerRuns = d₀.budgets.totalCumulativeWorkerRuns)

theorem Lap.step {d₀ : StateData} (p : Point) (w : TaskWorld τ) (q : Point) (w' : TaskWorld τ)
    (h : Step text (p,w) (q,w')) (hl : Lap d₀ p w) : Lap d₀ q w' := by
  obtain ⟨hp,hl⟩ := hl
  have ht := step_tallies h hp
  refine ⟨ht.started,?_⟩
  rcases hl with hc | hs | ⟨rfl | rfl,hm,he⟩
  · exact .inl (hc.step h hp)
  · exact .inr (.inl (ht.stopping hs))
  · refine .inr (.inr ⟨.inr (ht.top rfl),ht.ceiling.trans hm,?_⟩)
    rw [ht.count nofun,he]
  · rcases ht.register rfl with ⟨rfl,hlt,hn⟩ | ⟨rfl,_⟩
    · refine .inl ⟨ht.ceiling.trans hm,by omega,?_⟩
      rw [← he,← hm]
      exact hlt
    · exact .inr (.inl rfl)

variable (env : Env τ) (sm : StateManager)

theorem building_counts (triageInfo : Option Feedback) (w₀ : TaskWorld τ) :
    Post (fun r w => r = .proceed () ∧ Counted w₀.mem.data w.mem.data) (fun _ _ => True)
      (env.building sm triageInfo w₀) := by
  have hwalk : Walks id .building (env.building sm triageInfo) _ :=
    walks_building env sm triageInfo
  refine (hwalk.run w₀).mono ?_ fun _ _ _ => trivial
  intro r w hparts
  obtain ⟨q,⟨hr,rfl⟩,hw⟩ := hparts
  have hl : Lap w₀.mem.data .committed w :=
    hw.keeps Lap.step ⟨rfl,.inr (.inr ⟨.inl rfl,rfl,rfl⟩)⟩
  rcases hl.2 with hc | hs | ⟨h | h,_⟩
  · exact ⟨hr,hc⟩
  · cases hs
  · cases h
  · cases h

theorem gates_count (triageInfo : Option Feedback) (hsm : sm.raiseOnHalt = false)
    (d₀ : StateData) (w₀ : TaskWorld τ) (h₀ : Counted d₀ w₀.mem.data) :
    Post (fun _ w => Counted d₀ w.mem.data) (fun _ _ => True)
      (Control.andThen (env.diffGate sm triageInfo) (fun _ =>
        Control.andThen (env.testingGate sm) fun _ =>
        Control.andThen (env.sastGate sm triageInfo) fun _ => env.auditGate sm triageInfo) w₀) := by
  have hwalk : Walks id .committed _ _ := walks_gates env sm triageInfo hsm
  refine (hwalk.run w₀).mono ?_ fun _ _ _ => trivial
  intro r w hparts
  obtain ⟨q,_,hw⟩ := hparts
  have hl : q.started = true ∧ Counted d₀ w.mem.data :=
    hw.keeps (I := fun p w => p.started = true ∧ Counted d₀ w.mem.data)
      (fun p w q w' hs hi => ⟨(step_tallies hs hi.1).started,hi.2.step hs hi.1⟩) ⟨rfl,h₀⟩
  exact hl.2

/-- A round that does not leave through a halt or an exception has counted a Worker run. -/
theorem buildRound_counts (triageInfo : Option Feedback) (hsm : sm.raiseOnHalt = false)
    (w₀ : TaskWorld τ) :
    Post (fun _ w => Counted w₀.mem.data w.mem.data) (fun _ _ => True)
      (env.buildRound sm triageInfo w₀) := by
  have hbuild : Triple (fun w => w = w₀) (env.building sm triageInfo)
      (fun r w => r = .proceed () ∧ Counted w₀.mem.data w.mem.data) (fun _ _ => True) := by
    intro _ heq
    subst heq
    exact building_counts env sm triageInfo _
  have hround : Triple (fun w => w = w₀) (env.buildRound sm triageInfo)
      (fun _ w => Counted w₀.mem.data w.mem.data) (fun _ _ => True) := by
    refine Triple.bind (Q := fun _ w => Counted w₀.mem.data w.mem.data) (hbuild.bind fun r => ?_)
      fun r w hw => ?_
    · intro w h
      obtain ⟨rfl,hc⟩ := h
      exact gates_count env sm triageInfo hsm _ w hc
    · cases r <;> exact hw
  exact hround w₀ rfl

/-- The lifetime budget that is left. -/
def room (w : TaskWorld τ) : Nat :=
  (w.mem.data.budgets.maxCumulativeWorkerRuns-
    w.mem.data.budgets.totalCumulativeWorkerRuns).toNat

theorem Counted.room_lt {w₀ w : TaskWorld τ} (h : Counted w₀.mem.data w.mem.data) :
    room w < room w₀ := by
  have hm := h.ceiling
  have hc := h.counted
  have ha := h.allowed
  unfold room
  omega

/-- The build loop ends by itself, always with fuel to spare. -/
theorem walks_buildLoop (hsm : sm.raiseOnHalt = false) :
    Walks text .building (env.buildLoop sm)
      (fun modelInfo q => modelInfo ≠ none ∧ q = .mergePending .pipeline) := by
  intro c w hw
  have hbody (triageInfo : Option Feedback) : Walks text .building (env.buildRound sm triageInfo)
      (Sum.elim (fun _ q => q = .building)
        fun modelInfo q => modelInfo ≠ none ∧ q = .mergePending .pipeline) := by
    refine (walks_buildRound env sm triageInfo hsm).mono fun r q hq => ?_
    rcases r with _ | _ | _
    · exact hq
    · exact hq.elim
    · exact ⟨Option.some_ne_none _,hq⟩
  refine Follows.loop room hbody (fun triageInfo w => ?_) (Env.buildFuel w.mem.data) none c w
    ⟨hw,Nat.lt_succ_self _⟩
  exact (buildRound_counts env sm triageInfo hsm w).mono (fun _ _ h _ _ => h.room_lt)
    fun _ _ _ => trivial

end SoftwareFactory
