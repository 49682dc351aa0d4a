import SoftwareFactory.Protocol.Session

namespace SoftwareFactory

open Process

variable {τ : Type} {text : String → String}

/-- The points of `run_pipeline`. -/
def Point.ofPipeline : Point → Bool
  | .opening p => p = .pipeline
  | .opened p => p = .pipeline
  | .securityReplan p => p = none ∨ p = some .pipeline
  | .renewing p => p = none ∨ p = some .pipeline
  | .checkingMerge => false
  | .checkingAudit => false
  | .diffing => false
  | .auditPending p _ => p = .pipeline
  | .auditing p _ => p = .pipeline
  | .asking p _ _ => p = .pipeline
  | .querying p _ _ => p = .pipeline
  | .recording p => p = .pipeline
  | .approved p => p = .pipeline
  | .rejected p => p = .pipeline
  | .checkingAncestor => false
  | .mergePending p => p = .pipeline
  | .detaching p => p = .pipeline
  | .merging p => p = .pipeline
  | .fastForwarded p => p = .pipeline
  | .merged p => p = .pipeline
  | .mergeFailed p _ => p = .pipeline
  | .completing => false
  | _ => true

section points

variable {p q : Point} {d d' : StateData}

theorem Enters.ofPipeline {st : FsmState} {details : String} (h : Enters text p st details q)
    (hp : p.ofPipeline = true) : q.ofPipeline = true := by
  cases h with
  | resumeAudit => cases hp
  | recovered => cases hp
  | _ => first | rfl | exact hp

theorem Writes.ofPipeline (h : Writes d p d' q) (hp : p.ofPipeline = true) :
    q.ofPipeline = true := by
  cases h with
  | specRetry => split_ifs <;> rfl
  | logicReplan => split_ifs <;> rfl
  | securityReplan =>
    split_ifs
    · rfl
    · exact hp
  | newEpochAudit p =>
    have hp : decide (some p = none ∨ some p = some .pipeline) = true := hp
    simpa [Point.ofPipeline] using hp
  | _ => first | rfl | exact hp

theorem Calls.ofPipeline {r r' : Repo τ} {e : Event τ} (h : Calls d r p e r' q)
    (hp : p.ofPipeline = true) : q.ofPipeline = true := by
  cases h with
  | discovery b => cases b <;> rfl
  | query p c left client res q h =>
    have hp : decide (p = .pipeline) = true := hp
    cases h <;> first | rfl | exact hp | simpa [Point.ofPipeline] using hp
  | approve p =>
    obtain rfl : p = .pipeline := of_decide_eq_true hp
    rfl
  | reject p =>
    obtain rfl : p = .pipeline := of_decide_eq_true hp
    rfl
  | diffAgain => cases hp
  | ancestor => cases hp
  | checkMerge => cases hp
  | checkAudit => cases hp
  | fastForward => split_ifs <;> exact hp
  | filter => split_ifs <;> rfl
  | _ => first | rfl | exact hp | (split_ifs <;> rfl)

theorem Chooses.ofPipeline (h : Chooses d p q) (hp : p.ofPipeline = true) :
    q.ofPipeline = true := by
  cases h with
  | allowMerge => cases hp
  | startMerge => cases hp
  | allowAudit => cases hp
  | _ => first | rfl | exact hp

end points

/-- The events a process adds, when it ends by itself. -/
def Program.events (p : Program) (env : Env τ) (past : List (Event τ)) (repo : Repo τ) :
    List (Event τ) :=
  (p.traced env past repo).drop past.length

/-- The invariant rule for `run_pipeline`: `I` is about the point, the memory and the events
of this process. -/
theorem pipeline_keeps {I : Point → Memory τ → List (Event τ) → Prop} (env : Env τ)
    (past : List (Event τ)) (repo : Repo τ) (hin : I .launched ⟨default,repo⟩ [])
    (hload : ∀ (sm : StateManager) (config : Config) (w : TaskWorld τ) t,
      w.trace = past++t → I (.opening .pipeline) w.mem t →
      ∃ t',(sm.load config w).2.trace = past++t' ∧
        I (.opened .pipeline) (sm.load config w).2.mem t')
    (henter : ∀ p q st details ts m t,Enters env.mergeHaltText p st details q →
      p.ofPipeline = true → I p m t →
      I q { m with data := m.data.transitioned st details ts }
        (t++[.save (m.data.transitioned st details ts)]))
    (hwrite : ∀ p q d m t,Writes m.data p d q → p.ofPipeline = true → I p m t →
      I q { m with data := d } (t++[.save d]))
    (hcall : ∀ p q e r m t,Calls m.data m.repo p e r q → p.ofPipeline = true → I p m t →
      I q { m with repo := r } (t++[e]))
    (hmove : ∀ p q m t,Chooses m.data p q → p.ofPipeline = true → I p m t → I q m t) :
    ∃ q m,Program.EndsAt .pipeline (Program.outcome .pipeline env past repo) q ∧
      I q m (Program.events .pipeline env past repo) ∧
      Program.traced .pipeline env past repo =
        past++Program.events .pipeline env past repo := by
  let J (p : Point) (w : TaskWorld τ) : Prop :=
    p.ofPipeline = true ∧ ∃ t,w.trace = past++t ∧ I p w.mem t
  have hj (p : Point) (w : TaskWorld τ) (q : Point) (w' : TaskWorld τ)
      (h : Step env.mergeHaltText (p,w) (q,w')) (hi : J p w) : J q w' := by
    obtain ⟨hp,t,ht,hi⟩ := hi
    have added (e : Event τ) : w.trace++[e] = past++(t++[e]) := by
      rw [ht,List.append_assoc]
    cases h with
    | load p sm config =>
      obtain rfl : p = .pipeline := of_decide_eq_true hp
      exact ⟨rfl,hload sm config w t ht hi⟩
    | enter h ts => exact ⟨h.ofPipeline hp,_,added _,henter _ _ _ _ ts _ _ h hp hi⟩
    | write h => exact ⟨h.ofPipeline hp,_,added _,hwrite _ _ _ _ _ h hp hi⟩
    | call h => exact ⟨h.ofPipeline hp,_,added _,hcall _ _ _ _ _ _ h hp hi⟩
    | move h => exact ⟨h.ofPipeline hp,t,ht,hmove _ _ _ _ h hp hi⟩
  have hj₀ : J Program.pipeline.entry (launch past repo) :=
    ⟨rfl,[],(List.append_nil past).symm,hin⟩
  obtain ⟨q,w,hq,⟨_,t,ht,hi⟩,htrace⟩ := run_keeps_final (I := J) hj hj₀
  have he : Program.events .pipeline env past repo = t := by
    rw [Program.events,← htrace,ht,List.drop_left]
  refine ⟨q,w.mem,hq,?_,?_⟩
  · rw [he]
    exact hi
  · rw [he,← htrace,ht]

/-- The rule for what concerns the trees and the events alone. -/
theorem pipeline_keeps_trees {I : Point → Repo τ → List (Event τ) → Prop} (env : Env τ)
    (past : List (Event τ)) (repo : Repo τ) (hin : I .launched repo [])
    (hload : ∀ r t,I (.opening .pipeline) r t →
      I (.opened .pipeline) r t ∧ ∀ d,I (.opened .pipeline) r (t++[.save d]))
    (henter : ∀ p q st details d r t,Enters env.mergeHaltText p st details q →
      p.ofPipeline = true → I p r t → I q r (t++[.save d]))
    (hwrite : ∀ p q d d' r t,Writes d p d' q → p.ofPipeline = true → I p r t →
      I q r (t++[.save d']))
    (hcall : ∀ p q e d r r' t,Calls d r p e r' q → p.ofPipeline = true → I p r t →
      I q r' (t++[e]))
    (hmove : ∀ p q d r t,Chooses d p q → p.ofPipeline = true → I p r t → I q r t) :
    ∃ q r,q.isFinal = true ∧ I q r (Program.events .pipeline env past repo) := by
  have hloads (sm : StateManager) (config : Config) (w : TaskWorld τ) (t : List (Event τ))
      (ht : w.trace = past++t) (hi : I (.opening .pipeline) w.mem.repo t) :
      ∃ t',(sm.load config w).2.trace = past++t' ∧
        I (.opened .pipeline) (sm.load config w).2.mem.repo t' := by
    obtain ⟨hr,htrace⟩ := sm.load_effect config w
    obtain ⟨hsame,hsaved⟩ := hload _ t hi
    rw [hr]
    rcases htrace with he | ⟨d,he⟩ <;> rw [he,ht]
    · exact ⟨t,rfl,hsame⟩
    · exact ⟨t++[.save d],List.append_assoc _ _ _,hsaved d⟩
  obtain ⟨q,m,hq,hi,_⟩ := pipeline_keeps (I := fun p m t => I p m.repo t) env past repo hin
    hloads
    (fun _ _ _ _ _ _ _ h hl hp => henter _ _ _ _ _ _ _ h hl hp)
    (fun _ _ _ _ _ h hl hp => hwrite _ _ _ _ _ _ h hl hp)
    (fun _ _ _ _ _ _ h hl hp => hcall _ _ _ _ _ _ _ h hl hp)
    (fun _ _ _ _ h hl hp => hmove _ _ _ _ _ h hl hp)
  exact ⟨q,m.repo,hq.isFinal,hi⟩

end SoftwareFactory
