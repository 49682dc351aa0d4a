import SoftwareFactory.Lib.Trace
import SoftwareFactory.Protocol.PipelineRun

namespace SoftwareFactory

open Process

variable {τ : Type} {text : String → String}

/-- What the gates have answered since the Worker was invoked last. -/
structure GateResults where
  diff : Option Bool
  tests : Option Bool
  sast : Option SastExit
  truePositive : Bool
  audit : Option Bool
  deriving DecidableEq, Repr

namespace GateResults

def pending : GateResults := ⟨none,none,none,false,none⟩

def after (g : GateResults) : Event τ → GateResults
  | .generateCodeAndTests _ _ => pending
  | .validateDiff passed _ => { g with diff := some passed }
  | .runTests _ passed => { g with tests := some passed }
  | .runSast _ code => { g with sast := some code }
  | .filterSecurityFinding _ (.ok out) =>
    { g with truePositive := g.truePositive || out.classification = .truePositive }
  | .auditReturned passed => { g with audit := some passed }
  | _ => g

/-- Every gate of the iteration has passed. -/
structure Passed (g : GateResults) : Prop where
  diff : g.diff = some true
  tests : g.tests = some true
  sast : g.sast = some .noFindings ∨ g.sast = some .findings ∧ g.truePositive = false
  audit : g.audit = some true

end GateResults

def gateResults (t : List (Event τ)) : GateResults := t.foldl GateResults.after .pending

@[simp] theorem gateResults_append (t : List (Event τ)) (e : Event τ) :
    gateResults (t++[e]) = (gateResults t).after e := by
  simp [gateResults]

/-- The code of the last SAST run and the events after it. -/
def afterSast (t : List (Event τ)) : Option (SastExit × List (Event τ)) :=
  t.foldl (fun r e => match e with
    | .runSast _ code => some (code,[])
    | _ => r.map fun p => (p.1,p.2++[e])) none

@[simp] theorem afterSast_sast (t : List (Event τ)) (files : τ) (code : SastExit) :
    afterSast (t++[.runSast files code]) = some (code,[]) := by
  simp [afterSast]

def Event.isSast : Event τ → Bool
  | .runSast _ _ => true
  | _ => false

theorem afterSast_other (t : List (Event τ)) (e : Event τ) (he : e.isSast = false) :
    afterSast (t++[e]) = (afterSast t).map fun p => (p.1,p.2++[e]) := by
  unfold afterSast
  rw [List.foldl_append]
  cases e with
  | runSast => cases he
  | _ => rfl

def Event.isMerge : Event τ → Bool
  | .executeFastForwardMerge _ _ _ => true
  | _ => false

/-- The pipeline goes on to the logic audit, to the merge or to the end. -/
def Event.goesOn : Event τ → Bool
  | .executeLogicSecurityAudit _ _ => true
  | .executeFastForwardMerge _ _ _ => true
  | .save d => d.currentState = .logicAudit ∨ d.currentState = .autoMerge ∨
    d.executionStatus = .completed
  | _ => false

/-- What the gates are for. -/
structure GateSafe (t : List (Event τ)) : Prop where
  merge : Always (fun a e => e.isMerge = true → (gateResults a).Passed) t
  toolError : ∀ b,afterSast t = some (.toolError,b) → ∀ e ∈ b,e.goesOn = false

/-- The last SAST run has met a tool error, and the diff asked for next was computed. -/
def SastErrorPassedOver (t : List (Event τ)) : Prop :=
  ∃ base r res b,afterSast t = some (.toolError,.git (.diff base) r res::b) ∧ res.ok = true

/-- No merge has been tried. -/
def Unmerged (t : List (Event τ)) : Prop := ∀ e ∈ t,e.isMerge = false

/-- The events after a SAST run that has been followed by the logic audit. -/
def WentOn (b : List (Event τ)) : Prop :=
  ∃ base r res diff role c,
    b = .git (.diff base) r res::.executeLogicSecurityAudit diff role::c ∧ res.ok = true

/-- Any tool error of the last SAST run has been followed by the logic audit. -/
def Covered (t : List (Event τ)) : Prop := ∀ b,afterSast t = some (.toolError,b) → WentOn b

structure Quiet (t : List (Event τ)) : Prop where
  unmerged : Unmerged t
  covered : Covered t

/-- The gates before the scan have passed, and no finding has been confirmed. -/
structure GateResults.Tested (g : GateResults) : Prop where
  diff : g.diff = some true
  tests : g.tests = some true
  clean : g.truePositive = false

/-- The scan is over; after a tool error the events since then meet `P`. -/
structure Scanned (P : List (Event τ) → Prop) (t : List (Event τ)) : Prop where
  unmerged : Unmerged t
  tested : (gateResults t).Tested
  sast : ∃ code b,(gateResults t).sast = some code ∧ afterSast t = some (code,b) ∧
    (code = .toolError → P b)

/-- Every merge followed passed gates, or the last SAST run met a tool error. -/
structure MergeExcused (t : List (Event τ)) : Prop where
  merge : Always (fun a e => e.isMerge = true → (gateResults a).Passed) t ∨
    ∃ b,afterSast t = some (.toolError,b)
  covered : Covered t

/-- What is known of the events of `run_pipeline` at each of its points. -/
def Point.GateFacts : Point → List (Event τ) → Prop
  | .staging,t => Quiet t ∧ (gateResults t).truePositive = false
  | .committing,t => Quiet t ∧ (gateResults t).truePositive = false
  | .committed,t => Quiet t ∧ (gateResults t).truePositive = false
  | .diffGating,t => Quiet t ∧ (gateResults t).truePositive = false
  | .diffPassed,t => Quiet t ∧ (gateResults t).truePositive = false ∧
    (gateResults t).diff = some true
  | .testing,t => Quiet t ∧ (gateResults t).truePositive = false ∧
    (gateResults t).diff = some true
  | .testsPassed,t => Quiet t ∧ (gateResults t).Tested
  | .scanning,t => Quiet t ∧ (gateResults t).Tested
  | .filterPending,t => Scanned (fun _ => False) t
  | .filtering,t => Scanned (fun _ => False) t
  | .scanned,t => Scanned (fun b => b = []) t
  | .auditPending _ _,t => Scanned (fun b => ∃ base r res,b = [.git (.diff base) r res] ∧
    res.ok = true) t
  | .auditing _ _,t => Scanned WentOn t
  | .asking _ _ _,t => Scanned WentOn t
  | .querying _ _ _,t => Scanned WentOn t
  | .recording _,t => Scanned WentOn t
  | .approved _,t => Scanned WentOn t
  | .mergePending _,t => Scanned WentOn t ∧ (gateResults t).audit = some true
  | .detaching _,t => Scanned WentOn t ∧ (gateResults t).audit = some true
  | .merging _,t => Scanned WentOn t ∧ (gateResults t).audit = some true
  | .fastForwarded _,t => Scanned WentOn t ∧ (gateResults t).audit = some true
  | .merged _,t => MergeExcused t
  | .mergeFailed _ _,t => MergeExcused t
  | .completed,t => MergeExcused t
  | .failing,t => MergeExcused t
  | .crashReport,t => MergeExcused t
  | .halted,t => MergeExcused t
  | .refused,t => MergeExcused t
  | .crashed,t => Unmerged t ∧ ∀ b,afterSast t = some (.toolError,b) →
    WentOn b ∨ ∃ base r res,b = [.git (.diff base) r res] ∧ res.ok = false
  | _,t => Quiet t

section facts

variable {t : List (Event τ)} {e : Event τ}

theorem Unmerged.append (h : Unmerged t) (he : e.isMerge = false) : Unmerged (t++[e]) := by
  intro e' he'
  rcases List.mem_append.mp he' with he' | he'
  · exact h e' he'
  · rw [List.mem_singleton.mp he']
    exact he

theorem WentOn.append {b : List (Event τ)} (h : WentOn b) (e : Event τ) : WentOn (b++[e]) := by
  obtain ⟨base,r,res,diff,role,c,rfl,hok⟩ := h
  exact ⟨base,r,res,diff,role,c++[e],rfl,hok⟩

/-- The tail after the last SAST run, one event earlier. -/
theorem afterSast_append {code : SastExit} {b : List (Event τ)} (he : e.isSast = false)
    (h : afterSast (t++[e]) = some (code,b)) : ∃ b',afterSast t = some (code,b') ∧ b = b'++[e] := by
  rw [afterSast_other t e he] at h
  obtain ⟨⟨code',b'⟩,hb,heq⟩ := Option.map_eq_some_iff.mp h
  cases heq
  exact ⟨b',hb,rfl⟩

theorem Covered.append (h : Covered t) (he : e.isSast = false) : Covered (t++[e]) := by
  intro b hb
  obtain ⟨b',hb',rfl⟩ := afterSast_append he hb
  exact (h b' hb').append e

theorem Quiet.append (h : Quiet t) (he : e.isSast = false) (hm : e.isMerge = false) :
    Quiet (t++[e]) :=
  ⟨h.unmerged.append hm,h.covered.append he⟩

theorem Unmerged.mergeExcused (h : Unmerged t) (hc : Covered t) : MergeExcused t := by
  refine ⟨.inl fun a e b hab hm => ?_,hc⟩
  have he : e ∈ t := by
    rw [hab]
    simp
  rw [h e he] at hm
  cases hm

theorem MergeExcused.append (h : MergeExcused t) (he : e.isSast = false)
    (hm : e.isMerge = false) : MergeExcused (t++[e]) := by
  refine ⟨?_,h.covered.append he⟩
  rcases h.merge with ha | ⟨b,hb⟩
  · exact .inl (ha.append fun h => by rw [hm] at h; cases h)
  · refine .inr ⟨b++[e],?_⟩
    rw [afterSast_other t e he,hb]
    rfl

/-- Events that are not the answer of a gate. -/
def Event.isPlain : Event τ → Bool
  | .generateCodeAndTests _ _ => false
  | .validateDiff _ _ => false
  | .runTests _ _ => false
  | .runSast _ _ => false
  | .filterSecurityFinding _ _ => false
  | .auditReturned _ => false
  | .executeFastForwardMerge _ _ _ => false
  | _ => true

theorem Event.isPlain.gates (h : e.isPlain = true) (g : GateResults) : g.after e = g := by
  cases e <;> first | rfl | cases h

theorem Event.isPlain.isSast (h : e.isPlain = true) : e.isSast = false := by
  cases e <;> first | rfl | cases h

theorem Event.isPlain.isMerge (h : e.isPlain = true) : e.isMerge = false := by
  cases e <;> first | rfl | cases h

variable {P P' : List (Event τ) → Prop}

theorem Scanned.append (h : Scanned P t) (he : e.isPlain = true)
    (hp : ∀ b,P b → P' (b++[e])) : Scanned P' (t++[e]) := by
  obtain ⟨hu,ht,code,b,hc,hb,herr⟩ := h
  have hg : gateResults (t++[e]) = gateResults t := by
    rw [gateResults_append,Event.isPlain.gates he]
  refine ⟨hu.append (Event.isPlain.isMerge he),hg ▸ ht,code,b++[e],hg ▸ hc,?_,
    fun hcode => hp b (herr hcode)⟩
  rw [afterSast_other t e (Event.isPlain.isSast he),hb]
  rfl

theorem Scanned.mono (h : Scanned P t) (hp : ∀ b,P b → P' b) : Scanned P' t := by
  obtain ⟨hu,ht,code,b,hc,hb,herr⟩ := h
  exact ⟨hu,ht,code,b,hc,hb,fun hcode => hp b (herr hcode)⟩

theorem Scanned.covered (h : Scanned P t) (hp : ∀ b,P b → WentOn b) : Covered t := by
  obtain ⟨_,_,code,b,_,hb,herr⟩ := h
  intro b' hb'
  rw [hb] at hb'
  cases hb'
  exact hp b (herr rfl)

theorem Scanned.quiet (h : Scanned P t) (hp : ∀ b,P b → WentOn b) : Quiet t :=
  ⟨h.unmerged,h.covered hp⟩

theorem Quiet.mergeExcused (h : Quiet t) : MergeExcused t := h.unmerged.mergeExcused h.covered

/-- The points whose facts survive any event that is not the answer of a gate. -/
def Point.isSteady : Point → Bool
  | .scanned => false
  | .auditPending _ _ => false
  | .crashed => false
  | _ => true

theorem Point.GateFacts.append {q : Point} (h : q.GateFacts t) (hq : q.isSteady = true)
    (he : e.isPlain = true) : q.GateFacts (t++[e]) := by
  have hs := Event.isPlain.isSast he
  have hm := Event.isPlain.isMerge he
  have hg : gateResults (t++[e]) = gateResults t := by
    rw [gateResults_append,Event.isPlain.gates he]
  have went (h : Scanned WentOn t) : Scanned WentOn (t++[e]) :=
    h.append he fun _ hb => hb.append e
  cases q with
  | scanned => cases hq
  | auditPending => cases hq
  | crashed => cases hq
  | staging => exact ⟨h.1.append hs hm,hg ▸ h.2⟩
  | committing => exact ⟨h.1.append hs hm,hg ▸ h.2⟩
  | committed => exact ⟨h.1.append hs hm,hg ▸ h.2⟩
  | diffGating => exact ⟨h.1.append hs hm,hg ▸ h.2⟩
  | diffPassed => exact ⟨h.1.append hs hm,hg ▸ h.2⟩
  | testing => exact ⟨h.1.append hs hm,hg ▸ h.2⟩
  | testsPassed => exact ⟨h.1.append hs hm,hg ▸ h.2⟩
  | scanning => exact ⟨h.1.append hs hm,hg ▸ h.2⟩
  | filterPending => exact Scanned.append h he fun _ hf => hf
  | filtering => exact Scanned.append h he fun _ hf => hf
  | auditing => exact went h
  | asking => exact went h
  | querying => exact went h
  | recording => exact went h
  | approved => exact went h
  | mergePending => exact ⟨went h.1,hg ▸ h.2⟩
  | detaching => exact ⟨went h.1,hg ▸ h.2⟩
  | merging => exact ⟨went h.1,hg ▸ h.2⟩
  | fastForwarded => exact ⟨went h.1,hg ▸ h.2⟩
  | merged => exact MergeExcused.append h hs hm
  | mergeFailed => exact MergeExcused.append h hs hm
  | completed => exact MergeExcused.append h hs hm
  | failing => exact MergeExcused.append h hs hm
  | crashReport => exact MergeExcused.append h hs hm
  | halted => exact MergeExcused.append h hs hm
  | refused => exact MergeExcused.append h hs hm
  | _ => exact Quiet.append h hs hm

end facts

section steps

variable {p q : Point} {d d' : StateData} {t : List (Event τ)}

theorem Enters.gateFacts {st : FsmState} {details : String} (h : Enters text p st details q)
    (hl : p.ofPipeline = true) (hp : p.GateFacts t) : q.GateFacts (t++[.save d]) := by
  have hq : q.isSteady = true := by
    cases h with
    | resumeAudit => cases hl
    | _ => rfl
  refine Point.GateFacts.append ?_ hq rfl
  cases h with
  | resumeAudit => cases hl
  | recovered => cases hl
  | halt => exact Quiet.mergeExcused hp
  | _ => exact hp

theorem Writes.gateFacts (h : Writes d p d' q) (hl : p.ofPipeline = true)
    (hp : p.GateFacts t) : q.GateFacts (t++[.save d']) := by
  have hq : q.isSteady = true := by
    cases h <;> first | rfl | (split_ifs <;> rfl)
  refine Point.GateFacts.append ?_ hq rfl
  cases h with
  | specRetry => split_ifs <;> exact hp
  | logicReplan => split_ifs <;> exact hp
  | securityReplan => split_ifs <;> exact hp
  | completeRecovered => cases hl
  | _ => exact hp

theorem Answers.gateFacts {p : Program} {left : List Candidate}
    {res : Except PyExc LogicAuditOutput} (h : Answers p left res q)
    (hs : Scanned WentOn t) : q.isSteady = true ∧ q.GateFacts t := by
  have hquiet := hs.quiet fun _ hb => hb
  cases h with
  | unavailable => exact ⟨rfl,hs⟩
  | pass => exact ⟨rfl,hs⟩
  | _ => exact ⟨rfl,hquiet⟩

theorem Quiet.crashed (h : Quiet t) : Point.crashed.GateFacts t :=
  ⟨h.unmerged,fun b hb => .inl (h.covered b hb)⟩

/-- The scan itself: its code is the last one, with nothing after it. -/
theorem Quiet.scanned (h : Quiet t) (ht : (gateResults t).Tested) (files : τ) (code : SastExit)
    {P : List (Event τ) → Prop} (hp : code = .toolError → P []) :
    Scanned P (t++[.runSast files code]) := by
  refine ⟨h.unmerged.append rfl,?_,code,[],?_,afterSast_sast t files code,hp⟩
  · rw [gateResults_append]
    exact ⟨ht.diff,ht.tests,ht.clean⟩
  · rw [gateResults_append]
    rfl

/-- The filter looks at a finding and does not confirm it. -/
theorem Scanned.filtered (h : Scanned (fun _ => False) t) (f : Finding)
    (out : SecurityFilterOutput) (ho : out.classification ≠ .truePositive) :
    Scanned (fun _ => False) (t++[.filterSecurityFinding f (.ok out)]) := by
  obtain ⟨hu,⟨hd,hr,hn⟩,code,b,hc,hb,herr⟩ := h
  have hg : gateResults (t++[.filterSecurityFinding f (.ok out)]) = gateResults t := by
    rw [gateResults_append,GateResults.after,decide_eq_false ho,Bool.or_false]
  refine ⟨hu.append rfl,hg ▸ ⟨hd,hr,hn⟩,code,b++[.filterSecurityFinding f (.ok out)],hg ▸ hc,?_,
    herr⟩
  rw [afterSast_other t _ rfl,hb]
  rfl

theorem Scanned.diffed (h : Scanned (fun b => b = []) t) (base : String) (r : Repo τ)
    (res : CommandResult) (hok : res.ok = true) :
    Point.GateFacts (.auditPending .pipeline res.stdout) (t++[.git (.diff base) r res]) := by
  refine h.append rfl ?_
  intro b heq
  subst heq
  exact ⟨base,r,res,rfl,hok⟩

theorem Scanned.diffFailed (h : Scanned (fun b => b = []) t) (base : String) (r : Repo τ)
    (res : CommandResult) (hok : ¬res.ok = true) :
    Point.crashed.GateFacts (t++[.git (.diff base) r res]) := by
  obtain ⟨hu,_,code,b,_,hb,herr⟩ := h
  refine ⟨hu.append rfl,fun b' hb' => .inr ?_⟩
  obtain ⟨b'',hb'',rfl⟩ := afterSast_append rfl hb'
  rw [hb] at hb''
  cases hb''
  rw [herr rfl]
  exact ⟨base,r,res,rfl,by simpa using hok⟩

/-- The audit has passed. -/
theorem Scanned.approved (h : Scanned WentOn t) :
    Point.GateFacts (.mergePending .pipeline) (t++[.auditReturned true]) := by
  obtain ⟨hu,⟨hd,hr,hn⟩,code,b,hc,hb,herr⟩ := h
  have hg := gateResults_append t (.auditReturned true)
  refine ⟨⟨hu.append rfl,?_,code,b++[.auditReturned true],?_,?_,fun hcode => ?_⟩,?_⟩
  · rw [hg]
    exact ⟨hd,hr,hn⟩
  · rw [hg]
    exact hc
  · rw [afterSast_other t _ rfl,hb]
    rfl
  · exact (herr hcode).append _
  · rw [hg]
    rfl

/-- A merge that is tried now has passed the gates, unless the scan met a tool error. -/
theorem Scanned.mergeExcused (h : Scanned WentOn t) (ha : (gateResults t).audit = some true)
    {e : Event τ} (he : e.isSast = false) : MergeExcused (t++[e]) := by
  refine ⟨?_,(h.covered fun _ hb => hb).append he⟩
  obtain ⟨hu,⟨hd,hr,hn⟩,code,b,hc,hb,_⟩ := h
  cases code with
  | toolError =>
    refine .inr ⟨b++[e],?_⟩
    rw [afterSast_other t e he,hb]
    rfl
  | noFindings =>
    refine .inl (Always.append ?_ fun _ => ⟨hd,hr,.inl hc,ha⟩)
    exact fun a e' b' hab hm => absurd hm (by rw [hu e' (by rw [hab]; simp)]; decide)
  | findings =>
    refine .inl (Always.append ?_ fun _ => ⟨hd,hr,.inr ⟨hc,hn⟩,ha⟩)
    exact fun a e' b' hab hm => absurd hm (by rw [hu e' (by rw [hab]; simp)]; decide)

theorem Calls.gateFacts {r r' : Repo τ} {e : Event τ} (h : Calls d r p e r' q)
    (hl : p.ofPipeline = true) (hp : p.GateFacts t) : q.GateFacts (t++[e]) := by
  cases h with
  | discovery b =>
    cases b
    · exact (Quiet.append hp rfl rfl).mergeExcused
    · exact Quiet.append hp rfl rfl
  | generateSpecRaises => exact (Quiet.append hp rfl rfl).crashed
  | worker fb files =>
    refine ⟨Quiet.append hp rfl rfl,?_⟩
    rw [gateResults_append]
    rfl
  | diffGate b vs =>
    have hq := hp.1.append (e := .validateDiff b vs) rfl rfl
    cases b with
    | false => exact hq
    | true =>
      refine ⟨hq,?_,?_⟩ <;> rw [gateResults_append]
      · exact hp.2
      · rfl
  | runTests b =>
    have hq := hp.1.append (e := .runTests r.work b) rfl rfl
    cases b with
    | false => exact hq
    | true =>
      refine ⟨hq,?_⟩
      rw [gateResults_append]
      exact ⟨hp.2.2,rfl,hp.2.1⟩
  | triageRaises => exact (Quiet.append hp rfl rfl).crashed
  | sast code =>
    split_ifs with hf
    · exact hp.1.scanned hp.2 _ _ fun hc => by rw [hf] at hc; cases hc
    · exact hp.1.scanned hp.2 _ _ fun _ => rfl
  | filter f out =>
    split_ifs with ho
    · have hq := Scanned.quiet hp fun _ => False.elim
      exact hq.append rfl rfl
    · exact Scanned.filtered hp f out ho
  | filterRaises f e =>
    have hq := Scanned.quiet hp fun _ => False.elim
    exact (hq.append rfl rfl).crashed
  | diff base res =>
    split_ifs with hok
    · exact Scanned.diffed hp base r res hok
    · exact Scanned.diffFailed hp base r res hok
  | diffAgain => cases hl
  | audit p diff role =>
    refine Scanned.append hp rfl ?_
    intro _ hparts
    obtain ⟨base,r,res,rfl,hok⟩ := hparts
    exact ⟨base,r,res,diff,role,[],rfl,hok⟩
  | unknownProvider =>
    have hq := Scanned.quiet hp fun _ hb => hb
    exact hq.append rfl rfl
  | query p c left client res q h =>
    obtain ⟨hs,hq⟩ := h.gateFacts hp
    exact hq.append hs rfl
  | approve p =>
    obtain rfl : p = .pipeline := of_decide_eq_true hl
    exact Scanned.approved hp
  | reject p =>
    obtain rfl : p = .pipeline := of_decide_eq_true hl
    exact Quiet.append hp rfl rfl
  | haltedAudit => exact MergeExcused.append hp rfl rfl
  | suspendedAudit => exact (Quiet.append hp rfl rfl).mergeExcused
  | ancestor => cases hl
  | checkMerge => cases hl
  | checkAudit => cases hl
  | mergePassed => exact hp.1.mergeExcused hp.2 rfl
  | mergeRefused => exact hp.1.mergeExcused hp.2 rfl
  | _ =>
    first
    | exact Point.GateFacts.append hp rfl rfl
    | (split_ifs <;> exact Point.GateFacts.append hp rfl rfl)

theorem Chooses.gateFacts (h : Chooses d p q) (hl : p.ofPipeline = true)
    (hp : p.GateFacts t) : q.GateFacts t := by
  cases h with
  | specUnread => exact Quiet.crashed hp
  | workerRaises => exact Quiet.crashed hp.1
  | auditUnread => exact (Scanned.quiet hp fun _ hb => hb).crashed
  | filtered => exact Scanned.mono hp fun _ => False.elim
  | exhausted p => exact Scanned.quiet hp fun _ hb => hb
  | refuseMerge => exact Quiet.mergeExcused hp
  | allowMerge => cases hl
  | leaveMerge => cases hl
  | startMerge => cases hl
  | failedAgain => exact hp
  | refuseAudit => exact Quiet.mergeExcused hp
  | allowAudit => cases hl
  | leaveAudit => cases hl
  | _ => exact hp

end steps

/-- The end of a run: merges are excused, and a tool error of the last SAST run has led to
the logic audit unless the diff could not be computed. -/
structure EndFacts (t : List (Event τ)) : Prop where
  merge : Always (fun a e => e.isMerge = true → (gateResults a).Passed) t ∨
    ∃ b,afterSast t = some (.toolError,b) ∧ WentOn b
  toolError : ∀ b,afterSast t = some (.toolError,b) →
    WentOn b ∨ ∃ base r res,b = [.git (.diff base) r res] ∧ res.ok = false

theorem Point.GateFacts.ends {q : Point} {t : List (Event τ)} (h : q.GateFacts t)
    (hq : q.isFinal = true) : EndFacts t := by
  have excused (h : MergeExcused t) : EndFacts t := by
    refine ⟨?_,fun b hb => .inl (h.covered b hb)⟩
    rcases h.merge with ha | ⟨b,hb⟩
    · exact .inl ha
    · exact .inr ⟨b,hb,h.covered b hb⟩
  cases q with
  | completed => exact excused h
  | halted => exact excused h
  | refused => exact excused h
  | suspended => exact excused (Quiet.mergeExcused h)
  | crashed =>
    refine ⟨.inl fun a e b hab hm => ?_,h.2⟩
    rw [h.1 e (by rw [hab]; simp)] at hm
    cases hm
  | _ => cases hq

theorem pipeline_endFacts (env : Env τ) (past : List (Event τ)) (repo : Repo τ) :
    EndFacts (Program.events .pipeline env past repo) := by
  have hnil : Quiet ([] : List (Event τ)) :=
    ⟨fun e he => absurd he List.not_mem_nil,fun b hb => by cases hb⟩
  obtain ⟨q,_,hq,hi⟩ := pipeline_keeps_trees (I := fun p _ t => p.GateFacts t) env past repo hnil
    (fun _ _ hi => ⟨hi,fun _ => Quiet.append hi rfl rfl⟩)
    (fun _ _ _ _ _ _ _ h hl hp => h.gateFacts hl hp)
    (fun _ _ _ _ _ _ h hl hp => h.gateFacts hl hp)
    (fun _ _ _ _ _ _ _ h hl hp => h.gateFacts hl hp)
    (fun _ _ _ _ _ h hl hp => h.gateFacts hl hp)
  exact hi.ends hq

/-- The gates of `run_pipeline` do what they are for in exactly those runs in which the last
SAST run meets no tool error or the diff asked for next cannot be computed. -/
theorem pipeline_gateSafe_iff (env : Env τ) (past : List (Event τ)) (repo : Repo τ) :
    GateSafe (Program.events .pipeline env past repo) ↔
      ¬SastErrorPassedOver (Program.events .pipeline env past repo) := by
  obtain ⟨hmerge,herr⟩ := pipeline_endFacts env past repo
  have went (b : List (Event τ)) (h : WentOn b) : ∃ e ∈ b,e.goesOn = true := by
    obtain ⟨base,r,res,diff,role,c,rfl,_⟩ := h
    exact ⟨.executeLogicSecurityAudit diff role,by simp,rfl⟩
  constructor
  · intro hparts hboth
    obtain ⟨_,hclosed⟩ := hparts
    obtain ⟨base,r,res,b,hb,hok⟩ := hboth
    rcases herr _ hb with hw | ⟨base',r',res',heq,hno⟩
    · obtain ⟨e,he,hgo⟩ := went _ hw
      rw [hclosed _ hb e he] at hgo
      cases hgo
    · cases heq
      rw [hno] at hok
      cases hok
  · intro hn
    have passed (b : List (Event τ)) (hb : afterSast (Program.events .pipeline env past repo) =
        some (.toolError,b)) (hw : WentOn b) : False := by
      obtain ⟨base,r,res,diff,role,c,rfl,hok⟩ := hw
      exact hn ⟨base,r,res,_,hb,hok⟩
    refine ⟨?_,fun b hb e he => ?_⟩
    · rcases hmerge with ha | ⟨b,hb,hw⟩
      · exact ha
      · exact (passed b hb hw).elim
    · rcases herr b hb with hw | ⟨base,r,res,rfl,_⟩
      · exact (passed b hb hw).elim
      · rw [List.mem_singleton.mp he]
        rfl

/-- The SAST tools are not installed. -/
def brokenScanner : Env Nat := { calmEnv with runSast := fun _ => (.toolError,[]) }

/-- `run_pipeline` on a fresh task without a working scanner. -/
def unscannedTask : List (Event Nat) := Program.events .pipeline brokenScanner [] freshRepo

/-- After a tool error the task is audited, merged and completed. -/
theorem unscannedTask_merged : (unscannedTask.any fun e => match e with
      | .executeFastForwardMerge passed _ _ => passed
      | _ => false) = true ∧ ¬GateSafe unscannedTask := by
  have hgoes : ((afterSast unscannedTask).any fun p =>
      decide (p.1 = .toolError) && p.2.any Event.goesOn) = true := by
    rw [unscannedTask,Program.events,Program.traced]
    decide +kernel
  refine ⟨?_,fun h => ?_⟩
  · rw [unscannedTask,Program.events,Program.traced]
    decide +kernel
  · obtain ⟨⟨code,b⟩,hb,hp⟩ := (Option.any_eq_true _ _).mp hgoes
    obtain ⟨hcode,hany⟩ := Bool.and_eq_true_iff.mp hp
    obtain rfl : code = .toolError := of_decide_eq_true hcode
    obtain ⟨e,he,hgo⟩ := List.any_eq_true.mp hany
    rw [h.toolError b hb e he] at hgo
    cases hgo

end SoftwareFactory
