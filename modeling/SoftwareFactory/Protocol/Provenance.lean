import SoftwareFactory.Lib.Trace
import SoftwareFactory.Protocol.PipelineRun

namespace SoftwareFactory

open Process

variable {τ : Type} {text : String → String}

/-- The file trees the gates have been given since the Worker was invoked last. -/
structure Verified (τ : Type) where
  tested : Option τ
  scanned : Option τ
  diffed : Option (τ × String)
  audited : Option τ
  deriving DecidableEq, Repr

namespace Verified

/-- The audit is given a text: it stands for the tree whose diff that text is. -/
def after (v : Verified τ) : Event τ → Verified τ
  | .generateCodeAndTests _ _ => ⟨none,none,none,none⟩
  | .runTests files _ => { v with tested := some files }
  | .runSast files _ => { v with scanned := some files }
  | .git (.diff _) before res => { v with diffed := some (before.head,res.stdout) }
  | .executeLogicSecurityAudit diff _ =>
    { v with audited := v.diffed.bind fun p => if p.2 = diff then some p.1 else none }
  | _ => v

/-- Tests, scan and audit have all been given `tree`. -/
structure Is (v : Verified τ) (tree : τ) : Prop where
  tested : v.tested = some tree
  scanned : v.scanned = some tree
  audited : v.audited = some tree

end Verified

def verified (t : List (Event τ)) : Verified τ := t.foldl Verified.after ⟨none,none,none,none⟩

@[simp] theorem verified_append (t : List (Event τ)) (e : Event τ) :
    verified (t++[e]) = (verified t).after e := by
  simp [verified]

/-- The trees the last `git commit` found, and its result. -/
def lastCommit (t : List (Event τ)) : Option (Repo τ × CommandResult) :=
  t.foldl (fun c e => match e with
    | .git (.commit _) before res => some (before,res)
    | _ => c) none

/-- Every successful merge leaves the tree on the base branch that tests, scan and audit
were given. -/
def MergesVerified (t : List (Event τ)) : Prop :=
  Always (fun a e => ∀ m tree,e = .executeFastForwardMerge true m tree → (verified a).Is tree) t

/-- After this `git commit` the task branch has the files of the worktree: it succeeds and
all of them are in the index, or it fails and the branch has them already. -/
def CommitsWork (before : Repo τ) (res : CommandResult) : Prop :=
  if res.ok then before.index = before.work else before.head = before.work

def WorkCommitted (t : List (Event τ)) : Prop :=
  ∃ before res,lastCommit t = some (before,res) ∧ CommitsWork before res

/-- Before every successful merge the last commit has taken all files of the worktree. -/
def MergesCommitted (t : List (Event τ)) : Prop :=
  Always (fun a e => ∀ m tree,e = .executeFastForwardMerge true m tree → WorkCommitted a) t

/-- The two conditions agree at every merge. -/
def MergesTraced (t : List (Event τ)) : Prop :=
  Always (fun a e => ∀ m tree,e = .executeFastForwardMerge true m tree →
    ((verified a).Is tree ↔ WorkCommitted a)) t

/-- What the last commit found has become the trees `r`. -/
structure Committed (r : Repo τ) (t : List (Event τ)) : Prop where
  traced : MergesTraced t
  commit : ∃ before res,lastCommit t = some (before,res) ∧ r.work = before.work ∧
    r.head = if res.ok then before.index else before.head

/-- The merge gate has been reached; everything was given either the working files or the
tip of the task branch. -/
structure Gated (r : Repo τ) (t : List (Event τ)) : Prop extends Committed r t where
  tested : (verified t).tested = some r.work
  scanned : (verified t).scanned = some r.work
  audited : (verified t).audited = some r.head

/-- What is known of trees and events at each point of `run_pipeline`. -/
def Point.TreeFacts : Point → Repo τ → List (Event τ) → Prop
  | .committed,r,t => Committed r t
  | .diffGating,r,t => Committed r t
  | .diffPassed,r,t => Committed r t
  | .testing,r,t => Committed r t
  | .testsPassed,r,t => Committed r t ∧ (verified t).tested = some r.work
  | .scanning,r,t => Committed r t ∧ (verified t).tested = some r.work
  | .filterPending,r,t => Committed r t ∧ (verified t).tested = some r.work ∧
    (verified t).scanned = some r.work
  | .filtering,r,t => Committed r t ∧ (verified t).tested = some r.work ∧
    (verified t).scanned = some r.work
  | .scanned,r,t => Committed r t ∧ (verified t).tested = some r.work ∧
    (verified t).scanned = some r.work
  | .auditPending _ diff,r,t => Committed r t ∧ (verified t).tested = some r.work ∧
    (verified t).scanned = some r.work ∧ (verified t).diffed = some (r.head,diff)
  | .auditing _ _,r,t => Gated r t
  | .asking _ _ _,r,t => Gated r t
  | .querying _ _ _,r,t => Gated r t
  | .recording _,r,t => Gated r t
  | .approved _,r,t => Gated r t
  | .mergePending _,r,t => Gated r t
  | .detaching _,r,t => Gated r t
  | .merging _,r,t => Gated r t
  | .fastForwarded _,r,t => Gated r t ∧ r.base = r.head
  | _,_,t => MergesTraced t

section facts

variable {t : List (Event τ)} {e : Event τ} {r : Repo τ}

/-- Events that give nothing to a gate, commit nothing and merge nothing. -/
def Event.isSilent : Event τ → Bool
  | .generateCodeAndTests _ _ => false
  | .runTests _ _ => false
  | .runSast _ _ => false
  | .git (.diff _) _ _ => false
  | .git (.commit _) _ _ => false
  | .executeLogicSecurityAudit _ _ => false
  | .executeFastForwardMerge _ _ _ => false
  | _ => true

theorem verified_silent (he : e.isSilent = true) : verified (t++[e]) = verified t := by
  rw [verified_append]
  cases e with
  | git cmd => cases cmd <;> first | rfl | cases he
  | _ => first | rfl | cases he

/-- Only commits and merges matter for what is traced. -/
def Event.isCommit : Event τ → Bool
  | .git (.commit _) _ _ => true
  | _ => false

theorem lastCommit_other (he : e.isCommit = false) : lastCommit (t++[e]) = lastCommit t := by
  unfold lastCommit
  rw [List.foldl_append]
  cases e with
  | git cmd => cases cmd <;> first | rfl | cases he
  | _ => rfl

def Event.isMerged : Event τ → Bool
  | .executeFastForwardMerge passed _ _ => passed
  | _ => false

theorem MergesTraced.append (h : MergesTraced t) (he : e.isMerged = false) :
    MergesTraced (t++[e]) := by
  refine Always.append h fun m tree hm => ?_
  rw [hm] at he
  cases he

theorem Committed.append (h : Committed r t) (hc : e.isCommit = false)
    (hm : e.isMerged = false) : Committed r (t++[e]) := by
  obtain ⟨ht,before,res,hl,hw,hh⟩ := h
  refine ⟨ht.append hm,before,res,?_,hw,hh⟩
  rw [lastCommit_other hc]
  exact hl

theorem Event.isSilent.isCommit (h : e.isSilent = true) : e.isCommit = false := by
  cases e with
  | git cmd => cases cmd <;> first | rfl | cases h
  | _ => rfl

theorem Event.isSilent.isMerged (h : e.isSilent = true) : e.isMerged = false := by
  cases e <;> first | rfl | cases h

theorem Gated.append (h : Gated r t) (he : e.isSilent = true) : Gated r (t++[e]) := by
  obtain ⟨hc,ht,hs,ha⟩ := h
  have hv : verified (t++[e]) = verified t := verified_silent he
  refine ⟨hc.append (Event.isSilent.isCommit he) (Event.isSilent.isMerged he),?_,?_,?_⟩ <;> rw [hv]
  · exact ht
  · exact hs
  · exact ha

theorem Point.TreeFacts.traced {p : Point} (h : p.TreeFacts r t) : MergesTraced t := by
  cases p with
  | committed => exact Committed.traced h
  | diffGating => exact Committed.traced h
  | diffPassed => exact Committed.traced h
  | testing => exact Committed.traced h
  | testsPassed => exact h.1.traced
  | scanning => exact h.1.traced
  | filterPending => exact h.1.traced
  | filtering => exact h.1.traced
  | scanned => exact h.1.traced
  | auditPending => exact h.1.traced
  | auditing => exact (Gated.toCommitted h).traced
  | asking => exact (Gated.toCommitted h).traced
  | querying => exact (Gated.toCommitted h).traced
  | recording => exact (Gated.toCommitted h).traced
  | approved => exact (Gated.toCommitted h).traced
  | mergePending => exact (Gated.toCommitted h).traced
  | detaching => exact (Gated.toCommitted h).traced
  | merging => exact (Gated.toCommitted h).traced
  | fastForwarded => exact h.1.traced
  | _ => exact h

theorem Point.TreeFacts.append {p : Point} (h : p.TreeFacts r t) (he : e.isSilent = true) :
    p.TreeFacts r (t++[e]) := by
  have hc := Event.isSilent.isCommit he
  have hm := Event.isSilent.isMerged he
  have hv : verified (t++[e]) = verified t := verified_silent he
  cases p with
  | committed => exact Committed.append h hc hm
  | diffGating => exact Committed.append h hc hm
  | diffPassed => exact Committed.append h hc hm
  | testing => exact Committed.append h hc hm
  | testsPassed => exact ⟨h.1.append hc hm,hv ▸ h.2⟩
  | scanning => exact ⟨h.1.append hc hm,hv ▸ h.2⟩
  | filterPending => exact ⟨h.1.append hc hm,hv ▸ h.2⟩
  | filtering => exact ⟨h.1.append hc hm,hv ▸ h.2⟩
  | scanned => exact ⟨h.1.append hc hm,hv ▸ h.2⟩
  | auditPending => exact ⟨h.1.append hc hm,hv ▸ h.2⟩
  | auditing => exact Gated.append h he
  | asking => exact Gated.append h he
  | querying => exact Gated.append h he
  | recording => exact Gated.append h he
  | approved => exact Gated.append h he
  | mergePending => exact Gated.append h he
  | detaching => exact Gated.append h he
  | merging => exact Gated.append h he
  | fastForwarded => exact ⟨h.1.append he,h.2⟩
  | _ => exact MergesTraced.append h hm

end facts

section steps

variable {p q : Point} {d d' : StateData} {r r' : Repo τ} {t : List (Event τ)}

theorem Enters.treeFacts {st : FsmState} {details : String} (h : Enters text p st details q)
    (hp : p.TreeFacts r t) : q.TreeFacts r (t++[.save d]) := by
  refine Point.TreeFacts.append ?_ rfl
  cases h <;> exact hp

theorem Writes.treeFacts (h : Writes d p d' q) (hp : p.TreeFacts r t) :
    q.TreeFacts r (t++[.save d']) := by
  refine Point.TreeFacts.append ?_ rfl
  cases h <;> first | exact hp | (split_ifs <;> exact hp)

theorem Answers.treeFacts {p : Program} {left : List Candidate}
    {res : Except PyExc LogicAuditOutput} (h : Answers p left res q) (hg : Gated r t) :
    q.TreeFacts r t := by
  have ht := hg.traced
  cases h <;> first | exact hg | exact ht

theorem Chooses.treeFacts (h : Chooses d p q) (hl : p.ofPipeline = true)
    (hp : p.TreeFacts r t) : q.TreeFacts r t := by
  have ht := hp.traced
  cases h with
  | startMerge => cases hl
  | _ => first | exact hp | exact ht

/-- The commit step, whatever becomes of the two commands. -/
theorem Committed.of_commit (h : MergesTraced t) (m : String) (res : CommandResult) :
    Committed (r.after (.commit m) res) (t++[.git (.commit m) r res]) := by
  refine ⟨h.append rfl,r,res,?_,?_,?_⟩
  · simp [lastCommit]
  · unfold Repo.after
    split_ifs <;> rfl
  · unfold Repo.after
    split_ifs <;> rfl

/-- Where everything has been given the same tree, the commit had taken all the work. -/
theorem Gated.is_iff (h : Gated r t) : (verified t).Is r.head ↔ WorkCommitted t := by
  obtain ⟨⟨_,before,res,hl,hw,hh⟩,ht,hs,ha⟩ := h
  have same : r.head = r.work ↔ CommitsWork before res := by
    unfold CommitsWork
    rw [hh,hw]
    split_ifs <;> exact Iff.rfl
  constructor
  · intro hv
    have heq : r.work = r.head := Option.some.inj (ht.symm.trans hv.tested)
    exact ⟨before,res,hl,same.mp heq.symm⟩
  · intro hparts
    obtain ⟨before',res',hl',hc⟩ := hparts
    cases hl.symm.trans hl'
    have heq := same.mpr hc
    exact ⟨by rw [ht,heq],by rw [hs,heq],ha⟩

/-- A diff asked for later is not what the audit was given. -/
theorem Gated.query (h : Gated r t) {cmd : GitCommand} (hcmd : cmd.isQuery = true)
    (res : CommandResult) : Gated r (t++[.git cmd r res]) := by
  cases cmd with
  | diff base =>
    obtain ⟨hc,ht,hs,ha⟩ := h
    refine ⟨hc.append rfl rfl,?_,?_,?_⟩ <;> rw [verified_append]
    · exact ht
    · exact hs
    · exact ha
  | addAll => cases hcmd
  | commit => cases hcmd
  | mergeFfOnly => cases hcmd
  | _ => exact h.append rfl

theorem Gated.merged (h : Gated r t) (hb : r.base = r.head) (m : String) :
    MergesTraced (t++[.executeFastForwardMerge true m r.base]) := by
  refine Always.append h.traced fun m' tree he => ?_
  cases he
  rw [hb]
  exact h.is_iff

theorem Gated.fastForwarded (h : Gated r t) (branch : String) (res : CommandResult)
    (hok : res.ok = true) :
    Point.TreeFacts (.fastForwarded .pipeline) (r.after (.mergeFfOnly branch) res)
      (t++[.git (.mergeFfOnly branch) r res]) := by
  obtain ⟨hc,ht,hs,ha⟩ := h.append (e := .git (.mergeFfOnly branch) r res) rfl
  have hr : r.after (.mergeFfOnly branch) res = { r with base := r.head } := by
    rw [Repo.after,if_pos hok]
    rfl
  have hh : (r.after (.mergeFfOnly branch) res).head = r.head := by
    rw [hr]
    unfold Repo.head
    cases r.task <;> rfl
  have hw : (r.after (.mergeFfOnly branch) res).work = r.work := by rw [hr]
  obtain ⟨htr,before,res',hl,hwork,hhead⟩ := hc
  refine ⟨⟨⟨htr,before,res',hl,hw.trans hwork,hh.trans hhead⟩,?_,?_,?_⟩,?_⟩
  · rw [hw]
    exact ht
  · rw [hw]
    exact hs
  · rw [hh]
    exact ha
  · rw [hh,hr]

/-- The tests are given the files of the worktree. -/
theorem Committed.runTests (h : Committed r t) : Point.TreeFacts .testsPassed r
    (t++[.runTests r.work true]) := by
  refine ⟨h.append rfl rfl,?_⟩
  rw [verified_append]
  rfl

/-- So is the scan. -/
theorem Point.TreeFacts.runSast (h : Point.TreeFacts .scanning r t) (code : SastExit) :
    Point.TreeFacts .scanned r (t++[.runSast r.work code]) := by
  refine ⟨h.1.append rfl rfl,?_,?_⟩
  · rw [verified_append]
    exact h.2
  · rw [verified_append]
    rfl

/-- The diff stands for the tip of the task branch. -/
theorem Point.TreeFacts.diffed (h : Point.TreeFacts .scanned r t) (base : String)
    (res : CommandResult) :
    Point.TreeFacts (.auditPending .pipeline res.stdout) r (t++[.git (.diff base) r res]) := by
  refine ⟨h.1.append rfl rfl,?_,?_,?_⟩
  · rw [verified_append]
    exact h.2.1
  · rw [verified_append]
    exact h.2.2
  · rw [verified_append]
    rfl

/-- The audit is given the diff of the tip. -/
theorem Point.TreeFacts.audited {p : Program} {diff : String} {role : SecurityRole}
    (h : Point.TreeFacts (.auditPending p diff) r t) :
    Gated r (t++[.executeLogicSecurityAudit diff role]) := by
  obtain ⟨hc,htest,hscan,hdiff⟩ := h
  refine ⟨hc.append rfl rfl,?_,?_,?_⟩
  · rw [verified_append]
    exact htest
  · rw [verified_append]
    exact hscan
  · rw [verified_append]
    simp [Verified.after,hdiff]

theorem Gated.fastForward (h : Gated r t) (branch : String) (res : CommandResult) :
    Point.TreeFacts (if res.ok then .fastForwarded .pipeline else .merging .pipeline)
      (r.after (.mergeFfOnly branch) res) (t++[.git (.mergeFfOnly branch) r res]) := by
  split_ifs with hok
  · exact h.fastForwarded branch res hok
  · have hr : r.after (.mergeFfOnly branch) res = r := by rw [Repo.after,if_neg hok]
    rw [hr]
    exact h.append rfl

theorem Calls.treeFacts {e : Event τ} (h : Calls d r p e r' q) (hl : p.ofPipeline = true)
    (hp : p.TreeFacts r t) : q.TreeFacts r' (t++[e]) := by
  have ht := hp.traced
  cases h with
  | commit m res => exact Committed.of_commit hp m res
  | runTests b =>
    cases b with
    | false => exact ht.append rfl
    | true => exact Committed.runTests hp
  | sast code =>
    have hscanned := Point.TreeFacts.runSast hp code
    split_ifs <;> exact hscanned
  | diff base res =>
    split_ifs
    · exact Point.TreeFacts.diffed hp base res
    · exact ht.append rfl
  | diffAgain => cases hl
  | audit p diff role => exact Point.TreeFacts.audited hp
  | query p c left client res q h => exact (h.treeFacts hp).append rfl
  | fastForward p branch res =>
    obtain rfl : p = .pipeline := of_decide_eq_true hl
    exact Gated.fastForward hp branch res
  | mergePassed p m => exact hp.1.merged hp.2 m
  | approve p =>
    obtain rfl : p = .pipeline := of_decide_eq_true hl
    exact Gated.append hp rfl
  | reject p =>
    obtain rfl : p = .pipeline := of_decide_eq_true hl
    exact ht.append rfl
  | ancestor => cases hl
  | checkGate p cmd res hcmd => exact Gated.query hp hcmd res
  | checkMerge => cases hl
  | checkAudit => cases hl
  | _ =>
    first
    | exact Point.TreeFacts.append hp rfl
    | exact ht.append rfl
    | (split_ifs <;> first | exact Point.TreeFacts.append hp rfl | exact ht.append rfl)

end steps

theorem pipeline_traced (env : Env τ) (past : List (Event τ)) (repo : Repo τ) :
    MergesTraced (Program.events .pipeline env past repo) := by
  obtain ⟨q,r,_,hi⟩ := pipeline_keeps_trees (I := Point.TreeFacts) env past repo Always.nil
    (fun _ _ hi => ⟨hi,fun _ => MergesTraced.append hi rfl⟩)
    (fun _ _ _ _ _ _ _ h _ hp => h.treeFacts hp)
    (fun _ _ _ _ _ _ h _ hp => h.treeFacts hp)
    (fun _ _ _ _ _ _ _ h hl hp => h.treeFacts hl hp)
    (fun _ _ _ _ _ h hl hp => h.treeFacts hl hp)
  exact hi.traced

/-- `run_pipeline` merges what was tested, scanned and audited in exactly those runs that do
not merge or whose last commit has taken all files of the worktree. -/
theorem pipeline_mergesVerified_iff (env : Env τ) (past : List (Event τ)) (repo : Repo τ) :
    MergesVerified (Program.events .pipeline env past repo) ↔
      MergesCommitted (Program.events .pipeline env past repo) := by
  have ht := pipeline_traced env past repo
  constructor
  · intro h a e b hab m tree he
    exact (ht a e b hab m tree he).mp (h a e b hab m tree he)
  · intro h a e b hab m tree he
    exact (ht a e b hab m tree he).mpr (h a e b hab m tree he)

/-- Git refuses to commit: no user name is configured. -/
def anonymousGit : Env Nat :=
  { calmEnv with git := fun _ cmd => match cmd with
      | .commit _ => ⟨128,"","fatal: unable to auto-detect email address"⟩
      | _ => ⟨0,"",""⟩ }

/-- `run_pipeline` on a fresh task without a git identity. -/
def uncommittedTask : List (Event Nat) := Program.events .pipeline anonymousGit [] freshRepo

/-- The tree a merge brings to the base branch, if it goes through. -/
def Event.mergedTree : Event τ → Option τ
  | .executeFastForwardMerge true _ tree => some tree
  | _ => none

theorem Event.mergedTree_eq_some {e : Event τ} {tree : τ} :
    e.mergedTree = some tree ↔ ∃ m,e = .executeFastForwardMerge true m tree := by
  constructor
  · intro h
    cases e with
    | executeFastForwardMerge passed m b =>
      cases passed with
      | true =>
        obtain rfl := Option.some.inj h
        exact ⟨m,rfl⟩
      | false => cases h
    | _ => cases h
  · intro hparts
    obtain ⟨m,rfl⟩ := hparts
    rfl

/-- The worktree with tree 1 is tested and scanned; the merge leaves the base branch at
tree 0. -/
theorem uncommittedTask_unverified : ¬MergesVerified uncommittedTask := by
  have htree : ((uncommittedTask.dropWhile fun e => !e.isMerged).head?.bind Event.mergedTree) =
      some 0 := by
    rw [uncommittedTask,Program.events,Program.traced]
    decide +kernel
  have htested : (verified (uncommittedTask.takeWhile fun e => !e.isMerged)).tested =
      some 1 := by
    rw [uncommittedTask,Program.events,Program.traced]
    decide +kernel
  intro h
  have hsplit := List.takeWhile_append_dropWhile (p := fun e => !e.isMerged)
    (l := uncommittedTask)
  obtain ⟨e,hhead,he⟩ := Option.bind_eq_some_iff.mp htree
  obtain ⟨m,rfl⟩ := Event.mergedTree_eq_some.mp he
  obtain ⟨b,hb⟩ := List.head?_eq_some_iff.mp hhead
  rw [hb] at hsplit
  have hv := (h _ _ _ hsplit.symm m 0 rfl).tested
  rw [htested] at hv
  cases hv

end SoftwareFactory
