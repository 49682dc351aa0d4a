import SoftwareFactory.StageA.StableSnapshot

namespace SoftwareFactory.StageA

open Effect

variable {σ κ α β : Type}

/-- The exception a call ended with, if it did. -/
def Observation.thrown : Observation → Option Thrown
  | .hashP11 (.error t) | .opened (.error t) | .directoryIdentity (.error t)
  | .inventory (.error t) | .holdChild _ (.error t) | .heldIdentity _ (.error t)
  | .readChild _ (.error t) | .digestMutableSet _ (.error t) => some t
  | _ => none

/-- What an outcome says of the calls made on the way to it. -/
def Accounts (new : List Observation) : Except Thrown α → Prop
  | .ok _ => ∀ o ∈ new,o.thrown = none
  | .error t => t = .nonstandard ↔ ∃ o ∈ new,o.thrown = some .nonstandard

/-- Nothing a call throws is lost: code that returns has seen no exception, and it ends
with a non-standard one exactly when a call threw one. -/
def Transparent (m : Eff (Run σ κ) Thrown α) : Prop :=
  ∀ r,∃ new,(m r).2.log = r.log++new ∧ Accounts new (m r).1

theorem transparent_of_silent {m : Eff (Run σ κ) Thrown α} (hlog : ∀ r,(m r).2.log = r.log)
    (herr : ∀ r,(m r).1 ≠ .error .nonstandard) : Transparent m := by
  intro r
  refine ⟨[],by rw [hlog,List.append_nil],?_⟩
  have h := herr r
  cases hm : (m r).1 with
  | ok a => simp [Accounts]
  | error t =>
    rw [hm] at h
    have ht : t ≠ .nonstandard := fun e => h (by rw [e])
    simp [Accounts,ht]

theorem Transparent.pure (a : α) : Transparent (pure a : Eff (Run σ κ) Thrown α) :=
  transparent_of_silent (fun _ => rfl) (fun _ => by simp)

theorem Transparent.record (f : Evidence → Evidence) :
    Transparent (record f : Eff (Run σ κ) Thrown Unit) :=
  transparent_of_silent (fun _ => rfl) (fun _ => by simp [StageA.record])

theorem Transparent.fail (kind : ErrorKind) (object : Str) (profile step message : String) :
    Transparent (fail kind object profile step message : Eff (Run σ κ) Thrown α) :=
  transparent_of_silent (fun _ => rfl) (fun _ => by simp [StageA.fail])

theorem Transparent.failIf (p : Prop) [Decidable p] (kind : ErrorKind)
    (object : Str) (profile step message : String) :
    Transparent (failIf p kind object profile step message : Eff (Run σ κ) Thrown Unit) := by
  rw [StageA.failIf]
  split_ifs
  · exact .fail _ _ _ _ _
  · exact .pure _

theorem Transparent.mapAt (m : FileMap) (key : Str) :
    Transparent (mapAt m key : Eff (Run σ κ) Thrown Str) := by
  rw [StageA.mapAt]
  cases m.lookup key with
  | none => exact transparent_of_silent (fun _ => rfl) (fun _ => by simp)
  | some v => exact .pure v

theorem Transparent.unlogged {op : Eff κ StdException α} :
    Transparent (unlogged (standardOnly op) : Eff (Run σ κ) Thrown α) := by
  refine transparent_of_silent (fun _ => rfl) (fun r => ?_)
  change (standardOnly op r.crypto).1 ≠ _
  rw [standardOnly]
  rcases op r.crypto with ⟨_ | _,_⟩ <;> simp

theorem Transparent.observe {op : Eff σ Thrown α} {o : Except Thrown α → Observation}
    (hok : ∀ a,(o (.ok a)).thrown = none) (herr : ∀ t,(o (.error t)).thrown = some t) :
    Transparent (observe op o : Eff (Run σ κ) Thrown α) := by
  intro r
  refine ⟨[o (op r.world).1],rfl,?_⟩
  change Accounts _ (op r.world).1
  cases (op r.world).1 with
  | ok a => simp [Accounts,hok]
  | error t => simp [Accounts,herr]

theorem Transparent.hashing {op : Eff κ Thrown α} {o : Except Thrown α → Observation}
    (hok : ∀ a,(o (.ok a)).thrown = none) (herr : ∀ t,(o (.error t)).thrown = some t) :
    Transparent (hashing op o : Eff (Run σ κ) Thrown α) := by
  intro r
  refine ⟨[o (op r.crypto).1],rfl,?_⟩
  change Accounts _ (op r.crypto).1
  cases (op r.crypto).1 with
  | ok a => simp [Accounts,hok]
  | error t => simp [Accounts,herr]

theorem Transparent.bind {m : Eff (Run σ κ) Thrown α} {f : α → Eff (Run σ κ) Thrown β}
    (hm : Transparent m) (hf : ∀ a,Transparent (f a)) : Transparent (m >>= f) := by
  intro r
  obtain ⟨new,hlog,hacc⟩ := hm r
  rcases hr : m r with ⟨t | a,r'⟩ <;> rw [hr] at hlog hacc
  · rw [Eff.bind_of_error hr]
    exact ⟨new,hlog,hacc⟩
  · rw [Eff.bind_of_ok hr]
    obtain ⟨new',hlog',hacc'⟩ := hf a r'
    refine ⟨new++new',by rw [hlog',hlog,List.append_assoc],?_⟩
    cases hr' : (f a r').1 with
    | ok c =>
      rw [hr'] at hacc'
      intro o ho
      exact (List.mem_append.mp ho).elim (hacc o) (hacc' o)
    | error t =>
      rw [hr'] at hacc'
      refine hacc'.trans ⟨?_,?_⟩
      · intro h
        obtain ⟨o,ho,hot⟩ := h
        exact ⟨o,List.mem_append_right _ ho,hot⟩
      · intro h
        obtain ⟨o,ho,hot⟩ := h
        rcases List.mem_append.mp ho with ho | ho
        · exact absurd ((hacc o ho).symm.trans hot) (by simp)
        · exact ⟨o,ho,hot⟩

theorem Transparent.catchStandard {m : Eff (Run σ κ) Thrown α} (hm : Transparent m)
    (kind : ErrorKind) (object : Str) (profile step : String) :
    Transparent (catchStandard m (StageA.fail kind object profile step)) := by
  intro r
  obtain ⟨new,hlog,hacc⟩ := hm r
  rw [StageA.catchStandard]
  rcases hr : m r with ⟨t | a,r'⟩ <;> rw [hr] at hlog hacc
  · rw [Eff.catching_error hr]
    cases t with
    | nonstandard => exact ⟨new,hlog,hacc⟩
    | observation f | standard f =>
      refine ⟨new,hlog,iff_of_false ?_ ?_⟩
      · intro h
        cases h
      · intro h
        cases hacc.mpr h
  · rw [Eff.catching_ok hr]
    exact ⟨new,hlog,hacc⟩

theorem Transparent.owning {m : Eff (Run σ κ) Thrown α} (hm : Transparent m) (destroy : σ → σ) :
    Transparent (Eff.owning (fun r => { r with world := destroy r.world }) m) := hm

theorem Transparent.forEach {f : α → Eff (Run σ κ) Thrown Unit} (hf : ∀ a,Transparent (f a))
    (l : List α) : Transparent (Eff.forEach f l) := by
  induction l with
  | nil => exact .pure _
  | cons a l ih => exact (hf a).bind fun _ => ih

theorem Transparent.checkEntries (entries : List Entry) (f : FixtureCase) (dirId : Str) (step : String) :
    Transparent (checkEntries entries f dirId step : Eff (Run σ κ) Thrown Unit) := by
  rw [StageA.checkEntries]
  generalize [] = seen
  induction entries generalizing seen with
  | nil => exact .pure _
  | cons e es ih =>
    rw [checkEntriesFrom_cons]
    split_ifs
    · exact ih _
    · exact .fail _ _ _ _ _
    · exact .fail _ _ _ _ _
    · exact .fail _ _ _ _ _
    · exact .fail _ _ _ _ _
    · exact ih _

theorem Transparent.holdEntries (session : SnapshotSession σ) (ids : FileMap)
    (entries : List Entry) :
    Transparent (holdEntries session ids entries : Eff (Run σ κ) Thrown FileMap) := by
  induction entries generalizing ids with
  | nil => exact .pure _
  | cons e es ih =>
    rw [StageA.holdEntries]
    split_ifs
    · exact ih _
    · refine (observe (fun _ => rfl) (fun _ => rfl)).bind fun _ => ?_
      refine (observe (fun _ => rfl) (fun _ => rfl)).bind fun id => ?_
      exact (failIf _ _ _ _ _ _).bind fun _ => ih _

theorem Transparent.readEntries (b : BCrypt κ) (session : SnapshotSession σ) (bytes : FileMap)
    (l : List (Str × Str)) :
    Transparent (readEntries b session bytes l : Eff (Run σ κ) Thrown FileMap) := by
  induction l generalizing bytes with
  | nil => exact .pure _
  | cons p l ih =>
    refine (observe (fun _ => rfl) (fun _ => rfl)).bind fun text => ?_
    refine (record _).bind fun _ => ?_
    refine (mapAt _ _).bind fun content => ?_
    refine (catchStandard unlogged _ _ _ _).bind fun hash => ?_
    exact (record _).bind fun _ => ih _

theorem Transparent.recheckEntry (session : SnapshotSession σ) (ids bytes : FileMap)
    (entry : Entry) :
    Transparent (recheckEntry session ids bytes entry : Eff (Run σ κ) Thrown Unit) := by
  rw [StageA.recheckEntry]
  split_ifs
  · exact .pure _
  · refine (mapAt _ _).bind fun _ => (failIf _ _ _ _ _ _).bind fun _ => ?_
    refine (observe (fun _ => rfl) (fun _ => rfl)).bind fun _ => ?_
    refine (mapAt _ _).bind fun _ => (failIf _ _ _ _ _ _).bind fun _ => ?_
    refine (observe (fun _ => rfl) (fun _ => rfl)).bind fun _ => ?_
    exact (mapAt _ _).bind fun _ => failIf _ _ _ _ _ _

theorem Transparent.compareSession (b : BCrypt κ) (provider : SnapshotHashProvider κ)
    (fixture : FixtureCase) (expected : Str) (session : SnapshotSession σ) :
    Transparent (compareSession b provider fixture expected session) := by
  refine (observe (fun _ => rfl) (fun _ => rfl)).bind fun dirId => ?_
  refine (failIf _ _ _ _ _ _).bind fun _ => ?_
  refine (observe (fun _ => rfl) (fun _ => rfl)).bind fun before => ?_
  refine (record _).bind fun _ => (checkEntries _ _ _ _).bind fun _ => ?_
  refine (holdEntries _ _ _).bind fun ids => (readEntries _ _ _ _).bind fun bytes => ?_
  refine (observe (fun _ => rfl) (fun _ => rfl)).bind fun after => ?_
  refine (record _).bind fun _ => (checkEntries _ _ _ _).bind fun _ => ?_
  refine (failIf _ _ _ _ _ _).bind fun _ => ?_
  refine (observe (fun _ => rfl) (fun _ => rfl)).bind fun final => ?_
  refine (failIf _ _ _ _ _ _).bind fun _ => ?_
  refine (forEach (recheckEntry session ids bytes) after).bind fun _ => ?_
  refine (catchStandard (hashing (fun _ => rfl) (fun _ => rfl)) _ _ _ _).bind fun digest => ?_
  exact (record _).bind fun _ => record _

theorem Transparent.headBinding (fixture : FixtureCase) (p11 p10 : Str) :
    Transparent (headBinding fixture p11 p10 : Eff (Run σ κ) Thrown Unit) := by
  rw [StageA.headBinding]
  cases renderP11 fixture p10 with
  | error e => exact .fail _ _ _ _ _
  | ok head => exact .failIf _ _ _ _ _ _

theorem Transparent.compareBody (b : BCrypt κ) (provider : SnapshotHashProvider κ)
    (source : SnapshotSource σ) (fixture : FixtureCase) (expected p11 p10 : Str) :
    Transparent (compareBody b provider source fixture expected p11 p10) := by
  refine (catchStandard (hashing (fun _ => rfl) (fun _ => rfl)) _ _ _ _).bind fun hash => ?_
  refine (record _).bind fun _ => (headBinding _ _ _).bind fun _ => ?_
  refine (observe (fun _ => rfl) (fun _ => rfl)).bind fun opened => ?_
  cases opened with
  | none => exact .fail _ _ _ _ _
  | some session => exact (compareSession _ _ _ _ session).owning session.destroy

/-- The promise: an `Evidence` comes back, it is an inconclusive stop when any call threw,
and only a complete snapshot carries a verdict, then without an error. -/
def FailsClosed (out : Except Thrown Evidence × Run σ κ) : Prop :=
  ∃ e,out.1 = .ok e ∧
    ((∃ o ∈ out.2.log,o.thrown.isSome) →
      e.verdict = .stopInconclusive ∧ e.snapshotComplete = false) ∧
    (e.snapshotComplete = true ↔ e.verdict ≠ .stopInconclusive) ∧
    (e.verdict ≠ .stopInconclusive → e.error = .none)

/-- No call of the run threw anything but a `std::exception`. -/
def StandardOnly (log : List Observation) : Prop := ∀ o ∈ log,o.thrown ≠ some .nonstandard

theorem failsClosed_of_stop {out : Except Thrown Evidence × Run σ κ} {e : Evidence}
    (h : out.1 = .ok e) (hv : e.verdict = .stopInconclusive) (hc : e.snapshotComplete = false) :
    FailsClosed out :=
  ⟨e,h,fun _ => ⟨hv,hc⟩,by simp [hv,hc],fun hne => absurd hv hne⟩

theorem compareImpl_failsClosed_iff (b : BCrypt κ) (provider : SnapshotHashProvider κ)
    (source : SnapshotSource σ) (fixture : FixtureCase) (expected p11 p10 : Str)
    (processReached brokerReadReached : Bool) (w : σ) (k : κ) :
    FailsClosed (compareImpl b provider source fixture expected p11 p10 processReached
        brokerReadReached (Run.start w k)) ↔
      StandardOnly (compareImpl b provider source fixture expected p11 p10 processReached
        brokerReadReached (Run.start w k)).2.log := by
  by_cases hreach : processReached = true ∧ brokerReadReached = true
  · obtain ⟨rfl,rfl⟩ := hreach
    have htr := Transparent.compareBody b provider source fixture expected p11 p10
      ((Run.start w k).begin fixture true true)
    rcases hb : compareBody b provider source fixture expected p11 p10
      ((Run.start w k).begin fixture true true) with ⟨t | u,m⟩ <;> rw [hb] at htr
    · obtain ⟨new,hlog,hacc⟩ := htr
      have hnew : m.log = new := hlog
      by_cases ht : t = .nonstandard
      · subst ht
        rw [compareImpl_of_nonstandard hb]
        obtain ⟨o,ho,hot⟩ := hacc.mp rfl
        constructor
        · intro h
          obtain ⟨e,he,-⟩ := h
          exact absurd he (by simp)
        · intro hall
          exact absurd hot (hall o (by rw [hnew]; exact ho))
      · obtain ⟨e,he,hstop,hinc⟩ := compareImpl_of_caught ht hb
        rw [he]
        refine iff_of_true (failsClosed_of_stop rfl hstop hinc) ?_
        intro o ho hot
        exact ht (hacc.mpr ⟨o,by rw [← hnew]; exact ho,hot⟩)
    · obtain ⟨new,hlog,hacc⟩ := htr
      have hnew : m.log = new := hlog
      have hcalm : ∀ o ∈ m.log,o.thrown = none := by rw [hnew]; exact hacc
      rw [compareImpl_of_ok hb]
      obtain ⟨-,-,_,_,_,_,_,content,digest,m',_,-,-,-,herr,-,-,-,-,hev⟩ := compareBody_ok hb
      refine iff_of_true ⟨m.evidence,rfl,?_,?_,?_⟩ fun o ho => by rw [hcalm o ho]; simp
      · intro h
        obtain ⟨o,ho,hot⟩ := h
        rw [hcalm o ho] at hot
        exact absurd hot (by simp)
      · rw [hev]
        exact iff_of_true (conclude_complete _ _ _) (conclude_decided _ _ _)
      · intro _
        rw [hev,conclude_error]
        exact herr
  · obtain ⟨e,he,hv,hc⟩ :
        ∃ e,compareImpl b provider source fixture expected p11 p10 processReached
          brokerReadReached (Run.start w k) = (.ok e,_) ∧ e.verdict = _ ∧ e.snapshotComplete = _ :=
      compareImpl_unreached hreach
    rw [he]
    exact iff_of_true (failsClosed_of_stop rfl hv hc) fun o ho => absurd ho List.not_mem_nil

/-- Both entry points keep the promise in exactly the runs in which nothing outside
`std::exception` is thrown. -/
theorem comparison_failsClosed_iff (b : BCrypt κ) (source : SnapshotSource σ)
    (fixture : FixtureCase) (expected p11 p10 : Str)
    (processReached brokerReadReached : Bool) (w : σ) (k : κ) :
    (FailsClosed (compareFreshController b source fixture expected p11 p10 processReached
        brokerReadReached (Run.start w k)) ↔
      StandardOnly (compareFreshController b source fixture expected p11 p10 processReached
        brokerReadReached (Run.start w k)).2.log) ∧
    ∀ provider,
      (FailsClosed (compareWithHashProvider b source fixture expected p11 p10 processReached
          brokerReadReached provider (Run.start w k)) ↔
        StandardOnly (compareWithHashProvider b source fixture expected p11 p10 processReached
          brokerReadReached provider (Run.start w k)).2.log) :=
  ⟨compareImpl_failsClosed_iff _ _ _ _ _ _ _ _ _ _ _,
    fun _ => compareImpl_failsClosed_iff _ _ _ _ _ _ _ _ _ _ _⟩

/-- A source whose `open` throws a value that is no `std::exception`. -/
def foreignSource : SnapshotSource Unit := ⟨fun _ => Eff.raise .nonstandard⟩

theorem foreignSource_escapes :
    ¬ FailsClosed (compareFreshController recordedCrypt foreignSource activeCase "1:0a:state"
      activeP11 p10Digest true true (Run.start () ())) := by
  intro h
  obtain ⟨e,he,-⟩ := h
  have hnone : (compareFreshController recordedCrypt foreignSource activeCase "1:0a:state"
      activeP11 p10Digest true true (Run.start () ())).1.toOption.isSome = false := by
    decide +kernel
  rw [he] at hnone
  exact absurd hnone (by simp [Except.toOption])

end SoftwareFactory.StageA
