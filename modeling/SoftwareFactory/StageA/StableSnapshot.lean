import SoftwareFactory.StageA.HexText
import SoftwareFactory.StageA.SnapshotRules

namespace SoftwareFactory.StageA

open Effect

variable {σ κ : Type}

/-- The session calls of a completed comparison, in their order. -/
def sessionLog (dirId : Str) (before after : List Entry) (content : FileMap) :
    List Observation :=
  [.directoryIdentity (.ok dirId),.inventory (.ok before)]++holdLog before++
    readLog content.entries++[.inventory (.ok after),.directoryIdentity (.ok dirId)]++
    recheckLog (fun n => (content.lookup n).getD []) after

/-- Two observations of one directory that agree in every name and every file id. -/
structure StableObservation (fixture : FixtureCase) (dirId : Str)
    (before after : List Entry) (content : FileMap) : Prop where
  before_listed : WellListed fixture dirId before
  after_listed : WellListed fixture dirId after
  same_names : ((listed before).map Entry.name).Perm ((listed after).map Entry.name)
  same_ids : ∀ e ∈ listed before,∀ e' ∈ listed after,e.name = e'.name → e.fileId = e'.fileId
  content_keys : ∀ n,n ∈ content.keys ↔ n ∈ (listed before).map Entry.name

/-- A text that was kept is that of a file both inventories list. -/
theorem StableObservation.entries_of_text {fixture : FixtureCase} {dirId : Str}
    {before after : List Entry} {content : FileMap}
    (h : StableObservation fixture dirId before after content) {name text : Str}
    (htext : content.lookup name = some text) :
    ∃ e ∈ listed before,∃ e' ∈ listed after,
      e.name = name ∧ e'.name = e.name ∧ e.fileId = e'.fileId := by
  have hkey : name ∈ content.keys :=
    List.mem_map_of_mem (OrderedMap.lookup_eq_some_iff.mp htext)
  obtain ⟨e,he,rfl⟩ := List.mem_map.mp ((h.content_keys name).mp hkey)
  obtain ⟨e',he',hn⟩ := List.mem_map.mp (h.same_names.subset (List.mem_map_of_mem he))
  exact ⟨e,he,e',he',rfl,hn,h.same_ids e he e' he' hn.symm⟩

theorem perm_of_names_eq {before after : List Entry} (h : names before = names after) :
    ((listed before).map Entry.name).Perm ((listed after).map Entry.name) := by
  have hb := List.perm_insertionSort (· ≤ ·) ((listed before).map Entry.name)
  have ha := List.perm_insertionSort (· ≤ ·) ((listed after).map Entry.name)
  rw [names,names] at h
  rw [h] at hb
  exact hb.symm.trans ha

/-- The ids kept from the first inventory are those of the second one. -/
theorem stableObservation_of_ids {fixture : FixtureCase} {dirId : Str}
    {before after : List Entry} {ids content : FileMap}
    (hbefore : WellListed fixture dirId before) (hafter : WellListed fixture dirId after)
    (hnames : names before = names after)
    (hids : ∀ p,p ∈ ids.entries ↔ ∃ e ∈ listed before,p = (e.name,e.fileId))
    (hids' : ∀ e ∈ listed after,ids.lookup e.name = some e.fileId)
    (hkeys : content.keys = ids.keys) : StableObservation fixture dirId before after content := by
  have hfind : ∀ e ∈ listed before,ids.lookup e.name = some e.fileId := fun e he =>
    OrderedMap.lookup_eq_some_iff.mpr ((hids _).mpr ⟨e,he,rfl⟩)
  refine ⟨hbefore,hafter,perm_of_names_eq hnames,?_,?_⟩
  · intro e he e' he' hn
    have h1 := hfind e he
    rw [hn,hids' e' he'] at h1
    exact (Option.some.inj h1).symm
  · intro n
    rw [hkeys,OrderedMap.keys,List.mem_map,List.mem_map]
    constructor
    · intro h
      obtain ⟨p,hp,rfl⟩ := h
      obtain ⟨e,he,rfl⟩ := (hids p).mp hp
      exact ⟨e,he,rfl⟩
    · intro h
      obtain ⟨e,he,rfl⟩ := h
      exact ⟨_,(hids _).mpr ⟨e,he,rfl⟩,rfl⟩

/-- The last stretch of the comparison, after the third loop. -/
structure Concluded (fixture : FixtureCase) (content : FileMap) (r r' : Run σ κ) (digest : Str)
    (k : κ) : Prop where
  world : r'.world = r.world
  logged : r'.log = r.log++[.digestMutableSet content (.ok digest)]
  evidence : r'.evidence = conclude fixture content { r.evidence with observedDigest := digest }
  crypto : r'.crypto = k

theorem compareSession_ok {b : BCrypt κ} {provider : SnapshotHashProvider κ}
    {fixture : FixtureCase} {expected : Str} {session : SnapshotSession σ} {r r' : Run σ κ}
    (h : compareSession b provider fixture expected session r = (.ok (),r')) :
    expected ≠ [] ∧ ∃ before after content digest,∃ m : Run σ κ,∃ k,
      Stretch session (sessionLog expected before after content) r m ∧
      StableObservation fixture expected before after content ∧
      provider.digestMutableSet content m.crypto = (.ok digest,k) ∧
      Concluded fixture content m r' digest k := by
  rw [compareSession] at h
  obtain ⟨dirId,r1,h1,h⟩ := Eff.bind_ok.mp h
  obtain ⟨_,r2,h2,h⟩ := Eff.bind_ok.mp h
  obtain ⟨before,r3,h3,h⟩ := Eff.bind_ok.mp h
  obtain ⟨_,r4,h4,h⟩ := Eff.bind_ok.mp h
  obtain ⟨_,r5,h5,h⟩ := Eff.bind_ok.mp h
  obtain ⟨ids,r6,h6,h⟩ := Eff.bind_ok.mp h
  obtain ⟨content,r7,h7,h⟩ := Eff.bind_ok.mp h
  obtain ⟨after,r8,h8,h⟩ := Eff.bind_ok.mp h
  obtain ⟨_,r9,h9,h⟩ := Eff.bind_ok.mp h
  obtain ⟨_,r10,h10,h⟩ := Eff.bind_ok.mp h
  obtain ⟨_,r11,h11,h⟩ := Eff.bind_ok.mp h
  obtain ⟨final,r12,h12,h⟩ := Eff.bind_ok.mp h
  obtain ⟨_,r13,h13,h⟩ := Eff.bind_ok.mp h
  obtain ⟨_,m,h14,h⟩ := Eff.bind_ok.mp h
  obtain ⟨digest,r15,h15,h⟩ := Eff.bind_ok.mp h
  obtain ⟨_,r16,h16,h⟩ := Eff.bind_ok.mp h
  obtain ⟨w1,hw1,rfl⟩ := observe_ok.mp h1
  obtain ⟨hdir,rfl⟩ := failIf_ok.mp h2
  simp only [ne_eq,not_or,not_not] at hdir
  obtain ⟨hne,hexp⟩ := hdir
  subst hexp
  obtain ⟨w3,hw3,rfl⟩ := observe_ok.mp h3
  obtain rfl := record_ok.mp h4
  obtain ⟨rfl,hbefore⟩ := checkEntries_ok h5
  obtain ⟨hold,hids⟩ := holdEntries_ok hbefore (by intros; rfl) h6
  obtain ⟨texts,htexts,hkeys,hread⟩ := readEntries_ok ids.sorted (by simp [OrderedMap.empty]) h7
  obtain ⟨w8,hw8,rfl⟩ := observe_ok.mp h8
  obtain rfl := record_ok.mp h9
  obtain ⟨rfl,hafter⟩ := checkEntries_ok h10
  obtain ⟨hnames,rfl⟩ := failIf_ok.mp h11
  obtain ⟨w12,hw12,rfl⟩ := observe_ok.mp h12
  obtain ⟨hfinal,rfl⟩ := failIf_ok.mp h13
  obtain rfl : final = dirId := not_not.mp hfinal
  obtain ⟨hrecheck,hids'⟩ := recheck_ok h14
  obtain ⟨k,hk,rfl⟩ := hashing_ok.mp (catchStandard_fail_ok.mp h15)
  obtain rfl := record_ok.mp h16
  obtain rfl := record_ok.mp h
  have hcontent : content.entries = texts := by simpa [OrderedMap.empty] using htexts
  refine ⟨hne,before,after,content,digest,m,k,?_,?_,hk,⟨rfl,rfl,rfl,rfl⟩⟩
  · have p1 : Performed session [.directoryIdentity (.ok final),.inventory (.ok before)] r.world w3 :=
      .directoryIdentity hw1 (.inventory hw3 (.nil _))
    have p4 : Performed session [.inventory (.ok after),.directoryIdentity (.ok final)] r7.world
        w12 := .inventory hw8 (.directoryIdentity hw12 (.nil _))
    refine ⟨?_,?_,hrecheck.error.trans (hread.error.trans hold.error)⟩
    · rw [sessionLog,hcontent]
      exact (((p1.append hold.performed).append hread.performed).append p4).append
        hrecheck.performed
    · rw [hrecheck.logged,sessionLog,hcontent]
      simp only [hread.logged,hold.logged,List.append_assoc,List.cons_append,List.nil_append]
  · refine stableObservation_of_ids hbefore hafter (not_not.mp hnames) (fun p => ?_) hids' ?_
    · simpa [OrderedMap.empty] using hids p
    · rw [OrderedMap.keys,hcontent,hkeys]
      rfl

/-- The outer block reaches its end only through a completed session. -/
theorem compareBody_ok {b : BCrypt κ} {provider : SnapshotHashProvider κ}
    {source : SnapshotSource σ} {fixture : FixtureCase} {expected p11 p10 : Str}
    {r r' : Run σ κ}
    (h : compareBody b provider source fixture expected p11 p10 r = (.ok (),r')) :
    renderP11 fixture p10 = .ok p11 ∧ expected ≠ [] ∧
    ∃ hash session w before after content digest,∃ m : Run σ κ,∃ k,
      source.openSession directoryProfile r.world = (.ok (some session),w) ∧
      Performed session (sessionLog expected before after content) w m.world ∧
      m.log = r.log++[.hashP11 (.ok hash),.opened (.ok true)]++
        sessionLog expected before after content ∧
      m.evidence.error = r.evidence.error ∧
      StableObservation fixture expected before after content ∧
      provider.digestMutableSet content m.crypto = (.ok digest,k) ∧
      r'.world = session.destroy m.world ∧
      r'.log = m.log++[.digestMutableSet content (.ok digest)] ∧
      r'.evidence = conclude fixture content { m.evidence with observedDigest := digest } := by
  rw [compareBody] at h
  obtain ⟨hash,r1,h1,h⟩ := Eff.bind_ok.mp h
  obtain ⟨_,r2,h2,h⟩ := Eff.bind_ok.mp h
  obtain ⟨_,r3,h3,h⟩ := Eff.bind_ok.mp h
  obtain ⟨opened,r4,h4,h⟩ := Eff.bind_ok.mp h
  obtain ⟨k1,hk1,rfl⟩ := hashing_ok.mp (catchStandard_fail_ok.mp h1)
  obtain rfl := record_ok.mp h2
  obtain ⟨hrender,rfl⟩ := headBinding_ok h3
  obtain ⟨w,hw,rfl⟩ := observe_ok.mp h4
  cases opened with
  | none => exact (fail_ok.mp h).elim
  | some session =>
    obtain ⟨r5,hbody,rfl⟩ := Eff.owning_ok.mp h
    obtain ⟨hne,before,after,content,digest,m,k,hst,hobs,hdig,hc⟩ := compareSession_ok hbody
    refine ⟨hrender,hne,hash,session,w,before,after,content,digest,m,k,hw,hst.performed,?_,
      hst.error,hobs,hdig,?_,hc.logged,hc.evidence⟩
    · rw [hst.logged]
      simp [Except.map]
    · exact congrArg session.destroy hc.world

theorem StableObservation.content_nil_iff {fixture : FixtureCase} {dirId : Str}
    {before after : List Entry} {content : FileMap}
    (h : StableObservation fixture dirId before after content) :
    content.entries = [] ↔ listed before = [] := by
  constructor
  · intro hnil
    refine List.eq_nil_iff_forall_not_mem.mpr fun e he => ?_
    have hk := (h.content_keys e.name).mpr (List.mem_map.mpr ⟨e,he,rfl⟩)
    rw [OrderedMap.keys,hnil] at hk
    exact absurd hk List.not_mem_nil
  · intro hnil
    refine List.eq_nil_iff_forall_not_mem.mpr fun p hp => ?_
    have hk := (h.content_keys p.1).mp (List.mem_map.mpr ⟨p,hp,rfl⟩)
    rw [hnil] at hk
    exact absurd hk List.not_mem_nil

/-- The run as `compare_impl` has filled in the head of the evidence. -/
def Run.begin (r : Run σ κ) (fixture : FixtureCase) (processReached brokerReadReached : Bool) :
    Run σ κ :=
  { r with
    evidence := { r.evidence with
      caseId := fixture.id, processReached := processReached
      brokerReadReached := brokerReadReached, expectedDigest := fixture.latestDigest } }

@[simp] theorem conclude_complete (fixture : FixtureCase) (content : FileMap) (e : Evidence) :
    (conclude fixture content e).snapshotComplete = true := by
  rw [conclude]
  dsimp only
  split_ifs <;> rfl

@[simp] theorem conclude_error (fixture : FixtureCase) (content : FileMap) (e : Evidence) :
    (conclude fixture content e).error = e.error := by
  rw [conclude]
  dsimp only
  split_ifs <;> rfl

@[simp] theorem conclude_observedDigest (fixture : FixtureCase) (content : FileMap)
    (e : Evidence) : (conclude fixture content e).observedDigest = e.observedDigest := by
  rw [conclude]
  dsimp only
  split_ifs <;> rfl

theorem conclude_verdict (fixture : FixtureCase) (content : FileMap) (e : Evidence) :
    (conclude fixture content e).verdict =
      if content.entries = [] then .rejectDeleted
      else if e.observedDigest = fixture.latestDigest ∧ content = fixture.latestFiles then
        .acceptCurrent
      else if e.observedDigest = fixture.oldDigest ∧ content = fixture.oldFiles then
        .rejectRestoredOld
      else .rejectMismatch := by
  rw [conclude]
  simp only [List.isEmpty_iff]
  split_ifs <;> rfl

/-- A chain of exclusive verdicts, read off one by one. -/
theorem verdict_iff {v : Verdict} {E L O : Prop} [Decidable E] [Decidable L] [Decidable O]
    (h : v = if E then .rejectDeleted else if L then .acceptCurrent
      else if O then .rejectRestoredOld else .rejectMismatch) :
    (v = .rejectDeleted ↔ E) ∧ (v = .acceptCurrent ↔ ¬ E ∧ L) ∧
      (v = .rejectRestoredOld ↔ ¬ E ∧ ¬ L ∧ O) ∧ (v = .rejectMismatch ↔ ¬ E ∧ ¬ L ∧ ¬ O) := by
  split_ifs at h <;> simp [*]

theorem conclude_decided (fixture : FixtureCase) (content : FileMap) (e : Evidence) :
    (conclude fixture content e).verdict ≠ .stopInconclusive := by
  rw [conclude_verdict]
  split_ifs <;> simp

section outcomes

variable {b : BCrypt κ} {provider : SnapshotHashProvider κ} {source : SnapshotSource σ}
  {fixture : FixtureCase} {expected p11 p10 : Str} {pr br : Bool} {r m : Run σ κ}

theorem compareImpl_reached :
    compareImpl b provider source fixture expected p11 p10 true true r =
      (do
        Eff.catching (compareBody b provider source fixture expected p11 p10) stopInconclusive
        let r ← Eff.get
        return r.evidence) (r.begin fixture true true) := rfl

/-- Without both reaches nothing is called. -/
theorem compareImpl_unreached (h : ¬ (pr = true ∧ br = true)) :
    ∃ e,compareImpl b provider source fixture expected p11 p10 pr br r =
        (.ok e,{ r with evidence := e }) ∧
      e.verdict = r.evidence.verdict ∧ e.snapshotComplete = r.evidence.snapshotComplete := by
  cases pr
  · exact ⟨_,rfl,rfl,rfl⟩
  · cases br
    · exact ⟨_,rfl,rfl,rfl⟩
    · exact absurd ⟨rfl,rfl⟩ h

theorem compareImpl_of_ok
    (h : compareBody b provider source fixture expected p11 p10 (r.begin fixture true true) =
      (.ok (),m)) :
    compareImpl b provider source fixture expected p11 p10 true true r = (.ok m.evidence,m) := by
  rw [compareImpl_reached,Eff.bind_of_ok (Eff.catching_ok h),Eff.bind_of_ok (Eff.get_apply m)]
  rfl

/-- A caught exception becomes an inconclusive stop. -/
theorem compareImpl_of_caught {t : Thrown} (ht : t ≠ .nonstandard)
    (h : compareBody b provider source fixture expected p11 p10 (r.begin fixture true true) =
      (.error t,m)) :
    ∃ e,compareImpl b provider source fixture expected p11 p10 true true r =
        (.ok e,{ m with evidence := e }) ∧
      e.verdict = .stopInconclusive ∧ e.snapshotComplete = false := by
  rw [compareImpl_reached,Eff.bind_apply,Eff.catching_error h]
  cases t with
  | observation f => exact ⟨_,rfl,rfl,rfl⟩
  | standard f => exact ⟨_,rfl,rfl,rfl⟩
  | nonstandard => exact absurd rfl ht

/-- Any other exception leaves the function. -/
theorem compareImpl_of_nonstandard
    (h : compareBody b provider source fixture expected p11 p10 (r.begin fixture true true) =
      (.error .nonstandard,m)) :
    compareImpl b provider source fixture expected p11 p10 true true r =
      (.error .nonstandard,m) := by
  rw [compareImpl_reached,Eff.bind_apply,Eff.catching_error h]
  rfl

/-- A run that returns a verdict has reached the end of the outer block. -/
theorem compareImpl_decided {e : Evidence} (hr : r.evidence.verdict = .stopInconclusive)
    (h : compareImpl b provider source fixture expected p11 p10 pr br r = (.ok e,m))
    (hv : e.verdict ≠ .stopInconclusive) :
    pr = true ∧ br = true ∧ e = m.evidence ∧
      compareBody b provider source fixture expected p11 p10 (r.begin fixture true true) =
        (.ok (),m) := by
  by_cases hreach : pr = true ∧ br = true
  · obtain ⟨rfl,rfl⟩ := hreach
    refine ⟨rfl,rfl,?_⟩
    rcases hb : compareBody b provider source fixture expected p11 p10
      (r.begin fixture true true) with ⟨t | u,m'⟩
    · by_cases ht : t = .nonstandard
      · subst ht
        rw [compareImpl_of_nonstandard hb] at h
        exact absurd (Prod.mk.inj h).1 (by simp)
      · obtain ⟨e',he',hstop,-⟩ := compareImpl_of_caught ht hb
        rw [he'] at h
        obtain rfl := Except.ok.inj (Prod.mk.inj h).1
        exact absurd hstop hv
    · rw [compareImpl_of_ok hb] at h
      obtain ⟨h1,rfl⟩ := Prod.mk.inj h
      exact ⟨(Except.ok.inj h1).symm,rfl⟩
  · have hun : ∃ e',compareImpl b provider source fixture expected p11 p10 pr br r = (.ok e',_) ∧
        e'.verdict = r.evidence.verdict ∧ _ := compareImpl_unreached hreach
    obtain ⟨e',he',hstop,-⟩ := hun
    rw [he'] at h
    obtain rfl := Except.ok.inj (Prod.mk.inj h).1
    exact absurd (hstop.trans hr) hv

end outcomes

/-- A verdict of the comparison rests on a stable double observation, and says exactly
what was observed. -/
theorem compareFreshController_stable (b : BCrypt κ) (source : SnapshotSource σ)
    (fixture : FixtureCase) (expected p11 p10 : Str) (processReached brokerReadReached : Bool)
    (w : σ) (k : κ) (e : Evidence) (r : Run σ κ)
    (h : compareFreshController b source fixture expected p11 p10 processReached
      brokerReadReached (Run.start w k) = (.ok e,r))
    (hv : e.verdict ≠ .stopInconclusive) :
    processReached = true ∧ brokerReadReached = true ∧ renderP11 fixture p10 = .ok p11 ∧
    expected ≠ [] ∧ ∃ hash session w1 w2 before after content digest,∃ k1 k2 : κ,
      source.openSession directoryProfile w = (.ok (some session),w1) ∧
      Performed session (sessionLog expected before after content) w1 w2 ∧
      r.log = [.hashP11 (.ok hash),.opened (.ok true)]++
        sessionLog expected before after content++[.digestMutableSet content (.ok digest)] ∧
      mutableDigest b content k1 = (.ok digest,k2) ∧
      StableObservation fixture expected before after content ∧
      (e.verdict = .rejectDeleted ↔ listed before = []) ∧
      (e.verdict = .acceptCurrent ↔ listed before ≠ [] ∧
        digest = fixture.latestDigest ∧ content = fixture.latestFiles) ∧
      (e.verdict = .rejectRestoredOld ↔ listed before ≠ [] ∧
        ¬ (digest = fixture.latestDigest ∧ content = fixture.latestFiles) ∧
        digest = fixture.oldDigest ∧ content = fixture.oldFiles) ∧
      (e.verdict = .rejectMismatch ↔ listed before ≠ [] ∧
        ¬ (digest = fixture.latestDigest ∧ content = fixture.latestFiles) ∧
        ¬ (digest = fixture.oldDigest ∧ content = fixture.oldFiles)) := by
  obtain ⟨hpr,hbr,rfl,hbody⟩ := compareImpl_decided rfl h hv
  obtain ⟨hrender,hne,hash,session,w1,before,after,content,digest,m,k2,hopen,hperf,hlog,-,hobs,
    hdig,-,hlog',hev⟩ := compareBody_ok hbody
  refine ⟨hpr,hbr,hrender,hne,hash,session,w1,m.world,before,after,content,digest,m.crypto,k2,
    hopen,hperf,?_,?_,hobs,?_⟩
  · rw [hlog',hlog]
    rfl
  · exact standardOnly_ok.mp hdig
  · rw [hev]
    simpa only [hobs.content_nil_iff] using
      verdict_iff (conclude_verdict fixture content { m.evidence with observedDigest := digest })

def p10Digest : Str := "aaaaaaaaaaaaaaaaaaaaaaaaaaaaaaaaaaaaaaaaaaaaaaaaaaaaaaaaaaaaaaaa"

def latestDigest : Str := "4d5d63027a1578256a003328664c48f1328cc5171ef29db4a9c0046b8ce4d22d"

/-- The P11 record of the first frozen case under that digest. -/
def activeP11 : Str :=
  "\x7b\"schema_version\":1,\"marker\":\"S1PF-260926-A-STAGE-A-V1\",\"p10_sha256\":\""++p10Digest++
    "\",\"case_id\":\"spent-budget-active\",\"latest_digest\":\""++latestDigest++
    "\",\"generation\":1,\"worker_runs\":1,\"terminal\":false\x7d"

def lockSha256 : Str := "970b93f640d45c28881099decf03f12535a7f8f0124e301490fc418688adfcec"
def stateSha256 : Str := "339a817ef474a6b7e4d522ee4fa6869bdc74eb54891a463521861ff601acd5fb"
def witnessSha256 : Str := "34be10aa4b0f0cac2708bcde23010f3930e0086d690e2062ab8187d8d7b6788e"

/-- SHA-256 on the texts of the first frozen case. -/
def recordedDigests : List (Str × Str) :=
  [("S1PF-LOCK-V1\n",lockSha256),
   ("\x7b\"generation\":1,\"worker_runs\":1,\"terminal\":false\x7d\n",stateSha256),
   ("S1PF-WITNESS-V1:1:1:ACTIVE\n",witnessSha256),
   ("S1PF-MUTABLE-SET-V1\nlock.bin\tregular\t13\t"++lockSha256++
      "\nstate.json\tregular\t50\t"++stateSha256++
      "\nwitness.txt\tregular\t27\t"++witnessSha256++"\n",latestDigest),
   (activeP11,"69a19feb75da965fc1d5220d52c9b59af3172d5a58646b8b3a1a7570cd86c820")]

def recordedCrypt : BCrypt Unit where
  openAlgorithmProvider k := (true,k)
  hashData bytes k := ((recordedDigests.lookup bytes).map unhex,k)

def activeCase : FixtureCase :=
  { frozenCases.head (by decide) with
    oldDigest := "5d77da03bca39bc5eb9884dd2c0b35738b16b3fe46c18f3353bc4699bfb768d3"
    latestDigest := latestDigest }

/-- A directory that holds the latest files of that case and never changes. -/
def steadySession : SnapshotSession Unit where
  directoryIdentity := pure "1:0a:state"
  inventory := pure (activeCase.latestFiles.entries.map fun p =>
    ⟨p.1,"regular",p.1,"1:0a:state",false⟩)
  holdChild _ := pure ()
  heldIdentity name := pure name
  readChild name := pure ((activeCase.latestFiles.lookup name).getD [])
  destroy w := w

def steadyRun : Except Thrown Evidence × Run Unit Unit :=
  compareFreshController recordedCrypt ⟨fun _ => pure (some steadySession)⟩ activeCase
    "1:0a:state" activeP11 p10Digest true true (Run.start () ())

theorem steadyRun_stable : ∃ before after content,
    StableObservation activeCase "1:0a:state" before after content ∧
      content = activeCase.latestFiles := by
  have hv : (steadyRun.1.toOption.map Evidence.verdict) = some .acceptCurrent := by
    unfold steadyRun recordedCrypt recordedDigests activeP11 lockSha256 stateSha256 witnessSha256
      p10Digest latestDigest
    repeat rw [String.toList_ofList]
    decide +kernel
  rcases h : steadyRun with ⟨t | e,r⟩ <;> rw [h] at hv
  · exact absurd hv nofun
  · have hacc : e.verdict = .acceptCurrent := Option.some.inj hv
    rw [steadyRun] at h
    obtain ⟨-,-,-,-,-,-,-,-,before,after,content,digest,-,-,-,-,-,-,hobs,-,hcurrent,-⟩ :=
      compareFreshController_stable recordedCrypt ⟨fun _ => pure (some steadySession)⟩ activeCase
        "1:0a:state" activeP11 p10Digest true true () () e r h (by rw [hacc]; decide)
    exact ⟨before,after,content,hobs,(hcurrent.mp hacc).2.2⟩

end SoftwareFactory.StageA
