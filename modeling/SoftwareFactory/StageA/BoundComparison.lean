import SoftwareFactory.StageA.AuthoritySoundness
import SoftwareFactory.StageA.HeadExchange
import SoftwareFactory.StageA.P10Rendering
import SoftwareFactory.StageA.SnapshotCompleteness
import SoftwareFactory.StageA.SnapshotTotality

namespace SoftwareFactory.StageA

open Effect

variable {σ ρ κ : Type}

/-- The source opens a directory that holds `files` under that identity and stays as it is. -/
def Presents (source : SnapshotSource σ) (dirId : Str) (files : FileMap) (w : σ) : Prop :=
  ∃ session w' ids I,source.openSession directoryProfile w = (.ok (some session),w') ∧
    Steadfast session dirId files ids I ∧ I [] w' ∧ ∀ n ∈ files.keys,ids n ≠ []

/-- The comparison returns that verdict. -/
def Decides (out : Except Thrown Evidence × Run σ κ) (v : Verdict) : Prop :=
  ∃ e,out.1 = .ok e ∧ e.verdict = v

/-- The P11 hash was computed, the head was accepted and the source was asked. -/
def ReachesOpen (log : List Observation) : Prop :=
  ∃ hash opened rest,log = .hashP11 (.ok hash)::.opened opened::rest

/-- Code that goes on with a source after the P11 hash. -/
theorem reachesOpen_of_hashed {α β : Type} {op : Eff σ Thrown α} {q : α → Bool}
    {g : α → Eff (Run σ κ) Thrown β} (hg : ∀ a,Transparent (g a)) {r : Run σ κ} {hash : Str}
    (hr : r.log = [.hashP11 (.ok hash)]) :
    ReachesOpen ((observe op (fun t => .opened (t.map q)) >>= g) r).2.log := by
  have hlog : (observe op (fun t => .opened (t.map q)) r).2.log =
      r.log++[.opened ((op r.world).1.map q)] := rfl
  rw [hr] at hlog
  rcases h : observe op (fun t => .opened (t.map q)) r with ⟨t | a,r'⟩
  · rw [h] at hlog
    rw [Eff.bind_of_error h]
    exact ⟨hash,_,[],hlog⟩
  · rw [h] at hlog
    obtain ⟨new,hnew,-⟩ := hg a r'
    have hr' : r'.log = _ := hlog
    rw [Eff.bind_of_ok h,hnew,hr']
    exact ⟨hash,_,new,rfl⟩

section body

variable {b : BCrypt κ} {f : Str → Vector UInt8 32} {source : SnapshotSource σ}
  {fixture : FixtureCase} {dirId p11 p10 : Str} {r : Run σ κ}

theorem hashP11_computes (hb : b.Computes f) (hlen : p11.length ≤ 4294967295) (k : κ) :
    (bcryptSnapshotHashProvider b).hashP11 p11 k =
      (.ok (hexText (f p11).toList),b.after p11 k) :=
  standardOnly_ok.mpr (sha256_computes hb hlen k)

theorem headBinding_pass (hhead : renderP11 fixture p10 = .ok p11) (r : Run σ κ) :
    headBinding fixture p11 p10 r = (.ok (),r) := by
  rw [headBinding,hhead]
  exact failIf_ok.mpr ⟨not_not.mpr rfl,rfl⟩

theorem compareBody_reachesOpen (hb : b.Computes f) (hlen : p11.length ≤ 4294967295)
    (hhead : renderP11 fixture p10 = .ok p11) (hlog : r.log = []) : ReachesOpen
      (compareBody b (bcryptSnapshotHashProvider b) source fixture dirId p11 p10 r).2.log := by
  have hhash := hashP11_computes hb hlen r.crypto
  rw [compareBody,Eff.bind_of_ok (catchStandard_fail_ok.mpr (hashing_ok.mpr ⟨_,hhash,rfl⟩)),
    Eff.bind_of_ok (record_ok (u := ()).mpr rfl),Eff.bind_of_ok (headBinding_pass hhead _)]
  refine reachesOpen_of_hashed (fun session => ?_) (by simp only [hlog]; rfl)
  cases session with
  | none => exact .fail _ _ _ _ _
  | some session => exact (Transparent.compareSession _ _ _ _ session).owning session.destroy

theorem compareBody_pass (hb : b.Computes f) (hlen : p11.length ≤ 4294967295)
    (hhead : renderP11 fixture p10 = .ok p11) (hdir : dirId ≠ []) {files : FileMap}
    (hfiles : Digestible files) (hknown : ∀ n ∈ files.keys,n ∈ fixture.latestFiles.keys)
    (hp : Presents source dirId files r.world) :
    ∃ r' e,compareBody b (bcryptSnapshotHashProvider b) source fixture dirId p11 p10 r =
        (.ok (),r') ∧
      r'.evidence = conclude fixture files e ∧ e.observedDigest = setDigest f files := by
  obtain ⟨session,w,ids,I,hopen,hs,hI,hids⟩ := hp
  have hhash := hashP11_computes hb hlen r.crypto
  rw [compareBody,Eff.bind_of_ok (catchStandard_fail_ok.mpr (hashing_ok.mpr ⟨_,hhash,rfl⟩)),
    Eff.bind_of_ok (record_ok (u := ()).mpr rfl),Eff.bind_of_ok (headBinding_pass hhead _)]
  generalize hr : (Run.mk r.world _ _ _ : Run σ κ) = r1
  have hopen : source.openSession directoryProfile r1.world = (.ok (some session),w) := by
    rw [← hr]
    exact hopen
  rw [Eff.bind_of_ok (observe_ok.mpr ⟨w,hopen,rfl⟩)]
  obtain ⟨r',e,hrun,hev,hdigest⟩ :=
    compareSession_pass hb hs hfiles hdir hknown hids
      { r1 with world := w, log := r1.log++[.opened (.ok true)] } hI
  exact ⟨_,e,Eff.owning_ok.mpr ⟨r',hrun,rfl⟩,hev,hdigest⟩

end body

/-- What the two sides of a frozen case are to each other. -/
theorem frozen_files : ∀ c ∈ frozenCases,c.oldFiles ≠ c.latestFiles ∧
    c.oldFiles.entries ≠ [] ∧ c.latestFiles.entries ≠ [] ∧
    ∀ n ∈ c.oldFiles.keys,n ∈ c.latestFiles.keys := by decide +kernel

theorem conclude_digested {f : Str → Vector UInt8 32} {c : FixtureCase}
    (files : FileMap) {e : Evidence} (he : e.observedDigest = setDigest f files) :
    (conclude (digested f c) files e).verdict =
      if files.entries = [] then .rejectDeleted
      else if files = c.latestFiles then .acceptCurrent
      else if files = c.oldFiles then .rejectRestoredOld
      else .rejectMismatch := by
  have hlatest : e.observedDigest = (digested f c).latestDigest ∧
      files = (digested f c).latestFiles ↔ files = c.latestFiles :=
    and_iff_right_of_imp fun h => by rw [he,h]; rfl
  have hold : e.observedDigest = (digested f c).oldDigest ∧
      files = (digested f c).oldFiles ↔ files = c.oldFiles :=
    and_iff_right_of_imp fun h => by rw [he,h]; rfl
  rw [conclude_verdict]
  simp only [hlatest,hold]

section comparison

variable {b : BCrypt κ} {f : Str → Vector UInt8 32} {c : FixtureCase} {dirId p11 p10 : Str}

theorem compare_reachesOpen (hb : b.Computes f) (hlen : p11.length ≤ 4294967295)
    {fixture : FixtureCase} (hhead : renderP11 fixture p10 = .ok p11) (source : SnapshotSource σ)
    (w : σ) (k : κ) : ReachesOpen
      (compareFreshController b source fixture dirId p11 p10 true true (Run.start w k)).2.log := by
  have hbody : ReachesOpen (compareBody b (bcryptSnapshotHashProvider b) source fixture dirId p11
      p10 ((Run.start w k).begin fixture true true)).2.log :=
    compareBody_reachesOpen hb hlen hhead rfl
  rw [compareFreshController]
  rcases h : compareBody b (bcryptSnapshotHashProvider b) source fixture dirId p11 p10
    ((Run.start w k).begin fixture true true) with ⟨t | u,m⟩ <;> rw [h] at hbody
  · by_cases ht : t = .nonstandard
    · subst ht
      rw [compareImpl_of_nonstandard h]
      exact hbody
    · obtain ⟨e,he,-⟩ := compareImpl_of_caught ht h
      rw [he]
      exact hbody
  · rw [compareImpl_of_ok h]
    exact hbody

/-- The verdict on a directory that keeps still, for a frozen case and its head. -/
theorem compare_decides (hb : b.Computes f) (hlen : p11.length ≤ 4294967295)
    (hhead : renderP11 (digested f c) p10 = .ok p11) (hdir : dirId ≠ []) {files : FileMap}
    (hfiles : Digestible files) (hknown : ∀ n ∈ files.keys,n ∈ c.latestFiles.keys)
    {source : SnapshotSource σ} {w : σ} (hp : Presents source dirId files w) (k : κ) :
    Decides (compareFreshController b source (digested f c) dirId p11 p10 true true
        (Run.start w k))
      (if files.entries = [] then .rejectDeleted
        else if files = c.latestFiles then .acceptCurrent
        else if files = c.oldFiles then .rejectRestoredOld
        else .rejectMismatch) := by
  obtain ⟨r,e,hrun,hev,hdigest⟩ := compareBody_pass (r := (Run.start w k).begin (digested f c)
    true true) hb hlen hhead hdir hfiles hknown hp
  rw [compareFreshController,compareImpl_of_ok hrun]
  exact ⟨_,rfl,by rw [hev,conclude_digested files hdigest]⟩

end comparison

theorem length_record_le {f : Str → Vector UInt8 32} {c : FixtureCase} {p10 p11 : Str}
    (hc : c ∈ frozenCases) (h : renderP11 (digested f c) p10 = .ok p11) :
    p11.length ≤ 4294967295 := by
  have hhex : hex64 p10 = true := by
    by_contra hhex
    rw [renderP11,Bool.not_eq_true _ |>.mp hhex] at h
    cases h
  obtain ⟨p,hp,hlen⟩ := renderP11_frozen (f := f) hc hhex
  obtain rfl : p = p11 := Except.ok.inj (hp.symm.trans h)
  have hpay := payloadLength_frozen hc
  rw [ReadFixtureHead.PayloadLength,← hlen] at hpay
  rcases hpay with hpay | hpay <;> rw [hpay] <;> decide

theorem digestible_empty : Digestible (.empty : FileMap) :=
  ⟨fun p hp => absurd hp List.not_mem_nil,fun p hp => absurd hp List.not_mem_nil,by decide⟩

section binder

variable {b : BCrypt κ} {f : Str → Vector UInt8 32}

theorem not_frozenDiffers {cases : List FixtureCase} {selected : FixtureCase}
    (hids : (cases.map FixtureCase.id).Nodup) (h : selected ∈ cases) :
    frozenDiffers cases selected = false := by
  rw [frozenDiffers]
  cases hf : cases.find? fun item => item.id == selected.id with
  | none =>
    have hno := List.find?_eq_none.mp hf selected h
    exact absurd (beq_self_eq_true selected.id) hno
  | some frozen =>
    have hid : frozen.id = selected.id := by simpa using List.find?_some hf
    obtain rfl : frozen = selected :=
      List.inj_on_of_nodup_map hids (List.mem_of_find?_eq_some hf) h hid
    simp

/-- The binder accepts every record that was approved consistently, from a reader that
returns what was approved. -/
theorem bindBody_pass (hb : b.Computes f) {c : FixtureCase} (hc : c ∈ frozenCases)
    {approved : ApprovedAuthorityBinding} {reader : ProtectedAuthorityReader ρ κ} {p10 p11 : Str}
    (hcase : approved.selectedCaseId = c.id) (hdir : approved.stateDirectoryIdentity ≠ [])
    (hsid : approved.createdSids.controller ≠ [])
    (hrender : ∀ k,∃ k',renderP10 b approved.createdSids approved.reviewedImages k = (.ok p10,k'))
    (hlen : p10.length ≤ 4294967295)
    (hhash : hexText (f p10).toList = approved.renderedP10Sha256)
    (hhead : renderP11 (digested f c) approved.renderedP10Sha256 = .ok p11)
    (hhash' : hexText (f p11).toList = approved.selectedP11Sha256)
    (hread : ∀ w,∃ w' k',reader.readVerifiedP10 w = (.ok p10,w',k'))
    (hread' : ∀ w,∃ w' k',reader.readAuthenticatedFixtureHead w = (.ok p11,w',k'))
    (s : Binding ρ κ) :
    ∃ s',bindBody b reader approved (digested f c) approved.createdSids.controller s =
        (.ok (),s') ∧
      s'.result.comparisonInput =
        some ⟨digested f c,approved.stateDirectoryIdentity,p11,approved.renderedP10Sha256⟩ := by
  have hids : ((frozenCases.map (digested f)).map FixtureCase.id).Nodup := by
    rw [List.map_map]
    exact (by decide +kernel : (frozenCases.map FixtureCase.id).Nodup)
  have hdiffers := not_frozenDiffers hids (List.mem_map_of_mem hc)
  have hlen' := length_record_le hc hhead
  have hhash1 (k : κ) : sha256 b p10 k = (.ok approved.renderedP10Sha256,b.after p10 k) := by
    rw [sha256_computes hb hlen,hhash]
  have hhash2 (k : κ) : sha256 b p11 k = (.ok approved.selectedP11Sha256,b.after p11 k) := by
    rw [sha256_computes hb hlen',hhash']
  choose g hcases using fixtureCases_computes hb
  choose g' hrender using hrender
  choose w1 k1 hread using hread
  choose w2 k2 hread' using hread'
  have hbefore : ∃ s1,approveP10 b approved (digested f c) approved.createdSids.controller s =
      (.ok p10,s1) := by
    rw [approveP10,Eff.bind_of_ok (Binding.evidence_ok (u := ()).mpr rfl),
      Eff.bind_of_ok (failIf_ok (u := ()).mpr ⟨by simp [hcase,hdir,digested],rfl⟩),
      Eff.bind_of_ok (catchStandard_fail_ok.mpr (Binding.crypt_ok.mpr ⟨_,hcases _,rfl⟩)),
      Eff.bind_of_ok (failIf_ok (u := ()).mpr ⟨by simp [hdiffers],rfl⟩),
      Eff.bind_of_ok (failIf_ok (u := ()).mpr ⟨by simp [hsid],rfl⟩),
      Eff.bind_of_ok (catchStandard_fail_ok.mpr (Binding.crypt_ok.mpr ⟨_,hrender _,rfl⟩)),
      Eff.bind_of_ok (checkedHash_ok.mpr ⟨_,hhash1 _,rfl⟩),
      Eff.bind_of_ok (failIf_ok (u := ()).mpr ⟨not_not.mpr rfl,rfl⟩)]
    exact ⟨_,rfl⟩
  obtain ⟨s1,h1⟩ := hbefore
  have hbetween (s : Binding ρ κ) : ∃ s2,approveHead b approved (digested f c) p10 p10 s =
      (.ok (approved.renderedP10Sha256,p11),s2) := by
    rw [approveHead,Eff.bind_of_ok (failIf_ok (u := ()).mpr ⟨not_not.mpr rfl,rfl⟩),
      Eff.bind_of_ok (checkedHash_ok.mpr ⟨_,hhash1 _,rfl⟩),
      Eff.bind_of_ok (Binding.evidence_ok (u := ()).mpr rfl),
      Eff.bind_of_ok (failIf_ok (u := ()).mpr ⟨not_not.mpr rfl,rfl⟩),hhead]
    dsimp only
    rw [Eff.bind_of_ok (checkedHash_ok.mpr ⟨_,hhash2 _,rfl⟩),
      Eff.bind_of_ok (failIf_ok (u := ()).mpr ⟨not_not.mpr rfl,rfl⟩)]
    exact ⟨_,rfl⟩
  choose s2 h2 using hbetween
  rw [bindBody,Eff.bind_of_ok h1,
    Eff.bind_of_ok (catchReader_ok.mpr (Binding.reading_ok.mpr ⟨_,_,hread _,rfl⟩)),
    Eff.bind_of_ok (h2 _)]
  dsimp only
  rw [Eff.bind_of_ok (catchReader_ok.mpr (Binding.reading_ok.mpr ⟨_,_,hread' _,rfl⟩)),
    acceptHead,Eff.bind_of_ok (failIf_ok (u := ()).mpr ⟨not_not.mpr rfl,rfl⟩),
    Eff.bind_of_ok (checkedHash_ok.mpr ⟨_,hhash2 _,rfl⟩),
    Eff.bind_of_ok (Binding.evidence_ok (u := ()).mpr rfl),
    Eff.bind_of_ok (failIf_ok (u := ()).mpr ⟨not_not.mpr rfl,rfl⟩),
    Eff.bind_of_ok (Binding.comparisonInput_ok (u := ()).mpr rfl)]
  exact ⟨_,Binding.evidence_ok.mpr rfl,rfl⟩

end binder

/-- What the binder hands over passes every check of the comparison up to the opening of the
directory, and the verdict on a directory that keeps still is the one for its files. -/
theorem boundInput_compares (b : BCrypt κ) (f : Str → Vector UInt8 32) (hb : b.Computes f)
    (reader : ProtectedAuthorityReader ρ κ) (approved : ApprovedAuthorityBinding)
    (selected : FixtureCase) (sid : Str) (v : ρ) (k : κ) (result : AuthorityBindingResult)
    (s : Binding ρ κ) (input : BoundComparisonInput)
    (hrun : bindProtectedAuthority b reader approved selected sid (Binding.start v k) =
      (.ok result,s))
    (hinput : result.comparisonInput = some input) (source : SnapshotSource σ) (w : σ) (k' : κ) :
    let out := compareFreshController b source input.fixture input.stateDirectoryIdentity
      input.protectedP11Bytes input.renderedP10Sha256 true true (Run.start w k')
    ReachesOpen out.2.log ∧
    (Presents source input.stateDirectoryIdentity input.fixture.latestFiles w →
      Decides out .acceptCurrent) ∧
    (Presents source input.stateDirectoryIdentity input.fixture.oldFiles w →
      Decides out .rejectRestoredOld) ∧
    (Presents source input.stateDirectoryIdentity .empty w → Decides out .rejectDeleted) := by
  obtain ⟨hbody,hresult⟩ := bindBody_of_input hrun hinput
  obtain ⟨-,p10,p11,input',hinput',-,hbound⟩ := bindBody_ok hbody
  rw [hresult,hinput] at hinput'
  obtain rfl := Option.some.inj hinput'
  obtain ⟨k1,happroved⟩ := hbound.p10_approved
  obtain ⟨cases,k2,k3,hcases,hselected,-,hp10⟩ := happroved.rendered
  obtain ⟨k4,hfrozen⟩ := fixtureCases_computes hb (Binding.start v k).crypto
  rw [hfrozen] at hcases
  obtain rfl := Except.ok.inj (Prod.mk.inj hcases).1
  obtain ⟨c,hc,rfl⟩ := List.mem_map.mp hselected
  obtain ⟨k5,k6,hhead⟩ := hbound.head_approved
  have hrender := hhead.head
  obtain rfl := hbound.carried
  have hlen : p11.length ≤ 4294967295 := length_record_le hc hrender
  obtain ⟨hold,hlatest⟩ := digestible_frozen c hc
  obtain ⟨hne,hone,hlne,hsub⟩ := frozen_files c hc
  refine ⟨compare_reachesOpen hb hlen hrender source w k',?_,?_,?_⟩
  · intro hp
    have h := compare_decides hb hlen hrender happroved.directory hlatest (fun n hn => hn) hp k'
    rwa [if_neg hlne,if_pos rfl] at h
  · intro hp
    have h := compare_decides hb hlen hrender happroved.directory hold hsub hp k'
    rwa [if_neg hone,if_neg hne,if_pos rfl] at h
  · intro hp
    exact compare_decides hb hlen hrender happroved.directory digestible_empty
      (fun n hn => absurd hn List.not_mem_nil) hp k'

def writerSid : Str := "S-1-5-21-1-2-3-1001"
def controllerSid : Str := "S-1-5-21-1-2-3-1002"
def brokerSid : Str := "S-1-5-21-1-2-3-1003"

/-- The digest that the provider gives every text. -/
def zeroDigest : Str := hexText (List.replicate 32 0)

/-- The first frozen case under that provider. -/
def approvedCase : FixtureCase :=
  digested (fun _ => Vector.replicate 32 0) (frozenCases.head frozenCases_ne_nil)

def approvedRecord : ApprovedAuthorityBinding where
  createdSids := ⟨writerSid,controllerSid,brokerSid⟩
  reviewedImages := ⟨zeroDigest,zeroDigest,zeroDigest,zeroDigest⟩
  renderedP10Sha256 := zeroDigest
  selectedCaseId := approvedCase.id
  selectedP11Sha256 := zeroDigest
  stateDirectoryIdentity := "1:0a:state"

/-- A reader of the approved records. -/
def approvedReader : ProtectedAuthorityReader Unit Unit where
  readVerifiedP10 := pure ((renderP10 constantCrypt approvedRecord.createdSids
    approvedRecord.reviewedImages ()).1.toOption.getD [])
  readAuthenticatedFixtureHead := pure ((renderP11 approvedCase zeroDigest).toOption.getD [])

theorem constantCrypt_computes : constantCrypt.Computes fun _ => Vector.replicate 32 0 :=
  ⟨fun _ => rfl,fun _ _ => rfl⟩

/-- The approved records fill every slot of the template. -/
theorem approvedP10_short : ∃ p10,p10.length ≤ 4294967295 ∧
    renderP10 constantCrypt approvedRecord.createdSids approvedRecord.reviewedImages () =
      (.ok p10,()) := by
  have hinput : P10Input approvedRecord.createdSids approvedRecord.reviewedImages :=
    p10Input_iff.mpr ⟨by decide,by decide +kernel⟩
  have hshort (slot : Slot) :
      (slotValue approvedRecord.createdSids approvedRecord.reviewedImages slot).length ≤ 64 := by
    cases slot <;> decide
  obtain ⟨k,hrun⟩ := renderP10_computes constantCrypt_computes hinput ()
  have hlength := length_p10With_le (f := fun _ => Vector.replicate 32 0) hshort
  exact ⟨_,by omega,hrun⟩

theorem approvedBinding_ready : ∃ s p11,bindBody constantCrypt approvedReader approvedRecord
      approvedCase controllerSid (Binding.start () ()) = (.ok (),s) ∧
    s.result.comparisonInput = some ⟨approvedCase,"1:0a:state",p11,zeroDigest⟩ := by
  obtain ⟨p10,hlen,hp10⟩ := approvedP10_short
  have hc : frozenCases.head frozenCases_ne_nil ∈ frozenCases := List.head_mem _
  obtain ⟨p11,hp11,-⟩ := renderP11_frozen (f := fun _ => Vector.replicate 32 0) hc
    (hex64_hexText (Vector.replicate 32 0))
  have hread (w : Unit × Unit) : ∃ w' k',approvedReader.readVerifiedP10 w = (.ok p10,w',k') := by
    rw [approvedReader,hp10]
    exact ⟨w.1,w.2,rfl⟩
  have hread' (w : Unit × Unit) :
      ∃ w' k',approvedReader.readAuthenticatedFixtureHead w = (.ok p11,w',k') := by
    have hget : renderP11 approvedCase zeroDigest = .ok p11 := hp11
    rw [approvedReader,hget]
    exact ⟨w.1,w.2,rfl⟩
  have hselected : approvedRecord.selectedCaseId = approvedCase.id := rfl
  obtain ⟨s,hrun,hinput⟩ := bindBody_pass constantCrypt_computes hc hselected (by decide)
    (by decide) (fun k => ⟨(),hp10⟩) hlen rfl hp11 rfl hread hread' (Binding.start () ())
  exact ⟨s,p11,hrun,hinput⟩

/-- The directory of the recorded run never changes. -/
theorem steadySession_steadfast :
    Steadfast steadySession "1:0a:state" activeCase.latestFiles id fun _ _ => True where
  directoryIdentity _ w _ := ⟨w,rfl,trivial⟩
  inventory _ w _ := ⟨_,w,rfl,trivial,by
    constructor <;> decide +kernel⟩
  holdChild _ w _ _ _ _ := ⟨w,rfl,trivial⟩
  heldIdentity _ w _ _ _ := ⟨w,rfl,trivial⟩
  readChild _ w name text _ _ htext := by
    have hread : steadySession.readChild name w =
        (.ok ((activeCase.latestFiles.lookup name).getD []),w) := rfl
    rw [htext] at hread
    exact ⟨w,hread,trivial⟩

theorem approvedInput_accepted : ∃ result s input,
    bindProtectedAuthority constantCrypt approvedReader approvedRecord approvedCase controllerSid
      (Binding.start () ()) = (.ok result,s) ∧
    result.comparisonInput = some input ∧
    Decides (compareFreshController constantCrypt ⟨fun _ => pure (some steadySession)⟩
      input.fixture input.stateDirectoryIdentity input.protectedP11Bytes input.renderedP10Sha256
      true true (Run.start () ())) .acceptCurrent := by
  obtain ⟨s,p11,hbody,hinput⟩ := approvedBinding_ready
  have hrun : bindProtectedAuthority constantCrypt approvedReader approvedRecord approvedCase
      controllerSid (Binding.start () ()) = (.ok s.result,s) := by
    rw [bindProtectedAuthority,Eff.bind_of_ok (Eff.catching_ok hbody)]
    rfl
  have hids : ∀ n ∈ activeCase.latestFiles.keys,id n ≠ [] := by decide +kernel
  have hall := boundInput_compares constantCrypt _ constantCrypt_computes approvedReader
    approvedRecord approvedCase controllerSid () () s.result s _ hrun hinput
    ⟨fun _ => pure (some steadySession)⟩ () ()
  exact ⟨s.result,s,_,hrun,hinput,hall.2.1
    ⟨steadySession,(),id,fun _ _ => True,rfl,steadySession_steadfast,trivial,hids⟩⟩

end SoftwareFactory.StageA
