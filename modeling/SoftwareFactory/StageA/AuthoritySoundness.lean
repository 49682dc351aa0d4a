import SoftwareFactory.StageA.AuthorityBinding
import SoftwareFactory.StageA.SnapshotRules

namespace SoftwareFactory.StageA

open Effect Binding

variable {σ κ α β : Type}

namespace Binding

theorem crypt_ok {op : Eff κ StdException α} {s s' : Binding σ κ} {a : α} :
    crypt op s = (.ok a,s') ↔ ∃ k,op s.crypto = (.ok a,k) ∧ s' = { s with crypto := k } := by
  rw [crypt]
  constructor
  · intro h
    obtain ⟨h1,h2⟩ := Prod.mk.inj h
    exact ⟨_,standardOnly_ok.mp (Prod.ext h1 rfl),h2.symm⟩
  · intro hparts
    obtain ⟨k,hk,rfl⟩ := hparts
    rw [standardOnly_ok.mpr hk]

theorem reading_ok {op : Eff (σ × κ) Thrown Str} {o : Except Thrown Str → AuthorityRead}
    {s s' : Binding σ κ} {a : Str} :
    reading op o s = (.ok a,s') ↔ ∃ w k,op (s.world,s.crypto) = (.ok a,w,k) ∧
      s' = { s with world := w, crypto := k, reads := s.reads++[o (.ok a)] } := by
  rw [reading]
  rcases op (s.world,s.crypto) with ⟨_ | b,w,k⟩
  · simp
  · simp only [Prod.mk.injEq,Except.ok.injEq]
    constructor
    · intro h
      obtain ⟨rfl,rfl⟩ := h
      exact ⟨w,k,⟨rfl,rfl,rfl⟩,rfl⟩
    · intro h
      obtain ⟨_,_,⟨rfl,rfl,rfl⟩,rfl⟩ := h
      exact ⟨rfl,rfl⟩

theorem evidence_ok {f : AuthorityBindingEvidence → AuthorityBindingEvidence}
    {s s' : Binding σ κ} {u : Unit} : evidence f s = (.ok u,s') ↔
      s' = { s with result := { s.result with evidence := f s.result.evidence } } := by
  simp [evidence,eq_comm]

theorem comparisonInput_ok {input : Option BoundComparisonInput} {s s' : Binding σ κ} {u : Unit} :
    comparisonInput input s = (.ok u,s') ↔
      s' = { s with result := { s.result with comparisonInput := input } } := by
  simp [comparisonInput,eq_comm]

theorem reading_reads (op : Eff (σ × κ) Thrown Str) (o : Except Thrown Str → AuthorityRead)
    (s : Binding σ κ) : ∃ r,(reading op o s).2.reads = s.reads++[o r] ∧ (reading op o s).1 = r :=
  ⟨_,rfl,rfl⟩

/-- Code that calls no reader, whether it returns or not. -/
structure Still (m : Eff (Binding σ κ) Thrown α) : Prop where
  reads : ∀ s,(m s).2.reads = s.reads
  world : ∀ s,(m s).2.world = s.world

theorem Still.pure (a : α) : Still (pure a : Eff (Binding σ κ) Thrown α) :=
  ⟨fun _ => rfl,fun _ => rfl⟩

theorem Still.bind {m : Eff (Binding σ κ) Thrown α} {f : α → Eff (Binding σ κ) Thrown β}
    (hm : Still m) (hf : ∀ a,Still (f a)) : Still (m >>= f) := by
  constructor <;> intro s
  · have h := hm.reads s
    rcases he : m s with ⟨e | a,s'⟩
    · rw [Eff.bind_of_error he,← h,he]
    · rw [Eff.bind_of_ok he,(hf a).reads,← h,he]
  · have h := hm.world s
    rcases he : m s with ⟨e | a,s'⟩
    · rw [Eff.bind_of_error he,← h,he]
    · rw [Eff.bind_of_ok he,(hf a).world,← h,he]

theorem Still.fail (kind : ErrorKind) (object : Str) (profile step message : String) :
    Still (fail kind object profile step message : Eff (Binding σ κ) Thrown α) :=
  ⟨fun _ => rfl,fun _ => rfl⟩

theorem Still.failIf (p : Prop) [Decidable p] (kind : ErrorKind) (object : Str)
    (profile step message : String) :
    Still (failIf p kind object profile step message : Eff (Binding σ κ) Thrown Unit) := by
  rw [StageA.failIf]
  split_ifs
  · exact .fail _ _ _ _ _
  · exact .pure ()

theorem Still.evidence (f : AuthorityBindingEvidence → AuthorityBindingEvidence) :
    Still (evidence f : Eff (Binding σ κ) Thrown Unit) := ⟨fun _ => rfl,fun _ => rfl⟩

theorem Still.comparisonInput (input : Option BoundComparisonInput) :
    Still (comparisonInput input : Eff (Binding σ κ) Thrown Unit) :=
  ⟨fun _ => rfl,fun _ => rfl⟩

theorem Still.catchStandard {m : Eff (Binding σ κ) Thrown α}
    {handler : String → Eff (Binding σ κ) Thrown α} (hm : Still m) (hh : ∀ t,Still (handler t)) :
    Still (catchStandard m handler) := by
  constructor <;> intro s
  · have h := hm.reads s
    rw [StageA.catchStandard]
    rcases he : m s with ⟨t | a,s'⟩
    · rw [Eff.catching_error he,← h,he]
      cases t with
      | observation f => exact (hh _).reads s'
      | standard f => exact (hh _).reads s'
      | nonstandard => rfl
    · rw [Eff.catching_ok he,← h,he]
  · have h := hm.world s
    rw [StageA.catchStandard]
    rcases he : m s with ⟨t | a,s'⟩
    · rw [Eff.catching_error he,← h,he]
      cases t with
      | observation f => exact (hh _).world s'
      | standard f => exact (hh _).world s'
      | nonstandard => rfl
    · rw [Eff.catching_ok he,← h,he]

theorem Still.crypt (op : Eff κ StdException α) :
    Still (crypt op : Eff (Binding σ κ) Thrown α) := ⟨fun _ => rfl,fun _ => rfl⟩

end Binding

variable {b : BCrypt κ} {approved : ApprovedAuthorityBinding} {selected : FixtureCase}
  {sid p10 p11 : Str} {s s' : Binding σ κ}

theorem checkedHash_still (bytes object : Str) (step : String) :
    Still (checkedHash b bytes object step : Eff (Binding σ κ) Thrown Str) :=
  (Still.crypt _).catchStandard fun _ => .fail _ _ _ _ _

theorem checkedHash_ok {bytes object hash : Str} {step : String} :
    checkedHash b bytes object step s = (.ok hash,s') ↔
      ∃ k,sha256 b bytes s.crypto = (.ok hash,k) ∧ s' = { s with crypto := k } := by
  rw [checkedHash,catchStandard_fail_ok,crypt_ok]

theorem approveP10_still (b : BCrypt κ) (approved : ApprovedAuthorityBinding)
    (selected : FixtureCase) (sid : Str) :
    Still (approveP10 b approved selected sid : Eff (Binding σ κ) Thrown Str) := by
  refine (Still.evidence _).bind fun _ => (Still.failIf _ _ _ _ _ _).bind fun _ => ?_
  refine ((Still.crypt _).catchStandard fun _ => .fail _ _ _ _ _).bind fun _ => ?_
  refine (Still.failIf _ _ _ _ _ _).bind fun _ => (Still.failIf _ _ _ _ _ _).bind fun _ => ?_
  refine ((Still.crypt _).catchStandard fun _ => .fail _ _ _ _ _).bind fun _ => ?_
  refine (checkedHash_still _ _ _).bind fun _ => (Still.failIf _ _ _ _ _ _).bind fun _ => ?_
  exact .pure _

theorem approveHead_still (b : BCrypt κ) (approved : ApprovedAuthorityBinding)
    (selected : FixtureCase) (expected observed : Str) :
    Still (approveHead b approved selected expected observed :
      Eff (Binding σ κ) Thrown (Str × Str)) := by
  refine (Still.failIf _ _ _ _ _ _).bind fun _ => (checkedHash_still _ _ _).bind fun hash => ?_
  refine (Still.evidence _).bind fun _ => (Still.failIf _ _ _ _ _ _).bind fun _ => ?_
  cases renderP11 selected hash with
  | error e => exact .fail _ _ _ _ _
  | ok p11 =>
    exact (checkedHash_still _ _ _).bind fun _ => (Still.failIf _ _ _ _ _ _).bind fun _ => .pure _

theorem acceptHead_still (b : BCrypt κ) (approved : ApprovedAuthorityBinding)
    (selected : FixtureCase) (hash expected observed : Str) :
    Still (acceptHead b approved selected hash expected observed :
      Eff (Binding σ κ) Thrown Unit) := by
  refine (Still.failIf _ _ _ _ _ _).bind fun _ => (checkedHash_still _ _ _).bind fun _ => ?_
  refine (Still.evidence _).bind fun _ => (Still.failIf _ _ _ _ _ _).bind fun _ => ?_
  exact (Still.comparisonInput _).bind fun _ => Still.evidence _

/-- The two records agree in every field. -/
theorem mem_of_not_frozenDiffers {cases : List FixtureCase}
    (h : frozenDiffers cases selected = false) : selected ∈ cases := by
  rw [frozenDiffers] at h
  cases hf : cases.find? fun item => item.id == selected.id with
  | none =>
    rw [hf] at h
    exact absurd h (by simp)
  | some frozen =>
    rw [hf] at h
    have hid : frozen.id = selected.id := by simpa using List.find?_some hf
    simp only [decide_eq_false_iff_not,not_or,not_not] at h
    obtain ⟨h1,h2,h3,h4,h5,h6,h7,h8⟩ := h
    have heq : frozen = selected := by
      cases frozen
      cases selected
      simp_all
    rw [← heq]
    exact List.mem_of_find?_eq_some hf

/-- What was checked before the P10 record is read, with the provider going from `k` to `k'`. -/
structure P10Approved (b : BCrypt κ) (approved : ApprovedAuthorityBinding)
    (selected : FixtureCase) (sid : Str) (k : κ) (p10 : Str) (k' : κ) : Prop where
  selection : approved.selectedCaseId = selected.id
  directory : approved.stateDirectoryIdentity ≠ []
  sid_ne : sid ≠ []
  controller : sid = approved.createdSids.controller
  rendered : ∃ cases k1 k2,fixtureCases b k = (.ok cases,k1) ∧ selected ∈ cases ∧
    renderP10 b approved.createdSids approved.reviewedImages k1 = (.ok p10,k2) ∧
    sha256 b p10 k2 = (.ok approved.renderedP10Sha256,k')

/-- What was checked before the head is read: the P10 bytes and the approved P11 record. -/
structure HeadApproved (b : BCrypt κ) (approved : ApprovedAuthorityBinding)
    (selected : FixtureCase) (p10 p11 : Str) (k k' : κ) : Prop where
  digests : ∃ k1,sha256 b p10 k = (.ok approved.renderedP10Sha256,k1) ∧
    sha256 b p11 k1 = (.ok approved.selectedP11Sha256,k')
  head : renderP11 selected approved.renderedP10Sha256 = .ok p11

theorem approveP10_ok (h : approveP10 b approved selected sid s = (.ok p10,s')) :
    P10Approved b approved selected sid s.crypto p10 s'.crypto ∧
      s'.world = s.world ∧ s'.result.comparisonInput = s.result.comparisonInput := by
  rw [approveP10] at h
  obtain ⟨_,s1,h1,h⟩ := Eff.bind_ok.mp h
  obtain ⟨_,s2,h2,h⟩ := Eff.bind_ok.mp h
  obtain ⟨cases,s3,h3,h⟩ := Eff.bind_ok.mp h
  obtain ⟨_,s4,h4,h⟩ := Eff.bind_ok.mp h
  obtain ⟨_,s5,h5,h⟩ := Eff.bind_ok.mp h
  obtain ⟨expected,s6,h6,h⟩ := Eff.bind_ok.mp h
  obtain ⟨hash,s7,h7,h⟩ := Eff.bind_ok.mp h
  obtain ⟨_,s8,h8,h⟩ := Eff.bind_ok.mp h
  obtain rfl := evidence_ok.mp h1
  obtain ⟨hselection,rfl⟩ := failIf_ok.mp h2
  obtain ⟨k1,hk1,rfl⟩ := crypt_ok.mp (catchStandard_fail_ok.mp h3)
  obtain ⟨hfrozen,rfl⟩ := failIf_ok.mp h4
  obtain ⟨hsid,rfl⟩ := failIf_ok.mp h5
  obtain ⟨k2,hk2,rfl⟩ := crypt_ok.mp (catchStandard_fail_ok.mp h6)
  obtain ⟨k3,hk3,rfl⟩ := checkedHash_ok.mp h7
  obtain ⟨hhash,rfl⟩ := failIf_ok.mp h8
  obtain ⟨h9,rfl⟩ := Prod.mk.inj h
  obtain rfl := Except.ok.inj h9
  obtain rfl := not_not.mp hhash
  rw [not_or,not_not] at hselection
  rw [not_or,not_not] at hsid
  have hmem : selected ∈ cases := mem_of_not_frozenDiffers (by simpa using hfrozen)
  exact ⟨⟨hselection.1,hselection.2,hsid.1,hsid.2,cases,k1,k2,hk1,hmem,hk2,hk3⟩,rfl,rfl⟩

theorem approveHead_ok {expected observed hash : Str}
    (h : approveHead b approved selected expected observed s = (.ok (hash,p11),s')) :
    observed = expected ∧ hash = approved.renderedP10Sha256 ∧
      HeadApproved b approved selected observed p11 s.crypto s'.crypto ∧
      s'.result.comparisonInput = s.result.comparisonInput := by
  rw [approveHead] at h
  obtain ⟨_,s1,h1,h⟩ := Eff.bind_ok.mp h
  obtain ⟨hash',s2,h2,h⟩ := Eff.bind_ok.mp h
  obtain ⟨_,s3,h3,h⟩ := Eff.bind_ok.mp h
  obtain ⟨_,s4,h4,h⟩ := Eff.bind_ok.mp h
  obtain ⟨hsame,rfl⟩ := failIf_ok.mp h1
  obtain ⟨k1,hk1,rfl⟩ := checkedHash_ok.mp h2
  obtain rfl := evidence_ok.mp h3
  obtain ⟨hhash,rfl⟩ := failIf_ok.mp h4
  obtain rfl := not_not.mp hhash
  cases hr : renderP11 selected approved.renderedP10Sha256 with
  | error e =>
    rw [hr] at h
    exact (fail_ok.mp h).elim
  | ok head =>
    rw [hr] at h
    obtain ⟨hash2,s5,h5,h⟩ := Eff.bind_ok.mp h
    obtain ⟨_,s6,h6,h⟩ := Eff.bind_ok.mp h
    obtain ⟨k2,hk2,rfl⟩ := checkedHash_ok.mp h5
    obtain ⟨hhash2,rfl⟩ := failIf_ok.mp h6
    obtain ⟨h7,rfl⟩ := Prod.mk.inj h
    obtain ⟨rfl,rfl⟩ := Prod.mk.inj (Except.ok.inj h7)
    obtain rfl := not_not.mp hhash2
    exact ⟨not_not.mp hsame,rfl,⟨⟨k1,hk1,hk2⟩,hr⟩,rfl⟩

theorem catchReader_ok {m : Eff (Binding σ κ) Thrown Str} {object : Str}
    {profile step other : String} {a : Str} :
    catchReader m object profile step other s = (.ok a,s') ↔ m s = (.ok a,s') := by
  rw [catchReader,Eff.catching]
  rcases m s with ⟨t | b,s''⟩
  · cases t <;> simp [fail]
  · rfl

/-- The handlers around a read change nothing. -/
theorem catchReader_snd (m : Eff (Binding σ κ) Thrown Str) (object : Str)
    (profile step other : String) (s : Binding σ κ) :
    (catchReader m object profile step other s).2 = (m s).2 := by
  rw [catchReader]
  rcases he : m s with ⟨t | b,s''⟩
  · rw [Eff.catching_error he]
    cases t <;> rfl
  · rw [Eff.catching_ok he]

/-- The reads of a run: each is made at most once, and only behind its checks. -/
inductive Ordered (b : BCrypt κ) (approved : ApprovedAuthorityBinding) (selected : FixtureCase)
    (sid : Str) (k : κ) : List AuthorityRead → Prop where
  | unread : Ordered b approved selected sid k []
  | p10 {p10 : Str} {k1 : κ} {r : Except Thrown Str}
      (h : P10Approved b approved selected sid k p10 k1) :
      Ordered b approved selected sid k [.verifiedP10 r]
  | head {p10 p11 : Str} {k1 k2 k3 : κ} {r : Except Thrown Str}
      (h : P10Approved b approved selected sid k p10 k1)
      (h' : HeadApproved b approved selected p10 p11 k2 k3) :
      Ordered b approved selected sid k [.verifiedP10 (.ok p10),.fixtureHead r]

variable {reader : ProtectedAuthorityReader σ κ}

/-- The second half of the body, behind a P10 read that returned. -/
theorem bindBody_ordered_head {expected : Str} {k k1 : κ}
    (hp10 : P10Approved b approved selected sid k expected k1) (hs : s.reads = [.verifiedP10 (.ok p10)]) :
    Ordered b approved selected sid k ((do
      let (hash,expectedP11) ← approveHead b approved selected expected p10
      let observedP11 ← catchReader (reading reader.readAuthenticatedFixtureHead .fixtureHead)
        "P11" AuthorityBinding.p11Profile "read-fixture-head"
        "non-standard C++ exception from P11 reader"
      acceptHead b approved selected hash expectedP11 observedP11 :
        Eff (Binding σ κ) Thrown Unit) s).2.reads := by
  have h0 := (approveHead_still b approved selected expected p10).reads s
  rw [hs] at h0
  rcases h1 : approveHead b approved selected expected p10 s with ⟨e | ⟨hash,p11⟩,s1⟩
  · rw [h1] at h0
    rw [Eff.bind_of_error h1,h0]
    exact .p10 hp10
  · rw [h1] at h0
    obtain ⟨rfl,-,hhead,-⟩ := approveHead_ok h1
    rw [Eff.bind_of_ok h1]
    dsimp only
    obtain ⟨r,hr,-⟩ := reading_reads reader.readAuthenticatedFixtureHead .fixtureHead s1
    rw [h0] at hr
    rw [← catchReader_snd _ "P11" AuthorityBinding.p11Profile "read-fixture-head"
      "non-standard C++ exception from P11 reader"] at hr
    generalize catchReader (reading reader.readAuthenticatedFixtureHead .fixtureHead) "P11"
      AuthorityBinding.p11Profile "read-fixture-head"
      "non-standard C++ exception from P11 reader" = m at hr ⊢
    rcases h2 : m s1 with ⟨e | observed,s2⟩
    · rw [h2] at hr
      rw [Eff.bind_of_error h2,hr]
      exact .head hp10 hhead
    · rw [h2] at hr
      rw [Eff.bind_of_ok h2,(acceptHead_still b approved selected hash p11 observed).reads,hr]
      exact .head hp10 hhead

theorem bindBody_ordered (hs : s.reads = []) :
    Ordered b approved selected sid s.crypto
      (bindBody b reader approved selected sid s).2.reads := by
  have h0 := (approveP10_still b approved selected sid).reads s
  rw [hs] at h0
  rw [bindBody]
  rcases h1 : approveP10 b approved selected sid s with ⟨e | expected,s1⟩
  · rw [h1] at h0
    rw [Eff.bind_of_error h1,h0]
    exact .unread
  · rw [h1] at h0
    have hp10 := (approveP10_ok h1).1
    rw [Eff.bind_of_ok h1]
    obtain ⟨r,hr,hres⟩ := reading_reads reader.readVerifiedP10 .verifiedP10 s1
    rcases h2 : catchReader (reading reader.readVerifiedP10 .verifiedP10) "P10"
      AuthorityBinding.p10Profile "read-verified-p10" "non-standard C++ exception from P10 reader"
      s1 with ⟨e | p10,s2⟩
    · have hsnd := congrArg Prod.snd h2
      rw [catchReader_snd] at hsnd
      rw [hsnd,h0] at hr
      rw [Eff.bind_of_error h2,hr]
      exact .p10 hp10
    · rw [Eff.bind_of_ok h2]
      rw [catchReader_ok] at h2
      rw [h2] at hr hres
      rw [h0,← hres] at hr
      exact bindBody_ordered_head hp10 hr

theorem acceptHead_ok {hash expected observed : Str}
    (h : acceptHead b approved selected hash expected observed s = (.ok (),s')) :
    observed = expected ∧ (∃ k,sha256 b observed s.crypto = (.ok approved.selectedP11Sha256,k)) ∧
      s'.reads = s.reads ∧ s'.result.evidence.readyForSnapshot = true ∧
      s'.result.comparisonInput =
        some ⟨selected,approved.stateDirectoryIdentity,observed,hash⟩ := by
  rw [acceptHead] at h
  obtain ⟨_,s1,h1,h⟩ := Eff.bind_ok.mp h
  obtain ⟨hash2,s2,h2,h⟩ := Eff.bind_ok.mp h
  obtain ⟨_,s3,h3,h⟩ := Eff.bind_ok.mp h
  obtain ⟨_,s4,h4,h⟩ := Eff.bind_ok.mp h
  obtain ⟨_,s5,h5,h6⟩ := Eff.bind_ok.mp h
  obtain ⟨hsame,rfl⟩ := failIf_ok.mp h1
  obtain ⟨k,hk,rfl⟩ := checkedHash_ok.mp h2
  obtain rfl := evidence_ok.mp h3
  obtain ⟨hhash,rfl⟩ := failIf_ok.mp h4
  obtain rfl := comparisonInput_ok.mp h5
  obtain rfl := evidence_ok.mp h6
  obtain rfl := not_not.mp hhash
  exact ⟨not_not.mp hsame,⟨k,hk⟩,rfl,rfl,rfl⟩

/-- What a result that is ready rests on. -/
structure Bound (b : BCrypt κ) (approved : ApprovedAuthorityBinding) (selected : FixtureCase)
    (sid : Str) (k : κ) (p10 p11 : Str) (input : BoundComparisonInput) : Prop where
  p10_approved : ∃ k1,P10Approved b approved selected sid k p10 k1
  head_approved : ∃ k2 k3,HeadApproved b approved selected p10 p11 k2 k3
  observed : ∃ k4 k5,sha256 b p11 k4 = (.ok approved.selectedP11Sha256,k5)
  carried : input = ⟨selected,approved.stateDirectoryIdentity,p11,approved.renderedP10Sha256⟩

theorem bindBody_ok (h : bindBody b reader approved selected sid s = (.ok (),s')) :
    s'.result.evidence.readyForSnapshot = true ∧ ∃ p10 p11 input,
      s'.result.comparisonInput = some input ∧
      s'.reads = s.reads++[.verifiedP10 (.ok p10),.fixtureHead (.ok p11)] ∧
      Bound b approved selected sid s.crypto p10 p11 input := by
  rw [bindBody] at h
  obtain ⟨expected,s1,h1,h⟩ := Eff.bind_ok.mp h
  obtain ⟨p10,s2,h2,h⟩ := Eff.bind_ok.mp h
  obtain ⟨⟨hash,expected2⟩,s3,h3,h⟩ := Eff.bind_ok.mp h
  obtain ⟨p11,s4,h4,h5⟩ := Eff.bind_ok.mp h
  have hreads1 := (approveP10_still b approved selected sid).reads s
  have hreads3 := (approveHead_still b approved selected expected p10).reads s2
  rw [h1] at hreads1
  rw [h3] at hreads3
  obtain ⟨w,k,hw,rfl⟩ := reading_ok.mp (catchReader_ok.mp h2)
  obtain ⟨w',k',hw',rfl⟩ := reading_ok.mp (catchReader_ok.mp h4)
  obtain ⟨rfl,rfl,hhead,-⟩ := approveHead_ok h3
  obtain ⟨rfl,⟨k5,hk5⟩,hreads,hready,hinput⟩ := acceptHead_ok h5
  refine ⟨hready,p10,p11,_,hinput,?_,⟨_,(approveP10_ok h1).1⟩,⟨_,_,hhead⟩,⟨_,_,hk5⟩,rfl⟩
  rw [hreads]
  dsimp only at hreads1 hreads3 ⊢
  rw [hreads3,hreads1,List.append_assoc]
  rfl

/-- A result with an input comes from a body that went through. -/
theorem bindBody_of_input {result : AuthorityBindingResult} {input : BoundComparisonInput}
    (h : bindProtectedAuthority b reader approved selected sid s = (.ok result,s'))
    (hinput : result.comparisonInput = some input) :
    bindBody b reader approved selected sid s = (.ok (),s') ∧ s'.result = result := by
  rw [bindProtectedAuthority] at h
  rcases hbody : bindBody b reader approved selected sid s with ⟨t | u,m⟩
  · rw [Eff.bind_apply,Eff.catching_error hbody] at h
    obtain ⟨h1,-⟩ := Prod.mk.inj h
    obtain rfl := Except.ok.inj h1
    exact absurd hinput (by cases t <;> simp)
  · rw [Eff.bind_apply,Eff.catching_ok hbody] at h
    obtain ⟨h1,rfl⟩ := Prod.mk.inj h
    exact ⟨rfl,Except.ok.inj h1⟩

/-- The binder always returns. Its result is ready exactly if there is an input for the
comparison, an input rests on everything that was approved, and the reads are made in order. -/
theorem bindProtectedAuthority_sound (b : BCrypt κ) (reader : ProtectedAuthorityReader σ κ)
    (approved : ApprovedAuthorityBinding) (selected : FixtureCase) (sid : Str) (w : σ) (k : κ) :
    ∃ result s,bindProtectedAuthority b reader approved selected sid (Binding.start w k) =
        (.ok result,s) ∧
      (result.evidence.readyForSnapshot = true ↔ result.comparisonInput.isSome) ∧
      (∀ input,result.comparisonInput = some input → ∃ p10 p11,
        s.reads = [.verifiedP10 (.ok p10),.fixtureHead (.ok p11)] ∧
        Bound b approved selected sid k p10 p11 input) ∧
      Ordered b approved selected sid k s.reads := by
  have hordered : Ordered b approved selected sid (Binding.start w k).crypto
      (bindBody b reader approved selected sid (Binding.start w k)).2.reads :=
    bindBody_ordered rfl
  rw [bindProtectedAuthority]
  rcases h : bindBody b reader approved selected sid (Binding.start w k) with ⟨t | u,s⟩
  · rw [h] at hordered
    rw [Eff.bind_apply,Eff.catching_error h]
    cases t with
    | observation f => exact ⟨_,_,rfl,by simp,by simp,hordered⟩
    | standard f => exact ⟨_,_,rfl,by simp,by simp,hordered⟩
    | nonstandard => exact ⟨_,_,rfl,by simp,by simp,hordered⟩
  · rw [h] at hordered
    obtain ⟨hready,p10,p11,input,hinput,hreads,hbound⟩ := bindBody_ok h
    rw [Eff.bind_apply,Eff.catching_ok h]
    refine ⟨_,_,rfl,by simp [hready,hinput],?_,hordered⟩
    intro input' hinput'
    obtain rfl := Option.some.inj (hinput.symm.trans hinput')
    exact ⟨p10,p11,hreads,hbound⟩

end SoftwareFactory.StageA
