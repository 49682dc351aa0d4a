import SoftwareFactory.StageA.AuthoritySoundness
import SoftwareFactory.StageA.ControllerComposition
import SoftwareFactory.StageA.ProtectedRead

namespace SoftwareFactory.StageA.Windows

open Effect Binding

variable {σ ω κ α β : Type}

section binder

variable {b : BCrypt κ} {reader : ProtectedAuthorityReader σ κ}
  {approved : ApprovedAuthorityBinding} {selected : FixtureCase} {sid : Str}

/-- What the binder can do to the outside: no call at all, the P10 read, or the head read
behind a P10 read that returned; a read only if `entitled`. -/
inductive Touched (reader : ProtectedAuthorityReader σ κ) (entitled : Prop) (w : σ) : σ → Prop where
  | unread : Touched reader entitled w w
  | p10 (h : entitled) (k : κ) : Touched reader entitled w (reader.readVerifiedP10 (w,k)).2.1
  | head (h : entitled) {k k' : κ} {p10 : Str} {w' : σ}
      (hp10 : reader.readVerifiedP10 (w,k) = (.ok p10,w',k')) (k'' : κ) :
      Touched reader entitled w (reader.readAuthenticatedFixtureHead (w',k'')).2.1

/-- The first read that goes through has changed the outside as the reader did. -/
theorem catchReader_reading_world (op : Eff (σ × κ) Thrown Str)
    (o : Except Thrown Str → AuthorityRead) (object : Str) (profile step other : String)
    (s : Binding σ κ) :
    (catchReader (reading op o) object profile step other s).2.world =
      (op (s.world,s.crypto)).2.1 := by
  rw [catchReader_snd]
  rfl

theorem bindBody_touched_head {expected p10 : Str} {w : σ} {k k' : κ} {s : Binding σ κ}
    (hsid : sid = approved.createdSids.controller)
    (hp10 : reader.readVerifiedP10 (w,k) = (.ok p10,s.world,k')) :
    Touched reader (sid = approved.createdSids.controller) w ((do
      let (hash,expectedP11) ← approveHead b approved selected expected p10
      let observedP11 ← catchReader (reading reader.readAuthenticatedFixtureHead .fixtureHead)
        "P11" AuthorityBinding.p11Profile "read-fixture-head"
        "non-standard C++ exception from P11 reader"
      acceptHead b approved selected hash expectedP11 observedP11 :
        Eff (Binding σ κ) Thrown Unit) s).2.world := by
  have h0 := (approveHead_still b approved selected expected p10).world s
  rcases h1 : approveHead b approved selected expected p10 s with ⟨e | ⟨hash,p11⟩,s1⟩
  · rw [h1] at h0
    rw [Eff.bind_of_error h1,h0]
    have hw : Touched reader (sid = approved.createdSids.controller) w
        (reader.readVerifiedP10 (w,k)).2.1 := .p10 hsid k
    rwa [hp10] at hw
  · rw [h1] at h0
    rw [Eff.bind_of_ok h1]
    dsimp only
    have hread := catchReader_reading_world reader.readAuthenticatedFixtureHead .fixtureHead
      "P11" AuthorityBinding.p11Profile "read-fixture-head"
      "non-standard C++ exception from P11 reader" s1
    generalize catchReader (reading reader.readAuthenticatedFixtureHead .fixtureHead) "P11"
      AuthorityBinding.p11Profile "read-fixture-head"
      "non-standard C++ exception from P11 reader" = m at hread ⊢
    have hhead := Touched.head hsid hp10 s1.crypto
    rw [← h0,← hread] at hhead
    rcases h2 : m s1 with ⟨e | observed,s2⟩
    · rw [h2] at hhead
      rw [Eff.bind_of_error h2]
      exact hhead
    · rw [h2] at hhead
      rw [Eff.bind_of_ok h2,(acceptHead_still b approved selected hash p11 observed).world]
      exact hhead

theorem bindBody_touched (s : Binding σ κ) :
    Touched reader (sid = approved.createdSids.controller) s.world
      (bindBody b reader approved selected sid s).2.world := by
  have h0 := (approveP10_still b approved selected sid).world s
  rw [bindBody]
  rcases h1 : approveP10 b approved selected sid s with ⟨e | expected,s1⟩
  · rw [h1] at h0
    rw [Eff.bind_of_error h1,h0]
    exact .unread
  · rw [h1] at h0
    have hsid := (approveP10_ok h1).1.controller
    rw [Eff.bind_of_ok h1]
    have hread := catchReader_reading_world reader.readVerifiedP10 .verifiedP10 "P10"
      AuthorityBinding.p10Profile "read-verified-p10" "non-standard C++ exception from P10 reader"
      s1
    rcases h2 : catchReader (reading reader.readVerifiedP10 .verifiedP10) "P10"
      AuthorityBinding.p10Profile "read-verified-p10" "non-standard C++ exception from P10 reader"
      s1 with ⟨e | p10,s2⟩
    · rw [h2] at hread
      rw [Eff.bind_of_error h2,hread,← h0]
      exact .p10 hsid s1.crypto
    · rw [Eff.bind_of_ok h2]
      rw [catchReader_ok,reading_ok] at h2
      obtain ⟨w,k,hw,rfl⟩ := h2
      rw [← h0]
      exact bindBody_touched_head hsid hw

/-- The binder returns whatever happens in its body. -/
theorem bindProtectedAuthority_returns (s : Binding σ κ) :
    ∃ result s',bindProtectedAuthority b reader approved selected sid s = (.ok result,s') ∧
      (result.evidence.readyForSnapshot = true ↔ result.comparisonInput.isSome) ∧
      s'.world = (bindBody b reader approved selected sid s).2.world := by
  rw [bindProtectedAuthority]
  rcases h : bindBody b reader approved selected sid s with ⟨t | u,s'⟩
  · rw [Eff.bind_apply,Eff.catching_error h]
    cases t with
    | observation f => exact ⟨_,_,rfl,by simp,rfl⟩
    | standard f => exact ⟨_,_,rfl,by simp,rfl⟩
    | nonstandard => exact ⟨_,_,rfl,by simp,rfl⟩
  · obtain ⟨hready,p10,p11,input,hinput,-⟩ := bindBody_ok h
    rw [Eff.bind_apply,Eff.catching_ok h]
    exact ⟨_,_,rfl,by simp [hready,hinput],rfl⟩

end binder

/-- The calls of a P10 read: what was opened is closed at the end, the last one first. -/
def Custodial (log : List PortEvent) : Prop :=
  ∃ work,log = work++(opened work).reverse.map PortEvent.close ∧
    work.all PortEvent.isWork = true

/-- However a P10 read ends, nothing it opened is left open. -/
theorem readVerifiedP10_custodial (b : BCrypt κ) (calls : Option (P10Calls ω κ))
    (config : P10ReaderConfig) (s : Custody ω × κ) :
    ∃ log,(readVerifiedP10 b config calls s).2.1.log = s.1.log++log ∧ Custodial log := by
  obtain ⟨work,hlog,hall,-⟩ := readVerifiedP10_kept b config calls s
  exact ⟨_,hlog,work,rfl,hall⟩

/-- The calls of a run of the composition. -/
inductive Orderly (approved : ApprovedAuthorityBinding) : List PortEvent → Prop where
  | token (r : Except Thrown Str) : Orderly approved [.token r]
  | p10 {work : List PortEvent} (h : Custodial work) (r : Except Thrown Str) :
      Orderly approved (.token (.ok approved.createdSids.controller)::work++[.verifiedP10 r])
  | head {work : List PortEvent} (h : Custodial work) (p10 : Str) (r : Except Thrown Str) :
      Orderly approved (.token (.ok approved.createdSids.controller)::work++
        [.verifiedP10 (.ok p10),.fixtureHead r])

section composition

variable {b : BCrypt κ} {calls : Option (P10Calls ω κ)} {config : P10ReaderConfig}
  {token : ControllerSidPort ω κ} {a3 : AuthenticatedHeadPort ω κ}
  {approved : ApprovedAuthorityBinding} {selected : FixtureCase}

theorem internalReader_p10_log (b : BCrypt κ) (config : P10ReaderConfig)
    (calls : Option (P10Calls ω κ)) (a3 : AuthenticatedHeadPort ω κ) (s : Custody ω × κ) :
    ((internalProtectedReader b config calls a3).readVerifiedP10 s).2.1.log =
      (readVerifiedP10 b config calls s).2.1.log++
        [.verifiedP10 (readVerifiedP10 b config calls s).1] := rfl

theorem touched_orderly {sid : Str} {c c' : Custody ω} (hlog : c.log = [.token (.ok sid)])
    (h : Touched (internalProtectedReader b config calls a3)
      (sid = approved.createdSids.controller) c c') :
    Orderly approved c'.log ∧ c'.log.head? = some (.token (.ok sid)) := by
  cases h with
  | unread =>
    rw [hlog]
    exact ⟨.token _,rfl⟩
  | p10 hsid k =>
    obtain ⟨work,hwork,hcust⟩ := readVerifiedP10_custodial b calls config (c,k)
    rw [internalReader_p10_log,hwork,hlog,hsid]
    exact ⟨.p10 hcust _,rfl⟩
  | @head hsid k k' p10 w' hp10 k'' =>
    obtain ⟨work,hwork,hcust⟩ := readVerifiedP10_custodial b calls config (c,k)
    have hw := internalReader_p10_log b config calls a3 (c,k)
    have hres : (readVerifiedP10 b config calls (c,k)).1 = .ok p10 := congrArg Prod.fst hp10
    rw [hp10,hwork,hlog,hsid,hres] at hw
    have hhead : ((internalProtectedReader b config calls a3).readAuthenticatedFixtureHead
        (w',k'')).2.1.log = w'.log++[.fixtureHead (a3.readFixtureHead (w'.world,k'')).1] := rfl
    rw [hhead,show w'.log = _ from hw,List.append_assoc]
    rw [hsid]
    exact ⟨.head hcust p10 _,rfl⟩

theorem attempt_eq {m : Eff (Custody ω × κ) Thrown α} {s s' : Custody ω × κ}
    {r : Except Thrown α} (h : m s = (r,s')) : attempt m s = (.ok r,s') := by
  have hstep : attempt m s = (.ok (m s).1,(m s).2) := rfl
  rw [hstep,h]

/-- The composition always returns, however its reader is made. -/
theorem bindInternal_orderly
    (makeReader : Eff (Custody ω × κ) Thrown (ProtectedAuthorityReader (Custody ω) κ))
    (hmake : ∀ s,(makeReader s).2.1.log = s.1.log ∧ ∀ reader,(makeReader s).1 = .ok reader →
      ∃ calls,reader = internalProtectedReader b config calls a3)
    (w : ω) (k : κ) :
    ∃ result c k',bindInternal b token approved selected makeReader ({ world := w },k) =
        (.ok result,c,k') ∧
      (result.evidence.readyForSnapshot = true ↔ result.comparisonInput.isSome) ∧
      Orderly approved c.log ∧
      c.log.head? = some (.token (token.readCurrentProcessSid (w,k)).1) := by
  rw [bindInternal]
  rcases h1 : token.readCurrentProcessSid (w,k) with ⟨t | sid,w1,k1⟩
  · rw [Eff.bind_of_ok (attempt_eq (port_eq h1))]
    exact ⟨_,_,_,rfl,by simp [tokenStop],.token _,rfl⟩
  · rw [Eff.bind_of_ok (attempt_eq (port_eq h1))]
    dsimp only
    generalize hs : (Prod.mk (Custody.mk w1 _ _) k1 : Custody ω × κ) = s1
    have hlog1 : s1.1.log = [.token (.ok sid)] := by rw [← hs]; rfl
    obtain ⟨hlog,hreader⟩ := hmake s1
    rcases h2 : makeReader s1 with ⟨t | reader,s2⟩ <;> rw [h2,hlog1] at hlog
    · rw [Eff.bind_of_ok (attempt_eq h2)]
      refine ⟨_,s2.1,s2.2,rfl,by simp [tokenStop],?_⟩
      rw [hlog]
      exact ⟨.token _,rfl⟩
    · rw [h2] at hreader
      obtain ⟨calls,rfl⟩ := hreader reader rfl
      rw [Eff.bind_of_ok (attempt_eq h2)]
      dsimp only
      obtain ⟨result,s3,h3,hready,hworld⟩ := @bindProtectedAuthority_returns _ _ b
        (internalProtectedReader b config calls a3) approved selected sid
        (Binding.start s2.1 s2.2)
      have hbound : bound b (internalProtectedReader b config calls a3) approved selected sid s2 =
          (.ok result,s3.world,s3.crypto) := by rw [bound,h3]
      rw [Eff.bind_of_ok (attempt_eq hbound)]
      refine ⟨result,s3.world,s3.crypto,rfl,hready,?_⟩
      have htouched := @bindBody_touched _ _ b (internalProtectedReader b config calls a3)
        approved selected sid (Binding.start s2.1 s2.2)
      rw [← hworld] at htouched
      exact touched_orderly hlog htouched

end composition

/-- What the composition promises of a run. -/
def KeepsOrder (approved : ApprovedAuthorityBinding)
    (run : Eff (Custody ω × κ) Thrown AuthorityBindingResult) : Prop :=
  ∀ w k,∃ result c k',run ({ world := w },k) = (.ok result,c,k') ∧
    (result.evidence.readyForSnapshot = true ↔ result.comparisonInput.isSome) ∧
    Orderly approved c.log

section

variable {b : BCrypt κ} {config : P10ReaderConfig} {token : ControllerSidPort ω κ}
  {a3 : AuthenticatedHeadPort ω κ} {approved : ApprovedAuthorityBinding} {selected : FixtureCase}

theorem keepsOrder_of_internal
    {makeReader : Eff (Custody ω × κ) Thrown (ProtectedAuthorityReader (Custody ω) κ)}
    (hmake : ∀ s,(makeReader s).2.1.log = s.1.log ∧ ∀ reader,(makeReader s).1 = .ok reader →
      ∃ calls,reader = internalProtectedReader b config calls a3) :
    KeepsOrder approved (bindInternal b token approved selected makeReader) := by
  intro w k
  obtain ⟨result,c,k',hrun,hready,horder,_⟩ :=
    @bindInternal_orderly _ _ b config token a3 approved selected _ hmake w k
  exact ⟨result,c,k',hrun,hready,horder⟩

/-- The construction of the system's calls is no call of theirs. -/
theorem constructing_reads (make : Eff (ω × κ) Thrown (P10Calls ω κ)) (s : Custody ω × κ) :
    let makeReader : Eff (Custody ω × κ) Thrown (ProtectedAuthorityReader (Custody ω) κ) := do
      let calls ← constructing make
      return internalProtectedReader b config (some calls) a3
    (makeReader s).2.1.log = s.1.log ∧ ∀ reader,(makeReader s).1 = .ok reader →
      ∃ calls,reader = internalProtectedReader b config calls a3 := by
  intro makeReader
  have hlog : (constructing make s).2.1.log = s.1.log := rfl
  cases h : constructing make s with
  | mk r s' =>
    rw [h] at hlog
    cases r with
    | error t =>
      rw [show makeReader s = _ from Eff.bind_of_error h _]
      exact ⟨hlog,fun reader hreader => by cases hreader⟩
    | ok calls =>
      rw [show makeReader s = _ from Eff.bind_of_ok h _]
      refine ⟨hlog,fun reader hreader => ?_⟩
      cases hreader
      exact ⟨some calls,rfl⟩

end

/-- The composition reads the token first and once, the P10 record only for the approved
controller, and the head only when the P10 reader has returned and has closed its handles. -/
theorem bindControllerPrecomparison_orderly (b : BCrypt κ) (token : ControllerSidPort ω κ)
    (a3 : AuthenticatedHeadPort ω κ) (config : P10ReaderConfig)
    (approved : ApprovedAuthorityBinding) (selected : FixtureCase) :
    (∀ makeSystemP10Calls,KeepsOrder approved
      (bindControllerPrecomparison b makeSystemP10Calls token a3 config approved selected)) ∧
    ∀ calls,KeepsOrder approved
      (TestSeam.bindControllerPrecomparison b token a3 config calls approved selected) := by
  constructor
  · intro make w k
    exact keepsOrder_of_internal (constructing_reads make) w k
  · intro calls w k
    refine @keepsOrder_of_internal _ _ b config token a3 approved selected _ (fun s => ?_) w k
    refine ⟨rfl,fun reader hreader => ?_⟩
    cases hreader
    exact ⟨(calls : Option (P10Calls ω κ)),rfl⟩

end SoftwareFactory.StageA.Windows
