import SoftwareFactory.StageA.Snapshot

namespace SoftwareFactory.StageA

open Effect

namespace AuthorityBinding

def p10Profile : String := "protected-P10/handle-bound-identity-read"
def p11Profile : String := "A3/ReadFixtureHead/authenticated-response"

end AuthorityBinding

open AuthorityBinding

structure ApprovedAuthorityBinding where
  createdSids : SidSet
  reviewedImages : P10BuildHashes
  renderedP10Sha256 : Str
  selectedCaseId : Str
  selectedP11Sha256 : Str
  stateDirectoryIdentity : Str
  deriving DecidableEq

/-- A reader may keep any state, use the provider itself and answer as it likes. -/
structure ProtectedAuthorityReader (σ κ : Type) where
  readVerifiedP10 : Eff (σ × κ) Thrown Str
  readAuthenticatedFixtureHead : Eff (σ × κ) Thrown Str

structure BoundComparisonInput where
  fixture : FixtureCase
  stateDirectoryIdentity : Str
  protectedP11Bytes : Str
  renderedP10Sha256 : Str

structure AuthorityBindingEvidence where
  readyForSnapshot : Bool := false
  error : ErrorKind := .none
  object : Str := []
  profile : String := ""
  step : String := ""
  detail : String := ""
  p10Sha256 : Str := []
  p11Sha256 : Str := []
  caseId : Str := []
  ntstatus : Int := 0
  win32Error : UInt32 := 0
  hasNtstatus : Bool := false
  hasWin32Error : Bool := false
  deriving DecidableEq

structure AuthorityBindingResult where
  evidence : AuthorityBindingEvidence := {}
  comparisonInput : Option BoundComparisonInput := none

/-- One call of the reader, with its outcome. -/
inductive AuthorityRead where
  | verifiedP10 (r : Except Thrown Str)
  | fixtureHead (r : Except Thrown Str)
  deriving DecidableEq

/-- The binder while it runs: the outside, the reads made so far, the result. -/
structure Binding (σ κ : Type) where
  world : σ
  crypto : κ
  reads : List AuthorityRead
  result : AuthorityBindingResult

def Binding.start {σ κ : Type} (w : σ) (k : κ) : Binding σ κ := ⟨w,k,[],{}⟩

variable {σ κ α : Type}

namespace Binding

/-- A call of the reader. -/
def reading (op : Eff (σ × κ) Thrown Str) (o : Except Thrown Str → AuthorityRead) :
    Eff (Binding σ κ) Thrown Str := fun s =>
  let (a,w,k) := op (s.world,s.crypto)
  (a,{ s with world := w, crypto := k, reads := s.reads++[o a] })

/-- A computation with the provider that throws standard exceptions only. -/
def crypt (op : Eff κ StdException α) : Eff (Binding σ κ) Thrown α := fun s =>
  let (a,k) := standardOnly op s.crypto
  (a,{ s with crypto := k })

def evidence (f : AuthorityBindingEvidence → AuthorityBindingEvidence) :
    Eff (Binding σ κ) Thrown Unit :=
  Eff.modify fun s => { s with result := { s.result with evidence := f s.result.evidence } }

def comparisonInput (input : Option BoundComparisonInput) : Eff (Binding σ κ) Thrown Unit :=
  Eff.modify fun s => { s with result := { s.result with comparisonInput := input } }

end Binding

open Binding

def checkedHash (b : BCrypt κ) (bytes object : Str) (step : String) :
    Eff (Binding σ κ) Thrown Str :=
  catchStandard (crypt (sha256 b bytes))
    (fail .hashFailure object "BCrypt-SHA256/authority-binding" step)

/-- The three handlers around a call of the reader. -/
def catchReader (m : Eff (Binding σ κ) Thrown Str) (object : Str) (profile step other : String) :
    Eff (Binding σ κ) Thrown Str :=
  Eff.catching m fun
    | .observation f => Eff.raise (.observation f)
    | .standard e => fail .incomplete object profile step e.what
    | .nonstandard => fail .incomplete object profile step other

/-- `std::find_if` by id, and the comparison of the fields. -/
def frozenDiffers (frozenCases : List FixtureCase) (selected : FixtureCase) : Bool :=
  match frozenCases.find? fun item => item.id == selected.id with
  | none => true
  | some frozen =>
    decide (frozen.state ≠ selected.state ∨ frozen.status ≠ selected.status ∨
      frozen.generation ≠ selected.generation ∨ frozen.workerRuns ≠ selected.workerRuns ∨
      frozen.oldFiles ≠ selected.oldFiles ∨ frozen.latestFiles ≠ selected.latestFiles ∨
      frozen.oldDigest ≠ selected.oldDigest ∨ frozen.latestDigest ≠ selected.latestDigest)

/-- Up to the first read: the selection, the frozen case, the SID, the approved P10. -/
def approveP10 (b : BCrypt κ) (approved : ApprovedAuthorityBinding) (selected : FixtureCase)
    (actualControllerSid : Str) : Eff (Binding σ κ) Thrown Str := do
  evidence fun e => { e with caseId := selected.id }
  failIf (approved.selectedCaseId ≠ selected.id ∨ approved.stateDirectoryIdentity = [])
    .bindingFailure "P10" p10Profile "g2-selection" "case or state-directory binding missing"
  let frozenCases ← catchStandard (crypt (fixtureCases b))
    (fail .hashFailure "P10" "BCrypt-SHA256/frozen-case" "frozen-case-digest")
  failIf (frozenDiffers frozenCases selected) .bindingFailure "P10" p10Profile "frozen-case"
    "selected fixture differs from frozen source case"
  failIf (actualControllerSid = [] ∨ actualControllerSid ≠ approved.createdSids.controller)
    .bindingFailure "A2-token" p10Profile "controller-sid"
    "actual controller SID differs from created C SID"
  let expectedP10 ← catchStandard
    (crypt (renderP10 b approved.createdSids approved.reviewedImages))
    (fail .bindingFailure "P10" p10Profile "g2-render")
  let expectedP10Hash ← checkedHash b expectedP10 "P10" "p10-expected-hash"
  failIf (expectedP10Hash ≠ approved.renderedP10Sha256) .bindingFailure "P10" p10Profile
    "g2-rendered-hash" "rendered P10 differs from approved G2 hash"
  return expectedP10

/-- Between the reads: the P10 bytes against the approved ones, the approved head. -/
def approveHead (b : BCrypt κ) (approved : ApprovedAuthorityBinding) (selected : FixtureCase)
    (expectedP10 observedP10 : Str) : Eff (Binding σ κ) Thrown (Str × Str) := do
  failIf (observedP10 ≠ expectedP10) .bindingFailure "P10" p10Profile "p10-canonical-bytes"
    "P10 bytes differ from approved canonical rendering"
  let p10Sha256 ← checkedHash b observedP10 "P10" "p10-observed-hash"
  evidence fun e => { e with p10Sha256 := p10Sha256 }
  failIf (p10Sha256 ≠ approved.renderedP10Sha256) .bindingFailure "P10" p10Profile
    "p10-observed-hash" "observed P10 hash differs from G2 record"
  match renderP11 selected p10Sha256 with
  | .error e => fail .bindingFailure "P11" p11Profile "case-head-render" e.what
  | .ok expectedP11 =>
    let expectedP11Hash ← checkedHash b expectedP11 "P11" "p11-expected-hash"
    failIf (expectedP11Hash ≠ approved.selectedP11Sha256) .bindingFailure "P11" p11Profile
      "g2-head-hash" "selected P11 differs from approved G2 hash"
    return (p10Sha256,expectedP11)

/-- After the second read: the head bytes, and the result. -/
def acceptHead (b : BCrypt κ) (approved : ApprovedAuthorityBinding) (selected : FixtureCase)
    (p10Sha256 expectedP11 observedP11 : Str) : Eff (Binding σ κ) Thrown Unit := do
  failIf (observedP11 ≠ expectedP11) .bindingFailure "P11" p11Profile "head-canonical-bytes"
    "A3 head differs from selected canonical fixture record"
  let p11Sha256 ← checkedHash b observedP11 "P11" "p11-observed-hash"
  evidence fun e => { e with p11Sha256 := p11Sha256 }
  failIf (p11Sha256 ≠ approved.selectedP11Sha256) .bindingFailure "P11" p11Profile
    "p11-observed-hash" "observed P11 hash differs from G2 record"
  comparisonInput (some ⟨selected,approved.stateDirectoryIdentity,observedP11,p10Sha256⟩)
  evidence fun e =>
    { e with
      readyForSnapshot := true
      detail := "canonical protected content bound; " ++
        "native reader proof and snapshot remain separate" }

/-- The `try` block of the binder. -/
def bindBody (b : BCrypt κ) (reader : ProtectedAuthorityReader σ κ)
    (approved : ApprovedAuthorityBinding) (selected : FixtureCase) (actualControllerSid : Str) :
    Eff (Binding σ κ) Thrown Unit := do
  let expectedP10 ← approveP10 b approved selected actualControllerSid
  let observedP10 ← catchReader (reading reader.readVerifiedP10 .verifiedP10) "P10" p10Profile
    "read-verified-p10" "non-standard C++ exception from P10 reader"
  let (p10Sha256,expectedP11) ← approveHead b approved selected expectedP10 observedP10
  let observedP11 ← catchReader (reading reader.readAuthenticatedFixtureHead .fixtureHead) "P11"
    p11Profile "read-fixture-head" "non-standard C++ exception from P11 reader"
  acceptHead b approved selected p10Sha256 expectedP11 observedP11

/-- The three handlers of the binder: every exception ends in a result that is not ready. -/
def notReady (t : Thrown) : Eff (Binding σ κ) Thrown Unit := do
  comparisonInput none
  evidence fun e =>
    match t with
    | .observation f =>
      { e with
        readyForSnapshot := false, error := f.kind, object := f.object, profile := f.profile
        step := f.step, detail := f.message, ntstatus := f.ntstatus
        hasNtstatus := f.hasNtstatus, win32Error := f.win32Error
        hasWin32Error := f.hasWin32Error }
    | .standard f =>
      { e with
        readyForSnapshot := false, error := .incomplete, object := "P10/P11"
        profile := "protected-authority-binding", step := "unclassified-binding"
        detail := f.what }
    | .nonstandard =>
      { e with
        readyForSnapshot := false, error := .incomplete, object := "P10/P11"
        profile := "protected-authority-binding", step := "unclassified-binding"
        detail := "unexpected non-standard C++ exception" }

def bindProtectedAuthority (b : BCrypt κ) (reader : ProtectedAuthorityReader σ κ)
    (approved : ApprovedAuthorityBinding) (selected : FixtureCase) (actualControllerSid : Str) :
    Eff (Binding σ κ) Thrown AuthorityBindingResult := do
  Eff.catching (bindBody b reader approved selected actualControllerSid) notReady
  let s ← Eff.get
  return s.result

end SoftwareFactory.StageA
