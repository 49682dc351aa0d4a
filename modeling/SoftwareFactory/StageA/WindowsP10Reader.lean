import SoftwareFactory.StageA.WindowsSnapshot

namespace SoftwareFactory.StageA.Windows

open Effect

def maxP10Bytes : Nat := 65536
def volumeRoot : WStr := wide "C:\\"
def p1Name : WStr := wide "S1PF_260926_A"
def p3Name : WStr := wide "config"
def p10Name : WStr := wide "binding.json"

def p10ReadProfile : String := "protected-P10/handle-bound-identity-read"

def invalidHandleValue : Handle := 0xffffffffffffffff

def p10FileReadSpec : OpenSpec := ⟨0x120081,0x3,1,0x200060,0x1040⟩

structure P10ReaderConfig where
  root : Metadata
  p1 : Metadata
  p3 : Metadata
  p10 : Metadata
  canonicalBytes : Str
  sha256 : Str

/-- The calls may keep any state, use the provider themselves and answer as they like. -/
structure P10Calls (ω κ : Type) where
  openRoot : WStr → RootOpenSpec → Eff (ω × κ) Thrown Handle
  openRelative : Handle → WStr → OpenSpec → Str → Eff (ω × κ) Thrown Handle
  inspect : Handle → Str → String → Eff (ω × κ) Thrown Metadata
  readContent : Handle → Nat → Eff (ω × κ) Thrown Str
  close : Handle → ω × κ → ω × κ

/-- One call of a port of the controller, with its outcome; the P10 reader is logged when it
has come to its end. -/
inductive PortEvent where
  | token (r : Except Thrown Str)
  | openRoot (path : WStr) (spec : RootOpenSpec) (r : Except Thrown Handle)
  | openRelative (parent : Handle) (component : WStr) (spec : OpenSpec) (object : Str)
      (r : Except Thrown Handle)
  | inspect (handle : Handle) (object : Str) (step : String) (r : Except Thrown Metadata)
  | readContent (handle : Handle) (maxBytes : Nat) (r : Except Thrown Str)
  | close (handle : Handle)
  | verifiedP10 (r : Except Thrown Str)
  | fixtureHead (r : Except Thrown Str)

/-- The outside, the calls made so far and the handles of the `HeldHandles` in scope. -/
structure Custody (ω : Type) where
  world : ω
  log : List PortEvent := []
  held : List Handle := []

variable {ω κ α : Type}

/-- A call of a port. -/
def port (op : Eff (ω × κ) Thrown α) (event : Except Thrown α → PortEvent) :
    Eff (Custody ω × κ) Thrown α := fun s =>
  let (a,w,k) := op (s.1.world,s.2)
  (a,{ s.1 with world := w, log := s.1.log++[event a] },k)

/-- The `ObservationFailure` that the three handlers make of an exception. -/
def asObservation (object : Str) (profile step other : String) :
    Thrown → ObservationFailure
  | .observation f => f
  | .standard e =>
    { kind := .incomplete, object := object, profile := profile, step := step, message := e.what }
  | .nonstandard =>
    { kind := .incomplete, object := object, profile := profile, step := step, message := other }

/-- What the failures of a reader of protected objects name. -/
structure ReaderLabels where
  object : Str
  profile : String

def onCrypto (m : Eff κ Thrown α) : Eff (Custody ω × κ) Thrown α := fun s =>
  let (a,k) := m s.2
  (a,s.1,k)

namespace ReaderLabels

def checkedHash (p : ReaderLabels) (b : BCrypt κ) (bytes : Str) (step : String) :
    Eff (Custody ω × κ) Thrown Str :=
  Eff.catching (onCrypto (standardOnly (sha256 b bytes)))
    fun _ => fail .hashFailure p.object p.profile step "BCrypt SHA-256 failed"

/-- `parent` is `none` for the volume root. -/
def checkNode (p : ReaderLabels) (actual expected : Metadata)
    (parent : Option (Metadata × WStr)) (directory protectedDacl : Bool) (object : Str)
    (step : String) : Eff (Custody ω × κ) Thrown Unit := do
  failIf (isReparse actual ∨ actual.reparseTag ≠ 0) .reparse object p.profile step
    "reparse object or tag"
  failIf (actual.directory ≠ directory ∨
      (actual.attributes &&& fileAttributeDirectory != 0) ≠ directory ∨
      actual.attributes &&& fileAttributeDevice ≠ 0)
    .identityDrift object p.profile step "unexpected object type or device attribute"
  failIf (!nonzeroId actual.fileId ∨ actual.volumeGuidPath = [] ∨ actual.finalPath = [] ∨
      actual.sddl = [] ∨ (protectedDacl ∧ !actual.daclProtected))
    .incomplete object p.profile step "required identity or descriptor field absent"
  failIf (∃ q ∈ parent,actual.volumeGuidPath ≠ q.1.volumeGuidPath ∨
      actual.volumeSerial ≠ q.1.volumeSerial ∨
      actual.finalPath ≠ childFinalPath q.1.finalPath q.2)
    .identityDrift object p.profile step "parent binding differs"
  failIf (actual.volumeGuidPath ≠ expected.volumeGuidPath ∨
      actual.volumeSerial ≠ expected.volumeSerial ∨ actual.fileId ≠ expected.fileId ∨
      actual.finalPath ≠ expected.finalPath ∨ actual.directory ≠ expected.directory ∨
      actual.attributes ≠ expected.attributes ∨ actual.reparseTag ≠ expected.reparseTag ∨
      actual.sddl ≠ expected.sddl ∨ actual.daclProtected ≠ expected.daclProtected)
    .identityDrift object p.profile step "G2 identity or owner/group/full DACL differs"

/-- `HeldHandles::add` around a call that opens. -/
def hold (p : ReaderLabels) (op : Eff (ω × κ) Thrown Handle)
    (event : Except Thrown Handle → PortEvent) : Eff (Custody ω × κ) Thrown Handle := do
  let h ← port op event
  failIf (h = 0 ∨ h = invalidHandleValue) .incomplete p.object p.profile "open-handle"
    "invalid native handle"
  Eff.modify fun s => ({ s.1 with held := s.1.held++[h] },s.2)
  return h

end ReaderLabels

def p10Labels : ReaderLabels := ⟨"P10",p10ReadProfile⟩

def checkedSha256 (b : BCrypt κ) (bytes : Str) (step : String) :
    Eff (Custody ω × κ) Thrown Str :=
  p10Labels.checkedHash b bytes step

def checkNode (actual expected : Metadata) (parent : Option (Metadata × WStr))
    (directory protectedDacl : Bool) (object : Str) (step : String) :
    Eff (Custody ω × κ) Thrown Unit :=
  p10Labels.checkNode actual expected parent directory protectedDacl object step

def hold (op : Eff (ω × κ) Thrown Handle) (event : Except Thrown Handle → PortEvent) :
    Eff (Custody ω × κ) Thrown Handle :=
  p10Labels.hold op event

/-- The closing of handles, one after another. -/
def closeAll (calls : P10Calls ω κ) : List Handle → Custody ω × κ → Custody ω × κ
  | [],s => s
  | h::hs,s =>
    let (w,k) := calls.close h (s.1.world,s.2)
    closeAll calls hs ({ s.1 with world := w, log := s.1.log++[.close h] },k)

/-- The destructor of `HeldHandles`. -/
def release (calls : P10Calls ω κ) (s : Custody ω × κ) : Custody ω × κ :=
  let (c,k) := closeAll calls s.1.held.reverse s
  ({ c with held := [] },k)

variable (b : BCrypt κ) (calls : P10Calls ω κ) (config : P10ReaderConfig)

def inspectNode (handle : Handle) (object : Str) (step : String) :
    Eff (Custody ω × κ) Thrown Metadata :=
  port (calls.inspect handle object step) (.inspect handle object step)

def openNode (parent : Handle) (component : WStr) (spec : OpenSpec) (object : Str) :
    Eff (Custody ω × κ) Thrown Handle :=
  hold (calls.openRelative parent component spec object)
    (.openRelative parent component spec object)

def readP10 (p10 : Handle) : Eff (Custody ω × κ) Thrown Str :=
  port (calls.readContent p10 config.canonicalBytes.length)
    (.readContent p10 config.canonicalBytes.length)

/-- The part of `read_verified_p10` in which handles are held. -/
def readHeld : Eff (Custody ω × κ) Thrown Str := do
  let root ← hold (calls.openRoot volumeRoot rootIdentitySpec)
    (.openRoot volumeRoot rootIdentitySpec)
  let rootMeta ← inspectNode calls root "volume-root" "initial-identity"
  checkNode rootMeta config.root none true false "volume-root" "initial-identity"
  let p1 ← openNode calls root p1Name ancestorIdentitySpec "P1"
  let p1Meta ← inspectNode calls p1 "P1" "initial-identity"
  checkNode p1Meta config.p1 (some (rootMeta,p1Name)) true true "P1" "initial-identity"
  let p3 ← openNode calls p1 p3Name ancestorIdentitySpec "P3"
  let p3Meta ← inspectNode calls p3 "P3" "initial-identity"
  checkNode p3Meta config.p3 (some (p1Meta,p3Name)) true true "P3" "initial-identity"
  let p10 ← openNode calls p3 p10Name p10FileReadSpec "P10"
  let p10Meta ← inspectNode calls p10 "P10" "initial-identity"
  checkNode p10Meta config.p10 (some (p3Meta,p10Name)) false true "P10" "initial-identity"
  let bytes ← readP10 calls config p10
  failIf (bytes ≠ config.canonicalBytes) .bindingFailure "P10" p10ReadProfile "canonical-bytes"
    "P10 bytes differ from G2 seal"
  let hash ← checkedSha256 b bytes "content-sha256"
  failIf (hash ≠ config.sha256) .hashFailure "P10" p10ReadProfile "content-sha256"
    "P10 digest differs from G2 seal"
  let again ← readP10 calls config p10
  failIf (again ≠ bytes) .identityDrift "P10" p10ReadProfile "final-content"
    "P10 content changed during read window"
  let finalRoot ← inspectNode calls root "volume-root" "final-identity"
  checkNode finalRoot rootMeta none true false "volume-root" "final-identity"
  let finalP1 ← inspectNode calls p1 "P1" "final-identity"
  checkNode finalP1 p1Meta (some (rootMeta,p1Name)) true true "P1" "final-identity"
  let finalP3 ← inspectNode calls p3 "P3" "final-identity"
  checkNode finalP3 p3Meta (some (p1Meta,p3Name)) true true "P3" "final-identity"
  let finalP10 ← inspectNode calls p10 "P10" "final-identity"
  checkNode finalP10 p10Meta (some (p3Meta,p10Name)) false true "P10" "final-identity"
  return bytes

/-- The `try` block of `read_verified_p10` with calls at hand. -/
def readBody : Eff (Custody ω × κ) Thrown Str := do
  failIf (config.canonicalBytes = [] ∨ config.canonicalBytes.length > maxP10Bytes ∨
      config.sha256 = [] ∨ config.root.finalPath ≠ config.root.volumeGuidPath ∨
      config.p1.finalPath ≠ childFinalPath config.root.finalPath p1Name ∨
      config.p3.finalPath ≠ childFinalPath config.p1.finalPath p3Name ∨
      config.p10.finalPath ≠ childFinalPath config.p3.finalPath p10Name)
    .bindingFailure "P10" p10ReadProfile "trusted-config"
    "incomplete or inconsistent G2 P10 binding"
  let hash ← checkedSha256 b config.canonicalBytes "trusted-config-hash"
  failIf (hash ≠ config.sha256) .bindingFailure "P10" p10ReadProfile "trusted-config-hash"
    "G2 P10 bytes and digest disagree"
  Eff.modify fun s => ({ s.1 with held := [] },s.2)
  Eff.owning (release calls) (readHeld b calls config)

/-- `WindowsP10Reader::read_verified_p10`; `none` is a null pointer, which fails the first
check. -/
def readVerifiedP10 (calls : Option (P10Calls ω κ)) : Eff (Custody ω × κ) Thrown Str :=
  Eff.catching
    (match calls with
      | none =>
        fail .bindingFailure "P10" p10ReadProfile "trusted-config"
          "incomplete or inconsistent G2 P10 binding"
      | some calls => readBody b calls config)
    fun t =>
      Eff.raise (.observation (asObservation "P10" p10ReadProfile "reader-exception"
        "non-standard C++ exception" t))

end SoftwareFactory.StageA.Windows
