import SoftwareFactory.StageA.AuthorityBinding
import SoftwareFactory.StageA.WindowsP10Reader

namespace SoftwareFactory.StageA.Windows

open Effect

def tokenProfile : String := "A2/current-process-token/SID"

/-- A port may keep any state, use the provider itself and answer as it likes. -/
structure ControllerSidPort (ω κ : Type) where
  readCurrentProcessSid : Eff (ω × κ) Thrown Str

structure AuthenticatedHeadPort (ω κ : Type) where
  readFixtureHead : Eff (ω × κ) Thrown Str

variable {ω κ α : Type}

/-- A call that is logged when it has come to its end, after the calls it made. -/
def concluding (m : Eff (Custody ω × κ) Thrown α) (event : Except Thrown α → PortEvent) :
    Eff (Custody ω × κ) Thrown α := fun s =>
  let (a,c,k) := m s
  (a,{ c with log := c.log++[event a] },k)

def internalProtectedReader (b : BCrypt κ) (config : P10ReaderConfig)
    (calls : Option (P10Calls ω κ)) (a3 : AuthenticatedHeadPort ω κ) :
    ProtectedAuthorityReader (Custody ω) κ where
  readVerifiedP10 := concluding (readVerifiedP10 b config calls) .verifiedP10
  readAuthenticatedFixtureHead := port a3.readFixtureHead .fixtureHead

def tokenStop (selected : FixtureCase) (failure : ObservationFailure) :
    AuthorityBindingResult where
  evidence :=
    { caseId := selected.id, error := failure.kind, object := failure.object
      profile := failure.profile, step := failure.step, detail := failure.message
      ntstatus := failure.ntstatus, hasNtstatus := failure.hasNtstatus
      win32Error := failure.win32Error, hasWin32Error := failure.hasWin32Error }

/-- `try` with handlers for every exception: the outcome as a value. -/
def attempt (m : Eff (Custody ω × κ) Thrown α) :
    Eff (Custody ω × κ) Thrown (Except Thrown α) := Eff.step m

/-- `bind_protected_authority` on the reader of the composition. -/
def bound (b : BCrypt κ) (reader : ProtectedAuthorityReader (Custody ω) κ)
    (approved : ApprovedAuthorityBinding) (selected : FixtureCase) (sid : Str) :
    Eff (Custody ω × κ) Thrown AuthorityBindingResult := fun s =>
  let (r,t) := bindProtectedAuthority b reader approved selected sid (Binding.start s.1 s.2)
  (r,t.world,t.crypto)

def bindInternal (b : BCrypt κ) (token : ControllerSidPort ω κ)
    (approved : ApprovedAuthorityBinding) (selected : FixtureCase)
    (makeReader : Eff (Custody ω × κ) Thrown (ProtectedAuthorityReader (Custody ω) κ)) :
    Eff (Custody ω × κ) Thrown AuthorityBindingResult := do
  match ← attempt (port token.readCurrentProcessSid .token) with
  | .error t =>
    return tokenStop selected (asObservation "A2-token" tokenProfile "read-current-sid"
      "non-standard C++ token-port exception" t)
  | .ok sid =>
    match ← attempt makeReader with
    | .error t =>
      return tokenStop selected (asObservation "P10" p10ReadProfile "construct-reader"
        "non-standard C++ reader construction exception" t)
    | .ok reader =>
      match ← attempt (bound b reader approved selected sid) with
      | .error t =>
        return tokenStop selected (asObservation "P10/P11" "protected-authority-binding"
          "bind-protected-authority" "unexpected non-standard C++ binder exception" t)
      | .ok result => return result

/-- Work of the constructor of the system's P10 calls, none of which is a call of theirs. -/
def constructing (m : Eff (ω × κ) Thrown α) : Eff (Custody ω × κ) Thrown α := fun s =>
  let (a,w,k) := m (s.1.world,s.2)
  (a,{ s.1 with world := w },k)

def bindControllerPrecomparison (b : BCrypt κ)
    (makeSystemP10Calls : Eff (ω × κ) Thrown (P10Calls ω κ)) (token : ControllerSidPort ω κ)
    (a3 : AuthenticatedHeadPort ω κ) (config : P10ReaderConfig)
    (approved : ApprovedAuthorityBinding) (selected : FixtureCase) :
    Eff (Custody ω × κ) Thrown AuthorityBindingResult :=
  bindInternal b token approved selected do
    let calls ← constructing makeSystemP10Calls
    return internalProtectedReader b config (some calls) a3

namespace TestSeam

def bindControllerPrecomparison (b : BCrypt κ) (token : ControllerSidPort ω κ)
    (a3 : AuthenticatedHeadPort ω κ) (config : P10ReaderConfig)
    (calls : Option (P10Calls ω κ)) (approved : ApprovedAuthorityBinding)
    (selected : FixtureCase) : Eff (Custody ω × κ) Thrown AuthorityBindingResult :=
  bindInternal b token approved selected
    (pure (internalProtectedReader b config calls a3))

end TestSeam

end SoftwareFactory.StageA.Windows
