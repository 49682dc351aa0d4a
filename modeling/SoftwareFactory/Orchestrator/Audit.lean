import SoftwareFactory.Orchestrator.ManagerRules

namespace SoftwareFactory

open Process

structure Candidate where
  provider : String
  model : String
  isFallback : Bool
  deriving DecidableEq, Repr

/-- A fallback entry is dropped when its provider or model is missing or empty. -/
def FallbackEntry.candidate (fb : FallbackEntry) : Option Candidate :=
  match fb.provider,fb.model with
  | some p,some m => if p ≠ "" ∧ m ≠ "" then some ⟨p,m,true⟩ else none
  | _,_ => none

def SecurityRole.candidates (role : SecurityRole) : List Candidate :=
  ⟨role.provider.getD "gemini",role.model.getD "gemini-3.8-flash",false⟩ ::
    role.fallbacks.filterMap FallbackEntry.candidate

/-- The triple `execute_logic_security_audit` returns. -/
structure AuditResult where
  passed : Bool
  output : Option LogicAuditOutput
  modelInfo : Option AuditModel
  deriving DecidableEq, Repr

/-- The auditors during one call: the answer of the `i`-th candidate's client. -/
abbrev Auditors := Nat → Adapter → String → String → Except PyExc LogicAuditOutput

/-- What one call of `execute_logic_security_audit` is given besides the state. -/
structure AuditCall where
  hasApiKey : AdapterKind → Bool
  auditors : Auditors
  specContent : String
  diffOutput : String
  role : SecurityRole
  simulate : Bool
  exitProcess : Bool

def codeInfo : Option Nat → String
  | some code => if code = 0 then "transport/network" else s!"HTTP {code}"
  | none => "transport/network"

def unavailableMessage (sm : StateManager) (c : Candidate) (code : Option Nat)
    (message : String) : String :=
  s!"{c.provider}:{c.model} unavailable ({codeInfo code}): {sm.sanitizeSecretText message}"

namespace StateManager

variable {τ : Type} (sm : StateManager)

/-- The end of the loop body, once a client has returned a verdict. -/
def judge (call : AuditCall) (c : Candidate) (res : LogicAuditOutput) : Job τ AuditResult := do
  if res.status = .fail then
    let _ ← sm.consumeSecurityReplan
      s!"Invariant violation ({c.provider}:{c.model}): {res.justification}"
    return ⟨false,some res,none⟩
  if res.status = .unavailable ∨ res.status = .uncertain then
    sm.requestHumanReview (s!"Inconclusive audit ({res.status.name}) from " ++
      s!"{c.provider}:{c.model}: {res.justification}") "LOGIC_AUDIT" call.exitProcess
    return ⟨false,some res,none⟩
  if res.status = .simulated ∧ !call.simulate then
    sm.haltHuman (s!"Simulated audit received from {c.provider}:{c.model} in live run. " ++
      "Merge blocked.") call.exitProcess
    return ⟨false,none,none⟩
  sm.recordAuditModel c.provider c.model
  return ⟨true,some res,some ⟨c.provider,c.model⟩⟩

def announceFallback (c : Candidate) : Job τ Unit :=
  if c.isFallback then
    sm.transition .logicAudit
      s!"Falling back to Logic Security Auditor: {PyText.upper c.provider}:{c.model}..."
  else pure ()

/-- The loop over the candidates from index `i` on; `errors` are the availability errors
so far. Past the last candidate `i` is their number. -/
def auditCandidates (call : AuditCall) :
    Nat → List Candidate → List String → Job τ AuditResult
  | i,[],errors => do
    let details := String.intercalate " | " errors
    sm.requestHumanReview (s!"All logic security audit models unavailable after retries " ++
      s!"({i} model(s) attempted). Details: {details}") "LOGIC_AUDIT" call.exitProcess
    return ⟨false,none,none⟩
  | i,c::cs,errors => do
    sm.announceFallback c
    Proc.emit (.createSecurityAdapter c.provider c.model)
    match createSecurityAdapter call.hasApiKey c.provider c.model call.simulate with
    | .error e =>
      sm.haltHuman ("Security adapter initialization failed: " ++
        sm.sanitizeSecretText e.message) call.exitProcess
      return ⟨false,none,none⟩
    | .ok client =>
      let res := call.auditors i client call.specContent call.diffOutput
      Proc.emit (.auditLogicAndSecurity client res)
      match res with
      | .error (.networkTransport message status _) =>
        auditCandidates call (i+1) cs (errors++[unavailableMessage sm c status message])
      | .error e =>
        -- the `Retry-After` header plays no part here, so it stays unparsed
        let t := isTransientNetworkError some e
        if t.isRetryable then
          auditCandidates call (i+1) cs
            (errors++[unavailableMessage sm c t.statusCode e.message])
        else
          sm.haltHuman (s!"Non-availability failure in Logic Security Audit " ++
            s!"({c.provider}:{c.model}): {sm.sanitizeSecretText e.message}") call.exitProcess
          return ⟨false,none,none⟩
      | .ok out => sm.judge call c out

def executeLogicSecurityAudit (call : AuditCall) : Job τ AuditResult := do
  Proc.emit (.executeLogicSecurityAudit call.diffOutput call.role)
  sm.auditCandidates call 0 call.role.candidates []

end StateManager

/-- The outcomes the fallback policy tells apart. -/
inductive AuditOutcome where
  | unknownProvider
  | unavailable
  | otherException
  | verdict (status : AuditStatus)
  deriving DecidableEq, Repr

/-- `NetworkTransportError`, or an exception `is_transient_network_error` accepts. -/
def PyExc.isAvailabilityFailure : PyExc → Bool
  | .networkTransport _ _ _ => true
  | e => (isTransientNetworkError some e).isRetryable

namespace AuditCall

variable (call : AuditCall)

def adapter (c : Candidate) : Except PyExc Adapter :=
  createSecurityAdapter call.hasApiKey c.provider c.model call.simulate

/-- The outcome assigned to candidate `c` at index `i`. -/
def outcome (i : Nat) (c : Candidate) : AuditOutcome :=
  match call.adapter c with
  | .error _ => .unknownProvider
  | .ok client => match call.auditors i client call.specContent call.diffOutput with
    | .error e => if e.isAvailabilityFailure then .unavailable else .otherException
    | .ok out => .verdict out.status

/-- Candidates from index `i` on with their outcomes. -/
def assigned (i : Nat) (cs : List Candidate) : List (Candidate × AuditOutcome) :=
  (cs.zipIdx i).map fun p => (p.1,call.outcome p.2 p.1)

@[simp] theorem assigned_nil (i : Nat) : call.assigned i [] = [] := rfl
@[simp] theorem assigned_cons (i : Nat) (c : Candidate) (cs : List Candidate) :
    call.assigned i (c::cs) = (c,call.outcome i c) :: call.assigned (i+1) cs := rfl

end AuditCall

end SoftwareFactory
