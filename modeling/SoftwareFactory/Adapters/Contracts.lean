namespace SoftwareFactory

/-- What `run_tests` prints and returns, as `triage_failure` gets it. -/
structure TestFailure where
  stdout : String
  stderr : String
  exitCode : Int
  deriving DecidableEq, Repr

structure TriageOutput where
  failingTest : String
  projectFile : String
  lineNumber : Int
  expected : String
  received : String
  rootCause : String
  deriving DecidableEq, Repr

inductive Classification where
  | truePositive
  | falsePositive
  | uncertain
  deriving DecidableEq, Repr

structure SecurityFilterOutput where
  findingId : String
  classification : Classification
  justification : String
  deriving DecidableEq, Repr

inductive AuditStatus where
  | pass
  | fail
  | unavailable
  | simulated
  | uncertain
  deriving DecidableEq, Repr

def AuditStatus.name : AuditStatus → String
  | .pass => "PASS"
  | .fail => "FAIL"
  | .unavailable => "UNAVAILABLE"
  | .simulated => "SIMULATED"
  | .uncertain => "UNCERTAIN"

structure LogicAuditOutput where
  status : AuditStatus
  violatedInvariants : List String
  exploitPoc : Option String
  justification : String
  deriving DecidableEq, Repr

end SoftwareFactory
