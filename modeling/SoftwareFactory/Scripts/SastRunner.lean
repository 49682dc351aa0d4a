namespace SoftwareFactory

/-- The three exit codes of the SAST gate: 0, 1 and 2. -/
inductive SastExit where
  | noFindings
  | findings
  | toolError
  deriving DecidableEq, Repr

def SastExit.code : SastExit → Nat
  | .noFindings => 0
  | .findings => 1
  | .toolError => 2

/-- The fields of a reported finding that later code reads. -/
structure Finding where
  checkId : Option String
  issueSeverity : Option String
  deriving DecidableEq, Repr

end SoftwareFactory
