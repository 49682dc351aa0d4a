import SoftwareFactory.Adapters.Sanitizer
import SoftwareFactory.Lib.Effect
import Mathlib.Order.Lattice

namespace SoftwareFactory

/-- What is read of a `requests` response. `retryAfter` is the raw `Retry-After` header. -/
structure Response where
  statusCode : Nat
  reason : Option String
  retryAfter : Option String
  text : String
  deriving DecidableEq, Repr

/-- Exceptions by the classes the code distinguishes. `other` carries the class name. -/
inductive PyExc where
  | networkTransport (message : String) (statusCode : Option Nat) (responseText : Option String)
  | timeout (message : String)
  | connection (message : String)
  | http (message : String) (response : Option Response)
  | other (typeName message : String)
  deriving DecidableEq, Repr

def PyExc.message : PyExc → String
  | .networkTransport m _ _ => m
  | .timeout m => m
  | .connection m => m
  | .http m _ => m
  | .other _ m => m

def PyExc.typeName : PyExc → String
  | .networkTransport _ _ _ => "NetworkTransportError"
  | .timeout _ => "Timeout"
  | .connection _ => "ConnectionError"
  | .http _ _ => "HTTPError"
  | .other t _ => t

/-- `(is_retryable, reason, status_code, retry_after_seconds)`. -/
structure Transience (θ : Type) where
  isRetryable : Bool
  reason : String
  statusCode : Option Nat
  retryAfter : Option θ
  deriving DecidableEq, Repr

section

variable {θ : Type}

/-- `toFloat` is Python's `float` on a header value; `none` is its `ValueError`. An
empty header is falsy and never parsed. -/
def parseRetryAfter (toFloat : String → Option θ) : Option String → Option θ
  | none => none
  | some h => if h = "" then none else toFloat h

def isTransientNetworkError (toFloat : String → Option θ) : PyExc → Transience θ
  | .timeout _ => ⟨true,"HTTP request timeout",none,none⟩
  | .connection _ => ⟨true,"Network connection or socket error",none,none⟩
  | .http _ (some resp) =>
    let code := resp.statusCode
    if code ∈ [429,502,503,504] then
      let text := match resp.reason with
        | some r => if r = "" then "Rate Limit / Service Unavailable" else r
        | none => "Rate Limit / Service Unavailable"
      ⟨true,s!"HTTP {code} ({text})",some code,parseRetryAfter toFloat resp.retryAfter⟩
    else ⟨false,s!"HTTP {code} (Permanent client error, non-retryable)",some code,none⟩
  | e => ⟨false,e.typeName,none,none⟩

end

/-- The response of an `HTTPError`. -/
def PyExc.response : PyExc → Option Response
  | .http _ resp => resp
  | _ => none

namespace Retry

/-- The values `float` can make of a header. -/
inductive Seconds (θ : Type) where
  | number (x : θ)
  | infinity
  | negativeInfinity
  | nan
  deriving DecidableEq, Repr

/-- The parameters of the decorator; `name` is the name of the wrapped function. -/
structure Backoff (θ : Type) where
  maxRetries : Nat
  initialDelay : θ
  backoffFactor : θ
  maxDelay : θ
  name : String

/-- What the loop carries from one attempt to the next. -/
structure Carried (θ : Type) where
  delay : θ
  lastError : Option PyExc := none
  lastCode : Option Nat := none
  lastRespText : Option String := none

section

open Effect

variable {θ : Type} [Mul θ] [Zero θ] [LinearOrder θ]

/-- A `Retry-After` that is not greater than zero counts as none. -/
def waitTime (maxDelay delay : θ) : Option (Seconds θ) → θ
  | some (.number x) => if 0 < x then min x maxDelay else min delay maxDelay
  | some .infinity => maxDelay
  | _ => min delay maxDelay

/-- The exception is kept; status and text are kept if it came with a response. -/
def Carried.note (c : Carried θ) (e : PyExc) : Carried θ :=
  match e.response with
  | some resp => { c with
      lastError := some e
      lastCode := some resp.statusCode
      lastRespText := some (String.ofList (resp.text.toList.take 500)) }
  | none => { c with lastError := some e }

def cleanText (environ : String → Option (List Char)) (s : String) : String :=
  String.ofList (Sanitizer.sanitizeSecretText environ (some s.toList))

/-- The error raised when the attempts are used up. -/
def exhausted (environ : String → Option (List Char)) (b : Backoff θ) (c : Carried θ) : PyExc :=
  .networkTransport
    (s!"Persistent network transport failure after {b.maxRetries} attempts in {b.name}: " ++
      cleanText environ (match c.lastError with
        | some e => e.message
        | none => "None"))
    c.lastCode
    (match c.lastRespText with
      | some text => if text = "" then none else some (cleanText environ text)
      | none => none)

variable {σ α : Type} (toFloat : String → Option (Seconds θ))
  (environ : String → Option (List Char)) (sleep : θ → Eff σ PyExc Unit) (b : Backoff θ)

/-- What an attempt that failed leads to: the exception itself, or a wait. -/
def attemptFailed (c : Carried θ) (e : PyExc) : Eff σ PyExc (Carried θ) := do
  let c := c.note e
  let t := isTransientNetworkError toFloat e
  if !t.isRetryable then Eff.raise e
  else do
    sleep (waitTime b.maxDelay c.delay t.retryAfter)
    return { c with delay := c.delay*b.backoffFactor }

def attempts (func : Eff σ PyExc α) : Nat → Carried θ → Eff σ PyExc α
  | 0,c => Eff.raise (exhausted environ b c)
  | k+1,c => Eff.catching func fun e => do
    let c ← attemptFailed toFloat sleep b c e
    attempts func k c

def retryWithBackoff (func : Eff σ PyExc α) : Eff σ PyExc α :=
  attempts toFloat environ sleep b func b.maxRetries { delay := b.initialDelay }

end

end Retry

end SoftwareFactory
