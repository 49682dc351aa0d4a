import Mathlib.Algebra.Order.Group.Defs

namespace SoftwareFactory.Security

/-- A limiter that could be constructed: both parameters are positive. The state maps a client
to the start of its window and the requests counted in it. -/
structure RateLimiter (κ θ : Type) [Zero θ] [LT θ] where
  maxRequests : Nat
  windowSeconds : θ
  state : κ → Option (θ × Nat)
  maxRequests_pos : 0 < maxRequests
  window_pos : 0 < windowSeconds

/-- A call of `allow`, the clock read. -/
structure Call (κ θ : Type) where
  client : κ
  now : θ

/-- A call, its answer, and whether it began a window. -/
structure Answer (κ θ : Type) where
  client : κ
  now : θ
  allowed : Bool
  opened : Bool

variable {κ θ : Type} [DecidableEq κ] [AddCommGroup θ] [LinearOrder θ]

namespace RateLimiter

def init (maxRequests : Int) (windowSeconds : θ) : Except String (RateLimiter κ θ) :=
  if hmax : maxRequests ≤ 0 then .error "max_requests must be greater than zero"
  else if hwindow : windowSeconds ≤ 0 then .error "window_seconds must be greater than zero"
  else .ok ⟨maxRequests.toNat,windowSeconds,fun _ => none,by omega,lt_of_not_ge hwindow⟩

def set (r : RateLimiter κ θ) (client : κ) (entry : θ × Nat) : RateLimiter κ θ :=
  { r with state := fun c => if c = client then some entry else r.state c }

def allow (r : RateLimiter κ θ) (client : κ) (now : θ) : Bool × RateLimiter κ θ :=
  match r.state client with
  | none => (true,r.set client (now,1))
  | some (windowStart,count) =>
    if r.windowSeconds ≤ now-windowStart then (true,r.set client (now,1))
    else if count < r.maxRequests then (true,r.set client (windowStart,count+1))
    else (false,r)

/-- Whether the call begins a window. -/
def opens (r : RateLimiter κ θ) (client : κ) (now : θ) : Bool :=
  match r.state client with
  | none => true
  | some (windowStart,_) => decide (r.windowSeconds ≤ now-windowStart)

/-- The answers to a sequence of calls. -/
def answers (r : RateLimiter κ θ) : List (Call κ θ) → List (Answer κ θ)
  | [] => []
  | call::calls =>
    ⟨call.client,call.now,(r.allow call.client call.now).1,r.opens call.client call.now⟩::
      answers (r.allow call.client call.now).2 calls

end RateLimiter

end SoftwareFactory.Security
