import SoftwareFactory.Lib.OrderedDict
import Mathlib.Algebra.Order.Monoid.Unbundled.WithTop
import Mathlib.Algebra.Order.Ring.Rat
import Mathlib.Data.PNat.Defs

namespace SoftwareFactory.Cache

/-- A float; a finite one stands for the number it is. -/
inductive PyFloat where
  | finite (q : ℚ)
  | inf
  | negInf
  | nan
  deriving DecidableEq

/-- An argument as a caller can pass it. -/
inductive PyValue where
  | none
  | bool (b : Bool)
  | int (n : ℤ)
  | float (x : PyFloat)
  | other
  deriving DecidableEq

inductive PyError where
  | valueError (message : String)
  | overflowError
  deriving DecidableEq, Repr

/-- `float(n)`: the nearest double, ties to the even one; `none` is an overflow. -/
def nearestDouble (n : ℤ) : Option ℚ :=
  let m := n.natAbs
  let e := m.log2-52
  let q := m/2^e
  let r := m%2^e
  let d := (if 2^e < 2*r ∨ (2^e = 2*r ∧ q%2 = 1) then q+1 else q)*2^e
  if d < 2^1024 then some (n.sign*d) else none

def wallClockThreshold : ℚ := 1000000000

/-- `isinstance(value, bool) or not isinstance(value, (int, float))`, then `float(value)`. -/
def floatOf (value : PyValue) (message : String) : Except PyError PyFloat :=
  match value with
  | .int n =>
    match nearestDouble n with
    | some q => .ok (.finite q)
    | .none => .error .overflowError
  | .float x => .ok x
  | _ => .error (.valueError message)

def validateMaxSize (value : PyValue) : Except PyError ℕ+ :=
  let positive (n : ℤ) : Except PyError ℕ+ :=
    if h : 0 < n then .ok ⟨n.toNat,by omega⟩
    else .error (.valueError "max_size must be a positive integer")
  match value with
  | .int n => positive n
  | .float (.finite q) =>
    if q.den = 1 then positive q.num
    else .error (.valueError "max_size must be a positive integer")
  | _ => .error (.valueError "max_size must be a positive integer")

/-- A positive number of seconds, or for ever. -/
abbrev Lifetime := { t : WithTop ℚ // 0 < t }

def validateTtl (value : PyValue) (name : String) : Except PyError Lifetime := do
  match ← floatOf value (name++" must be a positive number of seconds") with
  | .finite q =>
    if h : 0 < q then return ⟨q,WithTop.coe_pos.mpr h⟩
    else throw (.valueError (name++" must be a positive number of seconds"))
  | .inf => return ⟨⊤,WithTop.top_pos⟩
  | _ => throw (.valueError (name++" must be a positive number of seconds"))

structure Entry (ν : Type) where
  value : ν
  expiresAt : WithTop ℚ
  deriving DecidableEq

structure TTLCache (κ ν : Type) where
  maxSize : ℕ+
  defaultTtl : Lifetime
  entries : OrderedDict κ (Entry ν)
  nextExpiry : WithTop ℚ

/-- What the two clocks show when they are read. -/
structure Clocks where
  monotonic : ℚ
  wall : ℚ

variable {κ ν : Type} [DecidableEq κ]

namespace TTLCache

def init (maxSize defaultTtl : PyValue) : Except PyError (TTLCache κ ν) := do
  let maxSize ← validateMaxSize maxSize
  let defaultTtl ← validateTtl defaultTtl "default_ttl"
  return { maxSize, defaultTtl, entries := .empty, nextExpiry := ⊤ }

def resolveNow (now : PyValue) (c : Clocks) : Except PyError (WithBot (WithTop ℚ)) := do
  if now = .none then
    return (c.monotonic : WithTop ℚ)
  else
    match ← floatOf now "now must be a number of seconds" with
    | .finite q =>
      if wallClockThreshold ≤ q then return ((c.monotonic+(q-c.wall) : ℚ) : WithTop ℚ)
      else return (q : WithTop ℚ)
    | .inf => return (⊤ : WithTop ℚ)
    | .negInf => return ⊥
    | .nan => throw (.valueError "now must be a number of seconds")

/-- `min(..., default=math.inf)` of the expiry times. -/
def earliest (items : List (κ × Entry ν)) : WithTop ℚ :=
  items.foldr (fun p t => min p.2.expiresAt t) ⊤

def purgeExpired (cache : TTLCache κ ν) (now : ℚ) : TTLCache κ ν :=
  if now < cache.nextExpiry then cache
  else
    let expired := (cache.entries.items.filter fun p => p.2.expiresAt ≤ (now : WithTop ℚ)).map Prod.fst
    let entries := expired.foldl OrderedDict.erase cache.entries
    { cache with entries, nextExpiry := earliest entries.items }

def lifetime (cache : TTLCache κ ν) (ttl : PyValue) : Except PyError Lifetime :=
  if ttl = .none then .ok cache.defaultTtl else validateTtl ttl "ttl"

def set (cache : TTLCache κ ν) (key : κ) (value : ν) (ttl : PyValue) (c : Clocks) :
    Except PyError Unit × TTLCache κ ν :=
  match cache.lifetime ttl with
  | .error e => (.error e,cache)
  | .ok lifetime =>
    let expiresAt := (c.monotonic : WithTop ℚ)+lifetime
    let entries := (cache.entries.assign key ⟨value,expiresAt⟩).moveToEnd key
    let nextExpiry := if expiresAt < cache.nextExpiry then expiresAt else cache.nextExpiry
    let cache := { cache with entries, nextExpiry }.purgeExpired c.monotonic
    (.ok (),{ cache with entries := cache.entries.popUntil cache.maxSize })

def get (cache : TTLCache κ ν) (key : κ) (now : PyValue) (c : Clocks) :
    Except PyError (Option ν) × TTLCache κ ν :=
  match cache.entries.get key with
  | none => (.ok none,cache)
  | some entry =>
    match resolveNow now c with
    | .error e => (.error e,cache)
    | .ok t =>
      if entry.expiresAt ≤ t then (.ok none,{ cache with entries := cache.entries.erase key })
      else (.ok (some entry.value),{ cache with entries := cache.entries.moveToEnd key })

def delete (cache : TTLCache κ ν) (key : κ) (c : Clocks) : Bool × TTLCache κ ν :=
  match cache.entries.get key with
  | none => (false,cache)
  | some entry =>
    (decide (c.monotonic < entry.expiresAt),{ cache with entries := cache.entries.erase key })

def clear (cache : TTLCache κ ν) : TTLCache κ ν :=
  { cache with entries := .empty, nextExpiry := ⊤ }

/-- `__contains__`. -/
def contains (cache : TTLCache κ ν) (key : κ) (c : Clocks) : Bool × TTLCache κ ν :=
  match cache.entries.get key with
  | none => (false,cache)
  | some entry =>
    if entry.expiresAt ≤ c.monotonic then
      (false,{ cache with entries := cache.entries.erase key })
    else (true,cache)

/-- `__len__`. -/
def len (cache : TTLCache κ ν) (c : Clocks) : Nat × TTLCache κ ν :=
  let cache := cache.purgeExpired c.monotonic
  (cache.entries.items.length,cache)

/-- `__iter__`. -/
def iter (cache : TTLCache κ ν) (c : Clocks) : List κ × TTLCache κ ν :=
  let cache := cache.purgeExpired c.monotonic
  (cache.entries.items.map Prod.fst,cache)

end TTLCache

/-- An operation on a cache; `get` without `now`. -/
inductive Op (κ ν : Type) where
  | set (key : κ) (value : ν) (ttl : PyValue)
  | get (key : κ)
  | delete (key : κ)
  | clear
  | contains (key : κ)
  | len
  | iter

inductive Answer (κ ν : Type) where
  | none
  | value (v : Option ν)
  | bool (b : Bool)
  | number (n : Nat)
  | keys (ks : List κ)
  deriving DecidableEq

def TTLCache.step (cache : TTLCache κ ν) (op : Op κ ν) (c : Clocks) :
    Except PyError (Answer κ ν) × TTLCache κ ν :=
  match op with
  | .set key value ttl => (cache.set key value ttl c).map (·.map fun _ => .none) id
  | .get key => (cache.get key .none c).map (·.map .value) id
  | .delete key => (cache.delete key c).map (.ok ∘ .bool) id
  | .clear => (.ok .none,cache.clear)
  | .contains key => (cache.contains key c).map (.ok ∘ .bool) id
  | .len => (cache.len c).map (.ok ∘ .number) id
  | .iter => (cache.iter c).map (.ok ∘ .keys) id

/-- The answers to a sequence of operations, and the cache after it. -/
def TTLCache.run (cache : TTLCache κ ν) :
    List (Op κ ν × Clocks) → List (Except PyError (Answer κ ν)) × TTLCache κ ν
  | [] => ([],cache)
  | (op,c)::ops =>
    let (answer,cache) := cache.step op c
    let (answers,cache) := cache.run ops
    (answer::answers,cache)

end SoftwareFactory.Cache
