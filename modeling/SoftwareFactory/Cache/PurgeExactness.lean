import SoftwareFactory.Cache.TtlRefinement
import SoftwareFactory.Lib.Double

namespace SoftwareFactory.Cache

open OrderedDict

variable {κ ν : Type} [DecidableEq κ]

/-- How sums of times come out: `now + lifetime` and `current + (value - wall)`. -/
structure Arithmetic where
  later : ℚ → Lifetime → WithTop ℚ
  mapped : ℚ → ℚ → ℚ → WithBot (WithTop ℚ)

def Arithmetic.exact : Arithmetic where
  later t lifetime := t+lifetime.1
  mapped current value wall := ((current+(value-wall) : ℚ) : WithTop ℚ)

/-- As the machine does it. A sum with a positive number does not overflow downwards. -/
def Arithmetic.double : Arithmetic where
  later t lifetime :=
    match lifetime.1 with
    | ⊤ => ⊤
    | (q : ℚ) => (Double.result (t+q)).unbotD t
  mapped current value wall :=
    match Double.result (value-wall) with
    | ⊥ => ⊥
    | (⊤ : WithTop ℚ) => (⊤ : WithTop ℚ)
    | ((d : ℚ) : WithTop ℚ) => Double.result (current+d)

namespace TTLCache

variable (a : Arithmetic)

/-- `resolveNow` with sums as they come out. -/
def resolveNowBy (now : PyValue) (c : Clocks) : Except PyError (WithBot (WithTop ℚ)) := do
  if now = .none then
    return (c.monotonic : WithTop ℚ)
  else
    match ← floatOf now "now must be a number of seconds" with
    | .finite q =>
      if wallClockThreshold ≤ q then return a.mapped c.monotonic q c.wall
      else return (q : WithTop ℚ)
    | .inf => return (⊤ : WithTop ℚ)
    | .negInf => return ⊥
    | .nan => throw (.valueError "now must be a number of seconds")

def setBy (cache : TTLCache κ ν) (key : κ) (value : ν) (ttl : PyValue) (c : Clocks) :
    Except PyError Unit × TTLCache κ ν :=
  match cache.lifetime ttl with
  | .error e => (.error e,cache)
  | .ok lifetime =>
    (.ok (),cache.store key ⟨value,a.later c.monotonic lifetime⟩ c.monotonic)

def getBy (cache : TTLCache κ ν) (key : κ) (now : PyValue) (c : Clocks) :
    Except PyError (Option ν) × TTLCache κ ν :=
  match cache.entries.get key with
  | none => (.ok none,cache)
  | some entry =>
    match resolveNowBy a now c with
    | .error e => (.error e,cache)
    | .ok t =>
      if entry.expiresAt ≤ t then (.ok none,{ cache with entries := cache.entries.erase key })
      else (.ok (some entry.value),{ cache with entries := cache.entries.moveToEnd key })

end TTLCache

/-- An operation, `get` with the `now` it is given. -/
inductive TimedOp (κ ν : Type) where
  | set (key : κ) (value : ν) (ttl : PyValue)
  | get (key : κ) (now : PyValue)
  | delete (key : κ)
  | clear
  | contains (key : κ)
  | len
  | iter

def Op.timed : Op κ ν → TimedOp κ ν
  | .set key value ttl => .set key value ttl
  | .get key => .get key .none
  | .delete key => .delete key
  | .clear => .clear
  | .contains key => .contains key
  | .len => .len
  | .iter => .iter

def TTLCache.stepBy (a : Arithmetic) (cache : TTLCache κ ν) (op : TimedOp κ ν) (c : Clocks) :
    Except PyError (Answer κ ν) × TTLCache κ ν :=
  match op with
  | .set key value ttl => (cache.setBy a key value ttl c).map (·.map fun _ => .none) id
  | .get key now => (cache.getBy a key now c).map (·.map .value) id
  | .delete key => (cache.delete key c).map (.ok ∘ .bool) id
  | .clear => (.ok .none,cache.clear)
  | .contains key => (cache.contains key c).map (.ok ∘ .bool) id
  | .len => (cache.len c).map (.ok ∘ .number) id
  | .iter => (cache.iter c).map (.ok ∘ .keys) id

/-- The cache after a sequence of operations, whatever the clocks show at each. -/
def TTLCache.after (a : Arithmetic) (cache : TTLCache κ ν) (ops : List (TimedOp κ ν × Clocks)) :
    TTLCache κ ν :=
  ops.foldl (fun cache p => (cache.stepBy a p.1 p.2).2) cache

/-- With exact sums these are the operations of the model. -/
theorem getBy_exact (cache : TTLCache κ ν) (key : κ) (now : PyValue) (c : Clocks) :
    cache.getBy .exact key now c = cache.get key now c := rfl

theorem setBy_exact (cache : TTLCache κ ν) (key : κ) (value : ν) (ttl : PyValue) (c : Clocks) :
    cache.setBy .exact key value ttl c = cache.set key value ttl c := by
  rw [TTLCache.setBy,TTLCache.set]
  cases cache.lifetime ttl <;> rfl

theorem stepBy_exact (cache : TTLCache κ ν) (op : Op κ ν) (c : Clocks) :
    cache.stepBy .exact op.timed c = cache.step op c := by
  cases op with
  | set key value ttl => simp only [Op.timed,TTLCache.stepBy,TTLCache.step,setBy_exact]
  | get key => simp only [Op.timed,TTLCache.stepBy,TTLCache.step,getBy_exact]
  | delete key | contains key => rfl
  | clear | len | iter => rfl

/-- An exact sum is later. -/
theorem exact_later (t : ℚ) (lifetime : Lifetime) :
    (t : WithTop ℚ) < Arithmetic.exact.later t lifetime := lt_later t lifetime

/-- A rounded sum is later if the lifetime is more than half a unit in its last place. -/
theorem double_later {t q : ℚ} (ht : -2^1024 < t) (hq : 0 < q) (hulp : Double.ulp (t+q)/2 < q) :
    (t : WithTop ℚ) < Arithmetic.double.later t ⟨q,WithTop.coe_pos.mpr hq⟩ := by
  have herror := abs_le.mp (Double.round_error (t+q))
  have hround : t < Double.round (t+q) := by linarith [herror.1]
  have hlow : ¬ Double.round (t+q) ≤ -2^1024 := not_le.mpr (ht.trans hround)
  change (t : WithTop ℚ) < (Double.result (t+q)).unbotD (t : WithTop ℚ)
  rw [Double.result]
  split_ifs
  · exact WithTop.coe_lt_top t
  · exact WithTop.coe_lt_coe.mpr hround

section reached

variable {cache : TTLCache κ ν} {a : Arithmetic}

omit [DecidableEq κ] in
/-- A new last item stays if one fits. -/
theorem popWhileOver_concat {n : Nat} (hn : 0 < n) (l : List (κ × Entry ν)) (p : κ × Entry ν) :
    (popWhileOver n (l++[p])).getLast? = some p := by
  induction l with
  | nil =>
    have hone : popWhileOver n [p] = [p] := popWhileOver_of_le (by simp only [List.length_singleton]; omega)
    rw [List.nil_append,hone]
    rfl
  | cons q l ih =>
    rw [List.cons_append,popWhileOver]
    split_ifs
    · exact ih
    · rw [← List.cons_append,List.getLast?_concat]

theorem setBy_stored (key : κ) (value : ν) {ttl : PyValue} {lifetime : Lifetime} {c : Clocks}
    (hl : cache.lifetime ttl = .ok lifetime) : cache.setBy a key value ttl c =
      (.ok (),cache.store key ⟨value,a.later c.monotonic lifetime⟩ c.monotonic) := by
  rw [TTLCache.setBy,hl]

theorem TTLCache.Valid.setBy (h : cache.Valid) (key : κ) (value : ν) (ttl : PyValue)
    (c : Clocks) : (cache.setBy a key value ttl c).2.Valid ∧
      (cache.setBy a key value ttl c).2.maxSize = cache.maxSize := by
  cases hl : cache.lifetime ttl with
  | error e =>
    rw [TTLCache.setBy,hl]
    exact ⟨h,rfl⟩
  | ok lifetime =>
    obtain ⟨-,hmax,-,hvalid⟩ :=
      store_items h key ⟨value,a.later c.monotonic lifetime⟩ c.monotonic
    rw [setBy_stored key value hl]
    exact ⟨hvalid,hmax⟩

theorem TTLCache.Valid.getBy (h : cache.Valid) (key : κ) (now : PyValue) (c : Clocks) :
    (cache.getBy a key now c).2.Valid ∧ (cache.getBy a key now c).2.maxSize = cache.maxSize := by
  rw [TTLCache.getBy]
  cases cache.entries.get key with
  | none => exact ⟨h,rfl⟩
  | some entry =>
    cases TTLCache.resolveNowBy a now c with
    | error e => exact ⟨h,rfl⟩
    | ok t =>
      dsimp only
      split_ifs
      · exact ⟨h.erase key,rfl⟩
      · exact ⟨h.moveToEnd key,rfl⟩

theorem TTLCache.Valid.stepBy (h : cache.Valid) (op : TimedOp κ ν) (c : Clocks) :
    (cache.stepBy a op c).2.Valid ∧ (cache.stepBy a op c).2.maxSize = cache.maxSize := by
  cases op with
  | set key value ttl => exact h.setBy key value ttl c
  | get key now => exact h.getBy key now c
  | delete key => exact h.step (.delete key) c
  | clear => exact h.step .clear c
  | contains key => exact h.step (.contains key) c
  | len => exact h.step .len c
  | iter => exact h.step .iter c

theorem TTLCache.Valid.after (h : cache.Valid) (ops : List (TimedOp κ ν × Clocks)) :
    (cache.after a ops).Valid ∧ (cache.after a ops).maxSize = cache.maxSize := by
  induction ops generalizing cache with
  | nil => exact ⟨h,rfl⟩
  | cons p ops ih =>
    obtain ⟨hvalid,hmax⟩ := h.stepBy (a := a) p.1 p.2
    obtain ⟨hvalid',hmax'⟩ := ih hvalid
    exact ⟨hvalid',hmax'.trans hmax⟩

end reached

/-- Whatever the clocks show and however sums come out: the bound that is kept is one, a purge
agrees with a full scan, and after `set` no more is kept than fits, the new entry as the most
recently used one, unless its expiry has come already. -/
theorem purge_exact (a : Arithmetic) (maxSize defaultTtl : PyValue) (cache : TTLCache κ ν)
    (hinit : TTLCache.init maxSize defaultTtl = .ok cache) (ops : List (TimedOp κ ν × Clocks)) :
    (∀ p ∈ (cache.after a ops).entries.items,
      (cache.after a ops).nextExpiry ≤ p.2.expiresAt) ∧
    (∀ t : ℚ,((cache.after a ops).purgeExpired t).entries.items =
      (cache.after a ops).entries.items.filter fun p => ¬ p.2.expiresAt ≤ (t : WithTop ℚ)) ∧
    ∀ key value ttl c,
      ((cache.after a ops).setBy a key value ttl c).2.entries.items.length ≤ cache.maxSize ∧
      ∀ lifetime,(cache.after a ops).lifetime ttl = .ok lifetime →
        ((cache.after a ops).setBy a key value ttl c).1 = .ok () ∧
        if a.later c.monotonic lifetime ≤ c.monotonic then
          key ∉ ((cache.after a ops).setBy a key value ttl c).2.entries.items.map Prod.fst
        else ((cache.after a ops).setBy a key value ttl c).2.entries.items.getLast? =
          some (key,⟨value,a.later c.monotonic lifetime⟩) := by
  obtain ⟨hvalid,hmax⟩ := (init_refines hinit 0).valid.after (a := a) ops
  refine ⟨hvalid.nextExpiry_le,?_,?_⟩
  · intro t
    rw [purgeExpired_items hvalid.nextExpiry_le,live]
    simp only [not_le]
  · intro key value ttl c
    obtain ⟨hset,hsize⟩ := hvalid.setBy (a := a) key value ttl c
    refine ⟨by rw [← hmax,← hsize]; exact hset.bounded,?_⟩
    intro lifetime hl
    obtain ⟨hitems,-⟩ :=
      store_items hvalid key ⟨value,a.later c.monotonic lifetime⟩ c.monotonic
    rw [setBy_stored key value hl]
    refine ⟨rfl,?_⟩
    rw [hitems,live_append]
    split_ifs with hexpired
    · intro hkey
      obtain ⟨p,hp,rfl⟩ := List.mem_map.mp hkey
      have hmem := (popWhileOver_sublist _).subset hp
      rcases List.mem_append.mp hmem with hmem | hmem
      · exact (mem_without.mp (live_sublist.subset hmem)).2 rfl
      · obtain ⟨hone,hlive⟩ := mem_live.mp hmem
        rw [List.mem_singleton.mp hone] at hlive
        exact absurd hexpired (not_le.mpr hlive)
    · have hone : live c.monotonic [(key,(⟨value,a.later c.monotonic lifetime⟩ : Entry ν))] =
          [(key,⟨value,a.later c.monotonic lifetime⟩)] := by
        apply live_of_forall
        intro p hp
        rw [List.mem_singleton.mp hp]
        exact not_le.mp hexpired
      rw [hone]
      exact popWhileOver_concat (cache.after a ops).maxSize.pos _ _

/-- A clock that goes back, a wall clock time and one that is never reached. -/
def backwardsOps : List (TimedOp Nat Nat × Clocks) :=
  [(.set 1 10 .none,⟨100,1700000000⟩),(.set 2 20 (.int 5),⟨50,1700000001⟩),
    (.get 1 (.int 1700000002),⟨51,1700000001⟩),(.get 2 (.float .inf),⟨52,1700000002⟩),
    (.set 3 30 (.float .inf),⟨40,1700000003⟩),(.len,⟨200,1700000004⟩)]

theorem backwardsOps_purge : ∃ cache : TTLCache Nat Nat,
    TTLCache.init (.int 2) (.int 10) = .ok cache ∧ ∀ p ∈
      (cache.after .double backwardsOps).entries.items,
        (cache.after .double backwardsOps).nextExpiry ≤ p.2.expiresAt := by
  have hsome : (TTLCache.init (.int 2) (.int 10) :
      Except PyError (TTLCache Nat Nat)).isOk = true := by decide +kernel
  cases hinit : (TTLCache.init (.int 2) (.int 10) : Except PyError (TTLCache Nat Nat)) with
  | error e =>
    rw [hinit] at hsome
    cases hsome
  | ok cache => exact ⟨cache,rfl,(purge_exact .double _ _ cache hinit backwardsOps).1⟩

/-- A lifetime that one second does not notice. -/
def briefTtl : PyValue := .float (.finite (1/2^60))

/-- The entry has expired when it is stored, and the purge takes it out. -/
theorem briefEntry_purged : ∃ cache : TTLCache Nat Nat,
    TTLCache.init (.int 1) (.int 60) = .ok cache ∧
    (cache.setBy .double 1 10 briefTtl ⟨1,1700000000⟩).1.isOk = true ∧
    (cache.setBy .double 1 10 briefTtl ⟨1,1700000000⟩).2.entries.items = [] := by
  have hrun : (TTLCache.init (.int 1) (.int 60) :
      Except PyError (TTLCache Nat Nat)).toOption.map (fun cache =>
        ((cache.setBy .double 1 10 briefTtl ⟨1,1700000000⟩).1.isOk,
          (cache.setBy .double 1 10 briefTtl ⟨1,1700000000⟩).2.entries.items)) =
        some (true,[]) := by decide +kernel
  cases hinit : (TTLCache.init (.int 1) (.int 60) : Except PyError (TTLCache Nat Nat)) with
  | error e =>
    rw [hinit] at hrun
    cases hrun
  | ok cache =>
    rw [hinit] at hrun
    obtain ⟨hok,hitems⟩ := Prod.mk.inj (Option.some.inj hrun)
    exact ⟨cache,rfl,hok,hitems⟩

end SoftwareFactory.Cache
