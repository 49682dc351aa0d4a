import SoftwareFactory.Adapters.NetworkRetry
import SoftwareFactory.Lib.Double
import Mathlib.Algebra.Order.Ring.Rat
import Mathlib.Tactic.NormNum

namespace SoftwareFactory.Retry

open Effect

/-- The calls made of the wrapped function and the waits between them. -/
structure Attempted (θ : Type) where
  calls : Nat := 0
  waits : List θ := []

variable {θ α : Type}

/-- A function whose calls end in `outcomes 1`, `outcomes 2`, .... -/
def scripted (outcomes : Nat → Except PyExc α) : Eff (Attempted θ) PyExc α := fun r =>
  (outcomes (r.calls+1),{ r with calls := r.calls+1 })

/-- `time.sleep`, where `asleep` says what comes of the `i`-th wait. -/
def answeredWait (asleep : Nat → θ → Except PyExc Unit) (t : θ) :
    Eff (Attempted θ) PyExc Unit := fun r =>
  (asleep (r.waits.length+1) t,{ r with waits := r.waits++[t] })

def recordWait (t : θ) : Eff (Attempted θ) PyExc Unit := Eff.modify fun r =>
  { r with waits := r.waits++[t] }

theorem answeredWait_ok : answeredWait (fun _ (_ : θ) => .ok ()) = recordWait := rfl

/-- The delay after `i` failures: one product after the other. -/
def Backoff.delay [Mul θ] (b : Backoff θ) (i : Nat) : θ :=
  (fun d => d*b.backoffFactor)^[i] b.initialDelay

theorem Backoff.delay_power [Mul θ] (b : Backoff θ) (value : θ → ℚ) (i : Nat)
    (h : ∀ j < i,value (b.delay j*b.backoffFactor) = value (b.delay j)*value b.backoffFactor) :
    value (b.delay i) = value b.initialDelay*value b.backoffFactor^i := by
  induction i with
  | zero => simp [delay]
  | succ i ih =>
    rw [delay,Function.iterate_succ_apply',← delay,h i i.lt_succ_self,
      ih fun j hj => h j (hj.trans i.lt_succ_self),pow_succ,mul_assoc]

section law

variable (toFloat : String → Option (Seconds θ))

def TransientFailure (e : PyExc) : Prop := (isTransientNetworkError toFloat e).isRetryable = true

/-- The first outcome that is not a transient failure is that of call `k`. -/
def Settles (outcomes : Nat → Except PyExc α) (k : Nat) : Prop :=
  1 ≤ k ∧ (∀ e,outcomes k = .error e → ¬ TransientFailure toFloat e) ∧
    ∀ i,1 ≤ i → i < k → ∃ e,outcomes i = .error e ∧ TransientFailure toFloat e

def retryAfter (outcome : Except PyExc α) : Option (Seconds θ) :=
  match outcome with
  | .error e => (isTransientNetworkError toFloat e).retryAfter
  | .ok _ => none

/-- What the wait after the `i`-th failure is. -/
structure WaitLaw [Mul θ] [Zero θ] [LinearOrder θ] (b : Backoff θ) (i : Nat)
    (given : Option (Seconds θ)) (w : θ) : Prop where
  number : ∀ x,given = some (.number x) → 0 < x → w = min x b.maxDelay
  infinity : given = some .infinity → w = b.maxDelay
  otherwise : (∀ x,given = some (.number x) → ¬ 0 < x) → given ≠ some .infinity →
    w = min (b.delay (i-1)) b.maxDelay
  positive : 0 < b.delay (i-1) → 0 < w
  bounded : w ≤ b.maxDelay

/-- The wait after the `i`-th failure. -/
def waitAfter [Mul θ] [Zero θ] [LinearOrder θ] (b : Backoff θ) (outcomes : Nat → Except PyExc α)
    (i : Nat) : θ :=
  waitTime b.maxDelay (b.delay (i-1)) (retryAfter toFloat (outcomes i))

/-- The first `n` waits are slept. -/
def Sleeps [Mul θ] [Zero θ] [LinearOrder θ] (b : Backoff θ) (outcomes : Nat → Except PyExc α)
    (asleep : Nat → θ → Except PyExc Unit) (n : Nat) : Prop :=
  ∀ i,1 ≤ i → i ≤ n → asleep i (waitAfter toFloat b outcomes i) = .ok ()

/-- What a run of the wrapped function comes to. -/
structure RetryLaw [Mul θ] [Zero θ] [LinearOrder θ] (b : Backoff θ)
    (outcomes : Nat → Except PyExc α) (asleep : Nat → θ → Except PyExc Unit)
    (result : Except PyExc α) (run : Attempted θ) : Prop where
  settled : ∀ k,Settles toFloat outcomes k → k ≤ b.maxRetries →
    Sleeps toFloat b outcomes asleep (k-1) →
    run.calls = k ∧ result = outcomes k ∧ run.waits.length = k-1
  exhausted : (∀ k,Settles toFloat outcomes k → ¬ k ≤ b.maxRetries) →
    Sleeps toFloat b outcomes asleep b.maxRetries →
    run.calls = b.maxRetries ∧ run.waits.length = b.maxRetries ∧
      ∃ message code text,result = .error (.networkTransport message code text)
  refused : ∀ k e,1 ≤ k → k ≤ b.maxRetries → (∀ j,Settles toFloat outcomes j → k < j) →
    Sleeps toFloat b outcomes asleep (k-1) →
    asleep k (waitAfter toFloat b outcomes k) = .error e →
    run.calls = k ∧ run.waits.length = k ∧ result = .error e
  waits : ∀ i w,run.waits[i]? = some w → w = waitAfter toFloat b outcomes (i+1) ∧
    WaitLaw b (i+1) (retryAfter toFloat (outcomes (i+1))) w
  /-- Where the products are exact, the delay is a power of the factor. -/
  powers : ∀ (value : θ → ℚ) i,
    (∀ j < i,value (b.delay j*b.backoffFactor) = value (b.delay j)*value b.backoffFactor) →
    value (b.delay i) = value b.initialDelay*value b.backoffFactor^i

end law

section run

variable [Mul θ] [Zero θ] [LinearOrder θ] (toFloat : String → Option (Seconds θ))
  (environ : String → Option (List Char)) (b : Backoff θ) (asleep : Nat → θ → Except PyExc Unit)

def Carried.next (c : Carried θ) (e : PyExc) : Carried θ :=
  { c.note e with delay := c.delay*b.backoffFactor }

/-- The waits after a list of failures, the first of them with this delay. -/
def waitsAfter : θ → List PyExc → List θ
  | _,[] => []
  | delay,e::es =>
    waitTime b.maxDelay delay (isTransientNetworkError toFloat e).retryAfter::
      waitsAfter (delay*b.backoffFactor) es

/-- The failures that a run has passed, each with a wait that was slept. -/
structure Passed (outcomes : Nat → Except PyExc α) (delay : θ) (r : Attempted θ)
    (es : List PyExc) : Prop where
  transient : ∀ e ∈ es,TransientFailure toFloat e
  failed : ∀ i e,es[i]? = some e → outcomes (r.calls+i+1) = .error e
  slept : ∀ i w,(waitsAfter toFloat b delay es)[i]? = some w →
    asleep (r.waits.length+i+1) w = .ok ()

/-- What comes behind them of a run with `n` attempts. -/
inductive Ends (outcomes : Nat → Except PyExc α) (n : Nat) (c : Carried θ) (r : Attempted θ)
    (es : List PyExc) : Except PyExc α × Attempted θ → Prop
  | exhausted (hlen : es.length = n) :
      Ends outcomes n c r es (.error (exhausted environ b (es.foldl (Carried.next b) c)),
        ⟨r.calls+es.length,r.waits++waitsAfter toFloat b c.delay es⟩)
  | settled (hlen : es.length < n)
      (h : ∀ e,outcomes (r.calls+es.length+1) = .error e → ¬ TransientFailure toFloat e) :
      Ends outcomes n c r es (outcomes (r.calls+es.length+1),
        ⟨r.calls+es.length+1,r.waits++waitsAfter toFloat b c.delay es⟩)
  | refused (e refusal : PyExc) (w : θ) (hlen : es.length < n)
      (he : outcomes (r.calls+es.length+1) = .error e) (ht : TransientFailure toFloat e)
      (hw : waitsAfter toFloat b c.delay (es++[e]) = waitsAfter toFloat b c.delay es++[w])
      (hrefusal : asleep (r.waits.length+es.length+1) w = .error refusal) :
      Ends outcomes n c r es (.error refusal,
        ⟨r.calls+es.length+1,r.waits++waitsAfter toFloat b c.delay (es++[e])⟩)

omit [Mul θ] [Zero θ] [LinearOrder θ] in
@[simp] theorem Carried.note_delay (c : Carried θ) (e : PyExc) : (c.note e).delay = c.delay := by
  rw [Carried.note]
  cases e.response <;> rfl

omit [Zero θ] [LinearOrder θ] in
@[simp] theorem Carried.next_delay (c : Carried θ) (e : PyExc) :
    (c.next b e).delay = c.delay*b.backoffFactor := rfl

theorem waitsAfter_length (delay : θ) (es : List PyExc) :
    (waitsAfter toFloat b delay es).length = es.length := by
  induction es generalizing delay with
  | nil => rfl
  | cons e es ih => rw [waitsAfter,List.length_cons,List.length_cons,ih]

theorem waitsAfter_getElem (delay : θ) (es : List PyExc) (i : Nat) :
    (waitsAfter toFloat b delay es)[i]? = es[i]?.map fun e =>
      waitTime b.maxDelay ((fun d => d*b.backoffFactor)^[i] delay)
        (isTransientNetworkError toFloat e).retryAfter := by
  induction es generalizing delay i with
  | nil => rfl
  | cons e es ih =>
    cases i with
    | zero => simp [waitsAfter]
    | succ i =>
      rw [waitsAfter,List.getElem?_cons_succ,List.getElem?_cons_succ,ih,Function.iterate_succ_apply]

theorem attemptFailed_transient {c : Carried θ} {e : PyExc} (h : TransientFailure toFloat e)
    (r : Attempted θ) {w : θ}
    (hw : waitTime b.maxDelay c.delay (isTransientNetworkError toFloat e).retryAfter = w) :
    attemptFailed toFloat (answeredWait asleep) b c e r =
      ((asleep (r.waits.length+1) w).map fun _ => c.next b e,
        { r with waits := r.waits++[w] }) := by
  have ht : (!(isTransientNetworkError toFloat e).isRetryable) = false := by rw [h]; rfl
  rw [attemptFailed]
  simp only [ht,Bool.false_eq_true,if_false,Carried.note_delay,hw,Eff.bind_apply,answeredWait]
  cases asleep (r.waits.length+1) w with
  | ok u => rfl
  | error refusal => rfl

theorem attemptFailed_permanent {c : Carried θ} {e : PyExc} (h : ¬ TransientFailure toFloat e)
    (r : Attempted θ) : attemptFailed toFloat (answeredWait asleep) b c e r = (.error e,r) := by
  have ht : (!(isTransientNetworkError toFloat e).isRetryable) = true := by
    rw [TransientFailure,Bool.not_eq_true] at h
    rw [h]
    rfl
  rw [attemptFailed]
  simp only [ht,if_true]
  rfl

section step

variable {outcomes : Nat → Except PyExc α} {toFloat environ b asleep} {e : PyExc} {w : θ}
  {c : Carried θ} {r : Attempted θ} {es : List PyExc} {n : Nat}
  {run : Except PyExc α × Attempted θ}

theorem Passed.nil (delay : θ) : Passed toFloat b asleep outcomes delay r [] :=
  ⟨by simp,by simp,by simp [waitsAfter]⟩

/-- One more failure in front of those that were passed. -/
theorem Passed.cons (ho : outcomes (r.calls+1) = .error e) (ht : TransientFailure toFloat e)
    (hw : waitTime b.maxDelay c.delay (isTransientNetworkError toFloat e).retryAfter = w)
    (hslept : asleep (r.waits.length+1) w = .ok ())
    (h : Passed toFloat b asleep outcomes (c.next b e).delay ⟨r.calls+1,r.waits++[w]⟩ es) :
    Passed toFloat b asleep outcomes c.delay r (e::es) := by
  refine ⟨?_,?_,?_⟩
  · intro e' he'
    rcases List.mem_cons.mp he' with rfl | he'
    · exact ht
    · exact h.transient e' he'
  · intro i e' he'
    cases i with
    | zero =>
      obtain rfl : e = e' := by simpa using he'
      exact ho
    | succ i =>
      have hindex : r.calls+(i+1)+1 = r.calls+1+i+1 := by omega
      rw [hindex]
      exact h.failed i e' (by simpa using he')
  · intro i w' hw'
    cases i with
    | zero =>
      obtain rfl : w = w' := by simpa [waitsAfter,hw] using hw'
      exact hslept
    | succ i =>
      have hindex : r.waits.length+(i+1)+1 = (r.waits++[w]).length+i+1 := by
        rw [List.length_append,List.length_singleton]
        omega
      rw [hindex]
      exact h.slept i w' (by simpa [waitsAfter] using hw')

theorem Ends.cons
    (hw : waitTime b.maxDelay c.delay (isTransientNetworkError toFloat e).retryAfter = w)
    (h : Ends toFloat environ b asleep outcomes n (c.next b e) ⟨r.calls+1,r.waits++[w]⟩ es run) :
    Ends toFloat environ b asleep outcomes (n+1) c r (e::es) run := by
  have hcall : r.calls+1+es.length = r.calls+(e::es).length := by
    rw [List.length_cons]
    omega
  have hwait : (r.waits++[w]).length+es.length = r.waits.length+(e::es).length := by
    rw [List.length_append,List.length_singleton,List.length_cons]
    omega
  have hcons (es' : List PyExc) : r.waits++[w]++waitsAfter toFloat b (c.next b e).delay es' =
      r.waits++waitsAfter toFloat b c.delay (e::es') := by
    rw [waitsAfter,hw,List.append_assoc]
    rfl
  have hlength : (e::es).length = es.length+1 := rfl
  cases h with
  | exhausted hlen =>
    rw [hcons,hcall]
    exact .exhausted (by omega)
  | settled hlen h =>
    rw [hcall] at h
    rw [hcons,hcall]
    exact .settled (by omega) h
  | refused e' refusal w' hlen he ht hw' hrefusal =>
    rw [hcall] at he
    rw [hwait] at hrefusal
    rw [hcons,hcall]
    have hlast : waitsAfter toFloat b c.delay (e::es++[e']) =
        waitsAfter toFloat b c.delay (e::es)++[w'] := by
      rw [List.cons_append,waitsAfter,waitsAfter,List.cons_append]
      exact congrArg _ hw'
    exact .refused e' refusal w' (by omega) he ht hlast hrefusal

end step

/-- A run passes failures until it settles, its attempts are used up or a wait is refused. -/
theorem attempts_run (outcomes : Nat → Except PyExc α) (n : Nat) (c : Carried θ)
    (r : Attempted θ) :
    ∃ es,Passed toFloat b asleep outcomes c.delay r es ∧
      Ends toFloat environ b asleep outcomes n c r es
        (attempts toFloat environ (answeredWait asleep) b (scripted outcomes) n c r) := by
  induction n generalizing c r with
  | zero =>
    have hend : Ends toFloat environ b asleep outcomes 0 c r [] _ := .exhausted rfl
    rw [waitsAfter,List.append_nil] at hend
    exact ⟨[],.nil c.delay,hend⟩
  | succ n ih =>
    have hcall : scripted outcomes r = (outcomes (r.calls+1),{ r with calls := r.calls+1 }) := rfl
    have hsettled (h : ∀ e,outcomes (r.calls+1) = .error e → ¬ TransientFailure toFloat e) :
        Ends toFloat environ b asleep outcomes (n+1) c r []
          (outcomes (r.calls+1),{ r with calls := r.calls+1 }) := by
      have hend : Ends toFloat environ b asleep outcomes (n+1) c r [] _ :=
        .settled (Nat.succ_pos n) h
      rwa [waitsAfter,List.append_nil] at hend
    rw [attempts]
    cases ho : outcomes (r.calls+1) with
    | ok a =>
      rw [ho] at hcall hsettled
      rw [Eff.catching_ok hcall]
      exact ⟨[],.nil c.delay,hsettled fun e he => by cases he⟩
    | error e =>
      rw [ho] at hcall hsettled
      rw [Eff.catching_error hcall]
      by_cases ht : TransientFailure toFloat e
      · have hfailed := attemptFailed_transient toFloat b asleep ht
          { r with calls := r.calls+1 } (c := c) rfl
        generalize hw : waitTime b.maxDelay c.delay (isTransientNetworkError toFloat e).retryAfter
          = w at hfailed
        cases hslept : asleep (r.waits.length+1) w with
        | ok u =>
          rw [hslept] at hfailed
          rw [Eff.bind_of_ok hfailed]
          obtain ⟨es,hpassed,hends⟩ := ih (c.next b e) ⟨r.calls+1,r.waits++[w]⟩
          exact ⟨e::es,hpassed.cons ho ht hw hslept,hends.cons hw⟩
        | error refusal =>
          rw [hslept] at hfailed
          rw [Eff.bind_of_error hfailed]
          have hlast : waitsAfter toFloat b c.delay ([]++[e]) =
              waitsAfter toFloat b c.delay []++[w] := by
            rw [← hw]
            rfl
          have hend : Ends toFloat environ b asleep outcomes (n+1) c r [] _ :=
            .refused e refusal w (Nat.succ_pos n) ho ht hlast hslept
          rw [hlast] at hend
          exact ⟨[],.nil c.delay,hend⟩
      · rw [Eff.bind_of_error (attemptFailed_permanent toFloat b asleep ht _)]
        refine ⟨[],.nil c.delay,hsettled fun e' he' => ?_⟩
        rwa [← Except.error.inj he']

omit [Mul θ] [Zero θ] [LinearOrder θ] in
/-- Two calls that settle a run are the same call. -/
theorem Settles.unique {outcomes : Nat → Except PyExc α} {k l : Nat}
    (hk : Settles toFloat outcomes k) (hl : Settles toFloat outcomes l) : k = l := by
  obtain ⟨hk₁,hksettled,hkbefore⟩ := hk
  obtain ⟨hl₁,hlsettled,hlbefore⟩ := hl
  by_contra hne
  rcases Nat.lt_or_gt_of_ne hne with hlt | hlt
  · obtain ⟨e,he,htransient⟩ := hlbefore k hk₁ hlt
    exact hksettled e he htransient
  · obtain ⟨e,he,htransient⟩ := hkbefore l hl₁ hlt
    exact hlsettled e he htransient

section outcome

variable {outcomes : Nat → Except PyExc α} {toFloat environ b asleep} {es : List PyExc}

theorem waitTime_law (hmax : 0 < b.maxDelay) (i : Nat) (given : Option (Seconds θ)) :
    WaitLaw b (i+1) given (waitTime b.maxDelay (b.delay i) given) := by
  have hplain (h : waitTime b.maxDelay (b.delay i) given = min (b.delay i) b.maxDelay)
      (hnumber : ∀ x,given = some (.number x) → ¬ 0 < x) (hinfinity : given ≠ some .infinity) :
      WaitLaw b (i+1) given (waitTime b.maxDelay (b.delay i) given) := by
    rw [h]
    exact ⟨fun x hx hpos => absurd hpos (hnumber x hx),fun hinf => absurd hinf hinfinity,
      fun _ _ => rfl,fun hdelay => lt_min hdelay hmax,min_le_right _ _⟩
  cases given with
  | none => exact hplain rfl (by simp) (by simp)
  | some s =>
    cases s with
    | number x =>
      by_cases hx : 0 < x
      · have hwait : waitTime b.maxDelay (b.delay i) (some (.number x)) = min x b.maxDelay := by
          rw [waitTime,if_pos hx]
        rw [hwait]
        refine ⟨?_,by simp,fun h => absurd hx (h x rfl),fun _ => lt_min hx hmax,min_le_right _ _⟩
        intro y hy _
        obtain rfl : x = y := by simpa using hy
        rfl
      · apply hplain (by rw [waitTime,if_neg hx])
        · intro y hy
          obtain rfl : x = y := by simpa using hy
          exact hx
        · simp
    | infinity =>
      exact ⟨by simp,fun _ => rfl,fun _ h => absurd rfl h,fun _ => hmax,le_rfl⟩
    | negativeInfinity => exact hplain rfl (by simp) (by simp)
    | nan => exact hplain rfl (by simp) (by simp)

/-- The waits of a run are those after the outcomes. -/
theorem waitsAfter_waitAfter (h : ∀ i e,es[i]? = some e → outcomes (i+1) = .error e) {i : Nat}
    {w : θ} (hw : (waitsAfter toFloat b b.initialDelay es)[i]? = some w) :
    w = waitAfter toFloat b outcomes (i+1) := by
  rw [waitsAfter_getElem,Option.map_eq_some_iff] at hw
  obtain ⟨e,he,rfl⟩ := hw
  rw [waitAfter,h i e he]
  rfl

theorem Passed.transientFailure (h : Passed toFloat b asleep outcomes b.initialDelay {} es)
    {i : Nat} (h₁ : 1 ≤ i) (hi : i ≤ es.length) :
    ∃ e,outcomes i = .error e ∧ TransientFailure toFloat e := by
  obtain ⟨j,rfl⟩ : ∃ j,i = j+1 := ⟨i-1,by omega⟩
  have hj : j < es.length := by omega
  have hfailed := h.failed j es[j] (List.getElem?_eq_getElem hj)
  rw [Nat.zero_add] at hfailed
  exact ⟨es[j],hfailed,h.transient _ (List.getElem_mem hj)⟩

theorem Passed.sleeps (h : Passed toFloat b asleep outcomes b.initialDelay {} es) :
    Sleeps toFloat b outcomes asleep es.length := by
  intro i h₁ hi
  obtain ⟨j,rfl⟩ : ∃ j,i = j+1 := ⟨i-1,by omega⟩
  have hj : j < (waitsAfter toFloat b b.initialDelay es).length := by
    rw [waitsAfter_length]
    omega
  have hw := List.getElem?_eq_getElem hj
  have hfailed : ∀ i e,es[i]? = some e → outcomes (i+1) = .error e := by
    simpa using h.failed
  have hslept := h.slept j _ hw
  rw [waitsAfter_waitAfter hfailed hw] at hslept
  simpa using hslept

/-- A wait that is refused is the one after the failures that were passed. -/
theorem refused_waitAfter (h : Passed toFloat b asleep outcomes b.initialDelay {} es) {e : PyExc}
    {w : θ} (he : outcomes (es.length+1) = .error e)
    (hw : waitsAfter toFloat b b.initialDelay (es++[e]) =
      waitsAfter toFloat b b.initialDelay es++[w]) :
    (∀ i e',(es++[e])[i]? = some e' → outcomes (i+1) = .error e') ∧
      w = waitAfter toFloat b outcomes (es.length+1) := by
  have hfailed : ∀ i e',(es++[e])[i]? = some e' → outcomes (i+1) = .error e' := by
    intro i e' he'
    rcases Nat.lt_or_ge i es.length with hi | hi
    · rw [List.getElem?_append_left hi] at he'
      simpa using h.failed i e' he'
    · rw [List.getElem?_append_right hi] at he'
      obtain ⟨hzero,rfl⟩ : i-es.length = 0 ∧ e = e' := by
        cases hsub : i-es.length with
        | zero => simpa [hsub] using he'
        | succ m => simp [hsub] at he'
      have hindex : i = es.length := by omega
      rwa [hindex]
  refine ⟨hfailed,waitsAfter_waitAfter hfailed ?_⟩
  rw [hw,← waitsAfter_length toFloat b b.initialDelay es,List.getElem?_concat_length]

/-- What settles comes behind the failures that were passed. -/
theorem Passed.late (h : Passed toFloat b asleep outcomes b.initialDelay {} es) {k : Nat}
    (hk : Settles toFloat outcomes k) : es.length < k := by
  by_contra hearly
  obtain ⟨e,he,ht⟩ := h.transientFailure hk.1 (by omega)
  exact hk.2.1 e he ht

/-- A wait that is refused is none of those that were slept. -/
theorem Passed.awake (h : Passed toFloat b asleep outcomes b.initialDelay {} es) {k : Nat}
    {e : PyExc} (h₁ : 1 ≤ k) (hrefused : asleep k (waitAfter toFloat b outcomes k) = .error e) :
    es.length < k := by
  by_contra hearly
  rw [h.sleeps k h₁ (by omega)] at hrefused
  cases hrefused

theorem waitsAfter_law (hmax : 0 < b.maxDelay)
    (h : ∀ i e,es[i]? = some e → outcomes (i+1) = .error e) (i : Nat) (w : θ)
    (hw : (waitsAfter toFloat b b.initialDelay es)[i]? = some w) :
    w = waitAfter toFloat b outcomes (i+1) ∧
      WaitLaw b (i+1) (retryAfter toFloat (outcomes (i+1))) w := by
  have heq := waitsAfter_waitAfter h hw
  refine ⟨heq,?_⟩
  rw [heq]
  exact waitTime_law hmax i _

/-- The attempts are used up. -/
theorem Passed.law_exhausted (h : Passed toFloat b asleep outcomes b.initialDelay {} es)
    (hmax : 0 < b.maxDelay) (hlen : es.length = b.maxRetries) (c : Carried θ) :
    RetryLaw toFloat b outcomes asleep (.error (Retry.exhausted environ b c))
      ⟨es.length,waitsAfter toFloat b b.initialDelay es⟩ := by
  have hfailed : ∀ i e,es[i]? = some e → outcomes (i+1) = .error e := by
    simpa using h.failed
  refine ⟨?_,?_,?_,waitsAfter_law hmax hfailed,b.delay_power⟩
  · intro k hk hle _
    have hlt := h.late hk
    omega
  · intro _ _
    exact ⟨hlen,by rw [waitsAfter_length,hlen],_,_,_,rfl⟩
  · intro k e h₁ hk _ _ hrefused
    have hlt := h.awake h₁ hrefused
    omega

/-- A call settles it. -/
theorem Passed.law_settled (h : Passed toFloat b asleep outcomes b.initialDelay {} es)
    (hmax : 0 < b.maxDelay) (hlen : es.length < b.maxRetries)
    (hlast : ∀ e,outcomes (es.length+1) = .error e → ¬TransientFailure toFloat e) :
    RetryLaw toFloat b outcomes asleep (outcomes (es.length+1))
      ⟨es.length+1,waitsAfter toFloat b b.initialDelay es⟩ := by
  have hfailed : ∀ i e,es[i]? = some e → outcomes (i+1) = .error e := by
    simpa using h.failed
  have hsettles : Settles toFloat outcomes (es.length+1) :=
    ⟨by omega,hlast,fun i h₁ hi => h.transientFailure h₁ (by omega)⟩
  refine ⟨?_,?_,?_,waitsAfter_law hmax hfailed,b.delay_power⟩
  · intro k hk _ _
    obtain rfl := Settles.unique toFloat hk hsettles
    exact ⟨rfl,rfl,waitsAfter_length _ _ _ _⟩
  · intro hnone _
    exact absurd hlen (hnone _ hsettles)
  · intro k e h₁ _ hnone _ hrefused
    have hk := hnone _ hsettles
    have hlt := h.awake h₁ hrefused
    omega

/-- A wait is refused. -/
theorem Passed.law_refused (h : Passed toFloat b asleep outcomes b.initialDelay {} es)
    (hmax : 0 < b.maxDelay) {e refusal : PyExc} (he : outcomes (es.length+1) = .error e)
    (ht : TransientFailure toFloat e) (hlen : es.length < b.maxRetries)
    (hall : ∀ i e',(es++[e])[i]? = some e' → outcomes (i+1) = .error e')
    (hrefusal : asleep (es.length+1) (waitAfter toFloat b outcomes (es.length+1)) =
      .error refusal) :
    RetryLaw toFloat b outcomes asleep (.error refusal)
      ⟨es.length+1,waitsAfter toFloat b b.initialDelay (es++[e])⟩ := by
  have hslept {n : Nat} (hn : Sleeps toFloat b outcomes asleep n) : n ≤ es.length := by
    by_contra hlong
    rw [hn (es.length+1) (by omega) (by omega)] at hrefusal
    cases hrefusal
  refine ⟨?_,?_,?_,waitsAfter_law hmax hall,b.delay_power⟩
  · intro k hk _ hsleep
    have hle := hslept hsleep
    have hlt := h.late hk
    obtain rfl : k = es.length+1 := by omega
    exact absurd ht (hk.2.1 e he)
  · intro _ hsleep
    have hle := hslept hsleep
    omega
  · intro k e' h₁ _ _ hsleep hrefused
    have hle := hslept hsleep
    have hlt := h.awake h₁ hrefused
    obtain rfl : k = es.length+1 := by omega
    rw [hrefusal] at hrefused
    obtain rfl := Except.error.inj hrefused
    refine ⟨rfl,?_,rfl⟩
    rw [waitsAfter_length,List.length_append]
    rfl

theorem Ends.law (hmax : 0 < b.maxDelay) {run : Except PyExc α × Attempted θ}
    (hpassed : Passed toFloat b asleep outcomes b.initialDelay {} es)
    (hends : Ends toFloat environ b asleep outcomes b.maxRetries { delay := b.initialDelay } {}
      es run) : RetryLaw toFloat b outcomes asleep run.1 run.2 := by
  cases hends with
  | exhausted hlen =>
    simpa using hpassed.law_exhausted hmax hlen _
  | settled hlen h =>
    rw [Nat.zero_add] at h
    simpa using hpassed.law_settled hmax hlen h
  | refused e refusal w hlen he ht hw hrefusal =>
    rw [Nat.zero_add] at he
    obtain ⟨hall,heq⟩ := refused_waitAfter hpassed he hw
    simp only [List.length_nil,Nat.zero_add,heq] at hrefusal
    simpa using hpassed.law_refused hmax he ht hlen hall hrefusal

end outcome

/-- The outcome of a run: the first outcome that is no transient failure if the attempts reach
it, otherwise the transport error, unless a wait is refused on the way; and the waits. -/
theorem retryWithBackoff_outcome (hmax : 0 < b.maxDelay) (outcomes : Nat → Except PyExc α) :
    RetryLaw toFloat b outcomes asleep
      (retryWithBackoff toFloat environ (answeredWait asleep) b (scripted outcomes) {}).1
      (retryWithBackoff toFloat environ (answeredWait asleep) b (scripted outcomes) {}).2 := by
  obtain ⟨es,hpassed,hends⟩ := attempts_run toFloat environ b asleep outcomes b.maxRetries
    { delay := b.initialDelay } {}
  exact hends.law hmax hpassed

/-- The transport error that reports this failure and no other. -/
def report (e : PyExc) : PyExc :=
  .networkTransport
    (s!"Persistent network transport failure after {b.maxRetries} attempts in {b.name}: " ++
      cleanText environ e.message)
    (e.response.map fun resp => resp.statusCode)
    (match e.response with
      | some resp =>
        let text := String.ofList (resp.text.toList.take 500)
        if text = "" then none else some (cleanText environ text)
      | none => none)

omit [Zero θ] [LinearOrder θ] in
/-- A failure with a response is the one that is reported. -/
theorem exhausted_response {c : Carried θ} {e : PyExc} (h : e.response.isSome = true) :
    exhausted environ b (c.next b e) = report environ b e := by
  obtain ⟨resp,hresp⟩ := Option.isSome_iff_exists.mp h
  simp only [exhausted,report,Carried.next,Carried.note,hresp,Option.map_some]

omit [Zero θ] [LinearOrder θ] in
/-- A failure without one is reported if no status is kept from before. -/
theorem exhausted_plain {c : Carried θ} {e : PyExc} (h : e.response = none)
    (htext : c.lastCode = none → c.lastRespText = none) :
    exhausted environ b (c.next b e) = report environ b e ↔ c.lastCode = none := by
  simp only [exhausted,report,Carried.next,Carried.note,h,Option.map_none]
  constructor
  · intro heq
    injection heq
  · intro hcode
    rw [hcode,htext hcode]

omit [Zero θ] [LinearOrder θ] in
/-- The status is kept from any failure with a response; a text only comes with a status. -/
theorem foldl_next_code (es : List PyExc) (c : Carried θ)
    (htext : c.lastCode = none → c.lastRespText = none) :
    ((es.foldl (Carried.next b) c).lastCode = none ↔
        c.lastCode = none ∧ ∀ e ∈ es,e.response = none) ∧
      ((es.foldl (Carried.next b) c).lastCode = none →
        (es.foldl (Carried.next b) c).lastRespText = none) := by
  induction es generalizing c with
  | nil => simpa using htext
  | cons e es ih =>
    have hcode : (c.next b e).lastCode = none ↔ c.lastCode = none ∧ e.response = none := by
      rw [Carried.next,Carried.note]
      cases e.response with
      | none => simp
      | some resp => simp
    have htext' : (c.next b e).lastCode = none → (c.next b e).lastRespText = none := by
      intro hnone
      obtain ⟨hc,hresp⟩ := hcode.mp hnone
      rw [Carried.next,Carried.note,hresp]
      exact htext hc
    obtain ⟨hiff,hkept⟩ := ih (c.next b e) htext'
    refine ⟨?_,hkept⟩
    rw [List.foldl_cons,hiff,hcode,List.forall_mem_cons,and_assoc]

omit [Zero θ] [LinearOrder θ] in
/-- Of used up attempts the last failure is reported exactly if it had a response or none of them
had. -/
theorem exhausted_report {fs : Nat → PyExc} {es : List PyExc} (hn : 1 ≤ b.maxRetries)
    (hlen : es.length = b.maxRetries) (hall : ∀ i (hi : i < es.length),es[i] = fs (i+1)) :
    exhausted environ b (es.foldl (Carried.next b) { delay := b.initialDelay }) =
        report environ b (fs b.maxRetries) ↔
      (fs b.maxRetries).response.isSome = true ∨
        ∀ i,1 ≤ i → i ≤ b.maxRetries → (fs i).response = none := by
  rcases List.eq_nil_or_concat es with hnil | ⟨front,e,hconcat⟩
  · rw [hnil,List.length_nil] at hlen
    omega
  · rw [List.concat_eq_append] at hconcat
    subst hconcat
    rw [List.length_append,List.length_singleton] at hlen
    have he : e = fs b.maxRetries := by
      have hlast := hall front.length (by simp)
      rw [List.getElem_concat_length rfl] at hlast
      rw [hlast,hlen]
    have hfront : (∀ e' ∈ front,e'.response = none) ↔
        ∀ i,1 ≤ i → i < b.maxRetries → (fs i).response = none := by
      constructor
      · intro hnone i h₁ hi
        obtain ⟨j,rfl⟩ : ∃ j,i = j+1 := ⟨i-1,by omega⟩
        have hj : j < front.length := by omega
        have hfs := hall j (by simp; omega)
        rw [List.getElem_append_left hj] at hfs
        rw [← hfs]
        exact hnone _ (List.getElem_mem hj)
      · intro hnone e' he'
        obtain ⟨j,hj,rfl⟩ := List.getElem_of_mem he'
        have hfs := hall j (by simp; omega)
        rw [List.getElem_append_left hj] at hfs
        rw [hfs]
        exact hnone (j+1) (by omega) (by omega)
    obtain ⟨hcode,hkept⟩ := foldl_next_code b front { delay := b.initialDelay } (fun _ => rfl)
    rw [List.foldl_append,List.foldl_cons,List.foldl_nil,← he]
    cases hresp : e.response with
    | some resp =>
      have hsome : e.response.isSome = true := by rw [hresp]; rfl
      simp [exhausted_response environ b hsome]
    | none =>
      rw [exhausted_plain environ b hresp hkept,hcode,hfront]
      simp only [Option.isSome_none,Bool.false_eq_true,false_or,true_and]
      constructor
      · intro hnone i h₁ hi
        rcases Nat.lt_or_eq_of_le hi with hlt | rfl
        · exact hnone i h₁ hlt
        · rw [← he,hresp]
      · exact fun hnone i h₁ hi => hnone i h₁ hi.le

/-- The waits after used up attempts, and when the last failure is what is reported. -/
theorem retryWithBackoff_exhausted {fs : Nat → PyExc} (hn : 1 ≤ b.maxRetries)
    (h : ∀ i,1 ≤ i → i ≤ b.maxRetries → TransientFailure toFloat (fs i)) :
    (retryWithBackoff toFloat environ recordWait b
      (scripted fun i => (.error (fs i) : Except PyExc α)) {}).2.waits.length = b.maxRetries ∧
    ((retryWithBackoff toFloat environ recordWait b
        (scripted fun i => (.error (fs i) : Except PyExc α)) {}).1 =
          .error (report environ b (fs b.maxRetries)) ↔
      (fs b.maxRetries).response.isSome = true ∨
        ∀ i,1 ≤ i → i ≤ b.maxRetries → (fs i).response = none) := by
  obtain ⟨es,hpassed,hends⟩ := attempts_run toFloat environ b (fun _ _ => .ok ())
    (fun i => (.error (fs i) : Except PyExc α)) b.maxRetries { delay := b.initialDelay } {}
  have hes := hpassed.failed
  simp only [Nat.zero_add,Except.error.injEq] at hes
  rw [retryWithBackoff,← answeredWait_ok]
  generalize attempts toFloat environ (answeredWait fun _ _ => .ok ()) b
    (scripted fun i => (.error (fs i) : Except PyExc α)) b.maxRetries
    { delay := b.initialDelay } {} = run at hends ⊢
  cases hends with
  | exhausted hlen =>
    refine ⟨?_,?_⟩
    · rw [List.nil_append,waitsAfter_length,hlen]
    · rw [Except.error.injEq]
      exact exhausted_report environ b hn hlen fun i hi =>
        (hes i es[i] (List.getElem?_eq_getElem hi)).symm
  | settled hlen hsettled =>
    rw [Nat.zero_add] at hsettled
    exact absurd (h _ (by omega) (by omega)) (hsettled _ rfl)
  | refused e refusal w hlen he ht hw hrefusal => cases hrefusal

/-- The last failure is reported, and there is a wait between two attempts and no other. -/
def Coherent (fs : Nat → PyExc) (result : Except PyExc α) (run : Attempted θ) : Prop :=
  result = .error (report environ b (fs b.maxRetries)) ∧ run.waits.length = b.maxRetries-1

/-- Used up attempts are never reported coherently: there is a wait after the last one. The
failure reported is the last one exactly if it had a response or none of them had. -/
theorem retryWithBackoff_incoherent {fs : Nat → PyExc} (hn : 1 ≤ b.maxRetries)
    (h : ∀ i,1 ≤ i → i ≤ b.maxRetries → TransientFailure toFloat (fs i)) :
    ¬ Coherent environ b fs
      (retryWithBackoff toFloat environ recordWait b
        (scripted fun i => (.error (fs i) : Except PyExc α)) {}).1
      (retryWithBackoff toFloat environ recordWait b
        (scripted fun i => (.error (fs i) : Except PyExc α)) {}).2 ∧
    (retryWithBackoff toFloat environ recordWait b
      (scripted fun i => (.error (fs i) : Except PyExc α)) {}).2.waits.length = b.maxRetries ∧
    ((retryWithBackoff toFloat environ recordWait b
        (scripted fun i => (.error (fs i) : Except PyExc α)) {}).1 =
          .error (report environ b (fs b.maxRetries)) ↔
      (fs b.maxRetries).response.isSome = true ∨
        ∀ i,1 ≤ i → i ≤ b.maxRetries → (fs i).response = none) := by
  obtain ⟨hwaits,hreport⟩ := @retryWithBackoff_exhausted θ α _ _ _ toFloat environ b fs hn h
  refine ⟨?_,hwaits,hreport⟩
  intro hparts
  obtain ⟨-,hbetween⟩ := hparts
  rw [hwaits] at hbetween
  omega

end run

def sampleBackoff : Backoff ℚ :=
  { maxRetries := 2, initialDelay := 1, backoffFactor := 2, maxDelay := 30, name := "fetch" }

/-- A server error, then a timeout. -/
def mixedFailures (i : Nat) : PyExc :=
  if i = 1 then .http "503 Server Error" (some ⟨503,some "Service Unavailable",none,"busy"⟩)
  else .timeout "read timed out"

theorem mixedFailures_transient (toFloat : String → Option (Seconds ℚ)) (i : Nat) :
    TransientFailure toFloat (mixedFailures i) := by
  rw [mixedFailures]
  split_ifs <;> rfl

/-- A rate limit that asks for a minute, a timeout, then a value. -/
def recovering (i : Nat) : Except PyExc Nat :=
  if i = 1 then .error (.http "429" (some ⟨429,none,some "60",""⟩))
  else if i = 2 then .error (.timeout "read timed out")
  else .ok 7

/-- The second wait is refused, so the third call is never made. -/
theorem recovering_outcome :
    let toFloat : String → Option (Seconds ℚ) := fun _ => some (.number 60)
    let asleep : Nat → ℚ → Except PyExc Unit := fun i _ =>
      if i = 2 then .error (.other "KeyboardInterrupt" "") else .ok ()
    let run := retryWithBackoff toFloat (fun _ => none) (answeredWait asleep)
      { sampleBackoff with maxRetries := 3 } (scripted recovering) {}
    RetryLaw toFloat { sampleBackoff with maxRetries := 3 } recovering asleep run.1 run.2 :=
  retryWithBackoff_outcome _ _ _ _ (by norm_num [sampleBackoff]) _

/-- With doubles the second delay can be rounded to zero; and a wait that is too long for
`time.sleep` ends a call before its second attempt. -/
theorem doubles_outcome :
    let timeouts : Nat → Except PyExc Nat := fun _ => .error (.timeout "")
    let b : Backoff Double.Rounded := ⟨2,.of (2^(-1074 : ℤ)),.of (1/2),.of 30,"fetch"⟩
    let run := retryWithBackoff (fun _ => none) (fun _ => none) recordWait b
      (scripted timeouts) {}
    let long : Backoff Double.Rounded := ⟨2,.of (10^10),.of 2,.of (10^10),"fetch"⟩
    let asleep : Nat → Double.Rounded → Except PyExc Unit := fun _ t =>
      if t < .of (2^63/10^9) then .ok ()
      else .error (.other "OverflowError" "timestamp too large to convert to C _PyTime_t")
    let refused := retryWithBackoff (fun _ => none) (fun _ => none) (answeredWait asleep) long
      (scripted fun i => if i = 1 then timeouts i else .ok 7) {}
    (0 < b.initialDelay ∧ 0 < b.backoffFactor ∧ 0 < b.maxDelay ∧ run.2.waits[1]? = some 0 ∧
      0 < min (b.initialDelay.value*b.backoffFactor.value^1) b.maxDelay.value) ∧
    refused.2.calls = 1 ∧ refused.1 ≠ .ok 7 := by
  decide +kernel

/-- The run of these failures, for a function that would return a number. -/
def mixedRun : Except PyExc Nat × Attempted ℚ :=
  retryWithBackoff (fun _ => none) (fun _ => none) recordWait sampleBackoff
    (scripted fun i => .error (mixedFailures i)) {}

/-- The timeout is reported with the status of the failure before it, after two waits. -/
theorem mixedRun_incoherent :
    ¬ Coherent (fun _ => none) sampleBackoff mixedFailures mixedRun.1 mixedRun.2 ∧
      mixedRun.1 ≠ .error (report (fun _ => none) sampleBackoff (mixedFailures 2)) ∧
      mixedRun.2.waits.length = 2 := by
  obtain ⟨hwaits,hreport⟩ := @retryWithBackoff_exhausted ℚ Nat _ _ _ (fun _ => none)
    (fun _ => none) sampleBackoff mixedFailures (by decide)
    (fun i _ _ => mixedFailures_transient _ i)
  have hlength : mixedRun.2.waits.length = 2 := hwaits
  refine ⟨?_,?_,hlength⟩
  · intro h
    obtain ⟨-,hbetween⟩ := h
    rw [hlength] at hbetween
    exact absurd hbetween (by decide)
  · intro hlast
    rcases hreport.mp hlast with hsome | hnone
    · exact absurd hsome (by decide)
    · exact absurd (hnone 1 (by decide) (by decide)) (by decide)

theorem mixedRun_never : ¬ Coherent (fun _ => none) sampleBackoff mixedFailures
    mixedRun.1 mixedRun.2 :=
  (retryWithBackoff_incoherent _ _ _ (by decide) (fun i _ _ => mixedFailures_transient _ i)).1

end SoftwareFactory.Retry
