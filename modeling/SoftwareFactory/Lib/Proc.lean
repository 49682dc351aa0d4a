import Mathlib.Data.List.Infix

namespace Process

/-- How a process stops before its body returns. `outOfFuel` belongs to the model
alone: a bounded loop used up its rounds. -/
inductive Ending (χ : Type) where
  | raised (e : χ)
  | exited (code : Nat)
  | outOfFuel
  deriving DecidableEq, Repr

/-- The memory of a running process and every event it has emitted. -/
structure World (σ ε : Type) where
  mem : σ
  trace : List ε

variable {σ ε χ α β γ : Type}

def World.emit (w : World σ ε) (e : ε) : World σ ε := { w with trace := w.trace ++ [e] }

@[simp] theorem World.emit_mem (w : World σ ε) (e : ε) : (w.emit e).mem = w.mem := rfl
@[simp] theorem World.emit_trace (w : World σ ε) (e : ε) :
    (w.emit e).trace = w.trace ++ [e] := rfl

def Proc (σ ε χ α : Type) : Type := World σ ε → Except (Ending χ) α × World σ ε

namespace Proc

instance : Monad (Proc σ ε χ) where
  pure a := fun w => (.ok a,w)
  bind m f := fun w => match m w with
    | (.ok a,w') => f a w'
    | (.error s,w') => (.error s,w')

def get : Proc σ ε χ σ := fun w => (.ok w.mem,w)
def modify (f : σ → σ) : Proc σ ε χ Unit := fun w => (.ok (),{ w with mem := f w.mem })
def emit (e : ε) : Proc σ ε χ Unit := fun w => (.ok (),w.emit e)
def stop (s : Ending χ) : Proc σ ε χ α := fun w => (.error s,w)

/-- What has been emitted so far, for code that reads back what it wrote. -/
def emitted : Proc σ ε χ (List ε) := fun w => (.ok w.trace,w)

/-- The outside world answers by the number of events so far, so two calls that
are separated by an event may be answered differently. -/
def ask (answer : Nat → α) : Proc σ ε χ α := fun w => (.ok (answer w.trace.length),w)

/-- An outside call: the answer is recorded before the process goes on. -/
def call (answer : Nat → α) (event : α → ε) : Proc σ ε χ α := do
  let a ← ask answer
  emit (event a)
  pure a

/-- An outside call that may raise in the caller. -/
def tryCall (answer : Nat → Except χ α) (event : Except χ α → ε) : Proc σ ε χ α := do
  match ← call answer event with
  | .ok a => pure a
  | .error e => stop (.raised e)

/-- The value of something tried; before its exception is raised, `onError` runs. -/
def attempt (res : Except χ α) (onError : Proc σ ε χ Unit) : Proc σ ε χ α :=
  match res with
  | .ok a => pure a
  | .error e => do
    onError
    stop (.raised e)

/-- A while loop: `inl` goes round again with a new loop state, `inr` leaves. -/
def loop (body : β → Proc σ ε χ (β ⊕ γ)) : Nat → β → Proc σ ε χ γ
  | 0,_ => stop .outOfFuel
  | n+1,b => do
    match ← body b with
    | .inl b' => loop body n b'
    | .inr c => pure c

@[simp] theorem pure_apply (a : α) (w : World σ ε) :
    (pure a : Proc σ ε χ α) w = (.ok a,w) := rfl
@[simp] theorem get_apply (w : World σ ε) : (get : Proc σ ε χ σ) w = (.ok w.mem,w) := rfl
@[simp] theorem modify_apply (f : σ → σ) (w : World σ ε) :
    (modify f : Proc σ ε χ Unit) w = (.ok (),{ w with mem := f w.mem }) := rfl
@[simp] theorem emit_apply (e : ε) (w : World σ ε) :
    (emit e : Proc σ ε χ Unit) w = (.ok (),w.emit e) := rfl
@[simp] theorem stop_apply (s : Ending χ) (w : World σ ε) :
    (stop s : Proc σ ε χ α) w = (.error s,w) := rfl
@[simp] theorem emitted_apply (w : World σ ε) :
    (emitted : Proc σ ε χ (List ε)) w = (.ok w.trace,w) := rfl
@[simp] theorem ask_apply (answer : Nat → α) (w : World σ ε) :
    (ask answer : Proc σ ε χ α) w = (.ok (answer w.trace.length),w) := rfl
@[simp] theorem call_apply (answer : Nat → α) (event : α → ε) (w : World σ ε) :
    (call answer event : Proc σ ε χ α) w =
      (.ok (answer w.trace.length),w.emit (event (answer w.trace.length))) := rfl

@[simp] theorem attempt_ok (a : α) (onError : Proc σ ε χ Unit) :
    attempt (.ok a) onError = pure a := rfl
@[simp] theorem attempt_error (e : χ) (onError : Proc σ ε χ Unit) :
    (attempt (.error e) onError : Proc σ ε χ α) = onError >>= fun _ => stop (.raised e) := rfl

theorem bind_apply (m : Proc σ ε χ α) (f : α → Proc σ ε χ β) (w : World σ ε) :
    (m >>= f) w = match m w with
      | (.ok a,w') => f a w'
      | (.error s,w') => (.error s,w') := rfl

theorem bind_of_ok {m : Proc σ ε χ α} {w w' : World σ ε} {a : α} (h : m w = (.ok a,w'))
    (f : α → Proc σ ε χ β) : (m >>= f) w = f a w' := by
  rw [bind_apply,h]

end Proc

/-- Postcondition of a run: `Q` when the body returns, `X` when it stops early. -/
def Post (Q : α → World σ ε → Prop) (X : Ending χ → World σ ε → Prop) :
    Except (Ending χ) α × World σ ε → Prop
  | (.ok a,w) => Q a w
  | (.error s,w) => X s w

@[simp] theorem post_ok (Q : α → World σ ε → Prop) (X : Ending χ → World σ ε → Prop)
    (a : α) (w : World σ ε) : Post Q X (.ok a,w) ↔ Q a w := Iff.rfl
@[simp] theorem post_error (Q : α → World σ ε → Prop) (X : Ending χ → World σ ε → Prop)
    (s : Ending χ) (w : World σ ε) : Post Q X (.error s,w) ↔ X s w := Iff.rfl

def Triple (P : World σ ε → Prop) (m : Proc σ ε χ α) (Q : α → World σ ε → Prop)
    (X : Ending χ → World σ ε → Prop) : Prop :=
  ∀ w, P w → Post Q X (m w)

/-- `I` holds again however the process ends. -/
def Keeps (I : World σ ε → Prop) (m : Proc σ ε χ α) : Prop :=
  Triple I m (fun _ => I) (fun _ => I)

section rules

variable {P P' : World σ ε → Prop} {Q Q' : α → World σ ε → Prop}
  {X X' : Ending χ → World σ ε → Prop} {I : World σ ε → Prop}

theorem Post.mono {r : Except (Ending χ) α × World σ ε} (h : Post Q X r)
    (hQ : ∀ a w, Q a w → Q' a w) (hX : ∀ s w, X s w → X' s w) : Post Q' X' r := by
  rcases r with ⟨_ | a,w⟩
  · exact hX _ w h
  · exact hQ a w h

theorem Triple.mono {m : Proc σ ε χ α} (h : Triple P m Q X) (hP : ∀ w, P' w → P w)
    (hQ : ∀ a w, Q a w → Q' a w) (hX : ∀ s w, X s w → X' s w) : Triple P' m Q' X' :=
  fun w hw => (h w (hP w hw)).mono hQ hX

theorem Triple.bind {m : Proc σ ε χ α} {f : α → Proc σ ε χ β} {R : β → World σ ε → Prop}
    (hm : Triple P m Q X) (hf : ∀ a, Triple (Q a) (f a) R X) : Triple P (m >>= f) R X := by
  intro w hw
  have h := hm w hw
  rw [Proc.bind_apply]
  rcases hr : m w with ⟨_ | a,w'⟩ <;> rw [hr] at h
  · exact h
  · exact hf a w' h

theorem Triple.pure (a : α) : Triple (Q a) (pure a : Proc σ ε χ α) Q X := fun _ h => h

theorem Triple.stop (s : Ending χ) : Triple (X s) (Proc.stop s : Proc σ ε χ α) Q X :=
  fun _ h => h

/-- Two results about the same process hold of the same run. -/
theorem Triple.and {m : Proc σ ε χ α} (h : Triple P m Q X) (h' : Triple P' m Q' X') :
    Triple (fun w => P w ∧ P' w) m (fun a w => Q a w ∧ Q' a w) (fun s w => X s w ∧ X' s w) := by
  intro w hw
  have hl := h w hw.1
  have hr := h' w hw.2
  rcases hm : m w with ⟨_ | a,w'⟩ <;> rw [hm] at hl hr
  · exact ⟨hl,hr⟩
  · exact ⟨hl,hr⟩

/-- The loop rule. `J n` is the invariant with `n` rounds of fuel left; a body that
goes round must leave one round less. -/
theorem Triple.loop {body : β → Proc σ ε χ (β ⊕ γ)} {J : Nat → β → World σ ε → Prop}
    {R : γ → World σ ε → Prop} (hfuel : ∀ b w, J 0 b w → X .outOfFuel w)
    (hbody : ∀ n b, Triple (J (n+1) b) (body b)
      (fun r w => match r with | .inl b' => J n b' w | .inr c => R c w) X) :
    ∀ n b, Triple (J n b) (Proc.loop body n b) R X := by
  intro n
  induction n with
  | zero => exact fun b w h => hfuel b w h
  | succ n ih =>
    intro b
    refine (hbody n b).bind fun r => ?_
    cases r with
    | inl b' => exact ih b'
    | inr c => exact fun w h => h

theorem Keeps.pure (a : α) : Keeps I (pure a : Proc σ ε χ α) := fun _ h => h

theorem Keeps.bind {m : Proc σ ε χ α} {f : α → Proc σ ε χ β} (hm : Keeps I m)
    (hf : ∀ a, Keeps I (f a)) : Keeps I (m >>= f) := Triple.bind hm hf

theorem Keeps.stop (s : Ending χ) : Keeps I (Proc.stop s : Proc σ ε χ α) := fun _ h => h

end rules

end Process
