import Mathlib.Data.List.Basic

namespace Effect

/-- Code over a state `σ` that may raise `χ`. What was written to the state before an
exception stays written. -/
def Eff (σ χ α : Type) : Type := σ → Except χ α × σ

namespace Eff

variable {σ τ χ α β : Type}

instance : Monad (Eff σ χ) where
  pure a := fun s => (.ok a,s)
  bind m f := fun s => match m s with
    | (.ok a,s') => f a s'
    | (.error e,s') => (.error e,s')

def get : Eff σ χ σ := fun s => (.ok s,s)
def modify (f : σ → σ) : Eff σ χ Unit := fun s => (.ok (),f s)
/-- A call that cannot raise. -/
def step (f : σ → α × σ) : Eff σ χ α := fun s => (.ok (f s).1,(f s).2)

def raise (e : χ) : Eff σ χ α := fun s => (.error e,s)

/-- A result that does not depend on the state. -/
def result (r : Except χ α) : Eff σ χ α := fun s => (r,s)

/-- `try`/`catch`: the handler goes on from the state in which the exception was raised. -/
def catching (m : Eff σ χ α) (handler : χ → Eff σ χ α) : Eff σ χ α := fun s =>
  match m s with
  | (.ok a,s') => (.ok a,s')
  | (.error e,s') => handler e s'

/-- A scope whose owner is destroyed when it is left, by an exception or not. -/
def owning (destroy : σ → σ) (m : Eff σ χ α) : Eff σ χ α := fun s =>
  ((m s).1,destroy (m s).2)

/-- Construction that undoes itself when it fails. -/
def unwinding (cleanup : σ → σ) (m : Eff σ χ α) : Eff σ χ α := fun s =>
  match m s with
  | (.ok a,s') => (.ok a,s')
  | (.error e,s') => (.error e,cleanup s')

/-- A range-based `for` loop. -/
def forEach (f : α → Eff σ χ Unit) : List α → Eff σ χ Unit
  | [] => pure ()
  | a::as => do
    f a
    forEach f as

@[simp] theorem pure_apply (a : α) (s : σ) : (pure a : Eff σ χ α) s = (.ok a,s) := rfl
@[simp] theorem get_apply (s : σ) : (get : Eff σ χ σ) s = (.ok s,s) := rfl
@[simp] theorem modify_apply (f : σ → σ) (s : σ) :
    (modify f : Eff σ χ Unit) s = (.ok (),f s) := rfl
@[simp] theorem raise_apply (e : χ) (s : σ) : (raise e : Eff σ χ α) s = (.error e,s) := rfl

theorem bind_apply (m : Eff σ χ α) (f : α → Eff σ χ β) (s : σ) :
    (m >>= f) s = match m s with
      | (.ok a,s') => f a s'
      | (.error e,s') => (.error e,s') := rfl

theorem owning_apply (destroy : σ → σ) (m : Eff σ χ α) (s : σ) :
    owning destroy m s = ((m s).1,destroy (m s).2) := rfl

theorem bind_of_ok {m : Eff σ χ α} {s s' : σ} {a : α} (h : m s = (.ok a,s'))
    (f : α → Eff σ χ β) : (m >>= f) s = f a s' := by
  rw [bind_apply,h]

theorem bind_of_error {m : Eff σ χ α} {s s' : σ} {e : χ} (h : m s = (.error e,s'))
    (f : α → Eff σ χ β) : (m >>= f) s = (.error e,s') := by
  rw [bind_apply,h]

instance : LawfulMonad (Eff σ χ) := by
  refine LawfulMonad.mk' _ (fun m => ?_) (fun a f => rfl) (fun m f g => ?_)
  · funext s
    change (m >>= fun a => pure a) s = m s
    rcases h : m s with ⟨e | a,s'⟩
    · exact bind_of_error h _
    · exact bind_of_ok h _
  · funext s
    rcases h : m s with ⟨e | a,s'⟩
    · rw [bind_of_error (bind_of_error h f),bind_of_error h]
    · rw [bind_of_ok h,bind_apply,bind_of_ok h]
      rfl

/-- What a run that returns has been through. -/
theorem bind_ok {m : Eff σ χ α} {f : α → Eff σ χ β} {s s'' : σ} {b : β} :
    (m >>= f) s = (.ok b,s'') ↔ ∃ a s',m s = (.ok a,s') ∧ f a s' = (.ok b,s'') := by
  rw [bind_apply]
  rcases hm : m s with ⟨_ | a,s'⟩ <;> simp

theorem raise_ok {e : χ} {s s' : σ} {a : α} : (raise e : Eff σ χ α) s = (.ok a,s') ↔ False := by
  simp

theorem catching_ok {m : Eff σ χ α} {handler : χ → Eff σ χ α} {s s' : σ} {a : α}
    (h : m s = (.ok a,s')) : catching m handler s = (.ok a,s') := by
  rw [catching,h]

theorem catching_error {m : Eff σ χ α} {handler : χ → Eff σ χ α} {s s' : σ} {e : χ}
    (h : m s = (.error e,s')) : catching m handler s = handler e s' := by
  rw [catching,h]

theorem owning_ok {destroy : σ → σ} {m : Eff σ χ α} {s s'' : σ} {a : α} :
    owning destroy m s = (.ok a,s'') ↔ ∃ s',m s = (.ok a,s') ∧ s'' = destroy s' := by
  rw [owning_apply]
  rcases m s with ⟨r,s'⟩
  constructor
  · intro h
    obtain ⟨rfl,rfl⟩ := Prod.mk.inj h
    exact ⟨s',rfl,rfl⟩
  · intro hparts
    obtain ⟨t,h,rfl⟩ := hparts
    obtain ⟨rfl,rfl⟩ := Prod.mk.inj h
    rfl

theorem unwinding_ok {cleanup : σ → σ} {m : Eff σ χ α} {s s' : σ} {a : α} :
    unwinding cleanup m s = (.ok a,s') ↔ m s = (.ok a,s') := by
  rw [unwinding]
  rcases m s with ⟨_ | b,s''⟩ <;> simp

theorem forEach_nil_ok {f : α → Eff σ χ Unit} {s s' : σ} :
    forEach f [] s = (.ok (),s') ↔ s' = s := by
  constructor
  · intro h
    exact (Prod.mk.inj h).2.symm
  · intro heq
    subst heq
    rfl

theorem forEach_cons_ok {f : α → Eff σ χ Unit} {a : α} {as : List α} {s s'' : σ} :
    forEach f (a::as) s = (.ok (),s'') ↔
      ∃ s',f a s = (.ok (),s') ∧ forEach f as s' = (.ok (),s'') := by
  rw [forEach,bind_ok]
  constructor
  · intro hparts
    obtain ⟨_,s',h,h'⟩ := hparts
    exact ⟨s',h,h'⟩
  · intro hparts
    obtain ⟨s',h,h'⟩ := hparts
    exact ⟨(),s',h,h'⟩

theorem forEach_map (f : β → Eff σ χ Unit) (g : α → β) (as : List α) :
    forEach f (as.map g) = forEach (fun a => f (g a)) as := by
  induction as with
  | nil => rfl
  | cons a as ih => rw [List.map_cons,forEach,forEach,ih]

end Eff

end Effect
