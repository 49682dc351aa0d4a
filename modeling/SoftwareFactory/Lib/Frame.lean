import SoftwareFactory.Lib.Effect

namespace Effect

/-- What a stretch of code may do to the state. -/
structure Frame (σ : Type) where
  rel : σ → σ → Prop
  refl : ∀ s,rel s s
  trans : ∀ {s s' s''},rel s s' → rel s' s'' → rel s s''

variable {σ τ χ α β : Type}

/-- Two stages, each with a relation of its own. -/
theorem Eff.bind_rel {R S T : σ → σ → Prop} {m : Eff σ χ α} {f : α → Eff σ χ β} {s : σ}
    (hm : R s (m s).2) (hstop : ∀ s',R s s' → T s s')
    (hgo : ∀ s' s'',R s s' → S s' s'' → T s s'')
    (hf : ∀ a s',m s = (.ok a,s') → S s' (f a s').2) : T s ((m >>= f) s).2 := by
  rcases h : m s with ⟨e | a,s'⟩
  · rw [Eff.bind_of_error h]
    rw [h] at hm
    exact hstop s' hm
  · rw [Eff.bind_of_ok h]
    rw [h] at hm
    exact hgo s' _ hm (hf a s' h)

namespace Frame

/-- The state is not touched. -/
def same : Frame σ where
  rel s s' := s' = s
  refl _ := rfl
  trans h h' := h'.trans h

/-- A frame of one part of a larger state. -/
def comap (part : τ → σ) (F : Frame σ) : Frame τ where
  rel t t' := F.rel (part t) (part t')
  refl t := F.refl (part t)
  trans h h' := F.trans h h'

/-- A frame that also carries an invariant from one state to the next. -/
def carrying (inv : σ → Prop) (F : Frame σ) : Frame σ where
  rel s s' := inv s → inv s' ∧ F.rel s s'
  refl s hs := ⟨hs,F.refl s⟩
  trans h h' hs := ⟨(h' (h hs).1).1,F.trans (h hs).2 (h' (h hs).1).2⟩

variable (F : Frame σ)

/-- Started at `s`, the code stays within the frame however it ends. -/
def Bounds (m : Eff σ χ α) (s : σ) : Prop := F.rel s (m s).2

variable {F} {m : Eff σ χ α} {s : σ}

theorem Bounds.rel {r : Except χ α} {s' : σ} (h : F.Bounds m s) (hm : m s = (r,s')) :
    F.rel s s' := by
  have hs : (m s).2 = s' := by rw [hm]
  rw [← hs]
  exact h

theorem Bounds.unchanged (h : (m s).2 = s) : F.Bounds m s := by
  rw [Bounds,h]
  exact F.refl s

theorem Bounds.pure (a : α) : F.Bounds (pure a : Eff σ χ α) s := F.refl s

theorem Bounds.raise (e : χ) : F.Bounds (Eff.raise e : Eff σ χ α) s := F.refl s

theorem Bounds.bind {f : α → Eff σ χ β} (hm : F.Bounds m s)
    (hf : ∀ a s',m s = (.ok a,s') → F.Bounds (f a) s') : F.Bounds (m >>= f) s :=
  Eff.bind_rel hm (fun _ h => h) (fun _ _ h h' => F.trans h h') hf

/-- The second stage finds the invariant, and what the first did. -/
theorem Bounds.bind_carrying {inv : σ → Prop} {f : α → Eff σ χ β}
    (hm : (F.carrying inv).Bounds m s)
    (hf : ∀ a s',m s = (.ok a,s') → inv s' → F.rel s s' → (F.carrying inv).Bounds (f a) s') :
    (F.carrying inv).Bounds (m >>= f) s := by
  intro hs
  refine Bounds.bind hm ?_ hs
  intro a s' h
  obtain ⟨hinv,hrel⟩ := Bounds.rel hm h hs
  exact hf a s' h hinv hrel

theorem Bounds.forEach {f : α → Eff σ χ Unit} {as : List α}
    (hf : ∀ a ∈ as,∀ s,F.Bounds (f a) s) : F.Bounds (Eff.forEach f as) s := by
  induction as generalizing s with
  | nil => exact F.refl s
  | cons a as ih =>
    rw [Eff.forEach]
    apply Bounds.bind (hf a List.mem_cons_self s)
    intro _ s' _
    exact ih fun b hb => hf b (List.mem_cons_of_mem _ hb)

/-- Steps within the frame before or after it do not matter to the relation. -/
structure Absorbs (F : Frame σ) (T : σ → σ → Prop) : Prop where
  stop : ∀ {s s'},F.rel s s' → T s s'
  before : ∀ {s s' s''},F.rel s s' → T s' s'' → T s s''
  after : ∀ {s s' s''},T s s' → F.rel s' s'' → T s s''

variable {T : σ → σ → Prop}

theorem Absorbs.comap {part : τ → σ} (hT : F.Absorbs T) :
    (F.comap part).Absorbs fun t t' => T (part t) (part t') :=
  ⟨hT.stop,hT.before,hT.after⟩

theorem Bounds.bind_before {f : α → Eff σ χ β} (hT : F.Absorbs T) (hm : F.Bounds m s)
    (hf : ∀ a s',m s = (.ok a,s') → T s' (f a s').2) : T s ((m >>= f) s).2 :=
  Eff.bind_rel hm (fun _ h => hT.stop h) (fun _ _ h h' => hT.before h h') hf

theorem Bounds.bind_after {f : α → Eff σ χ β} (hT : F.Absorbs T) (hm : T s (m s).2)
    (hf : ∀ a s',m s = (.ok a,s') → F.Bounds (f a) s') : T s ((m >>= f) s).2 :=
  Eff.bind_rel hm (fun _ h => h) (fun _ _ h h' => hT.after h h') hf

end Frame

end Effect
