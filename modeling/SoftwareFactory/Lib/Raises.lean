import SoftwareFactory.Lib.FileRead

namespace Effect

namespace Eff

variable {σ χ α β : Type} {P Q : χ → Prop}

/-- Whatever the code raises has the property. -/
def Raises (P : χ → Prop) (m : Eff σ χ α) : Prop := ∀ s e s',m s = (.error e,s') → P e

namespace Raises

theorem mono {m : Eff σ χ α} (h : Raises P m) (hPQ : ∀ e,P e → Q e) : Raises Q m := by
  intro s e s' hrun
  exact hPQ e (h s e s' hrun)

theorem pure (a : α) : Raises P (pure a : Eff σ χ α) := by
  intro s e s' hrun
  rw [pure_apply] at hrun
  cases hrun

theorem step (f : σ → α × σ) : Raises P (Eff.step f : Eff σ χ α) := by
  intro s e s' hrun
  rw [Eff.step] at hrun
  cases hrun

theorem raise {e : χ} (h : P e) : Raises P (raise e : Eff σ χ α) := by
  intro s e' s' hrun
  rw [raise_apply] at hrun
  obtain ⟨he,_⟩ := Prod.mk.inj hrun
  rwa [← Except.error.inj he]

theorem bind {m : Eff σ χ α} {f : α → Eff σ χ β} (hm : Raises P m) (hf : ∀ a,Raises P (f a)) :
    Raises P (m >>= f) := by
  intro s e s'' hrun
  rw [bind_apply] at hrun
  cases h : m s with
  | mk r s' =>
    rw [h] at hrun
    cases r with
    | ok a => exact hf a s' e s'' hrun
    | error e' =>
      obtain ⟨he,_⟩ := Prod.mk.inj hrun
      rw [← Except.error.inj he]
      exact hm s e' s' h

theorem ite {c : Prop} [Decidable c] {m m' : Eff σ χ α} (h : c → Raises P m)
    (h' : ¬c → Raises P m') : Raises P (if c then m else m') := by
  split_ifs with hc
  · exact h hc
  · exact h' hc

theorem catching {m : Eff σ χ α} {handler : χ → Eff σ χ α} (hm : Raises Q m)
    (hhandler : ∀ e,Q e → Raises P (handler e)) : Raises P (catching m handler) := by
  intro s e s'' hrun
  cases h : m s with
  | mk r s' =>
    cases r with
    | ok a =>
      rw [catching_ok h] at hrun
      cases hrun
    | error e' =>
      rw [catching_error h] at hrun
      exact hhandler e' (hm s e' s' h) s' e s'' hrun

theorem owning {destroy : σ → σ} {m : Eff σ χ α} (hm : Raises P m) :
    Raises P (owning destroy m) := by
  intro s e s' hrun
  rw [owning_apply] at hrun
  obtain ⟨he,_⟩ := Prod.mk.inj hrun
  exact hm s e (m s).2 (Prod.ext he rfl)

theorem fill {read : Nat → Eff σ χ (FileRead.Answer α)}
    {check : Nat → FileRead.Answer α → Eff σ χ Unit} {chunk expected : Nat}
    (hread : ∀ n,Raises P (read n)) (hcheck : ∀ n a,Raises P (check n a)) (fuel done : Nat)
    (buffer : List α) : Raises P (FileRead.fill read check chunk expected fuel done buffer) := by
  induction fuel generalizing done buffer with
  | zero => exact pure buffer
  | succ fuel ih =>
    rw [FileRead.fill]
    apply ite
    · intro _
      apply bind (hread _)
      intro a
      apply bind (hcheck _ a)
      intro _
      exact ih _ _
    · intro _
      exact pure buffer

end Raises

end Eff

end Effect
