import Mathlib.Logic.Relation
import SoftwareFactory.Lib.Proc

namespace Process

/-- A control-flow graph over worlds: its nodes are the points a process can be at. -/
abbrev Flow (P σ ε : Type) : Type := P × World σ ε → P × World σ ε → Prop

variable {P σ ε χ α β γ : Type}

/-- The process has come from `c` to point `p`. -/
def At (S : Flow P σ ε) (c : P × World σ ε) (p : P) (w : World σ ε) : Prop :=
  Relation.ReflTransGen S c (p,w)

/-- The process has stopped at a point where `s` may end it. -/
def Ended (S : Flow P σ ε) (ends : Ending χ → P → Prop) (c : P × World σ ε)
    (s : Ending χ) (w : World σ ε) : Prop :=
  ∃ p,ends s p ∧ At S c p w

/-- Started at `p`, the process goes to the point its result names, or stops at a point
that fits its ending. -/
def Follows (S : Flow P σ ε) (ends : Ending χ → P → Prop) (p : P) (m : Proc σ ε χ α)
    (next : α → P → Prop) : Prop :=
  ∀ c,Triple (At S c p) m (fun a w => ∃ q,next a q ∧ At S c q w) (Ended S ends c)

section rules

variable {S : Flow P σ ε} {ends : Ending χ → P → Prop} {c : P × World σ ε} {p : P}

theorem At.step {q : P} {w w' : World σ ε} (h : At S c p w) (hs : S (p,w) (q,w')) :
    At S c q w' :=
  Relation.ReflTransGen.tail h hs

theorem Follows.run {m : Proc σ ε χ α} {next : α → P → Prop} (h : Follows S ends p m next)
    (w : World σ ε) : Post (fun a w' => ∃ q,next a q ∧ At S (p,w) q w') (Ended S ends (p,w))
      (m w) :=
  h (p,w) w .refl

theorem Follows.bind {m : Proc σ ε χ α} {f : α → Proc σ ε χ β} {next : α → P → Prop}
    {last : β → P → Prop} (hm : Follows S ends p m next)
    (hf : ∀ a q,next a q → Follows S ends q (f a) last) :
    Follows S ends p (m >>= f) last := by
  intro c
  refine (hm c).bind fun a w => ?_
  intro h
  obtain ⟨q,hq,hw⟩ := h
  exact hf a q hq c w hw

/-- What is left of a process that ends is never run. -/
theorem Follows.bind_ended {m : Proc σ ε χ α} {f : α → Proc σ ε χ β} {last : β → P → Prop}
    (hm : Follows S ends p m fun _ _ => False) : Follows S ends p (m >>= f) last :=
  hm.bind fun _ _ h => h.elim

theorem Follows.mono {m : Proc σ ε χ α} {next next' : α → P → Prop}
    (h : Follows S ends p m next) (hn : ∀ a q,next a q → next' a q) :
    Follows S ends p m next' := by
  intro c
  refine (h c).mono (fun _ h => h) ?_ (fun _ _ h => h)
  intro a w hparts
  obtain ⟨q,hq,hw⟩ := hparts
  exact ⟨q,hn a q hq,hw⟩

theorem Follows.pure {a : α} {next : α → P → Prop} (h : next a p) :
    Follows S ends p (pure a : Proc σ ε χ α) next :=
  fun _ _ hw => ⟨p,h,hw⟩

theorem Follows.stop {s : Ending χ} {next : α → P → Prop} (h : ends s p) :
    Follows S ends p (Proc.stop s : Proc σ ε χ α) next :=
  fun _ _ hw => ⟨p,h,hw⟩

/-- One atomic action that returns. -/
theorem Follows.act {m : Proc σ ε χ α} {next : α → P → Prop}
    (h : ∀ w,∃ a w' q,m w = (.ok a,w') ∧ next a q ∧ S (p,w) (q,w')) :
    Follows S ends p m next := by
  intro c w hw
  obtain ⟨a,w',q,hm,hn,hs⟩ := h w
  rw [hm]
  exact ⟨q,hn,hw.step hs⟩

/-- Reading changes neither the world nor the point. -/
theorem Follows.read {m : Proc σ ε χ α} {f : α → Proc σ ε χ β} {last : β → P → Prop}
    (hm : ∀ w,∃ a,m w = (.ok a,w)) (hf : ∀ a,Follows S ends p (f a) last) :
    Follows S ends p (m >>= f) last := by
  intro c w hw
  obtain ⟨a,ha⟩ := hm w
  rw [Proc.bind_of_ok ha]
  exact hf a c w hw

/-- A silent step, taken according to the memory. -/
theorem Follows.move {q : P} {m : Proc σ ε χ α} {next : α → P → Prop}
    (hs : ∀ w,S (p,w) (q,w)) (h : Follows S ends q m next) :
    Follows S ends p m next :=
  fun c w hw => h c w (hw.step (hs w))

/-- The loop rule with a measure: every round starts at `p` with room left and leaves
less of it, so there are never more rounds than fuel. -/
theorem Follows.loop {body : β → Proc σ ε χ (β ⊕ γ)} {last : γ → P → Prop}
    (room : World σ ε → Nat)
    (hbody : ∀ b,Follows S ends p (body b) (Sum.elim (fun _ q => q = p) last))
    (hroom : ∀ b w,Post (fun r w' => ∀ b',r = .inl b' → room w' < room w) (fun _ _ => True)
      (body b w))
    (n : Nat) (b : β) (c : P × World σ ε) :
    Triple (fun w => At S c p w ∧ room w < n) (Proc.loop body n b)
      (fun a w => ∃ q,last a q ∧ At S c q w) (Ended S ends c) := by
  refine Triple.loop (J := fun n _ w => At S c p w ∧ room w < n)
    (fun _ w hw => absurd hw.2 (Nat.not_lt_zero _)) ?_ n b
  intro n b w h
  obtain ⟨hw,hn⟩ := h
  have hat := hbody b c w hw
  have hless := hroom b w
  rcases hr : body b w with ⟨s | b' | a,w'⟩ <;> rw [hr] at hat hless
  · exact hat
  · obtain ⟨q,rfl,hq⟩ := hat
    have := hless b' rfl
    exact ⟨hq,by omega⟩
  · exact hat

end rules

/-- What every step keeps holds all along. -/
theorem At.keeps {S : Flow P σ ε} {I : P → World σ ε → Prop}
    (hstep : ∀ p w q w',S (p,w) (q,w') → I p w → I q w') {c : P × World σ ε}
    (hc : I c.1 c.2) {p : P} {w : World σ ε} (h : At S c p w) : I p w := by
  have key (c' : P × World σ ε) (hr : Relation.ReflTransGen S c c') : I c'.1 c'.2 := by
    induction hr with
    | refl => exact hc
    | tail _ hs ih => exact hstep _ _ _ _ hs ih
  exact key (p,w) h

/-- A step adds at most one event. -/
def Gradual (S : Flow P σ ε) : Prop :=
  ∀ c c',S c c' → c'.2.trace = c.2.trace ∨ ∃ e,c'.2.trace = c.2.trace++[e]

theorem Gradual.extends {S : Flow P σ ε} (hg : Gradual S) {c : P × World σ ε} {p : P}
    {w : World σ ε} (h : At S c p w) : c.2.trace <+: w.trace := by
  refine At.keeps (I := fun _ w => c.2.trace <+: w.trace) ?_ (List.prefix_refl _) h
  intro p w q w' hs hp
  rcases hg _ _ hs with he | ⟨e,he⟩
  · rw [he]
    exact hp
  · rw [he]
    exact hp.trans (List.prefix_append _ _)

/-- A process cut down after any of its events was at some point then. -/
theorem Gradual.cut {S : Flow P σ ε} (hg : Gradual S) {c : P × World σ ε} {p : P}
    {w : World σ ε} (h : At S c p w) (t : List ε) (hc : c.2.trace <+: t)
    (ht : t <+: w.trace) : ∃ q v,At S c q v ∧ v.trace = t := by
  have key : At S c p w ∧ ∀ t,c.2.trace <+: t → t <+: w.trace →
      ∃ q v,At S c q v ∧ v.trace = t := by
    refine At.keeps (I := fun p w => At S c p w ∧ ∀ t,c.2.trace <+: t → t <+: w.trace →
      ∃ q v,At S c q v ∧ v.trace = t) ?_ ?_ h
    · intro p w q w' hs hparts
      obtain ⟨hw,ih⟩ := hparts
      refine ⟨hw.step hs,fun t hc ht => ?_⟩
      rcases hg _ _ hs with he | ⟨e,he⟩
      · exact ih t hc (he ▸ ht)
      · rw [he,List.prefix_concat_iff] at ht
        rcases ht with rfl | ht
        · exact ⟨q,w',hw.step hs,he⟩
        · exact ih t hc ht
    · exact ⟨.refl,fun t hc ht => ⟨c.1,c.2,.refl,hc.eq_of_length_le ht.length_le⟩⟩
  exact key.2 t hc ht

end Process
