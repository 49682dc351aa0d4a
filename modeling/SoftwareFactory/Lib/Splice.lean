import Mathlib.Data.List.Infix

namespace Splice

variable {α β : Type}

/-- A list cut from left to right: where `next`, given what stands before and after a
position, takes a nonempty stretch, its value stands for the stretch. The first argument
counts the elements that are still to be passed over. -/
def cut (next : List α → List α → Option (Nat × β)) : Nat → List α → List α → List (α ⊕ β)
  | _,_,[] => []
  | skip+1,before,a::as => cut next skip (a::before) as
  | 0,before,a::as =>
    match next before (a::as) with
    | some (n+1,v) => .inr v::cut next n (a::before) as
    | _ => .inl a::cut next 0 (a::before) as

def render (repl : β → List α) (pieces : List (α ⊕ β)) : List α :=
  pieces.flatMap (Sum.elim (fun a => [a]) repl)

@[simp] theorem render_nil (repl : β → List α) : render repl [] = [] := rfl

@[simp] theorem render_inl (repl : β → List α) (a : α) (pieces : List (α ⊕ β)) :
    render repl (.inl a::pieces) = a::render repl pieces := rfl

@[simp] theorem render_inr (repl : β → List α) (v : β) (pieces : List (α ⊕ β)) :
    render repl (.inr v::pieces) = repl v++render repl pieces := rfl

/-- The stretches between the pieces that were taken. -/
def segments : List (α ⊕ β) → List (List α)
  | [] => [[]]
  | .inr _::pieces => []::segments pieces
  | .inl a::pieces =>
    match segments pieces with
    | [] => [[a]]
    | s::ss => (a::s)::ss

/-- Stretches with a property, a mark between each and the next. -/
inductive Spliced (P : List α → Prop) (mark : List α) : List α → Prop where
  | last {gap : List α} (h : P gap) : Spliced P mark gap
  | cons {gap out : List α} (h : P gap) (t : Spliced P mark out) : Spliced P mark (gap++mark++out)

theorem cut_skip (next : List α → List α → Option (Nat × β)) (before x s : List α) :
    cut next x.length before (x++s) = cut next 0 (x.reverse++before) s := by
  induction x generalizing before with
  | nil => rfl
  | cons a x ih =>
    rw [List.length_cons,List.cons_append,cut,ih,List.reverse_cons,List.append_assoc]
    rfl

/-- A stretch that is taken, and the rest. -/
theorem cut_taken {next : List α → List α → Option (Nat × β)} {before x s : List α} {v : β}
    (hx : x ≠ []) (h : next before (x++s) = some (x.length,v)) :
    cut next 0 before (x++s) = .inr v::cut next 0 (x.reverse++before) s := by
  cases x with
  | nil => exact absurd rfl hx
  | cons a x =>
    have hskip := cut_skip next (a::before) x s
    rw [List.cons_append,List.length_cons] at h
    rw [List.cons_append,cut,h]
    simp only [hskip,List.reverse_cons,List.append_assoc,List.singleton_append]

theorem cut_passed {next : List α → List α → Option (Nat × β)} {before s : List α} {a : α}
    (h : next before (a::s) = none) :
    cut next 0 before (a::s) = .inl a::cut next 0 (a::before) s := by
  rw [cut,h]

/-- No stretch was taken at any position of `gap`, with `rest` after it. -/
def Passed (next : List α → List α → Option (Nat × β)) (gap rest : List α) : Prop :=
  ∀ x y,gap = x++y → y ≠ [] → ∃ before,∀ n v,next before (y++rest) ≠ some (n+1,v)

theorem Passed.nil (next : List α → List α → Option (Nat × β)) (rest : List α) :
    Passed next [] rest := by
  intro x y h hy
  exact absurd (List.append_eq_nil_iff.mp h.symm).2 hy

theorem Passed.snoc {next : List α → List α → Option (Nat × β)} {gap rest before : List α} {a : α}
    (h : Passed next gap (a::rest)) (ha : ∀ n v,next before (a::rest) ≠ some (n+1,v)) :
    Passed next (gap++[a]) rest := by
  intro x y hxy hy
  rcases List.eq_nil_or_concat y with rfl | ⟨z,b,rfl⟩
  · exact absurd rfl hy
  · rw [List.concat_eq_append,← List.append_assoc] at hxy
    obtain ⟨hgap,hb⟩ := List.append_inj' hxy rfl
    obtain rfl := (List.cons.inj hb).1
    by_cases hz : z = []
    · subst hz
      exact ⟨before,ha⟩
    · obtain ⟨b',hb'⟩ := h x z hgap hz
      exact ⟨b',by simpa using hb'⟩

theorem cutFrom_spliced {next : List α → List α → Option (Nat × β)} {repl : β → List α}
    {P : List α → Prop} {mark s : List α}
    (hgap : ∀ gap,gap <:+ s → Passed next gap [] → P gap)
    (hfound : ∀ before gap rest n v,gap++rest <:+ s → Passed next gap rest →
      next before rest = some (n+1,v) → ∃ g,repl v = g++mark ∧ P (gap++g))
    {skip : Nat} {before gap rest : List α} (hskip : skip = 0 ∨ gap = [])
    (hs : gap++rest <:+ s) (hpassed : Passed next gap rest) :
    Spliced P mark (gap++render repl (cut next skip before rest)) := by
  induction rest generalizing skip before gap with
  | nil =>
    rw [List.append_nil] at hs
    rw [cut,render_nil,List.append_nil]
    exact .last (hgap gap hs hpassed)
  | cons a as ih =>
    cases skip with
    | succ skip =>
      obtain rfl : gap = [] := by simpa using hskip
      have hs' : []++as <:+ s := (List.suffix_cons a as).trans hs
      exact ih (.inr rfl) hs' (Passed.nil _ _)
    | zero =>
      rw [cut]
      split
      · next n v hnext =>
        obtain ⟨g,hg,hP⟩ := hfound before gap (a::as) n v hs hpassed hnext
        have hs' : []++as <:+ s :=
          (List.suffix_cons a as).trans ((List.suffix_append gap (a::as)).trans hs)
        have hrest : Spliced P mark ([]++render repl (cut next n (a::before) as)) :=
          ih (.inr rfl) hs' (Passed.nil _ _)
        rw [render_inr,hg,← List.append_assoc,← List.append_assoc]
        exact .cons hP hrest
      · next hnone =>
        have hs' : gap++[a]++as <:+ s := by simpa using hs
        have hpassed' : Passed next (gap++[a]) as := hpassed.snoc fun n v h => hnone n v h
        have hrest : Spliced P mark (gap++[a]++render repl (cut next 0 (a::before) as)) :=
          ih (.inl rfl) hs' hpassed'
        rw [render_inl]
        simpa using hrest

/-- The rendered cut is made of stretches of the list with marks between them. -/
theorem cut_spliced {next : List α → List α → Option (Nat × β)} {repl : β → List α}
    {P : List α → Prop} {mark s : List α}
    (hgap : ∀ gap,gap <:+ s → Passed next gap [] → P gap)
    (hfound : ∀ before gap rest n v,gap++rest <:+ s → Passed next gap rest →
      next before rest = some (n+1,v) → ∃ g,repl v = g++mark ∧ P (gap++g)) :
    Spliced P mark (render repl (cut next 0 [] s)) := by
  have hcut : Spliced P mark ([]++render repl (cut next 0 [] s)) :=
    cutFrom_spliced hgap hfound (.inl rfl) (List.suffix_refl s) (Passed.nil _ _)
  exact hcut

/-- A list without a separator lies on one side of it. -/
theorem infix_of_infix_cons {v a b : List α} {c : α} (hc : c ∉ v) (h : v <:+: a++c::b) :
    v <:+: a ∨ v <:+: b := by
  obtain ⟨x,y,h⟩ := h
  rcases List.append_eq_append_iff.mp h with ⟨z,hz,-⟩ | ⟨z,hz,hrest⟩
  · left
    exact ⟨x,z,hz.symm⟩
  · cases z with
    | nil =>
      left
      exact ⟨x,[],by simpa using hz⟩
    | cons d z =>
      obtain ⟨rfl,hb⟩ := List.cons.inj hrest
      rcases List.append_eq_append_iff.mp hz with ⟨u,hx,hv⟩ | ⟨u,hx,hv⟩
      · exact absurd (by rw [hv]; simp) hc
      · cases u with
        | nil => exact absurd (by rw [← List.nil_append v,← hv]; simp) hc
        | cons e u =>
          right
          obtain ⟨-,hz'⟩ := List.cons.inj hv
          have hb : b = z++y := hb
          have hz' : z = u++v := hz'
          exact ⟨u,y,by rw [hb,hz']⟩

/-- What the stretches do not contain, and the mark cannot bring in, is not there. -/
theorem Spliced.not_infix {P : List α → Prop} {v out mid : List α} {l r : α}
    (hP : ∀ gap,P gap → ¬ v <:+: gap) (hl : l ∉ v) (hr : r ∉ v) (hmid : ¬ v <:+: mid)
    (h : Spliced P (l::(mid++[r])) out) : ¬ v <:+: out := by
  induction h with
  | last h => exact hP _ h
  | @cons gap out h t ih =>
    intro hv
    have hout : gap++l::(mid++[r])++out = gap++l::(mid++r::out) := by simp
    rw [hout] at hv
    rcases infix_of_infix_cons hl hv with hv | hv
    · exact hP _ h hv
    · rcases infix_of_infix_cons hr hv with hv | hv
      · exact hmid hv
      · exact ih hv

end Splice
