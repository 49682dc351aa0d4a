import Mathlib.Data.List.Basic

namespace Process

variable {ε : Type} {Q : List ε → ε → Prop} {t : List ε}

/-- Every event of `t` meets `Q`, which is given the events before it. -/
def Always (Q : List ε → ε → Prop) (t : List ε) : Prop := ∀ a e b,t = a++e::b → Q a e

theorem Always.nil : Always Q [] := by
  intro a e b h
  have hlen := congrArg List.length h
  simp only [List.length_nil,List.length_append,List.length_cons] at hlen
  omega

theorem Always.append (h : Always Q t) {e : ε} (he : Q t e) : Always Q (t++[e]) := by
  intro a e' b hab
  rcases List.eq_nil_or_concat b with rfl | ⟨b',e'',rfl⟩
  · obtain ⟨rfl,rfl⟩ : t = a ∧ e = e' := by simpa using hab
    exact he
  · have hab' : t++[e] = (a++e'::b')++[e''] := by simpa using hab
    obtain ⟨rfl,_⟩ := List.append_inj' hab' rfl
    exact h a e' b' rfl

end Process
