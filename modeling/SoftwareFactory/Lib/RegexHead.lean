import SoftwareFactory.Lib.RegexMatches

namespace Regex

namespace Pattern

/-- The matcher prefers `t`. -/
def Heads (r : Pattern) (s t : Cursor) : Prop := (r.run s).head? = some t

theorem Heads.seq {a b : Pattern} {s t u : Cursor} (ha : a.Heads s t) (hb : b.Heads t u) :
    (seq a b).Heads s u := by
  rw [Heads] at ha hb ⊢
  cases hrun : a.run s with
  | nil => simp [hrun] at ha
  | cons v vs =>
    rw [hrun] at ha
    obtain rfl : v = t := Option.some.inj ha
    have hne : b.run v ≠ [] := by
      intro hnil
      rw [hnil] at hb
      cases hb
    rw [run,hrun,List.flatMap_cons,List.head?_append_of_ne_nil _ hne,hb]

theorem Heads.left {a : Pattern} (b : Pattern) {s t : Cursor} (ha : a.Heads s t) :
    (alt a b).Heads s t := by
  rw [Heads] at ha ⊢
  have hne : a.run s ≠ [] := by
    intro hnil
    rw [hnil] at ha
    cases ha
  rw [run,List.head?_append_of_ne_nil _ hne,ha]

theorem Heads.right {a b : Pattern} {s t : Cursor} (ha : a.run s = []) (hb : b.Heads s t) :
    (alt a b).Heads s t := by
  rw [Heads,run,ha]
  exact hb

theorem Heads.group {a : Pattern} {w : List Char} {before before' rest : List Char}
    {gs gs' : List (List Char)} (ha : a.Heads ⟨before,w++rest,gs⟩ ⟨before',rest,gs'⟩) :
    (group a).Heads ⟨before,w++rest,gs⟩ ⟨before',rest,gs'++[w]⟩ := by
  rw [Heads] at ha ⊢
  rw [run,List.head?_map,ha]
  simp

end Pattern

end Regex
