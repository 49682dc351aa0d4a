import Mathlib.Data.List.Basic

/-- What the events of a record do to handles. -/
structure HandleLedger (ε η : Type) where
  acquires : ε → Option η
  uses : ε → List η
  releases : ε → Option η

namespace HandleLedger

variable {ε η : Type} (L : HandleLedger ε η)

/-- The handles that a record acquires, in order. -/
def acquired (events : List ε) : List η := events.filterMap L.acquires

/-- Every event of the record uses handles that are held when it comes, and none of them
releases one. -/
def OnHeld (held : List η) : List ε → Prop
  | [] => True
  | e::es => L.releases e = none ∧ L.uses e ⊆ held ∧ OnHeld (held++(L.acquires e).toList) es

variable {L}

theorem acquired_append (es es' : List ε) :
    L.acquired (es++es') = L.acquired es++L.acquired es' := List.filterMap_append

theorem acquired_cons (e : ε) (es : List ε) :
    L.acquired (e::es) = (L.acquires e).toList++L.acquired es := by
  rw [acquired,List.filterMap_cons]
  cases L.acquires e <;> rfl

theorem onHeld_append {held : List η} {es es' : List ε} : L.OnHeld held (es++es') ↔
    L.OnHeld held es ∧ L.OnHeld (held++L.acquired es) es' := by
  induction es generalizing held with
  | nil => simp [OnHeld,acquired]
  | cons e es ih =>
    rw [List.cons_append,OnHeld,OnHeld,ih,acquired_cons,List.append_assoc]
    constructor
    · intro hall
      obtain ⟨hr,hu,h,h'⟩ := hall
      exact ⟨⟨hr,hu,h⟩,h'⟩
    · intro hall
      obtain ⟨⟨hr,hu,h⟩,h'⟩ := hall
      exact ⟨hr,hu,h,h'⟩

end HandleLedger
