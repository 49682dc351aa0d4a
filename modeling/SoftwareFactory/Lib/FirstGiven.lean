import Mathlib.Data.List.Basic
import Mathlib.Logic.Function.Basic

namespace FirstGiven

variable {κ β : Type} [DecidableEq κ] (given : β → Bool)

/-- Assignments to the keys that have no given value yet, up to the first refused one. -/
def assignAll (refused : κ × β → Bool) (store : κ → Option β) : List (κ × β) → κ → Option β
  | [] => store
  | w::ws =>
    if (store w.1).any given then assignAll refused store ws
    else if refused w then store
    else assignAll refused (Function.update store w.1 (some w.2)) ws

/-- The value of a key with value `old` to which `vs` are assigned: the first given one,
or the last of them. -/
def settled (old : Option β) (vs : List β) : Option β :=
  ((old.toList++vs).find? given).or (old.toList++vs).getLast?

/-- What is assigned to a key, in order. -/
def valuesOf (k : κ) (ws : List (κ × β)) : List β := (ws.filter fun w => w.1 = k).map Prod.snd

/-- `done` are the assignments of `ws` that are come to: all of them, or those before a
refused one whose key still has no given value. -/
def Heard (refused : κ × β → Bool) (store : κ → Option β) (ws done : List (κ × β)) : Prop :=
  ∃ rest,ws = done++rest ∧ ∀ w ∈ rest.head?,refused w = true ∧
    (settled given (store w.1) (valuesOf w.1 done)).any given = false

variable {given} {refused : κ × β → Bool} {store : κ → Option β}

@[simp] theorem valuesOf_nil (k : κ) : valuesOf k ([] : List (κ × β)) = [] := rfl

theorem valuesOf_cons (k : κ) (w : κ × β) (ws : List (κ × β)) :
    valuesOf k (w::ws) = if w.1 = k then w.2::valuesOf k ws else valuesOf k ws := by
  unfold valuesOf
  split_ifs with h <;> simp [h]

@[simp] theorem valuesOf_append (k : κ) (a b : List (κ × β)) :
    valuesOf k (a++b) = valuesOf k a++valuesOf k b := by
  simp [valuesOf]

@[simp] theorem settled_nil (old : Option β) : settled given old [] = old := by
  cases old with
  | none => simp [settled]
  | some v => cases h : given v <;> simp [settled,h]

theorem settled_kept {v : β} (hv : given v = true) (vs : List β) :
    settled given (some v) vs = some v := by
  simp [settled,hv]

theorem settled_open {old : Option β} (hold : old.any given = false) (v : β) (vs : List β) :
    settled given old (v::vs) = settled given (some v) vs := by
  cases old with
  | none => simp [settled]
  | some u =>
    have hu : given u = false := by simpa using hold
    simp [settled,List.find?_cons,hu]

theorem settled_any {old : Option β} (hold : old.any given = true) (vs : List β) :
    settled given old vs = old := by
  cases old with
  | none => simp at hold
  | some u => exact settled_kept (by simpa using hold) vs

theorem settled_append (old : Option β) (a b : List β) :
    settled given (settled given old a) b = settled given old (a++b) := by
  induction a generalizing old with
  | nil => simp
  | cons v vs ih =>
    cases hold : old.any given with
    | true => rw [settled_any hold,settled_any hold,settled_any hold]
    | false =>
      have hrest := ih (some v)
      rw [settled_open hold,hrest,List.cons_append,settled_open hold]

theorem settled_any_iff (old : Option β) (vs : List β) :
    (settled given old vs).any given = true ↔ old.any given = true ∨ ∃ v ∈ vs,given v = true := by
  induction vs generalizing old with
  | nil => simp
  | cons v vs ih =>
    cases hold : old.any given with
    | true => simp [settled_any hold,hold]
    | false =>
      rw [settled_open hold,ih]
      simp

theorem settled_last {old : Option β} {vs : List β} (hold : old.any given = false)
    (hvs : ∀ v ∈ vs,given v = false) : settled given old vs = vs.getLast?.or old := by
  have hfind : (old.toList++vs).find? given = none := by
    rw [List.find?_eq_none]
    intro v hv
    cases List.mem_append.mp hv with
    | inl hv =>
      have hv : old = some v := by simpa using hv
      simpa [hv] using hold
    | inr hv => simp [hvs v hv]
  rw [settled,hfind,Option.none_or,List.getLast?_append]
  cases old <;> simp

/-- Assigning the same values once more changes nothing. -/
theorem settled_again (old : Option β) (vs : List β) :
    settled given (settled given old vs) vs = settled given old vs := by
  cases hany : (settled given old vs).any given with
  | true => exact settled_any hany vs
  | false =>
    have hopen : ¬ (old.any given = true ∨ ∃ v ∈ vs,given v = true) := by
      rw [← settled_any_iff]
      simp [hany]
    have hold : old.any given = false := by simpa using fun hg => hopen (.inl hg)
    have hvs : ∀ v ∈ vs,given v = false := by
      intro v hv
      simpa using fun hg => hopen (.inr ⟨v,hv,hg⟩)
    rw [settled_last hany hvs,settled_last hold hvs]
    cases vs.getLast? <;> simp

/-- What a loop of assignments leaves. -/
theorem assignAll_values (given : β → Bool) (refused : κ × β → Bool) (store : κ → Option β)
    (ws : List (κ × β)) : ∃ done,Heard given refused store ws done ∧
      ∀ k,assignAll given refused store ws k = settled given (store k) (valuesOf k done) := by
  induction ws generalizing store with
  | nil => exact ⟨[],⟨[],by simp,by simp⟩,by simp [assignAll]⟩
  | cons w ws ih =>
    rw [assignAll]
    split_ifs with hgiven hrefused
    · obtain ⟨done,hheard,hval⟩ := ih store
      obtain ⟨rest,hws,hrest⟩ := hheard
      have hcons : ∀ k,settled given (store k) (valuesOf k (w::done)) =
          settled given (store k) (valuesOf k done) := by
        intro k
        rw [valuesOf_cons]
        split_ifs with hk
        · subst hk
          rw [settled_any hgiven,settled_any hgiven]
        · rfl
      refine ⟨w::done,⟨rest,by simp [hws],?_⟩,?_⟩
      · simpa only [hcons] using hrest
      · simpa only [hcons] using hval
    · have hopen : (store w.1).any given = false := by simpa using hgiven
      refine ⟨[],⟨w::ws,by simp,?_⟩,by simp⟩
      simpa using ⟨hrefused,hopen⟩
    · have hopen : (store w.1).any given = false := by simpa using hgiven
      obtain ⟨done,hheard,hval⟩ := ih (Function.update store w.1 (some w.2))
      obtain ⟨rest,hws,hrest⟩ := hheard
      have hcons : ∀ k,settled given (store k) (valuesOf k (w::done)) =
          settled given (Function.update store w.1 (some w.2) k) (valuesOf k done) := by
        intro k
        rw [valuesOf_cons]
        split_ifs with hk
        · subst hk
          rw [Function.update_self,settled_open hopen]
        · rw [Function.update_of_ne (Ne.symm hk)]
      refine ⟨w::done,⟨rest,by simp [hws],?_⟩,?_⟩
      · simpa only [hcons] using hrest
      · simpa only [hcons] using hval

/-- Where nothing is refused, all assignments are heard. -/
theorem Heard.all {ws done : List (κ × β)} (h : Heard given refused store ws done)
    (hfree : ∀ w ∈ ws,refused w = false) : done = ws := by
  obtain ⟨rest,hws,hrest⟩ := h
  cases rest with
  | nil => simpa using hws.symm
  | cons w rest =>
    have hw := (hrest w rfl).1
    rw [hfree w (by simp [hws])] at hw
    exact absurd hw (by decide)

end FirstGiven
