import Mathlib.Data.List.Infix

namespace Redaction

variable {α : Type}

/-- Stretches of a list, from a place up to another, for which a mark stands. -/
abbrev Stretches : Type := Nat → Nat → Prop

/-- A mark stands for the place. -/
def Under (marks : Stretches) (p : Nat) : Prop := ∃ k k',marks k k' ∧ k ≤ p ∧ p < k'

/-- Stretches of a list of `n` elements. None is empty, and no two meet. -/
structure Separate (n : Nat) (marks : Stretches) : Prop where
  proper : ∀ k k',marks k k' → k < k' ∧ k' ≤ n
  apart : ∀ i i' k k',marks i i' → marks k k' → i = k ∧ i' = k' ∨ i' ≤ k ∨ k' ≤ i

/-- A copy of `b` begins inside `a`; it may end behind it. -/
def BeginsIn (b a : List α) : Prop := ∃ x y,a = x++y ∧ y ≠ [] ∧ (y <+: b ∨ b <+: y)

section texts

variable (mark s : List α) (marks : Stretches)

/-- From place `k` on the list reads as `v` once a mark stands for each stretch. -/
inductive Reads : Nat → List α → Prop where
  | done {k : Nat} (h : s.length ≤ k) : Reads k []
  | kept {k : Nat} {a : α} {v : List α} (ha : s[k]? = some a) (hk : ¬Under marks k)
      (h : Reads (k+1) v) : Reads k (a::v)
  | marked {k k' : Nat} {v : List α} (hk : k < k') (hk' : k' ≤ s.length) (hm : marks k k')
      (h : Reads k' v) : Reads k (mark++v)

/-- What is read from place `k` on begins with a list. -/
inductive Spells : Nat → List α → Prop where
  | nil {k : Nat} : Spells k []
  | kept {k : Nat} {a : α} {w : List α} (ha : s[k]? = some a) (hk : ¬Under marks k)
      (h : Spells (k+1) w) : Spells k (a::w)
  | marked {k k' : Nat} {w : List α} (hm : marks k k') (h : Spells k' w) : Spells k (mark++w)
  | cut {k k' : Nat} {w : List α} (hm : marks k k') (hw : w <+: mark) : Spells k w

/-- A list that a mark has a part in: what stands in front of the mark begins it, or the end of
the mark does. -/
inductive Rebuilt (t : List α) : Prop where
  | before {i k' : Nat} {x y : List α} (ht : t = x++y) (hx : x <+: s.drop i)
      (hleft : ∀ p,i ≤ p → p < i+x.length → ¬Under marks p) (hm : marks (i+x.length) k')
      (hy : y ≠ []) (h : Spells mark s marks (i+x.length) y) : Rebuilt t
  | inside {k k' : Nat} {x y : List α} (ht : t = x++y) (hx : x ≠ []) (hend : x <:+ mark)
      (hm : marks k k') (h : Spells mark s marks k' y) : Rebuilt t

end texts

theorem cons_prefix_drop {a : α} {w s : List α} {k : Nat} :
    a::w <+: s.drop k ↔ s[k]? = some a ∧ w <+: s.drop (k+1) := by
  by_cases hk : k < s.length
  · rw [List.drop_eq_getElem_cons hk,List.cons_prefix_cons,List.getElem?_eq_getElem hk,
      Option.some_inj,eq_comm]
  · rw [List.drop_eq_nil_of_le (by omega),List.getElem?_eq_none (by omega)]
    simp

theorem Separate.unique {n : Nat} {marks : Stretches} (h : Separate n marks) {k k' k'' : Nat}
    (hm : marks k k') (hm' : marks k k'') : k' = k'' := by
  have hlt := (h.proper k k' hm).1
  have hlt' := (h.proper k k'' hm').1
  have hcase := h.apart k k' k k'' hm hm'
  omega

variable {mark s : List α} {marks : Stretches}

theorem Under.of {k k' : Nat} (hm : marks k k') {p : Nat} (hp : k ≤ p) (hlt : p < k') :
    Under marks p := ⟨k,k',hm,hp,hlt⟩

namespace Reads

theorem of_legible {k : Nat} {w v : List α} (hw : w <+: s.drop k)
    (hk : ∀ p,k ≤ p → p < k+w.length → ¬Under marks p) (h : Reads mark s marks (k+w.length) v) :
    Reads mark s marks k (w++v) := by
  induction w generalizing k with
  | nil => exact h
  | cons a w ih =>
    obtain ⟨ha,hw⟩ := cons_prefix_drop.mp hw
    rw [List.length_cons] at hk h
    have hrest : Reads mark s marks (k+1) (w++v) := by
      apply ih hw
      · intro p hp hlt
        exact hk p (by omega) (by omega)
      · rwa [show k+1+w.length = k+(w.length+1) by omega]
    exact .kept ha (hk k (by omega) (by omega)) hrest

/-- What no mark stands for reads as it stands. -/
theorem legible {k : Nat} {w v : List α} (h : Reads mark s marks k v)
    (hw : w <+: s.drop k) (hk : ∀ p,k ≤ p → p < k+w.length → ¬Under marks p) :
    ∃ v',v = w++v' ∧ Reads mark s marks (k+w.length) v' := by
  induction w generalizing k v with
  | nil => exact ⟨v,rfl,h⟩
  | cons a w ih =>
    obtain ⟨ha,hw⟩ := cons_prefix_drop.mp hw
    rw [List.length_cons] at hk ⊢
    cases h with
    | done hlen =>
      rw [List.getElem?_eq_none hlen] at ha
      cases ha
    | kept hb _ hrest =>
      obtain rfl := Option.some.inj (ha.symm.trans hb)
      obtain ⟨v',rfl,hv'⟩ := ih hrest hw fun p hp hlt => hk p (by omega) (by omega)
      refine ⟨v',rfl,?_⟩
      rwa [show k+(w.length+1) = k+1+w.length by omega]
    | marked hlt _ hm _ =>
      exact absurd (Under.of hm (Nat.le_refl k) hlt) (hk k (by omega) (by omega))

/-- What reads as a list that no mark begins in stands there, and no mark stands for any of it. -/
theorem front {k : Nat} {w v : List α} (hmark : ¬BeginsIn mark w)
    (h : Reads mark s marks k (w++v)) : w <+: s.drop k ∧
      (∀ p,k ≤ p → p < k+w.length → ¬Under marks p) ∧ Reads mark s marks (k+w.length) v := by
  induction w generalizing k with
  | nil => exact ⟨List.nil_prefix,fun p hp hlt => absurd hlt (by simpa using hp),h⟩
  | cons a w ih =>
    generalize hl : (a::w)++v = l at h
    cases h with
    | done hlen => cases hl
    | kept hb hk hrest =>
      obtain ⟨rfl,rfl⟩ := List.cons.inj hl
      have hmark' : ¬BeginsIn mark w := by
        intro hparts
        obtain ⟨x,y,hw,hy⟩ := hparts
        exact hmark ⟨a::x,y,by rw [hw]; rfl,hy⟩
      obtain ⟨hw,hlegible,hv⟩ := ih hmark' hrest
      rw [List.length_cons]
      refine ⟨cons_prefix_drop.mpr ⟨hb,hw⟩,?_,?_⟩
      · intro p hp hlt
        by_cases hpk : p = k
        · rwa [hpk]
        · exact hlegible p (by omega) (by omega)
      · rwa [show k+(w.length+1) = k+1+w.length by omega]
    | marked _ _ _ _ =>
      exfalso
      apply hmark
      refine ⟨[],a::w,rfl,List.cons_ne_nil _ _,?_⟩
      have hfront : a::w <+: (a::w)++v := List.prefix_append _ _
      rw [hl] at hfront
      exact List.prefix_or_prefix_of_prefix hfront (List.prefix_append _ _)

/-- What no mark stands for is read. -/
theorem read {k i : Nat} {t v : List α} (hne : t ≠ []) (hi : k ≤ i) (ht : t <+: s.drop i)
    (hlegible : ∀ p,i ≤ p → p < i+t.length → ¬Under marks p) (h : Reads mark s marks k v) :
    t <:+: v := by
  have hpos := List.length_pos_iff.mpr hne
  induction h with
  | done hlen =>
    have hshort := ht.length_le
    rw [List.length_drop] at hshort
    omega
  | @kept k c v hc hk hrest ih =>
    by_cases hik : k = i
    · subst hik
      obtain ⟨v',hv',-⟩ := (Reads.kept hc hk hrest).legible ht hlegible
      rw [hv']
      exact (List.prefix_append t v').isInfix
    · exact (ih (by omega)).trans (List.suffix_cons c v).isInfix
  | @marked k k' v hlt hlen hm hrest ih =>
    have hbehind : k' ≤ i := by
      by_contra hnot
      exact hlegible i (Nat.le_refl i) (by omega) (Under.of hm hi (by omega))
    exact (ih hbehind).trans (List.suffix_append mark v).isInfix

/-- Reading comes to every place that is no place inside a stretch. -/
theorem comes {k i : Nat} {v : List α} (hsep : Separate s.length marks)
    (h : Reads mark s marks k v) (hk : k ≤ i) (hi : ¬Under marks i ∨ ∃ i',marks i i') :
    ∃ a v',v = a++v' ∧ Reads mark s marks i v' := by
  induction h with
  | done hlen => exact ⟨[],[],rfl,.done (by omega)⟩
  | @kept k c v hc hkept hrest ih =>
    by_cases hki : k = i
    · subst hki
      exact ⟨[],c::v,rfl,.kept hc hkept hrest⟩
    · obtain ⟨a,v',rfl,hv'⟩ := ih (by omega)
      exact ⟨c::a,v',rfl,hv'⟩
  | @marked k k' v hlt hlen hm hrest ih =>
    by_cases hki : k = i
    · subst hki
      exact ⟨[],mark++v,rfl,.marked hlt hlen hm hrest⟩
    · have hbehind : k' ≤ i := by
        cases hi with
        | inl hfree =>
          by_contra hnot
          exact hfree (Under.of hm hk (by omega))
        | inr hbegins =>
          obtain ⟨i',hm'⟩ := hbegins
          have hlt' := (hsep.proper i i' hm').1
          have hcase := hsep.apart k k' i i' hm hm'
          omega
      obtain ⟨a,v',rfl,hv'⟩ := ih hbehind
      exact ⟨mark++a,v',by rw [List.append_assoc],hv'⟩

theorem spells {k : Nat} {w b : List α} (h : Reads mark s marks k (w++b)) :
    Spells mark s marks k w := by
  generalize hl : w++b = l at h
  induction h generalizing w with
  | done _ =>
    obtain ⟨rfl,-⟩ := List.append_eq_nil_iff.mp hl
    exact .nil
  | kept hc hk _ ih =>
    cases w with
    | nil => exact .nil
    | cons d w =>
      obtain ⟨rfl,hrest⟩ := List.cons.inj hl
      exact .kept hc hk (ih hrest)
  | marked _ _ hm _ ih =>
    rcases List.append_eq_append_iff.mp hl with ⟨y,hy,-⟩ | ⟨y,hy,hv⟩
    · exact .cut hm ⟨y,hy.symm⟩
    · rw [hy]
      exact .marked hm (ih hv.symm)

/-- What is read at a place stands there, or a mark has a part in it. -/
theorem begins {k : Nat} {t b : List α} (h : Reads mark s marks k (t++b)) :
    (t <+: s.drop k ∧ ∀ p,k ≤ p → p < k+t.length → ¬Under marks p) ∨
      ∃ x y k',t = x++y ∧ x <+: s.drop k ∧ (∀ p,k ≤ p → p < k+x.length → ¬Under marks p) ∧
        marks (k+x.length) k' ∧ y ≠ [] ∧ Spells mark s marks (k+x.length) y := by
  induction t generalizing k with
  | nil => exact .inl ⟨List.nil_prefix,fun p hp hlt => absurd hlt (by simpa using hp)⟩
  | cons a t ih =>
    have hspells := h.spells
    generalize hl : (a::t)++b = l at h
    cases h with
    | done _ => cases hl
    | kept hc hk hrest =>
      obtain ⟨rfl,rfl⟩ := List.cons.inj hl
      have hlegible {n : Nat} (hn : ∀ p,k+1 ≤ p → p < k+1+n → ¬Under marks p) :
          ∀ p,k ≤ p → p < k+(n+1) → ¬Under marks p := by
        intro p hp hlt
        by_cases hpk : p = k
        · rwa [hpk]
        · exact hn p (by omega) (by omega)
      cases ih hrest with
      | inl hstands => exact .inl ⟨cons_prefix_drop.mpr ⟨hc,hstands.1⟩,hlegible hstands.2⟩
      | inr hparts =>
        obtain ⟨x,y,k',rfl,hx,hleft,hm,hy,hy'⟩ := hparts
        have hplace : k+1+x.length = k+(a::x).length := by
          rw [List.length_cons]
          omega
        rw [hplace] at hm hy'
        exact .inr ⟨a::x,y,k',rfl,cons_prefix_drop.mpr ⟨hc,hx⟩,hlegible hleft,hm,hy,hy'⟩
    | @marked _ k' _ _ _ hm _ =>
      exact .inr ⟨[],a::t,k',rfl,List.nil_prefix,fun p hp hlt => absurd hlt (by simpa using hp),
        hm,List.cons_ne_nil _ _,hspells⟩

/-- What is read somewhere stands there, or a mark has a part in it. -/
theorem shown {k : Nat} {a t b : List α} (hforeign : ¬ t <:+: mark)
    (h : Reads mark s marks k (a++(t++b))) :
    (∃ i,t <+: s.drop i ∧ ∀ p,i ≤ p → p < i+t.length → ¬Under marks p) ∨
      Rebuilt mark s marks t := by
  have hne : t ≠ [] := fun hnil => hforeign (hnil ▸ List.nil_infix)
  generalize hl : a++(t++b) = l at h
  induction h generalizing a with
  | done _ => exact absurd (List.append_eq_nil_iff.mp (List.append_eq_nil_iff.mp hl).2).1 hne
  | @kept k c v hc hk hrest ih =>
    cases a with
    | nil =>
      have hreads : Reads mark s marks k (t++b) := by
        rw [List.nil_append] at hl
        rw [hl]
        exact .kept hc hk hrest
      cases hreads.begins with
      | inl hstands => exact .inl ⟨k,hstands⟩
      | inr hparts =>
        obtain ⟨x,y,k',ht,hx,hleft,hm,hy,hy'⟩ := hparts
        exact .inr (.before ht hx hleft hm hy hy')
    | cons d a => exact ih (List.cons.inj hl).2
  | @marked k k' v hlt hlen hm hrest ih =>
    rcases List.append_eq_append_iff.mp hl with ⟨y,hy,hv⟩ | ⟨y,hy,hv⟩
    · rcases List.append_eq_append_iff.mp hv with ⟨z,hz,hzv⟩ | ⟨z,hz,hzv⟩
      · -- the whole of it would be inside the mark
        exfalso
        apply hforeign
        rw [hy,hz]
        exact ⟨a,z,by rw [List.append_assoc]⟩
      · by_cases hnil : y = []
        · subst hnil
          exact ih (a := []) (by rw [List.nil_append,hz,hzv]; rfl)
        · have hspells : Spells mark s marks k' z := by
            rw [hzv] at hrest
            exact hrest.spells
          exact .inr (.inside hz hnil ⟨a,hy.symm⟩ hm hspells)
    · exact ih hv.symm

end Reads

/-- There is one reading. -/
theorem Spells.front {k : Nat} {w v : List α} (hsep : Separate s.length marks)
    (h : Spells mark s marks k w) (hv : Reads mark s marks k v) : w <+: v := by
  induction h generalizing v with
  | nil => exact List.nil_prefix
  | kept ha hk _ ih =>
    cases hv with
    | done hlen =>
      rw [List.getElem?_eq_none hlen] at ha
      cases ha
    | kept hb _ hrest =>
      obtain rfl := Option.some.inj (ha.symm.trans hb)
      exact List.cons_prefix_cons.mpr ⟨rfl,ih hrest⟩
    | marked hlt _ hm _ => exact absurd (Under.of hm (Nat.le_refl _) hlt) hk
  | marked hm _ ih =>
    obtain ⟨hlt,hlen⟩ := hsep.proper _ _ hm
    cases hv with
    | done hend => omega
    | kept _ hk _ => exact absurd (Under.of hm (Nat.le_refl _) hlt) hk
    | marked _ _ hm' hrest =>
      obtain rfl := hsep.unique hm hm'
      exact (List.prefix_append_right_inj mark).mpr (ih hrest)
  | cut hm hw =>
    obtain ⟨hlt,hlen⟩ := hsep.proper _ _ hm
    cases hv with
    | done hend => omega
    | kept _ hk _ => exact absurd (Under.of hm (Nat.le_refl _) hlt) hk
    | marked _ _ _ _ => exact hw.trans (List.prefix_append _ _)

theorem Rebuilt.shown {t v : List α} (hsep : Separate s.length marks)
    (h : Rebuilt mark s marks t) (hv : Reads mark s marks 0 v) : t <:+: v := by
  cases h with
  | @before i k' x y ht hx hleft hm hy hspells =>
    have hplace : ¬Under marks i ∨ ∃ i',marks i i' := by
      cases x with
      | nil => exact .inr ⟨k',hm⟩
      | cons c x =>
        refine .inl (hleft i (Nat.le_refl i) ?_)
        rw [List.length_cons]
        omega
    obtain ⟨a,v',rfl,hv'⟩ := hv.comes hsep (Nat.zero_le i) hplace
    obtain ⟨v'',rfl,hv''⟩ := hv'.legible hx hleft
    obtain ⟨z,rfl⟩ := hspells.front hsep hv''
    exact ⟨a,z,by rw [ht]; simp⟩
  | @inside k k' x y ht hx hend hm hspells =>
    obtain ⟨a,v',rfl,hv'⟩ := hv.comes hsep (Nat.zero_le k) (.inr ⟨k',hm⟩)
    have hlt := (hsep.proper _ _ hm).1
    cases hv' with
    | done hlen => exact absurd (hsep.proper _ _ hm).2 (by omega)
    | kept _ hk _ => exact absurd (Under.of hm (Nat.le_refl k) hlt) hk
    | marked _ _ hm' hrest =>
      obtain rfl := hsep.unique hm hm'
      obtain ⟨z,rfl⟩ := hspells.front hsep hrest
      obtain ⟨c,hc⟩ := hend
      exact ⟨a++c,z,by rw [ht,← hc]; simp⟩

end Redaction
