import SoftwareFactory.Lib.MarkedText
import SoftwareFactory.Lib.Splice
import Mathlib.Data.List.TakeWhile

namespace Redaction

variable {α : Type}

/-- `stands i e q` says that something stands from place `i` on, and that its part from `e` up to
`q` is to be taken out. From left to right, what begins before such a part ends does not count. -/
def Counts (stands : Nat → Nat → Nat → Prop) (i : Nat) : Prop :=
  (∃ e q,stands i e q) ∧ ∀ i' e' q',i' < i → Counts stands i' → stands i' e' q' → q' ≤ i
termination_by i

/-- The places that are taken out. -/
def Taken (stands : Nat → Nat → Nat → Prop) (p : Nat) : Prop :=
  ∃ i e q,Counts stands i ∧ stands i e q ∧ e ≤ p ∧ p < q

/-- What stands where in a list some places of which are gone. -/
abbrev Kind (α : Type) : Type := List α → (Nat → Prop) → Nat → Nat → Nat → Prop

/-- The marks after what counts has been taken out: those that stand for it, and those it does
not reach. -/
def Renewed (stands : Nat → Nat → Nat → Prop) (marks : Stretches) : Stretches := fun k k' =>
  (∃ i,Counts stands i ∧ stands i k k') ∨ marks k k' ∧ ∀ p,k ≤ p → p < k' → ¬Taken stands p

/-- The marks after one kind after the other has been taken out. -/
def Marked (s : List α) : List (Kind α) → Stretches → Stretches
  | [],marks => marks
  | kind::kinds,marks => Marked s kinds (Renewed (kind s (Under marks)) marks)

/-- A name and a part behind it, of at least so many elements of a class. -/
structure Form (α : Type) where
  name : List α → Prop
  part : α → Bool
  least : Nat

section forms

variable (mark s : List α) (gone : Nat → Prop)

/-- The part runs over an element of the class, and over what is gone if the mark that stands
there is of the class. -/
def Form.Runs (f : Form α) (p : Nat) : Prop :=
  ∃ a,s[p]? = some a ∧ (gone p ∧ mark.all f.part = true ∨ ¬gone p ∧ f.part a = true)

structure Form.Run (f : Form α) (k q : Nat) : Prop where
  le : k ≤ q
  goes : ∀ p,k ≤ p → p < q → f.Runs mark s gone p
  stops : ¬f.Runs mark s gone q

/-- A name no place of which is gone, and the whole run behind it. -/
structure Form.Stands (f : Form α) (i e q : Nat) : Prop where
  name : ∃ g,f.name g ∧ g <+: s.drop i ∧ e = i+g.length
  legible : ∀ p,i ≤ p → p < e → ¬gone p
  run : f.Run mark s gone e q
  enough : e+f.least ≤ q

/-- The list, no place of which is gone. -/
structure Literal (v : List α) (i e q : Nat) : Prop where
  here : v <+: s.drop i
  whole : e = i ∧ q = i+v.length
  legible : ∀ p,i ≤ p → p < q → ¬gone p

end forms

variable {mark s : List α} {gone : Nat → Prop} {marks : Stretches}

section run

variable {f : Form α} {k : Nat}

/-- The mark does not break a run half way. -/
structure Form.Whole (mark : List α) (f : Form α) : Prop where
  nonempty : mark ≠ []
  least : 1 ≤ f.least
  marks : mark.all f.part = true ∧ f.least = 1 ∨ mark.head?.any f.part = false

/-- Names end where the part begins. -/
def Form.Delimited (f : Form α) : Prop := ∀ g g' x x',f.name g → f.name g' →
  x.head?.any f.part = true → x'.head?.any f.part = true → g++x = g'++x' → g = g'

theorem Form.Run.unique {q q' : Nat} (h : f.Run mark s gone k q) (h' : f.Run mark s gone k q') :
    q = q' := by
  have hle := h.le
  have hle' := h'.le
  by_contra hne
  cases Nat.lt_or_gt_of_ne hne with
  | inl hlt => exact h.stops (h'.goes q hle hlt)
  | inr hgt => exact h'.stops (h.goes q' hle' hgt)

theorem Form.Run.nil (h : ¬f.Runs mark s gone k) : f.Run mark s gone k k :=
  ⟨Nat.le_refl k,fun p hp hlt => absurd hlt (by omega),h⟩

theorem Form.Run.cons {q : Nat} (hk : f.Runs mark s gone k) (h : f.Run mark s gone (k+1) q) :
    f.Run mark s gone k q := by
  have hle := h.le
  refine ⟨by omega,?_,h.stops⟩
  intro p hp hlt
  by_cases hpk : p = k
  · rwa [hpk]
  · exact h.goes p (by omega) hlt

/-- The run goes on over what is gone. -/
theorem Form.Run.over_gone {k' q : Nat} (hall : mark.all f.part = true) (hk : k ≤ k')
    (hk' : k' ≤ s.length) (hgone : ∀ p,k ≤ p → p < k' → gone p) (h : f.Run mark s gone k' q) :
    f.Run mark s gone k q := by
  have hle := h.le
  refine ⟨by omega,?_,h.stops⟩
  intro p hp hpq
  by_cases hpk : p < k'
  · have hsome : s[p]? = some s[p] := List.getElem?_eq_getElem (by omega)
    exact ⟨_,hsome,.inl ⟨hgone p hp hpk,hall⟩⟩
  · exact h.goes p (by omega) hpq

theorem Form.not_runs_kept {c : α} (hc : s[k]? = some c) (hk : ¬gone k)
    (hpart : f.part c = false) : ¬f.Runs mark s gone k := by
  intro hruns
  obtain ⟨a,ha,hcase⟩ := hruns
  obtain rfl := Option.some.inj (hc.symm.trans ha)
  cases hcase with
  | inl hgone => exact hk hgone.1
  | inr hkept => simp [hpart] at hkept

theorem Form.not_runs_gone (hmark : mark ≠ []) (hk : gone k)
    (hhead : mark.head?.any f.part = false) : ¬f.Runs mark s gone k := by
  intro hruns
  obtain ⟨a,-,hcase⟩ := hruns
  cases hcase with
  | inl hgone =>
    cases hm : mark with
    | nil => exact hmark hm
    | cons m ms =>
      rw [hm] at hgone hhead
      have hm' : f.part m = false := hhead
      simp [hm'] at hgone
  | inr hkept => exact hkept.1 hk

/-- A mark of the class lies in the run or behind it. -/
theorem front_of_all {p : α → Bool} {w v l : List α} (hall : mark.all p = true)
    (hv : v.head?.any p = false) (h : w++v = mark++l) : ∃ w',w = mark++w' ∧ w'++v = l := by
  rcases List.append_eq_append_iff.mp h with ⟨y,hy,hvl⟩ | ⟨y,hy,hvl⟩
  · cases y with
    | nil => exact ⟨[],by simpa using hy.symm,by simpa using hvl⟩
    | cons b y =>
      -- the run would end inside the mark
      have hb : p b = true := List.all_eq_true.mp hall b (by rw [hy]; simp)
      rw [hvl] at hv
      simp [hb] at hv
  · exact ⟨y,hy,hvl.symm⟩

theorem nil_of_head {p : α → Bool} {w v l : List α} (hw : ∀ a ∈ w,p a = true) (hmark : mark ≠ [])
    (hhead : mark.head?.any p = false) (h : w++v = mark++l) : w = [] := by
  cases w with
  | nil => rfl
  | cons d w =>
    cases mark with
    | nil => exact absurd rfl hmark
    | cons m ms =>
      obtain rfl := (List.cons.inj h).1
      have hd : p d = false := hhead
      rw [hw d List.mem_cons_self] at hd
      cases hd

/-- A run that is read, up to where it ends. -/
theorem Reads.run (hf : f.Whole mark) {w v : List α} (hw : ∀ a ∈ w,f.part a = true)
    (hv : v.head?.any f.part = false) (h : Reads mark s marks k (w++v)) :
    ∃ q,Reads mark s marks q v ∧ f.Run mark s (Under marks) k q ∧ (q = k ↔ w = []) ∧
      (mark.head?.any f.part = false → q = k+w.length) := by
  generalize hl : w++v = l at h
  induction h generalizing w with
  | @done k hlen =>
    obtain ⟨rfl,rfl⟩ := List.append_eq_nil_iff.mp hl
    refine ⟨k,.done hlen,.nil ?_,by simp,fun _ => rfl⟩
    intro hruns
    obtain ⟨a,ha,-⟩ := hruns
    rw [List.getElem?_eq_none hlen] at ha
    cases ha
  | @kept k c l hc hk hrest ih =>
    cases w with
    | nil =>
      rw [List.nil_append] at hl
      subst hl
      have hstops : ¬f.Runs mark s (Under marks) k := Form.not_runs_kept hc hk (by simpa using hv)
      exact ⟨k,.kept hc hk hrest,.nil hstops,by simp,fun _ => rfl⟩
    | cons d w =>
      obtain ⟨rfl,hrestl⟩ := List.cons.inj hl
      obtain ⟨q,hq,hrun,-,hlen⟩ := ih (fun a ha => hw a (List.mem_cons_of_mem _ ha)) hrestl
      have hle := hrun.le
      refine ⟨q,hq,hrun.cons ⟨d,hc,.inr ⟨hk,hw d List.mem_cons_self⟩⟩,?_,?_⟩
      · simp only [reduceCtorEq,iff_false]
        omega
      · intro hhead
        rw [hlen hhead,List.length_cons]
        omega
  | @marked k k' l hlt hlen' hm hrest ih =>
    by_cases hhead : mark.head?.any f.part = false
    · obtain rfl := nil_of_head hw hf.nonempty hhead hl
      have hv' : v = mark++l := hl
      have hstops : ¬f.Runs mark s (Under marks) k :=
        Form.not_runs_gone hf.nonempty (Under.of hm (Nat.le_refl k) hlt) hhead
      exact ⟨k,hv' ▸ .marked hlt hlen' hm hrest,.nil hstops,by simp,fun _ => rfl⟩
    · have hall := (hf.marks.resolve_right hhead).1
      obtain ⟨w',rfl,hw'⟩ := front_of_all hall hv hl
      obtain ⟨q,hq,hrun,-,-⟩ := ih (fun a ha => hw a (List.mem_append_right _ ha)) hw'
      have hle := hrun.le
      refine ⟨q,hq,hrun.over_gone hall (by omega) hlen' (fun _ => Under.of hm),?_,
        fun hno => absurd hno hhead⟩
      simp only [List.append_eq_nil_iff,hf.nonempty,false_and,iff_false]
      omega

/-- What stands there is read. -/
theorem Form.Stands.read (hf : f.Whole mark) {e q : Nat} {v : List α}
    (hs : f.Stands mark s (Under marks) k e q) (h : Reads mark s marks k v) :
    ∃ g w v',v = g++(w++v') ∧
      f.name g ∧ e = k+g.length ∧ (∀ a ∈ w,f.part a = true) ∧ f.least ≤ w.length ∧
      v'.head?.any f.part = false := by
  obtain ⟨g,hg,hhere,he⟩ := hs.name
  subst he
  obtain ⟨v₁,rfl,hrest⟩ := h.legible hhere hs.legible
  have hsplit := List.takeWhile_append_dropWhile (p := f.part) (l := v₁)
  have hw : ∀ a ∈ v₁.takeWhile f.part,f.part a = true := fun a ha => List.mem_takeWhile_imp ha
  have hv : (v₁.dropWhile f.part).head?.any f.part = false := by
    have hhead := List.head?_dropWhile_not f.part v₁
    cases hd : (v₁.dropWhile f.part).head? with
    | none => rfl
    | some a =>
      rw [hd] at hhead
      simpa using hhead
  refine ⟨g,v₁.takeWhile f.part,v₁.dropWhile f.part,by rw [hsplit],hg,rfl,hw,?_,hv⟩
  rw [← hsplit] at hrest
  obtain ⟨q',hq',hrun,hnil,hlen⟩ := hrest.run hf hw hv
  have hqq := hs.run.unique hrun
  have henough := hs.enough
  cases hf.marks with
  | inl hall =>
    rw [hall.2]
    have hpos := hf.least
    apply List.length_pos_iff.mpr
    intro heq
    have hk := hnil.mpr heq
    omega
  | inr hhead =>
    have hk := hlen hhead
    omega

theorem Form.Stands.unique (hf : f.Whole mark) (hd : f.Delimited) {e q e' q' : Nat} {v : List α}
    (h : Reads mark s marks k v) (hs : f.Stands mark s (Under marks) k e q)
    (hs' : f.Stands mark s (Under marks) k e' q') : e = e' ∧ q = q' := by
  have hfront {w v : List α} (hw : ∀ a ∈ w,f.part a = true) (hlen : f.least ≤ w.length) :
      (w++v).head?.any f.part = true := by
    cases w with
    | nil => exact absurd hf.least (by simpa using hlen)
    | cons a w => exact hw a List.mem_cons_self
  obtain ⟨g,w,v₁,hv,hg,rfl,hw,hlen,-⟩ := hs.read hf h
  obtain ⟨g',w',v₁',hv',hg',rfl,hw',hlen',-⟩ := hs'.read hf h
  have hgg : g = g' := hd g g' _ _ hg hg' (hfront hw hlen) (hfront hw' hlen') (hv.symm.trans hv')
  subst hgg
  exact ⟨rfl,hs.run.unique hs'.run⟩

end run

section scan

variable {β : Type}

/-- Cutting from left to right finds, in what a list reads as, what stands in the list; no mark
is touched. -/
structure Finds (mark s : List α) (marks : Stretches) (stands : Nat → Nat → Nat → Prop)
    (next : List α → List α → Option (Nat × β)) (repl : β → List α) : Prop where
  found : ∀ k v before n b,Reads mark s marks k v → next before v = some (n+1,b) →
    ∃ g w v' q,v = (g++w)++v' ∧ n+1 = (g++w).length ∧ repl b = g++mark ∧ g <+: s.drop k ∧
      stands k (k+g.length) q ∧ Reads mark s marks q v'
  missed : ∀ k v before,Reads mark s marks k v → (∀ n b,next before v ≠ some (n+1,b)) →
    ∀ e q,¬stands k e q
  unique : ∀ k v e q e' q',Reads mark s marks k v → stands k e q → stands k e' q' →
    e = e' ∧ q = q'
  bounds : ∀ i e q,stands i e q → i ≤ e ∧ e < q ∧ q ≤ s.length ∧ ¬Under marks i ∧
    ∀ p,i ≤ p → p < e → ¬Under marks p
  passes : ∀ k k' v,k < k' → marks k k' → Reads mark s marks k' v →
    ∀ x y before,mark = x++y → y ≠ [] → ∀ n b,next before (y++v) ≠ some (n+1,b)

theorem render_cut_passed {next : List α → List α → Option (Nat × β)} {repl : β → List α}
    {before v : List α} {a : α} (h : ∀ n b,next before (a::v) ≠ some (n+1,b)) :
    Splice.render repl (Splice.cut next 0 before (a::v)) =
      a::Splice.render repl (Splice.cut next 0 (a::before) v) := by
  rw [Splice.cut]
  split
  · next n b hnext => exact absurd hnext (h n b)
  · rfl

theorem render_cut_mark {next : List α → List α → Option (Nat × β)} (repl : β → List α)
    {mark v : List α} (before : List α)
    (h : ∀ x y before,mark = x++y → y ≠ [] → ∀ n b,next before (y++v) ≠ some (n+1,b)) :
    ∃ before',Splice.render repl (Splice.cut next 0 before (mark++v)) =
      mark++Splice.render repl (Splice.cut next 0 before' v) := by
  induction mark generalizing before with
  | nil => exact ⟨before,rfl⟩
  | cons m mark ih =>
    have hrest (x y before : List α) (hxy : mark = x++y) (hy : y ≠ []) :
        ∀ n b,next before (y++v) ≠ some (n+1,b) := h (m::x) y before (by rw [hxy]; rfl) hy
    obtain ⟨before',hcut⟩ := ih (m::before) hrest
    refine ⟨before',?_⟩
    have hm := h [] (m::mark) before rfl (List.cons_ne_nil _ _)
    rw [List.cons_append] at hm ⊢
    rw [render_cut_passed hm,hcut,List.cons_append]

variable {stands : Nat → Nat → Nat → Prop} {next : List α → List α → Option (Nat × β)}
  {repl : β → List α}

theorem Counts.iff {i : Nat} : Counts stands i ↔ (∃ e q,stands i e q) ∧
    ∀ i' e' q',i' < i → Counts stands i' → stands i' e' q' → q' ≤ i := by
  rw [Counts]

/-- Nothing that counts before place `k` reaches beyond it. -/
def Clear (stands : Nat → Nat → Nat → Prop) (k : Nat) : Prop :=
  ∀ i e q,i < k → Counts stands i → stands i e q → q ≤ k

/-- Where nothing stands, nothing is taken. -/
theorem Clear.missed {k : Nat} (hf : Finds mark s marks stands next repl) (hclear : Clear stands k)
    (hnone : ∀ e q,¬stands k e q) : ¬Taken stands k ∧ Clear stands (k+1) := by
  have hbefore (i e q : Nat) (hi : i < k+1) (hcounts : Counts stands i) (hs : stands i e q) :
      q ≤ k := by
    by_cases hik : i < k
    · exact hclear i e q hik hcounts hs
    · obtain rfl : i = k := by omega
      exact absurd hs (hnone e q)
  constructor
  · intro htaken
    obtain ⟨i,e,q,hcounts,hs,he,hq⟩ := htaken
    have hbound := hf.bounds i e q hs
    have hle := hbefore i e q (by omega) hcounts hs
    omega
  · intro i e q hi hcounts hs
    have hle := hbefore i e q hi hcounts hs
    omega

/-- Where something stands, its part is taken and nothing before that. -/
theorem Clear.found {k e q : Nat} {v : List α} (hf : Finds mark s marks stands next repl)
    (hclear : Clear stands k) (h : Reads mark s marks k v) (hs : stands k e q) :
    (∀ p,k ≤ p → p < e → ¬Taken stands p) ∧ (∀ p,e ≤ p → p < q → Taken stands p) ∧
      Clear stands q := by
  have hcounts : Counts stands k := Counts.iff.mpr ⟨⟨e,q,hs⟩,hclear⟩
  have hbound := hf.bounds k e q hs
  have hplace (i e' q' : Nat) (hi : i < q) (hc : Counts stands i) (hs' : stands i e' q') :
      q' ≤ k ∨ e' = e ∧ q' = q := by
    by_cases hik : i < k
    · exact .inl (hclear i e' q' hik hc hs')
    · by_cases heq : i = k
      · subst heq
        exact .inr (hf.unique i v e' q' e q h hs' hs)
      · -- it would begin inside what stands at `k`
        have hle := (Counts.iff.mp hc).2 k e q (by omega) hcounts hs
        omega
  refine ⟨?_,fun p he hq => ⟨k,e,q,hcounts,hs,he,hq⟩,?_⟩
  · intro p hp hpe htaken
    obtain ⟨i,e',q',hc,hs',he',hq'⟩ := htaken
    have hbound' := hf.bounds i e' q' hs'
    have hcase := hplace i e' q' (by omega) hc hs'
    omega
  · intro i e' q' hi hc hs'
    have hcase := hplace i e' q' hi hc hs'
    omega

/-- Nothing begins under a mark, so that what counts does not reach it. -/
theorem Clear.past {k k' : Nat} (hf : Finds mark s marks stands next repl)
    (hclear : Clear stands k) (hk : k < k') (hm : marks k k') :
    (∀ p,k ≤ p → p < k' → ¬Taken stands p) ∧ Clear stands k' := by
  have hplace (i e q : Nat) (hi : i < k') (hcounts : Counts stands i) (hs : stands i e q) :
      q ≤ k := by
    by_cases hik : i < k
    · exact hclear i e q hik hcounts hs
    · exact absurd (Under.of hm (by omega) hi) (hf.bounds i e q hs).2.2.2.1
  constructor
  · intro p hp hlt htaken
    obtain ⟨i,e,q,hcounts,hs,he,hq⟩ := htaken
    have hbound := hf.bounds i e q hs
    have hle := hplace i e q (by omega) hcounts hs
    omega
  · intro i e q hi hcounts hs
    have hle := hplace i e q hi hcounts hs
    omega

theorem Under.renewed {p : Nat} (h : Under (Renewed stands marks) p) :
    Under marks p ∨ Taken stands p := by
  obtain ⟨k,k',hm,hk,hk'⟩ := h
  cases hm with
  | inl hcounts =>
    obtain ⟨i,hi,hs⟩ := hcounts
    exact .inr ⟨i,k,k',hi,hs,hk,hk'⟩
  | inr hold => exact .inl (Under.of hold.1 hk hk')

/-- Cutting takes out what counts, from left to right, and nothing else. -/
theorem Finds.reads (hf : Finds mark s marks stands next repl) (hmark : mark ≠ []) {k : Nat}
    {v before : List α} (hclear : Clear stands k) (h : Reads mark s marks k v) :
    Reads mark s (Renewed stands marks) k (Splice.render repl (Splice.cut next 0 before v)) := by
  induction hn : v.length using Nat.strong_induction_on generalizing k v before with
  | h n ih =>
    subst hn
    cases h with
    | done hlen => exact .done hlen
    | @kept _ a v ha hk hrest =>
      by_cases hnext : ∃ n b,next before (a::v) = some (n+1,b)
      · obtain ⟨n,b,hnext⟩ := hnext
        have hreads : Reads mark s marks k (a::v) := .kept ha hk hrest
        obtain ⟨g,w,v',q,hv,hn,hrepl,hg,hs,hq⟩ := hf.found k _ before n b hreads hnext
        obtain ⟨hname,hpart,hclear'⟩ := hclear.found hf hreads hs
        have hbound := hf.bounds k _ q hs
        have hne : g++w ≠ [] := by
          apply List.ne_nil_of_length_pos
          omega
        rw [hv,hn] at hnext
        rw [hv,Splice.cut_taken hne hnext,Splice.render_inr,hrepl,List.append_assoc]
        apply Reads.of_legible hg
        · intro p hp hlt hp'
          cases hp'.renewed with
          | inl hunder => exact hbound.2.2.2.2 p hp hlt hunder
          | inr htaken => exact hname p hp hlt htaken
        · have hcounts : Counts stands k := Counts.iff.mpr ⟨⟨_,q,hs⟩,hclear⟩
          refine .marked hbound.2.1 hbound.2.2.1 (.inl ⟨k,hcounts,hs⟩) ?_
          refine ih v'.length ?_ hclear' hq rfl
          have hlen := congrArg List.length hv
          rw [List.length_append] at hlen
          omega
      · have hnone : ∀ n b,next before (a::v) ≠ some (n+1,b) :=
          fun n b hsome => hnext ⟨n,b,hsome⟩
        obtain ⟨hkept,hclear'⟩ := hclear.missed hf (hf.missed k _ before (.kept ha hk hrest) hnone)
        rw [render_cut_passed hnone]
        refine .kept ha ?_ (ih v.length ?_ hclear' hrest rfl)
        · exact fun hp => hp.renewed.elim hk hkept
        · simp
    | @marked _ k' v hlt hlen hm hrest =>
      obtain ⟨before',hcut⟩ := render_cut_mark repl before (hf.passes k k' v hlt hm hrest)
      obtain ⟨hnot,hclear'⟩ := hclear.past hf hlt hm
      rw [hcut]
      refine .marked hlt hlen (.inr ⟨hm,hnot⟩) ?_
      refine ih v.length ?_ hclear' hrest rfl
      have hpos := List.length_pos_iff.mpr hmark
      rw [List.length_append]
      omega

/-- A part that is taken out and a stretch no place of which is taken out do not meet. -/
theorem Counts.apart {i k k' l l' : Nat} (hi : Counts stands i) (hs : stands i k k')
    (hk : k < k') (hl : l < l') (hnot : ∀ p,l ≤ p → p < l' → ¬Taken stands p) :
    k' ≤ l ∨ l' ≤ k := by
  by_contra hmeet
  have htaken : Taken stands (max k l) := ⟨i,k,k',hi,hs,by omega,by omega⟩
  exact hnot (max k l) (by omega) (by omega) htaken

end scan

end Redaction
