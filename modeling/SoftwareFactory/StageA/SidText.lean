import SoftwareFactory.Lib.Splice
import SoftwareFactory.StageA.Contracts
import Mathlib.Data.Bool.AllAny

namespace SoftwareFactory.StageA

def IsDigit (c : Char) : Prop := '0' ≤ c ∧ c ≤ '9'

/-- A number in a SID. -/
def DigitGroup (g : Str) : Prop := g ≠ [] ∧ ∀ c ∈ g,IsDigit c

/-- `S-1-` and numbers, a dash between each and the next. -/
def SidText (s : Str) : Prop := ∃ groups,s = "S-1-".toList++groups ∧
  Splice.Spliced DigitGroup ['-'] groups

/-- What may stand behind a digit. -/
def AfterDigit (s : Str) : Prop := (∀ c ∈ s,IsDigit c) ∨
  ∃ d groups,(∀ c ∈ d,IsDigit c) ∧ s = d++ '-'::groups ∧
    Splice.Spliced DigitGroup ['-'] groups

variable {c : Char} {s : Str}

theorem not_isDigit_dash : ¬ IsDigit '-' := by
  rw [IsDigit]
  decide

theorem spliced_head (h : Splice.Spliced DigitGroup ['-'] s) :
    ∃ c cs,s = c::cs ∧ IsDigit c ∧ AfterDigit cs := by
  cases h with
  | last hgroup =>
    obtain ⟨hne,hdigits⟩ := hgroup
    cases s with
    | nil => exact absurd rfl hne
    | cons c cs =>
      obtain ⟨hc,hcs⟩ := List.forall_mem_cons.mp hdigits
      exact ⟨c,cs,rfl,hc,.inl hcs⟩
  | @cons gap out hgroup hrest =>
    obtain ⟨hne,hdigits⟩ := hgroup
    cases gap with
    | nil => exact absurd rfl hne
    | cons c cs =>
      obtain ⟨hc,hcs⟩ := List.forall_mem_cons.mp hdigits
      exact ⟨c,cs++['-']++out,rfl,hc,.inr ⟨cs,out,hcs,by simp,hrest⟩⟩

theorem spliced_cons (hc : IsDigit c) :
    Splice.Spliced DigitGroup ['-'] (c::s) ↔ AfterDigit s := by
  constructor
  · intro h
    obtain ⟨d,cs,hcons,-,hafter⟩ := spliced_head h
    obtain ⟨-,rfl⟩ := List.cons.inj hcons
    exact hafter
  · intro h
    rcases h with h | ⟨d,groups,hd,rfl,hgroups⟩
    · exact .last ⟨List.cons_ne_nil _ _,List.forall_mem_cons.mpr ⟨hc,h⟩⟩
    · have hgroup : DigitGroup (c::d) := ⟨List.cons_ne_nil _ _,List.forall_mem_cons.mpr ⟨hc,hd⟩⟩
      have hall : Splice.Spliced DigitGroup ['-'] ((c::d)++['-']++groups) := .cons hgroup hgroups
      simpa using hall

theorem afterDigit_head (h : AfterDigit (c::s)) :
    (IsDigit c ∧ AfterDigit s) ∨ (c = '-' ∧ Splice.Spliced DigitGroup ['-'] s) := by
  rcases h with h | ⟨d,groups,hd,heq,hgroups⟩
  · obtain ⟨hc,hs⟩ := List.forall_mem_cons.mp h
    exact .inl ⟨hc,.inl hs⟩
  · cases d with
    | nil =>
      obtain ⟨rfl,rfl⟩ := List.cons.inj heq
      exact .inr ⟨rfl,hgroups⟩
    | cons x d =>
      obtain ⟨rfl,rfl⟩ := List.cons.inj heq
      obtain ⟨hc,hd⟩ := List.forall_mem_cons.mp hd
      exact .inl ⟨hc,.inr ⟨d,groups,hd,rfl,hgroups⟩⟩

theorem afterDigit_cons (hc : IsDigit c) : AfterDigit (c::s) ↔ AfterDigit s := by
  constructor
  · intro h
    rcases afterDigit_head h with h | ⟨rfl,-⟩
    · exact h.2
    · exact absurd hc not_isDigit_dash
  · intro h
    rcases h with h | ⟨d,groups,hd,rfl,hgroups⟩
    · exact .inl (List.forall_mem_cons.mpr ⟨hc,h⟩)
    · exact .inr ⟨c::d,groups,List.forall_mem_cons.mpr ⟨hc,hd⟩,rfl,hgroups⟩

theorem afterDigit_dash : AfterDigit ('-'::s) ↔ Splice.Spliced DigitGroup ['-'] s := by
  constructor
  · intro h
    rcases afterDigit_head h with h | h
    · exact absurd h.1 not_isDigit_dash
    · exact h.2
  · intro h
    exact .inr ⟨[],s,by simp,rfl,h⟩

/-- The loop of `sid` in its two states. -/
theorem sidGroups_iff (digit : Bool) : sidGroups digit s = true ↔
    if digit then AfterDigit s else Splice.Spliced DigitGroup ['-'] s := by
  induction s generalizing digit with
  | nil =>
    cases digit with
    | true => simp [sidGroups,AfterDigit]
    | false =>
      simp only [sidGroups,Bool.false_eq_true,if_false,false_iff]
      intro h
      obtain ⟨c,cs,hcons,-⟩ := spliced_head h
      cases hcons
  | cons c s ih =>
    rw [sidGroups]
    by_cases hdash : c = '-'
    · subst hdash
      cases digit with
      | true => simpa [afterDigit_dash] using ih false
      | false =>
        simp only [if_true,Bool.false_and,Bool.false_eq_true,if_false,false_iff]
        intro h
        obtain ⟨c,cs,hcons,hc,-⟩ := spliced_head h
        obtain ⟨rfl,-⟩ := List.cons.inj hcons
        exact not_isDigit_dash hc
    · rw [if_neg hdash]
      by_cases hc : IsDigit c
      · rw [if_pos (show '0' ≤ c ∧ c ≤ '9' from hc),ih true,if_pos rfl]
        rw [spliced_cons hc,afterDigit_cons hc,ite_self]
      · rw [if_neg (show ¬ ('0' ≤ c ∧ c ≤ '9') from hc)]
        simp only [Bool.false_eq_true,false_iff]
        cases digit with
        | true =>
          intro h
          rcases afterDigit_head h with h | h
          · exact hc h.1
          · exact hdash h.1
        | false =>
          intro h
          obtain ⟨x,cs,hcons,hx,-⟩ := spliced_head h
          obtain ⟨rfl,-⟩ := List.cons.inj hcons
          exact hc hx

theorem spliced_last (h : Splice.Spliced DigitGroup ['-'] s) :
    ∃ c,s.getLast? = some c ∧ IsDigit c := by
  induction h with
  | last hgroup =>
    obtain ⟨hne,hdigits⟩ := hgroup
    exact ⟨_,List.getLast?_eq_getLast_of_ne_nil hne,hdigits _ (List.getLast_mem hne)⟩
  | cons hgroup hrest ih =>
    obtain ⟨c,hlast,hc⟩ := ih
    refine ⟨c,?_,hc⟩
    rw [List.getLast?_append,hlast]
    rfl

theorem spliced_mem (h : Splice.Spliced DigitGroup ['-'] s) (hc : c ∈ s) :
    IsDigit c ∨ c = '-' := by
  induction h with
  | last hgroup => exact .inl (hgroup.2 c hc)
  | cons hgroup hrest ih =>
    simp only [List.mem_append,List.mem_singleton] at hc
    rcases hc with (hc | hc) | hc
    · exact .inl (hgroup.2 c hc)
    · exact .inr hc
    · exact ih hc

/-- The signs of a SID. -/
theorem SidText.mem (h : SidText s) (hc : c ∈ s) : IsDigit c ∨ c = '-' ∨ c = 'S' := by
  obtain ⟨groups,rfl,hgroups⟩ := h
  rcases List.mem_append.mp hc with hc | hc
  · have hall : ∀ c ∈ "S-1-".toList,('0' ≤ c ∧ c ≤ '9') ∨ c = '-' ∨ c = 'S' :=
      List.all_iff_forall_prop.mp (by decide)
    exact hall c hc
  · rcases spliced_mem hgroups hc with hc | hc
    · exact .inl hc
    · exact .inr (.inl hc)

/-- The check accepts exactly the SIDs. -/
theorem sid_iff : sid s = true ↔ SidText s := by
  have hfour : "S-1-".toList.length = 4 := by decide
  rw [sid]
  simp only [Bool.and_eq_true,decide_eq_true_eq,beq_iff_eq,bne_iff_ne]
  constructor
  · intro h
    obtain ⟨⟨⟨-,htake⟩,-⟩,hgroups⟩ := h
    refine ⟨s.drop 4,?_,by simpa using (sidGroups_iff false).mp hgroups⟩
    rw [← htake,List.take_append_drop]
  · intro h
    obtain ⟨groups,rfl,hgroups⟩ := h
    obtain ⟨c,cs,rfl,-⟩ := spliced_head hgroups
    obtain ⟨d,hlast,hd⟩ := spliced_last hgroups
    refine ⟨⟨⟨?_,List.take_left' hfour⟩,?_⟩,?_⟩
    · simp only [List.length_append,hfour,List.length_cons]
      omega
    · rw [List.getLast?_append,hlast]
      intro hdash
      obtain rfl : d = '-' := by simpa using hdash
      exact not_isDigit_dash hd
    · rw [List.drop_left' hfour]
      exact (sidGroups_iff false).mpr hgroups

end SoftwareFactory.StageA
