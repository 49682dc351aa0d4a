import Mathlib.Data.List.Infix
import Mathlib.Data.List.Nodup

namespace Form

variable {α σ : Type}

/-- What stands before the first occurrence of a mark, and behind it. -/
theorem append_mark_inj {c : α} {x x' y y' : List α} (hx : c ∉ x) (hx' : c ∉ x')
    (h : x++c::y = x'++c::y') : x = x' ∧ y = y' := by
  rcases List.append_eq_append_iff.mp h with ⟨a,ha,hy⟩ | ⟨a,ha,hy⟩
  · cases a with
    | nil =>
      rw [List.append_nil] at ha
      exact ⟨ha.symm,(List.cons.inj hy).2⟩
    | cons d a =>
      obtain rfl : c = d := (List.cons.inj hy).1
      exact absurd (by rw [ha]; simp) hx'
  · cases a with
    | nil =>
      rw [List.append_nil] at ha
      exact ⟨ha,(List.cons.inj hy).2.symm⟩
    | cons d a =>
      obtain rfl : c = d := (List.cons.inj hy).1
      exact absurd (by rw [ha]; simp) hx

/-- A form is a list of stretches of text with a hole behind each, and a last stretch. Filled,
each hole is closed by a mark. -/
def fill (mark : α) (value : σ → List α) : List (List α × σ) → List α → List α
  | [],last => last
  | (text,hole)::ps,last => text++(value hole++mark::fill mark value ps last)

section fill

variable {mark : α} {value value' : σ → List α} {ps : List (List α × σ)} {last : List α}

theorem fill_append (last' : List α) :
    fill mark value ps (last++last') = fill mark value ps last++last' := by
  induction ps with
  | nil => rfl
  | cons p ps ih =>
    simp only [fill,ih,List.append_assoc,List.cons_append]

/-- What no part contains is not in the filled form. -/
theorem not_mem_fill {a : α} (hmark : a ≠ mark) (htexts : ∀ p ∈ ps,a ∉ p.1)
    (hvalues : ∀ p ∈ ps,a ∉ value p.2) (hlast : a ∉ last) : a ∉ fill mark value ps last := by
  induction ps with
  | nil => exact hlast
  | cons p ps ih =>
    have hrest := ih (fun q hq => htexts q (List.mem_cons_of_mem _ hq))
      (fun q hq => hvalues q (List.mem_cons_of_mem _ hq))
    simp only [fill,List.mem_append,List.mem_cons,not_or]
    exact ⟨htexts p List.mem_cons_self,hvalues p List.mem_cons_self,hmark,hrest⟩

/-- The values can be read off a form that is filled with values without the mark. -/
theorem fill_inj (hvalues : ∀ p ∈ ps,mark ∉ value p.2) (hvalues' : ∀ p ∈ ps,mark ∉ value' p.2)
    (h : fill mark value ps last = fill mark value' ps last) :
    ∀ p ∈ ps,value p.2 = value' p.2 := by
  induction ps with
  | nil => exact fun p hp => absurd hp List.not_mem_nil
  | cons p ps ih =>
    obtain ⟨hvalue,hrest⟩ := append_mark_inj (hvalues p List.mem_cons_self)
      (hvalues' p List.mem_cons_self) (List.append_cancel_left h)
    have hall := ih (fun q hq => hvalues q (List.mem_cons_of_mem _ hq))
      (fun q hq => hvalues' q (List.mem_cons_of_mem _ hq)) hrest
    intro q hq
    rcases List.mem_cons.mp hq with rfl | hq
    · exact hvalue
    · exact hall q hq

end fill

/-- Keys that mark the holes: each opens and closes with a sign that it has nowhere else. -/
structure Keys (opening closing : α) (key : σ → List α) : Prop where
  shape : ∀ hole,∃ body,key hole = opening::(body++[closing]) ∧ opening ∉ body ∧ closing ∉ body
  inj : Function.Injective key
  ne : opening ≠ closing

section keys

variable {opening closing mark : α} {key : σ → List α}

/-- What opens with a sign does not begin in a text without it. -/
theorem infix_of_free {a : α} {k x y : List α} (hx : a ∉ x) (h : a::k <:+: x++y) :
    a::k <:+: y := by
  induction x with
  | nil => exact h
  | cons b x ih =>
    rw [List.mem_cons,not_or] at hx
    rw [List.cons_append,List.infix_cons_iff] at h
    rcases h with h | h
    · exact absurd (List.cons_prefix_cons.mp h).1 hx.1
    · exact ih hx.2 h

/-- A key does not begin with another. -/
theorem Keys.not_prefix (hk : Keys opening closing key) {hole hole' : σ} (hne : hole ≠ hole')
    (rest : List α) : ¬ key hole <+: key hole'++rest := by
  intro hlead
  obtain ⟨body,hkey,-,hclosing⟩ := hk.shape hole
  obtain ⟨body',hkey',-,hclosing'⟩ := hk.shape hole'
  rw [hkey,hkey',List.cons_append,List.cons_prefix_cons] at hlead
  obtain ⟨x,hx⟩ := hlead.2
  simp only [List.append_assoc,List.singleton_append] at hx
  obtain ⟨rfl,-⟩ := append_mark_inj hclosing hclosing' hx
  exact hne (hk.inj (hkey.trans hkey'.symm))

/-- A key is nowhere in a form whose holes are marked with other keys. -/
theorem Keys.not_infix_fill (hk : Keys opening closing key) (hmark : opening ≠ mark)
    {hole : σ} {ps : List (List α × σ)} {last : List α} (htexts : ∀ p ∈ ps,opening ∉ p.1)
    (hlast : opening ∉ last) (hholes : ∀ p ∈ ps,hole ≠ p.2) :
    ¬ key hole <:+: fill mark key ps last := by
  obtain ⟨body,hkey,-,-⟩ := hk.shape hole
  induction ps with
  | nil =>
    intro h
    apply hlast
    apply h.subset
    rw [hkey]
    exact List.mem_cons_self
  | cons p ps ih =>
    obtain ⟨body',hkey',hopening',-⟩ := hk.shape p.2
    have hrest := ih (fun q hq => htexts q (List.mem_cons_of_mem _ hq))
      (fun q hq => hholes q (List.mem_cons_of_mem _ hq))
    have hnot := hk.not_prefix (hholes p List.mem_cons_self) (mark::fill mark key ps last)
    have hbody : opening ∉ body'++[closing,mark] := by
      simp only [List.mem_append,List.mem_cons,List.not_mem_nil,or_false,not_or]
      exact ⟨hopening',hk.ne,hmark⟩
    intro h
    rw [fill,hkey] at h
    have hafter := infix_of_free (htexts p List.mem_cons_self) h
    rw [hkey'] at hafter hnot
    rw [hkey] at hnot hrest
    rw [List.cons_append,List.infix_cons_iff] at hafter
    rcases hafter with hafter | hafter
    · exact hnot hafter
    · apply hrest
      apply infix_of_free hbody
      simpa using hafter

end keys

end Form
