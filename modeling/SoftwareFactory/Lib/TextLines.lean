import SoftwareFactory.Lib.Text

namespace PyText

variable {p : Char → Bool}

theorem stripBy_isPrefix (s : List Char) : stripBy p s <+: s.dropWhile p := by
  have h : (s.dropWhile p).reverse.dropWhile p <:+ (s.dropWhile p).reverse :=
    List.dropWhile_suffix p
  rw [stripBy,← List.reverse_reverse (s.dropWhile p)]
  exact List.reverse_prefix.mpr (by simpa using h)

theorem stripBy_isInfix (s : List Char) : stripBy p s <:+: s := by
  have hfront : s.dropWhile p <:+ s := List.dropWhile_suffix p
  exact (stripBy_isPrefix s).isInfix.trans hfront.isInfix

theorem stripBy_of_free {s : List Char} (h : ∀ c ∈ s,p c = false) : stripBy p s = s := by
  have hfree (t : List Char) (ht : ∀ c ∈ t,p c = false) : t.dropWhile p = t := by
    cases t with
    | nil => rfl
    | cons c t => rw [List.dropWhile_cons,if_neg (by simp [ht c List.mem_cons_self])]
  rw [stripBy,hfree s h,hfree s.reverse (by simpa using h),List.reverse_reverse]

theorem dropWhile_head {x : List Char} {c : Char} (hhead : x.head? = some c) (hc : p c = false) :
    x.dropWhile p = x := by
  cases x with
  | nil => simp at hhead
  | cons y ys =>
    have hy : y = c := by simpa using hhead
    rw [List.dropWhile_cons,if_neg (by simp [hy,hc])]

/-- What is stripped is what stands around a text whose ends stay. -/
theorem stripBy_padded {x front back : List Char} {c d : Char} (hfront : ∀ e ∈ front,p e = true)
    (hback : ∀ e ∈ back,p e = true) (hhead : x.head? = some c) (hc : p c = false)
    (hlast : x.getLast? = some d) (hd : p d = false) : stripBy p (front++x++back) = x := by
  have hskip : (front++x++back).dropWhile p = x++back := by
    rw [List.append_assoc,List.dropWhile_append_of_pos hfront]
    apply dropWhile_head _ hc
    simp [hhead]
  have hcut : (x++back).reverse.dropWhile p = x.reverse := by
    rw [List.reverse_append,List.dropWhile_append_of_pos (by simpa using hback)]
    apply dropWhile_head _ hd
    simp [hlast]
  rw [stripBy,hskip,hcut,List.reverse_reverse]

/-- The ends of a stripped text are not stripped. -/
theorem stripBy_last {s : List Char} {c : Char} (h : (stripBy p s).getLast? = some c) :
    p c = false := by
  rw [stripBy,List.getLast?_reverse] at h
  have hhead := List.head?_dropWhile_not p (s.dropWhile p).reverse
  rw [h] at hhead
  simpa using hhead

theorem stripBy_head {s : List Char} {c : Char} (h : (stripBy p s).head? = some c) :
    p c = false := by
  have hhead := List.head?_dropWhile_not p s
  obtain ⟨t,ht⟩ := stripBy_isPrefix (p := p) s
  cases hs : stripBy p s with
  | nil => simp [hs] at h
  | cons d ds =>
    rw [hs] at h ht
    obtain rfl := Option.some.inj h
    rw [← ht] at hhead
    simpa using hhead

theorem stripBy_idem (s : List Char) : stripBy p (stripBy p s) = stripBy p s := by
  cases hs : stripBy p s with
  | nil => rfl
  | cons c cs =>
    have hhead : p c = false := stripBy_head (s := s) (by rw [hs]; rfl)
    obtain ⟨d,hd⟩ : ∃ d,(c::cs).getLast? = some d := by
      rw [← Option.isSome_iff_exists]
      simp
    have hlast : p d = false := stripBy_last (s := s) (by rw [hs]; exact hd)
    obtain ⟨r,hr⟩ := stripBy_append (r := []) (rfl : (c::cs).head? = some c) hhead hd hlast
    have hlen := (stripBy_isInfix (p := p) (c::cs)).length_le
    rw [List.append_nil] at hr
    rw [hr] at hlen ⊢
    have hnil : r = [] := by
      rw [List.length_append] at hlen
      exact List.length_eq_zero_iff.mp (by omega)
    rw [hnil,List.append_nil]

end PyText
