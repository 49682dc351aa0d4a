import SoftwareFactory.Lib.TextLines

namespace PyText

section Strip

variable {p : Char → Bool} {front core back : List Char}

/-- A text that `str.strip` leaves alone and that is not empty. -/
def Trimmed (p : Char → Bool) (s : List Char) : Prop :=
  s ≠ [] ∧ s.head?.all (fun c => !p c) = true ∧ s.getLast?.all (fun c => !p c) = true

theorem Trimmed.dropWhile (h : Trimmed p core) (back : List Char) :
    (core++back).dropWhile p = core++back := by
  obtain ⟨hne,hhead,-⟩ := h
  cases core with
  | nil => exact absurd rfl hne
  | cons c cs => rw [List.cons_append,List.dropWhile_cons,if_neg (by simpa using hhead)]

theorem Trimmed.reverse (h : Trimmed p core) : Trimmed p core.reverse := by
  obtain ⟨hne,hhead,hlast⟩ := h
  exact ⟨by simpa using hne,by simpa using hlast,by simpa using hhead⟩

theorem stripBy_between (hcore : Trimmed p core) (hfront : ∀ c ∈ front,p c = true)
    (hback : ∀ c ∈ back,p c = true) : stripBy p (front++(core++back)) = core := by
  rw [stripBy,List.dropWhile_append_of_pos hfront,hcore.dropWhile,List.reverse_append,
    List.dropWhile_append_of_pos (by simpa using hback)]
  have h := hcore.reverse.dropWhile []
  rw [List.append_nil] at h
  rw [h,List.reverse_reverse]

/-- What is stripped stands before and after what stays. -/
theorem stripBy_parts (p : Char → Bool) (s : List Char) : ∃ front back,
    s = front++(stripBy p s++back) ∧ (∀ c ∈ front,p c = true) ∧ ∀ c ∈ back,p c = true := by
  refine ⟨s.takeWhile p,((s.dropWhile p).reverse.takeWhile p).reverse,?_,?_,?_⟩
  · rw [stripBy,← List.reverse_append,List.takeWhile_append_dropWhile,List.reverse_reverse,
      List.takeWhile_append_dropWhile]
  · intro c hc
    exact List.all_eq_true.mp List.all_takeWhile c hc
  · intro c hc
    exact List.all_eq_true.mp List.all_takeWhile c (List.mem_reverse.mp hc)

theorem stripBy_ne_nil {s : List Char} (h : ∃ c ∈ s,p c = false) : stripBy p s ≠ [] := by
  intro hnil
  obtain ⟨front,back,hs,hfront,hback⟩ := stripBy_parts p s
  obtain ⟨c,hc,hp⟩ := h
  rw [hnil,List.nil_append] at hs
  rw [hs] at hc
  rcases List.mem_append.mp hc with hc | hc
  · simp [hfront c hc] at hp
  · simp [hback c hc] at hp

theorem stripBy_trimmed {s : List Char} (h : ∃ c ∈ s,p c = false) : Trimmed p (stripBy p s) := by
  refine ⟨stripBy_ne_nil h,?_,?_⟩
  · cases hc : (stripBy p s).head? with
    | none => rfl
    | some c => simp [stripBy_head hc]
  · cases hc : (stripBy p s).getLast? with
    | none => rfl
    | some c => simp [stripBy_last hc]

theorem stripBy_map {f : Char → Char} (hf : ∀ c,p (f c) = p c) (s : List Char) :
    stripBy p (s.map f) = (stripBy p s).map f := by
  have hcomp : p ∘ f = p := funext hf
  simp only [stripBy,List.dropWhile_map,hcomp,← List.map_reverse]

end Strip

/-- Two fields with blanks around them. -/
theorem splitOnce_fields {lead word gap rest : List Char} (hlead : ∀ c ∈ lead,isSpace c = true)
    (hword : word ≠ []) (hfree : ∀ c ∈ word,isSpace c = false) (hgap : gap ≠ [])
    (hblank : ∀ c ∈ gap,isSpace c = true) (hrest : Trimmed isSpace rest) :
    splitOnce (lead++(word++(gap++rest))) = [word,rest] := by
  obtain ⟨w,ws,rfl⟩ := List.exists_cons_of_ne_nil hword
  obtain ⟨g,gs,rfl⟩ := List.exists_cons_of_ne_nil hgap
  have hfree' : ∀ c ∈ w::ws,(!isSpace c) = true := by simpa using hfree
  have hg : isSpace g = true := hblank g List.mem_cons_self
  have hw : isSpace w = false := hfree w List.mem_cons_self
  have hfront : (lead++(w::ws++(g::gs++rest))).dropWhile isSpace = w::ws++(g::gs++rest) := by
    rw [List.dropWhile_append_of_pos hlead,List.cons_append,List.dropWhile_cons,
      if_neg (by simp [hw])]
  have hstop : (g::gs++rest).dropWhile (fun c => !isSpace c) = g::gs++rest := by
    rw [List.cons_append,List.dropWhile_cons,if_neg (by simp [hg])]
  have htake : (g::gs++rest).takeWhile (fun c => !isSpace c) = [] := by
    rw [List.cons_append,List.takeWhile_cons,if_neg (by simp [hg])]
  have hback : (g::gs++rest).dropWhile isSpace = rest := by
    have h := hrest.dropWhile []
    rw [List.append_nil] at h
    rw [List.dropWhile_append_of_pos hblank,h]
  rw [splitOnce]
  simp only [hfront,List.dropWhile_append_of_pos hfree',List.takeWhile_append_of_pos hfree',
    hstop,htake,hback,List.append_nil]
  rw [if_neg (by simp),if_neg hrest.1]

/-- The same, read from a line of which the ends are stripped first. -/
theorem splitOnce_line {lead word gap core back : List Char}
    (hlead : ∀ c ∈ lead,isSpace c = true) (hword : word ≠ [])
    (hfree : ∀ c ∈ word,isSpace c = false) (hgap : gap ≠ [])
    (hblank : ∀ c ∈ gap,isSpace c = true) (hcore : Trimmed isSpace core)
    (hback : ∀ c ∈ back,isSpace c = true) :
    splitOnce (stripBy isSpace (lead++(word++(gap++(core++back))))) = [word,core] := by
  have htrim : Trimmed isSpace (word++(gap++core)) := by
    obtain ⟨w,ws,rfl⟩ := List.exists_cons_of_ne_nil hword
    refine ⟨by simp,by simp [hfree w List.mem_cons_self],?_⟩
    rw [← List.append_assoc,List.getLast?_append_of_ne_nil _ hcore.1]
    exact hcore.2.2
  have hstrip := stripBy_between htrim hlead hback
  have hsame : lead++(word++(gap++(core++back))) = lead++(word++(gap++core)++back) := by simp
  have hnil : ∀ c ∈ ([] : List Char),isSpace c = true := by simp
  have hfields := splitOnce_fields hnil hword hfree hgap hblank hcore
  rw [hsame,hstrip]
  exact hfields

section Split

variable {sep s : List Char}

/-- No separator begins inside the stretch `a` when `r` follows it. -/
def FreeBefore (sep a r : List Char) : Prop :=
  ∀ x y,a = x++y → y ≠ [] → ¬ sep <+: y++r

theorem FreeBefore.tail {c : Char} {a r : List Char} (h : FreeBefore sep (c::a) r) :
    FreeBefore sep a r := by
  intro x y hxy hy
  exact h (c::x) y (by rw [hxy,List.cons_append]) hy

theorem cut_free {a r : List Char} (h : FreeBefore sep a r) (before : List Char) :
    Splice.cut (starts sep) 0 before (a++r) =
      a.map .inl++Splice.cut (starts sep) 0 (a.reverse++before) r := by
  induction a generalizing before with
  | nil => rfl
  | cons c a ih =>
    have hhead : ¬ sep <+: c::(a++r) := h [] (c::a) rfl (List.cons_ne_nil c a)
    rw [List.cons_append,Splice.cut_passed (if_neg hhead)]
    simp only [ih h.tail,List.map_cons,List.cons_append,List.reverse_cons,List.append_assoc,
      List.nil_append]

theorem segments_chars (a : List Char) (pieces : List (Char ⊕ Unit)) :
    ∃ l ls,Splice.segments pieces = l::ls ∧
      Splice.segments (a.map .inl++pieces) = (a++l)::ls := by
  induction a with
  | nil =>
    cases hs : Splice.segments pieces with
    | cons l ls => exact ⟨l,ls,rfl,by simpa using hs⟩
    | nil =>
      cases pieces with
      | nil => simp [Splice.segments] at hs
      | cons x xs =>
        cases x with
        | inr v => simp [Splice.segments] at hs
        | inl c => cases hxs : Splice.segments xs <;> simp [Splice.segments,hxs] at hs
  | cons c a ih =>
    obtain ⟨l,ls,hl,hrest⟩ := ih
    refine ⟨l,ls,hl,?_⟩
    rw [List.map_cons,List.cons_append,Splice.segments,hrest]
    rfl

theorem split_of_free (h : FreeBefore sep s []) : split sep s = [s] := by
  have hcut := cut_free h []
  obtain ⟨l,ls,hl,hsegs⟩ := segments_chars s []
  obtain ⟨rfl,rfl⟩ := List.cons.inj hl
  rw [split]
  rw [List.append_nil] at hcut hsegs
  rw [hcut,Splice.cut,List.append_nil,hsegs,List.append_nil]

theorem cut_before (s before before' : List Char) :
    Splice.cut (starts sep) 0 before s = Splice.cut (starts sep) 0 before' s := by
  have h (n : Nat) : Splice.cut (starts sep) n before s = Splice.cut (starts sep) n before' s := by
    induction s generalizing n before before' with
    | nil => rw [Splice.cut,Splice.cut]
    | cons c s ih =>
      cases n with
      | succ n => exact ih (c::before) (c::before') n
      | zero =>
        rw [Splice.cut,Splice.cut,starts,starts]
        split_ifs
        · cases hn : sep.length with
          | zero => simp only [ih (c::before) (c::before') 0]
          | succ n => simp only [ih (c::before) (c::before') n]
        · simp only [ih (c::before) (c::before') 0]
  exact h 0

theorem split_mark {a r : List Char} (hsep : sep ≠ []) (h : FreeBefore sep a (sep++r)) :
    split sep (a++(sep++r)) = a::split sep r := by
  have htaken : starts sep (a.reverse++[]) (sep++r) = some (sep.length,()) :=
    if_pos (List.prefix_append sep r)
  have hcut := Splice.cut_taken hsep htaken
  rw [cut_before r (sep.reverse++(a.reverse++[])) []] at hcut
  obtain ⟨l,ls,hl,hsegs⟩ := segments_chars a (.inr ()::Splice.cut (starts sep) 0 [] r)
  rw [Splice.segments] at hl
  obtain ⟨rfl,rfl⟩ := List.cons.inj hl
  rw [split,cut_free h,hcut,hsegs,List.append_nil,split]

end Split

theorem splitLinesFrom_line {l : List Char} (h : ∀ c ∈ l,isLineBreak c = false)
    (line rest : List Char) : splitLinesFrom line (l++ '\n'::rest) =
      (line.reverse++l)::splitLinesFrom [] rest := by
  induction l generalizing line with
  | nil =>
    rcases splitLinesFrom_break line (by decide : isLineBreak '\n' = true) rest with hb | hb
    · rw [List.nil_append,hb,List.append_nil]
    · obtain ⟨s',hc,-⟩ := hb
      exact absurd hc (by decide)
  | cons c l ih =>
    have hc : ¬ isLineBreak c = true := by simp [h c List.mem_cons_self]
    rw [List.cons_append,splitLinesFrom_char hc,ih fun d hd => h d (List.mem_cons_of_mem _ hd)]
    simp

/-- Lines that are written each with a line feed after it are read back. -/
theorem lines_written {ls : List (List Char)} (h : ∀ l ∈ ls,∀ c ∈ l,isLineBreak c = false) :
    lines (ls.flatMap (·++['\n'])) = ls := by
  rw [lines]
  induction ls with
  | nil => rfl
  | cons l ls ih =>
    rw [List.flatMap_cons,List.append_assoc,List.singleton_append,
      splitLinesFrom_line (h l List.mem_cons_self),ih fun m hm => h m (List.mem_cons_of_mem _ hm)]
    rfl

end PyText
