import SoftwareFactory.Lib.RegexMatches

namespace Occurrence

variable {α : Type} {L : List α → Prop}

/-- A text of the kind stands at the front. -/
def Begins (L : List α → Prop) (s : List α) : Prop := ∃ w,L w ∧ w <+: s

/-- The first text of the kind in `s`, with what stands before and behind it. -/
structure FirstOf (L : List α → Prop) (s before w after : List α) : Prop where
  split : s = before++(w++after)
  kind : L w
  first : ∀ x y,s = x++y → Begins L y → before.length ≤ x.length

/-- `x` is what stands before the first place of `s` where it stops. -/
structure UpTo (Stops : List α → Prop) (s x : List α) : Prop where
  stops : ∃ rest,s = x++rest ∧ Stops rest
  first : ∀ y rest,s = y++rest → Stops rest → x.length ≤ y.length

/-- No text of the kind is the front of another one. -/
def PrefixFree (L : List α → Prop) : Prop := ∀ v w x y,L v → L w → v++x = w++y → v = w

theorem FirstOf.unique (hL : PrefixFree L) {s b w a b' w' a' : List α} (h : FirstOf L s b w a)
    (h' : FirstOf L s b' w' a') : b = b' ∧ w = w' ∧ a = a' := by
  have hlen : b.length = b'.length := by
    apply Nat.le_antisymm
    · exact h.first b' _ h'.split ⟨w',h'.kind,List.prefix_append _ _⟩
    · exact h'.first b _ h.split ⟨w,h.kind,List.prefix_append _ _⟩
  obtain ⟨hb,hrest⟩ := List.append_inj (h.split.symm.trans h'.split) hlen
  obtain rfl := hL w w' a a' h.kind h'.kind hrest
  exact ⟨hb,rfl,List.append_cancel_left hrest⟩

theorem UpTo.unique {Stops : List α → Prop} {s x x' : List α} (h : UpTo Stops s x)
    (h' : UpTo Stops s x') : x = x' := by
  obtain ⟨rest,hsplit,hstop⟩ := h.stops
  obtain ⟨rest',hsplit',hstop'⟩ := h'.stops
  have hlen : x.length = x'.length :=
    Nat.le_antisymm (h.first x' rest' hsplit' hstop') (h'.first x rest hsplit hstop)
  exact (List.append_inj (hsplit.symm.trans hsplit') hlen).1

/-- Blanks of a class, then a text that does not begin with one. -/
theorem PrefixFree.after_class {p : α → Bool} (hL : PrefixFree L)
    (hhead : ∀ w,L w → w ≠ [] ∧ w.head?.any p = false) {a b v w x y : List α}
    (ha : ∀ c ∈ a,p c = true) (hb : ∀ c ∈ b,p c = true) (hv : L v) (hw : L w)
    (h : a++(v++x) = b++(w++y)) : a = b ∧ v = w := by
  have hfront : ∀ v x : List α,L v → (v++x).head?.any p = false := by
    intro v x hv
    obtain ⟨hne,hany⟩ := hhead v hv
    rwa [List.head?_append_of_ne_nil v hne]
  obtain ⟨hab,hrest⟩ := Regex.append_class_inj ha hb (hfront v x hv) (hfront w y hw) h
  exact ⟨hab,hL v w x y hv hw hrest⟩

end Occurrence

namespace Regex

open Occurrence

variable {r : Pattern}

/-- Where a pattern that looks at nothing else is found first, a text that it takes stands, and
none before. -/
theorem Pattern.find_firstOf (hr : r.free = true) {before s : List Char} {t : Cursor}
    (h : r.find before s = some t) :
    ∃ b w,FirstOf r.Takes s b w t.after ∧ t.before = w.reverse++(b.reverse++before) := by
  have hhere {before s : List Char} (h : t ∈ r.run ⟨before,s,[]⟩) :
      ∃ b w,FirstOf r.Takes s b w t.after ∧ t.before = w.reverse++(b.reverse++before) := by
    obtain ⟨w,hw,hs,hbefore⟩ := run_takes hr h
    exact ⟨[],w,⟨hs,hw,fun _ _ _ _ => Nat.zero_le _⟩,hbefore⟩
  induction s generalizing before with
  | nil => exact hhere (List.mem_of_head? h)
  | cons c cs ih =>
    rw [find,Option.or_eq_some_iff] at h
    cases h with
    | inl h => exact hhere (List.mem_of_head? h)
    | inr h =>
      obtain ⟨hnone,h⟩ := h
      obtain ⟨b,w,hfirst,hbefore⟩ := ih h
      refine ⟨c::b,w,⟨?_,hfirst.kind,?_⟩,?_⟩
      · rw [hfirst.split,List.cons_append]
      · intro x y hxy hy
        cases x with
        | nil =>
          have hrun := (run_free_iff hr ⟨before,c::cs,[]⟩).mpr (hxy ▸ hy)
          rw [List.head?_eq_none_iff] at hnone
          rw [hnone] at hrun
          cases hrun
        | cons d x =>
          have hle := hfirst.first x y (List.cons.inj hxy).2 hy
          simpa using hle
      · rw [hbefore,List.reverse_cons,List.append_assoc,List.singleton_append]

theorem Pattern.find_none (hr : r.free = true) {before s x y : List Char}
    (h : r.find before s = none) (hs : s = x++y) : ¬Begins r.Takes y := by
  intro hy
  induction x generalizing before s with
  | nil =>
    rw [List.nil_append] at hs
    rw [hs] at h
    have hrun := (run_free_iff hr ⟨before,y,[]⟩).mpr hy
    have hnone : (r.run ⟨before,y,[]⟩).head? = none := by
      cases y with
      | nil => exact h
      | cons c cs => exact (Option.or_eq_none_iff.mp h).1
    rw [List.head?_eq_none_iff] at hnone
    rw [hnone] at hrun
    cases hrun
  | cons c x ih =>
    rw [hs] at h
    exact ih (Option.or_eq_none_iff.mp h).2 rfl

/-- The search finds the first text of the kind. -/
theorem Pattern.find_iff (hr : r.free = true) (hL : PrefixFree r.Takes)
    {before s after : List Char} :
    (r.find before s).map Cursor.after = some after ↔ ∃ b w,FirstOf r.Takes s b w after := by
  constructor
  · intro h
    obtain ⟨t,ht,rfl⟩ := Option.map_eq_some_iff.mp h
    obtain ⟨b,w,hfirst,_⟩ := find_firstOf hr ht
    exact ⟨b,w,hfirst⟩
  · intro h
    obtain ⟨b,w,hfirst⟩ := h
    cases hfind : r.find before s with
    | none =>
      have hno := find_none hr hfind hfirst.split
      exact absurd ⟨w,hfirst.kind,List.prefix_append _ _⟩ hno
    | some t =>
      obtain ⟨b',w',hfirst',_⟩ := find_firstOf hr hfind
      rw [Option.map_some,(hfirst.unique hL hfirst').2.2]

/-- A text of the kind begins here, or the text ends, a last line feed aside. -/
def StopsAt (L : List Char → Prop) (rest : List Char) : Prop :=
  Begins L rest ∨ rest = [] ∨ rest = ['\n']

/-- What is captured before `(?=r|$)`. -/
theorem Pattern.upTo_iff (hr : r.free = true) {before s x : List Char} :
    (alt r .atEnd).upTo before s = x ↔ UpTo (StopsAt r.Takes) s x := by
  have hstops (before after : List Char) :
      ((alt r .atEnd).run ⟨before,after,[]⟩).isEmpty = false ↔ StopsAt r.Takes after := by
    rw [alt_atEnd_stops,run_free_iff hr]
    rfl
  have hupTo (before s : List Char) : UpTo (StopsAt r.Takes) s ((alt r .atEnd).upTo before s) := by
    induction s generalizing before with
    | nil => exact ⟨⟨[],rfl,.inr (.inl rfl)⟩,fun _ _ _ _ => Nat.zero_le _⟩
    | cons c cs ih =>
      rw [upTo]
      by_cases hstop : ((alt r .atEnd).run ⟨before,c::cs,[]⟩).isEmpty = true
      · rw [if_pos hstop]
        obtain ⟨rest,hsplit,hrest⟩ := (ih (c::before)).stops
        refine ⟨⟨rest,by rw [List.cons_append,← hsplit],hrest⟩,?_⟩
        intro y rest' hsplit' hrest'
        cases y with
        | nil =>
          rw [List.nil_append] at hsplit'
          rw [← hsplit',← hstops before (c::cs),hstop] at hrest'
          cases hrest'
        | cons d y =>
          have hle := (ih (c::before)).first y rest' (List.cons.inj hsplit').2 hrest'
          simpa using hle
      · rw [if_neg hstop]
        refine ⟨⟨c::cs,rfl,?_⟩,fun _ _ _ _ => Nat.zero_le _⟩
        exact (hstops before _).mp (by simpa using hstop)
  constructor
  · intro h
    rw [← h]
    exact hupTo before s
  · exact fun h => (hupTo before s).unique h

/-- What is captured behind the first match, before `(?=r|$)`. -/
theorem Pattern.region_iff {stop : Pattern} (hr : r.free = true) (hL : PrefixFree r.Takes)
    (hstop : stop.free = true) {before s x : List Char} :
    (r.find before s).map (fun t => (alt stop .atEnd).upTo t.before t.after) = some x ↔
      ∃ b w after,FirstOf r.Takes s b w after ∧ UpTo (StopsAt stop.Takes) after x := by
  constructor
  · intro h
    obtain ⟨t,ht,hx⟩ := Option.map_eq_some_iff.mp h
    obtain ⟨b,w,hfirst,_⟩ := find_firstOf hr ht
    exact ⟨b,w,t.after,hfirst,(upTo_iff hstop).mp hx⟩
  · intro h
    obtain ⟨b,w,after,hfirst,hupTo⟩ := h
    obtain ⟨t,ht,rfl⟩ := Option.map_eq_some_iff.mp ((find_iff hr hL).mpr ⟨b,w,hfirst⟩)
    rw [ht,Option.map_some,(upTo_iff hstop).mpr hupTo]

end Regex
