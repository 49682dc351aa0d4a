import SoftwareFactory.Lib.RegexSearch
import Mathlib.Data.List.TakeWhile
import Mathlib.Data.Bool.AllAny

namespace Splice

variable {α β : Type}

/-- Every stretch that is taken was found at its place. -/
theorem mem_cut {next : List α → List α → Option (Nat × β)} {skip : Nat} {before s : List α}
    {v : β} (h : .inr v ∈ cut next skip before s) :
    ∃ x y n,s = x++y ∧ next (x.reverse++before) y = some (n+1,v) := by
  induction s generalizing skip before with
  | nil => simp [cut] at h
  | cons a as ih =>
    have hrest (k : Nat) (h : .inr v ∈ cut next k (a::before) as) :
        ∃ x y n,a::as = x++y ∧ next (x.reverse++before) y = some (n+1,v) := by
      obtain ⟨x,y,n,hs,hnext⟩ := ih h
      refine ⟨a::x,y,n,by rw [hs]; rfl,?_⟩
      rw [List.reverse_cons,List.append_assoc]
      exact hnext
    cases skip with
    | succ skip => exact hrest skip h
    | zero =>
      rw [cut] at h
      split at h
      · next n w hnext =>
        rcases List.mem_cons.mp h with hv | h
        · obtain rfl := Sum.inr.inj hv
          exact ⟨[],a::as,n,rfl,hnext⟩
        · exact hrest n h
      · rcases List.mem_cons.mp h with hv | h
        · cases hv
        · exact hrest 0 h

/-- A stretch that no earlier one reaches into is taken. -/
theorem mem_cut_of_free {next : List α → List α → Option (Nat × β)} {skip : Nat}
    {before x y : List α} {n : Nat} {v : β} (hskip : skip ≤ x.length) (hy : y ≠ [])
    (hnext : next (x.reverse++before) y = some (n+1,v))
    (hfree : ∀ u w m b,x = u++w → w ≠ [] → next (u.reverse++before) (w++y) = some (m+1,b) →
      m+1 ≤ w.length) :
    .inr v ∈ cut next skip before (x++y) := by
  induction x generalizing skip before with
  | nil =>
    obtain rfl : skip = 0 := Nat.le_zero.mp hskip
    cases y with
    | nil => exact absurd rfl hy
    | cons a as =>
      have hnext : next before (a::as) = some (n+1,v) := hnext
      rw [List.nil_append,cut,hnext]
      exact List.mem_cons_self
  | cons a x ih =>
    have hnext' : next (x.reverse++a::before) y = some (n+1,v) := by
      rw [← hnext,List.reverse_cons,List.append_assoc,List.singleton_append]
    have hfree' (u w : List α) (m : Nat) (b : β) (hx : x = u++w) (hw : w ≠ [])
        (hm : next (u.reverse++a::before) (w++y) = some (m+1,b)) : m+1 ≤ w.length := by
      apply hfree (a::u) w m b (by rw [hx]; rfl) hw
      rw [← hm,List.reverse_cons,List.append_assoc,List.singleton_append]
    have hrest (k : Nat) (hk : k ≤ x.length) : .inr v ∈ cut next k (a::before) (x++y) :=
      ih hk hnext' hfree'
    rw [List.length_cons] at hskip
    rw [List.cons_append]
    cases skip with
    | succ skip => exact hrest skip (by omega)
    | zero =>
      rw [cut]
      split
      · next m b hm =>
        have hlen := hfree [] (a::x) m b rfl (List.cons_ne_nil _ _) hm
        rw [List.length_cons] at hlen
        exact List.mem_cons_of_mem _ (hrest m (by omega))
      · exact List.mem_cons_of_mem _ (hrest 0 (by omega))

end Splice

namespace Regex

namespace Pattern

theorem first_isSome {r : Pattern} {before after : List Char} :
    (r.first before after).isSome = true ↔ (r.run ⟨before,after,[]⟩).isEmpty = false := by
  rw [first,Option.isSome_map]
  cases r.run ⟨before,after,[]⟩ <;> simp

/-- `re.search` finds something exactly if the pattern matches somewhere. -/
theorem search_isSome {r : Pattern} {before s : List Char} :
    (r.search before s).isSome = true ↔
      ∃ x y,s = x++y ∧ (r.run ⟨x.reverse++before,y,[]⟩).isEmpty = false := by
  induction s generalizing before with
  | nil =>
    rw [search,first_isSome]
    constructor
    · intro h
      exact ⟨[],[],rfl,h⟩
    · intro hparts
      obtain ⟨x,y,hs,h⟩ := hparts
      obtain ⟨rfl,rfl⟩ := List.append_eq_nil_iff.mp hs.symm
      exact h
  | cons c cs ih =>
    rw [search,Option.isSome_or,Bool.or_eq_true,first_isSome,ih]
    constructor
    · intro hcase
      rcases hcase with h | ⟨x,y,hs,h⟩
      · exact ⟨[],c::cs,rfl,h⟩
      · refine ⟨c::x,y,by rw [hs]; rfl,?_⟩
        rw [List.reverse_cons,List.append_assoc]
        exact h
    · intro hparts
      obtain ⟨x,y,hs,h⟩ := hparts
      cases x with
      | nil =>
        left
        have hy : y = c::cs := hs.symm
        rw [hy] at h
        exact h
      | cons d x =>
        right
        obtain ⟨rfl,hcs⟩ := List.cons.inj hs
        refine ⟨x,y,hcs,?_⟩
        rw [List.reverse_cons,List.append_assoc] at h
        exact h

theorem next_some {r : Pattern} {before after : List Char} {n : Nat} {m : Match} :
    r.next before after = some (n,m) ↔ r.first before after = some m ∧ n = m.text.length := by
  rw [next,Option.map_eq_some_iff]
  constructor
  · intro h
    obtain ⟨m',hm,heq⟩ := h
    obtain ⟨rfl,rfl⟩ := Prod.mk.inj heq
    exact ⟨hm,rfl⟩
  · intro h
    obtain ⟨hm,rfl⟩ := h
    exact ⟨m,hm,rfl⟩

theorem mem_findall {r : Pattern} {s : List Char} {m : Match} :
    m ∈ r.findall s ↔ .inr m ∈ Splice.cut r.next 0 [] s := by
  rw [findall,List.mem_filterMap]
  constructor
  · intro hparts
    obtain ⟨p,hp,hm⟩ := hparts
    obtain rfl := Sum.getRight?_eq_some_iff.mp hm
    exact hp
  · intro h
    exact ⟨_,h,rfl⟩

/-- A greedy repetition goes on as far as it can. -/
theorem manyFrom_head {p : Char → Bool} {n : Nat} {before after : List Char} {t : Cursor}
    (h : (manyFrom p n before after).head? = some t) : t.after.head?.any p = false := by
  induction after generalizing n before with
  | nil =>
    rw [manyFrom] at h
    split_ifs at h
    · obtain rfl := Option.some.inj h
      rfl
    · cases h
  | cons c cs ih =>
    rw [manyFrom] at h
    by_cases hc : p c = true
    · rw [if_pos hc,List.head?_append,Option.or_eq_some_iff] at h
      cases h with
      | inl hmore => exact ih hmore
      | inr hstop =>
        obtain ⟨hnone,hstop⟩ := hstop
        split_ifs at hstop with hn
        · -- where nothing is asked for, the repetition may stop at once
          have hmem : (manyFrom p (n-1) (c::before) cs).head? ≠ none := by
            subst hn
            cases cs with
            | nil => simp [manyFrom]
            | cons d ds => simp [manyFrom]
          exact absurd hnone hmem
        · cases hstop
    · rw [if_neg hc,List.nil_append] at h
      split_ifs at h
      · obtain rfl := Option.some.inj h
        simpa using hc
      · cases h

/-- The match of a group and a greedy class after it. -/
theorem first_group_many {a : Pattern} {p : Char → Bool} {n : Nat} {before after : List Char}
    {m : Match} (hfree : a.free = true) (ha : a.plain = true)
    (h : (seq (group a) (many p n)).first before after = some m) :
    ∃ g w rest,after = g++(w++rest) ∧ a.Takes g ∧ (∀ c ∈ w,p c = true) ∧ n ≤ w.length ∧
      rest.head?.any p = false ∧ m.text = g++w ∧ m.groups = [g] := by
  rw [first,Option.map_eq_some_iff] at h
  obtain ⟨t,ht,rfl⟩ := h
  rw [run,List.head?_flatMap] at ht
  obtain ⟨u,hu,hhead⟩ := List.exists_of_findSome?_eq_some ht
  obtain ⟨v,hv,rfl⟩ := List.mem_map.mp hu
  rw [run,List.head?_map,Option.map_eq_some_iff] at hhead
  obtain ⟨t',ht',rfl⟩ := hhead
  obtain ⟨w,hn,hp,hw,-⟩ := mem_manyFrom.mp (List.mem_of_head? ht')
  obtain ⟨g,hg,hgafter,-⟩ := run_takes hfree hv
  have hplain := run_plain ha hv
  have hafter : after = g++v.after := hgafter
  have hrest : v.after = w++t'.after := hw
  refine ⟨g,w,t'.after,by rw [hafter,hrest],hg,hp,hn,manyFrom_head ht',?_,?_⟩
  · have hlen : (g++(w++t'.after)).length-t'.after.length = (g++w).length := by
      simp only [List.length_append]
      omega
    simp only [hafter,hrest,hlen]
    rw [← List.append_assoc,List.take_left]
  · simp [hafter,hplain]

/-- What `re.findall` lists was matched at its place. -/
theorem findall_place {r : Pattern} {s : List Char} {m : Match} (h : m ∈ r.findall s) :
    ∃ x y,s = x++y ∧ r.first x.reverse y = some m ∧ m.text ≠ [] := by
  obtain ⟨x,y,n,hs,hnext⟩ := Splice.mem_cut (mem_findall.mp h)
  rw [List.append_nil] at hnext
  obtain ⟨hm,hlen⟩ := next_some.mp hnext
  refine ⟨x,y,hs,hm,?_⟩
  intro hnil
  rw [hnil] at hlen
  cases hlen

/-- A match that no earlier one reaches into is listed. -/
theorem findall_of_free {r : Pattern} {x y : List Char} {m : Match}
    (hm : r.first x.reverse y = some m) (hne : m.text ≠ [])
    (hfree : ∀ u w m',x = u++w → w ≠ [] → r.first u.reverse (w++y) = some m' →
      m'.text.length ≤ w.length) :
    m ∈ r.findall (x++y) := by
  have hlen : m.text.length = m.text.length-1+1 := by
    have := List.length_pos_iff.mpr hne
    omega
  have hy : y ≠ [] := by
    intro heq
    subst heq
    obtain ⟨t,-,-,hnil⟩ := first_eq_some hm
    exact hne (List.append_eq_nil_iff.mp hnil.symm).1
  apply mem_findall.mpr
  apply Splice.mem_cut_of_free (Nat.zero_le _) hy
  · rw [List.append_nil]
    exact next_some.mpr ⟨hm,hlen.symm⟩
  · intro u w k b hx hw hnext
    rw [List.append_nil] at hnext
    obtain ⟨hb,hk⟩ := next_some.mp hnext
    rw [hk]
    exact hfree u w b hx hw hb

theorem run_seqs_append (as bs : List Pattern) (s : Cursor) :
    (seqs (as++bs)).run s = ((seqs as).run s).flatMap (seqs bs).run := by
  induction as generalizing s with
  | nil => simp [seqs,run]
  | cons a as ih =>
    have hrest : (seqs (as++bs)).run = fun t => ((seqs as).run t).flatMap (seqs bs).run :=
      funext ih
    rw [List.cons_append,seqs,run,seqs,run,List.flatMap_assoc,hrest]

theorem run_seqs_one (a : Pattern) (s : Cursor) : (seqs [a]).run s = a.run s := by
  have hrun : (seqs [a]).run s = (a.run s).flatMap fun t => [t] := rfl
  rw [hrun,List.flatMap_singleton']

theorem free_text (fold : Char → Char) (s : String) : (text fold s).free = true := by
  rw [text]
  induction s.toList with
  | nil => rfl
  | cons c cs ih =>
    rw [List.map_cons,seqs,free,ih]
    rfl

/-- A test of a boundary stays where it is. -/
theorem mem_run_boundary {word : Char → Bool} {s t : Cursor} :
    t ∈ (boundary word).run s ↔ t = s ∧ atBoundary word s = true := by
  rw [run]
  split_ifs with h <;> simp [h]

theorem takes_seqs_append {as bs : List Pattern} {w : List Char} :
    (seqs (as++bs)).Takes w ↔ ∃ x y,w = x++y ∧ (seqs as).Takes x ∧ (seqs bs).Takes y := by
  induction as generalizing w with
  | nil => simp [seqs,Takes]
  | cons a as ih =>
    rw [List.cons_append,takes_seqs_cons]
    constructor
    · intro h
      obtain ⟨v,z,rfl,hv,hz⟩ := h
      obtain ⟨x,y,rfl,hx,hy⟩ := ih.mp hz
      exact ⟨v++x,y,(List.append_assoc _ _ _).symm,⟨v,x,rfl,hv,hx⟩,hy⟩
    · intro h
      obtain ⟨z,y,rfl,⟨v,x,rfl,hv,hx⟩,hy⟩ := h
      exact ⟨v,x++y,List.append_assoc _ _ _,hv,ih.mpr ⟨x,y,rfl,hx,hy⟩⟩

/-- The match of a pattern with one group. -/
theorem first_one_group {as cs : List Pattern} {g : Pattern} {before s : List Char} {m : Match}
    (ha : (seqs as).free = true ∧ (seqs as).plain = true) (hg : g.free = true ∧ g.plain = true)
    (hc : (seqs cs).free = true ∧ (seqs cs).plain = true)
    (h : (seqs (as++group g::cs)).first before s = some m) :
    ∃ x w y rest,s = x++(w++(y++rest)) ∧ (seqs as).Takes x ∧ g.Takes w ∧ (seqs cs).Takes y ∧
      m.groups = [w] ∧ m.text = x++(w++y) := by
  obtain ⟨t,ht,hgroups,hs⟩ := first_eq_some h
  rw [run_seqs_append] at ht
  obtain ⟨t₁,ht₁,ht⟩ := List.mem_flatMap.mp ht
  obtain ⟨t₂,ht₂,ht⟩ := List.mem_flatMap.mp ht
  obtain ⟨t₃,ht₃,rfl⟩ := List.mem_map.mp ht₂
  obtain ⟨x,hx,hxs,-⟩ := run_takes ha.1 ht₁
  obtain ⟨w,hw,hws,-⟩ := run_takes hg.1 ht₃
  obtain ⟨y,hy,hys,-⟩ := run_takes hc.1 ht
  have hwg : t₃.groups = [] := (run_plain hg.2 ht₃).trans (run_plain ha.2 ht₁)
  have hall : s = x++(w++(y++t.after)) := by
    have hxs : s = x++t₁.after := hxs
    have hys : t₃.after = y++t.after := hys
    rw [hxs,hws,hys]
  refine ⟨x,w,y,t.after,hall,hx,hw,hy,?_,?_⟩
  · rw [hgroups,run_plain hc.2 ht]
    simp [hwg,hws]
  · rw [hall] at hs
    have hsame : m.text++t.after = (x++(w++y))++t.after := by
      rw [← hs]
      simp
    exact List.append_cancel_right hsame

end Pattern

/-- Two ways to cut a list after elements of a class agree. -/
theorem append_class_inj {α : Type} {p : α → Bool} {a a' b b' : List α}
    (ha : ∀ c ∈ a,p c = true) (ha' : ∀ c ∈ a',p c = true) (hb : b.head?.any p = false)
    (hb' : b'.head?.any p = false) (h : a++b = a'++b') : a = a' ∧ b = b' := by
  have htake (a b : List α) (ha : ∀ c ∈ a,p c = true) (hb : b.head?.any p = false) :
      (a++b).takeWhile p = a := by
    rw [List.takeWhile_append_of_pos ha]
    cases b with
    | nil => simp
    | cons c b => simp_all
  have haa : a = a' := by rw [← htake a b ha hb,h,htake a' b' ha' hb']
  subst haa
  exact ⟨rfl,List.append_cancel_left h⟩

theorem isAlpha_range {c : Char} (h : c.isAlpha = true) :
    65 ≤ c.toNat ∧ c.toNat ≤ 90 ∨ 97 ≤ c.toNat ∧ c.toNat ≤ 122 := by
  delta Char.isAlpha Char.isUpper Char.isLower at h
  simp only [Bool.or_eq_true,Bool.and_eq_true,decide_eq_true_eq] at h
  rcases h with ⟨hlow,hhigh⟩ | ⟨hlow,hhigh⟩
  · left
    exact ⟨UInt32.le_iff_toNat_le.mp hlow,UInt32.le_iff_toNat_le.mp hhigh⟩
  · right
    exact ⟨UInt32.le_iff_toNat_le.mp hlow,UInt32.le_iff_toNat_le.mp hhigh⟩

theorem toLower_alpha {c : Char} (h : c.toLower.isAlpha = true) : c.isAlpha = true := by
  delta Char.toLower at h
  split_ifs at h with hc
  · delta Char.isAlpha Char.isUpper
    simp only [Bool.or_eq_true,decide_eq_true_eq]
    exact .inl hc
  · exact h

/-- What matches a letter of `a`, `c`, `e`, `s`, `t` without regard to case is one or is the
long s. -/
theorem foldCase_letter {c d : Char} (h : foldCase c = d) (hd : d ∈ ['a','c','e','s','t']) :
    c.isAlpha = true ∨ c = Char.ofNat 0x17f := by
  have hletters : ∀ d ∈ ['a','c','e','s','t'],d.isAlpha = true ∧ d ≠ 'i' ∧ d ≠ 'k' :=
    List.all_iff_forall_prop.mp (by decide)
  have hletter := hletters d hd
  subst h
  unfold foldCase at hletter
  split at hletter
  · exact absurd rfl hletter.2.1
  · exact absurd rfl hletter.2.1
  · next heq =>
    right
    exact Char.toNat_inj.mp heq
  · exact absurd rfl hletter.2.2
  · exact absurd hletter.1 (by decide)
  · left
    exact toLower_alpha hletter.1

theorem isDigit_range {c : Char} (h : c.isDigit = true) : 48 ≤ c.toNat ∧ c.toNat ≤ 57 := by
  simp only [Char.isDigit,Bool.and_eq_true,decide_eq_true_eq] at h
  exact ⟨UInt32.le_iff_toNat_le.mp h.1,UInt32.le_iff_toNat_le.mp h.2⟩

/-- Digits have no case. -/
theorem foldCase_digit {c : Char} (h : c.isDigit = true) : foldCase c = c := by
  have hrange := isDigit_range h
  unfold foldCase
  split
  iterate 5 omega
  delta Char.toLower
  rw [dif_neg]
  intro hc
  have hlow : 65 ≤ c.toNat := UInt32.le_iff_toNat_le.mp hc.1
  omega

/-- A list of other elements up to the separator or the end is a piece of the split. -/
theorem mem_splitOn_of_head {l y : List Char} {c : Char} (hl : c ∉ l)
    (hy : y.head?.all (· == c) = true) : l ∈ (l++y).splitOn c := by
  cases y with
  | nil =>
    rw [List.append_nil,List.splitOn_eq_singleton hl]
    exact List.mem_singleton_self l
  | cons d y =>
    obtain rfl : d = c := by simpa using hy
    rw [List.splitOn_append_cons_self_of_not_mem hl]
    exact List.mem_cons_self

/-- The line that a position of a text lies on. -/
theorem line_mem_splitOn (x y : List Char) :
    (x.reverse.takeWhile (· != '\n')).reverse++y.takeWhile (· != '\n') ∈ (x++y).splitOn '\n' := by
  have hnot (l : List Char) : '\n' ∉ l.takeWhile (· != '\n') := by
    intro h
    simpa using List.mem_takeWhile_imp h
  have hline : '\n' ∉ (x.reverse.takeWhile (· != '\n')).reverse++y.takeWhile (· != '\n') := by
    rw [List.mem_append,List.mem_reverse]
    exact fun h => h.elim (hnot _) (hnot _)
  have hhead (l : List Char) : (l.dropWhile (· != '\n')).head?.all (· == '\n') = true := by
    have h := List.head?_dropWhile_not (· != '\n') l
    cases hd : (l.dropWhile (· != '\n')).head? with
    | none => rfl
    | some c =>
      rw [hd] at h
      simpa using h
  have hmem := mem_splitOn_of_head hline (hhead y)
  have hy := List.takeWhile_append_dropWhile (p := (· != '\n')) (l := y)
  have hx := List.takeWhile_append_dropWhile (p := (· != '\n')) (l := x.reverse)
  have hfront := hhead x.reverse
  rw [List.append_assoc,hy] at hmem
  cases hd : x.reverse.dropWhile (· != '\n') with
  | nil =>
    rw [hd,List.append_nil] at hx
    rw [hx,List.reverse_reverse] at hmem ⊢
    exact hmem
  | cons c cs =>
    rw [hd] at hx hfront
    obtain rfl : c = '\n' := by simpa using hfront
    have hsplit : x = cs.reverse++ '\n'::(x.reverse.takeWhile (· != '\n')).reverse := by
      have h := congrArg List.reverse hx
      rw [List.reverse_reverse,List.reverse_append,List.reverse_cons,List.append_assoc] at h
      exact h.symm
    have hs : x++y = cs.reverse++ '\n'::((x.reverse.takeWhile (· != '\n')).reverse++y) := by
      conv_lhs => rw [hsplit]
      simp
    rw [hs,List.splitOn_append_cons_self]
    exact List.mem_append_right _ hmem

end Regex
