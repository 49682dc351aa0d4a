import SoftwareFactory.Lib.Regex

namespace Regex

/-- Before what cannot follow a character of the class, repetition is all or nothing. -/
theorem manyFrom_flatMap {β : Type} {p : Char → Bool} {F : Cursor → List β}
    (hF : ∀ t,t.after.head?.all p = true → F t = []) (n : Nat) (before after : List Char) :
    (manyFrom p n before after).flatMap F =
      if n ≤ (after.takeWhile p).length then
        F ⟨(after.takeWhile p).reverse++before,after.dropWhile p,[]⟩
      else [] := by
  induction after generalizing n before with
  | nil =>
    by_cases hn : n = 0
    · simp [manyFrom,hn]
    · simp [manyFrom,hn]
  | cons c cs ih =>
    rw [manyFrom,List.flatMap_append]
    by_cases hc : p c = true
    · have hlen : n ≤ (cs.takeWhile p).length+1 ↔ n-1 ≤ (cs.takeWhile p).length := by omega
      have hlast : (if n = 0 then [(⟨before,c::cs,[]⟩ : Cursor)] else []).flatMap F = [] := by
        split_ifs
        · have hnil : F ⟨before,c::cs,[]⟩ = [] := hF _ (by simpa using hc)
          rw [List.flatMap_singleton,hnil]
        · rfl
      rw [if_pos hc,ih,hlast,List.append_nil]
      simp only [List.takeWhile_cons,List.dropWhile_cons,hc,if_true,List.length_cons,hlen,
        List.reverse_cons,List.append_assoc,List.singleton_append]
    · by_cases hn : n = 0
      · simp [hc,hn]
      · simp [hc,hn]

namespace Pattern

/-- The position after the leftmost match. -/
def find (r : Pattern) (before : List Char) : List Char → Option Cursor
  | [] => (r.run ⟨before,[],[]⟩).head?
  | c::cs => (r.run ⟨before,c::cs,[]⟩).head?.or (find r (c::before) cs)

/-- The text up to the first position where the pattern matches. -/
def upTo (stop : Pattern) (before : List Char) : List Char → List Char
  | [] => []
  | c::cs => if (stop.run ⟨before,c::cs,[]⟩).isEmpty then c::upTo stop (c::before) cs else []

theorem upTo_prefix (stop : Pattern) (before s : List Char) : stop.upTo before s <+: s := by
  induction s generalizing before with
  | nil => exact List.nil_prefix
  | cons c cs ih =>
    rw [upTo]
    split_ifs
    · exact List.cons_prefix_cons.mpr ⟨rfl,ih (c::before)⟩
    · exact List.nil_prefix

/-- What is found is found in the text. -/
theorem find_append {r : Pattern} {before s : List Char} {t : Cursor} (h : r.find before s = some t) :
    t.before.reverse++t.after = before.reverse++s := by
  have hrun (before s : List Char) (h : t ∈ r.run ⟨before,s,[]⟩) :
      t.before.reverse++t.after = before.reverse++s := by
    obtain ⟨w,gs,hw⟩ := run_reaches h
    have hs : s = w++t.after := hw.after
    rw [hw.before,hs,List.reverse_append,List.reverse_reverse,List.append_assoc]
  induction s generalizing before with
  | nil => exact hrun before [] (List.mem_of_head? h)
  | cons c cs ih =>
    rw [find,Option.or_eq_some_iff] at h
    rcases h with h | ⟨-,h⟩
    · exact hrun before (c::cs) (List.mem_of_head? h)
    · rw [ih h,List.reverse_cons,List.append_assoc,List.singleton_append]

/-- Where `upTo` stops, what is searched for stands, if it is found at all. -/
theorem find_upTo {r : Pattern} {before s : List Char} (h : (r.find before s).isSome = true) :
    ∃ rest,s = r.upTo before s++rest ∧
      (r.run ⟨(r.upTo before s).reverse++before,rest,[]⟩).isEmpty = false := by
  induction s generalizing before with
  | nil =>
    refine ⟨[],rfl,?_⟩
    change (r.run ⟨before,[],[]⟩).isEmpty = false
    rw [find] at h
    simpa using h
  | cons c cs ih =>
    rw [upTo]
    by_cases hrun : (r.run ⟨before,c::cs,[]⟩).isEmpty = true
    · rw [if_pos hrun]
      rw [find,List.isEmpty_iff.mp hrun] at h
      obtain ⟨rest,hcs,hstop⟩ := ih h
      refine ⟨rest,by rw [List.cons_append,← hcs],?_⟩
      rw [List.reverse_cons,List.append_assoc]
      exact hstop
    · rw [if_neg hrun]
      exact ⟨c::cs,rfl,by simpa using hrun⟩

/-- A pattern that stops no later, as long as it still finds something, leaves less text. -/
theorem upTo_prefix_upTo {r r' : Pattern} {before s : List Char}
    (hfind : (r.find before s).isSome = true)
    (h : ∀ b c cs,(r'.run ⟨b,c::cs,[]⟩).isEmpty = false →
      (r.run ⟨b,c::cs,[]⟩).isEmpty = false ∨ r.find b (c::cs) = none) :
    r.upTo before s <+: r'.upTo before s := by
  induction s generalizing before with
  | nil => exact List.nil_prefix
  | cons c cs ih =>
    rw [upTo,upTo]
    by_cases hr : (r.run ⟨before,c::cs,[]⟩).isEmpty = true
    · have hr' : (r'.run ⟨before,c::cs,[]⟩).isEmpty = true := by
        by_contra hstop
        rcases h before c cs (by simpa using hstop) with hr0 | hnone
        · rw [hr] at hr0
          cases hr0
        · rw [hnone] at hfind
          cases hfind
      rw [find,List.isEmpty_iff.mp hr] at hfind
      rw [if_pos hr,if_pos hr']
      exact List.cons_prefix_cons.mpr ⟨rfl,ih hfind⟩
    · rw [if_neg hr]
      exact List.nil_prefix

/-- What was captured before does not change how a match goes on. -/
theorem run_groups (r : Pattern) (before after : List Char) (gs hs : List (List Char)) :
    r.run ⟨before,after,gs++hs⟩ =
      (r.run ⟨before,after,hs⟩).map fun t => { t with groups := gs++t.groups } := by
  have hgen (s : Cursor) : r.run { s with groups := gs++s.groups } =
      (r.run s).map fun t => { t with groups := gs++t.groups } := by
    induction r generalizing s with
    | seq a b iha ihb =>
      rw [run,run,iha,List.flatMap_map,List.map_flatMap]
      simp only [ihb]
    | alt a b iha ihb => rw [run,run,iha,ihb,List.map_append]
    | group a ih => simp [run,ih]
    | char p =>
      rw [run,run]
      cases s.after with
      | nil => rfl
      | cons c cs => by_cases hc : p c = true <;> simp [hc]
    | many p n => simp [run]
    | lazy p n => simp [run]
    | ahead a ih => simp only [run,ih,List.isEmpty_map]; split_ifs <;> rfl
    | empty => rfl
    | atStart => simp only [run]; split_ifs <;> rfl
    | atEnd => simp only [run]; split_ifs <;> rfl
    | boundary word =>
      rw [run,run,atBoundary,atBoundary]
      by_cases h : (s.before.head?.any word != s.after.head?.any word) = true <;> simp [h]
  exact hgen ⟨before,after,hs⟩

theorem run_isEmpty (r : Pattern) (s : Cursor) :
    (r.run s).isEmpty = (r.run ⟨s.before,s.after,[]⟩).isEmpty := by
  have h := run_groups r s.before s.after s.groups []
  rw [List.append_nil] at h
  rw [h,List.isEmpty_map]

/-- Of the ways to repeat any character, the shortest first, the one taken is the shortest that
the rest of the pattern accepts. -/
theorem lazyFrom_upTo {β : Type} {stop : Pattern} (F : Cursor → List β)
    (hF : ∀ t,F t = [] ↔ (stop.run ⟨t.before,t.after,[]⟩).isEmpty)
    (before after : List Char) :
    ((lazyFrom (fun _ => true) 0 before after).flatMap F).head? =
      (F ⟨(stop.upTo before after).reverse++before,
        after.drop (stop.upTo before after).length,[]⟩).head? := by
  induction after generalizing before with
  | nil => simp [lazyFrom,upTo]
  | cons c cs ih =>
    rw [lazyFrom,upTo]
    simp only [if_true,List.flatMap_append,List.flatMap_cons,List.flatMap_nil,List.append_nil]
    by_cases hstop : (stop.run ⟨before,c::cs,[]⟩).isEmpty = true
    · have hnil : F ⟨before,c::cs,[]⟩ = [] := (hF _).mpr hstop
      have htake := ih (c::before)
      rw [if_pos hstop,hnil,List.nil_append,htake]
      simp
    · have hne : F ⟨before,c::cs,[]⟩ ≠ [] := fun h => hstop ((hF _).mp h)
      rw [if_neg hstop,List.head?_append_of_ne_nil _ hne]
      simp

/-- Where `upTo` stops, the pattern matches or the text ends. -/
theorem upTo_stops {stop : Pattern} (hend : ∀ before,(stop.run ⟨before,[],[]⟩).isEmpty = false)
    (before s : List Char) :
    (stop.run ⟨(stop.upTo before s).reverse++before,s.drop (stop.upTo before s).length,
      []⟩).isEmpty = false := by
  induction s generalizing before with
  | nil => exact hend before
  | cons c cs ih =>
    rw [upTo]
    by_cases hstop : (stop.run ⟨before,c::cs,[]⟩).isEmpty = true
    · have h := ih (c::before)
      rw [if_pos hstop]
      simpa using h
    · rw [if_neg hstop]
      simpa using hstop

/-- A lazy group and a condition on what follows: the group takes the text up to there. -/
theorem lazyGroup_head {stop : Pattern} (hend : ∀ before,(stop.run ⟨before,[],[]⟩).isEmpty = false)
    (s : Cursor) : ∃ u,((seqs [.group (.lazy (fun _ => true) 0),.ahead stop]).run s).head? = some u ∧
      u.groups = s.groups++[stop.upTo s.before s.after] := by
  let F (t : Cursor) : List Cursor := (seqs [.ahead stop]).run
    ⟨t.before,t.after,s.groups++[s.after.take (s.after.length-t.after.length)]⟩
  have hF (t : Cursor) : F t =
      if (stop.run ⟨t.before,t.after,[]⟩).isEmpty then []
      else [⟨t.before,t.after,s.groups++[s.after.take (s.after.length-t.after.length)]⟩] := by
    simp only [F,seqs,run]
    rw [run_isEmpty]
    split_ifs <;> rfl
  have hrun : (seqs [.group (.lazy (fun _ => true) 0),.ahead stop]).run s =
      (lazyFrom (fun _ => true) 0 s.before s.after).flatMap F := by
    rw [seqs,run,run,run,List.flatMap_map,List.flatMap_map]
  have hempty (t : Cursor) : F t = [] ↔ (stop.run ⟨t.before,t.after,[]⟩).isEmpty = true := by
    rw [hF]
    split_ifs with h <;> simp [h]
  have hpre := upTo_prefix stop s.before s.after
  have htake : s.after.take (s.after.length-(s.after.drop (stop.upTo s.before s.after).length).length) =
      stop.upTo s.before s.after := by
    rw [List.length_drop,Nat.sub_sub_self hpre.length_le]
    exact (List.prefix_iff_eq_take.mp hpre).symm
  rw [hrun,lazyFrom_upTo F hempty,hF,if_neg (by rw [upTo_stops hend]; decide)]
  exact ⟨_,rfl,by rw [htake]⟩

/-- A greedy group at the end takes the whole rest. -/
theorem manyGroup_head (s : Cursor) :
    ∃ u,((seqs [.group (.many (fun _ => true) 0)]).run s).head? = some u ∧
      u.groups = s.groups++[s.after] := by
  have hmany (before after : List Char) :
      ∃ ts,manyFrom (fun _ => true) 0 before after = ⟨after.reverse++before,[],[]⟩::ts := by
    induction after generalizing before with
    | nil => exact ⟨[],rfl⟩
    | cons c cs ih =>
      obtain ⟨ts,hts⟩ := ih (c::before)
      refine ⟨ts++[⟨before,c::cs,[]⟩],?_⟩
      rw [manyFrom]
      simp [hts]
  obtain ⟨ts,hts⟩ := hmany s.before s.after
  refine ⟨⟨s.after.reverse++s.before,[],s.groups++[s.after]⟩,?_,rfl⟩
  simp [seqs,run,hts]

/-- A search whose pattern cannot fail after its opening: what the group takes is decided
where the opening first matches. -/
theorem search_group {a b : Pattern} {g : Cursor → List Char} (ha : a.plain = true)
    (hb : ∀ s,∃ u,(b.run s).head? = some u ∧ u.groups = s.groups++[g s])
    (before s : List Char) :
    ((seq a b).search before s).map (fun m => m.groups.headD []) = (a.find before s).map g := by
  have hfirst (before after : List Char) :
      ((seq a b).first before after).map (fun m => m.groups.headD []) =
        (a.run ⟨before,after,[]⟩).head?.map g := by
    rw [first,run]
    cases hrun : a.run ⟨before,after,[]⟩ with
    | nil => rfl
    | cons t ts =>
      have ht : t ∈ a.run ⟨before,after,[]⟩ := by rw [hrun]; exact List.mem_cons_self
      have hgroups : t.groups = [] := run_plain ha ht
      obtain ⟨u,hu,hug⟩ := hb t
      have hne : b.run t ≠ [] := by
        intro h
        rw [h] at hu
        cases hu
      rw [List.flatMap_cons,List.head?_append_of_ne_nil _ hne,hu]
      simp [hug,hgroups]
  induction s generalizing before with
  | nil => exact hfirst before []
  | cons c cs ih =>
    rw [search,find]
    have h := hfirst before (c::cs)
    cases hm : (seq a b).first before (c::cs) with
    | none =>
      rw [hm] at h
      rw [Option.none_or,ih]
      cases hr : (a.run ⟨before,c::cs,[]⟩).head? with
      | none => rfl
      | some t => rw [hr] at h; cases h
    | some m =>
      rw [hm] at h
      cases hr : (a.run ⟨before,c::cs,[]⟩).head? with
      | none => rw [hr] at h; cases h
      | some t => rw [hr] at h; exact h

/-- `r|$` -/
theorem alt_atEnd_stops {r : Pattern} {before after : List Char} :
    ((alt r .atEnd).run ⟨before,after,[]⟩).isEmpty = false ↔
      (r.run ⟨before,after,[]⟩).isEmpty = false ∨ after = [] ∨ after = ['\n'] := by
  have hend : (atEnd.run ⟨before,after,[]⟩).isEmpty = false ↔ after = [] ∨ after = ['\n'] := by
    rw [run]
    split_ifs with h
    · simpa [endsHere] using h
    · simpa [endsHere] using h
  simp only [List.isEmpty_eq_false_iff,run,ne_eq,List.append_eq_nil_iff,not_and_or] at hend ⊢
  rw [hend]

/-- A pattern that looks at nothing but the text it takes. -/
def free : Pattern → Bool
  | empty => true
  | char _ => true
  | seq a b => a.free && b.free
  | alt a b => a.free && b.free
  | many _ _ => true
  | lazy _ _ => true
  | group a => a.free
  | _ => false

/-- The texts such a pattern takes. -/
def Takes : Pattern → List Char → Prop
  | empty,w => w = []
  | char p,w => ∃ c,p c = true ∧ w = [c]
  | seq a b,w => ∃ x y,w = x++y ∧ a.Takes x ∧ b.Takes y
  | alt a b,w => a.Takes w ∨ b.Takes w
  | many p n,w => n ≤ w.length ∧ ∀ c ∈ w,p c = true
  | lazy p n,w => n ≤ w.length ∧ ∀ c ∈ w,p c = true
  | group a,w => a.Takes w
  | _,_ => False

theorem run_takes {r : Pattern} (hr : r.free = true) {s t : Cursor} (h : t ∈ r.run s) :
    ∃ w,r.Takes w ∧ s.after = w++t.after ∧ t.before = w.reverse++s.before := by
  induction r generalizing s t with
  | empty =>
    obtain rfl := List.mem_singleton.mp h
    exact ⟨[],rfl,rfl,rfl⟩
  | char p =>
    rw [run] at h
    cases hs : s.after with
    | nil => simp [hs] at h
    | cons c cs =>
      simp only [hs] at h
      split_ifs at h with hc
      · obtain rfl := List.mem_singleton.mp h
        exact ⟨[c],⟨c,hc,rfl⟩,rfl,rfl⟩
      · simp at h
  | seq a b iha ihb =>
    rw [free,Bool.and_eq_true] at hr
    obtain ⟨u,hu,ht⟩ := List.mem_flatMap.mp h
    obtain ⟨x,hx,hxa,hxb⟩ := iha hr.1 hu
    obtain ⟨y,hy,hya,hyb⟩ := ihb hr.2 ht
    refine ⟨x++y,⟨x,y,rfl,hx,hy⟩,?_,?_⟩
    · rw [hxa,hya,List.append_assoc]
    · rw [hyb,hxb,List.reverse_append,List.append_assoc]
  | alt a b iha ihb =>
    rw [free,Bool.and_eq_true] at hr
    rcases List.mem_append.mp h with h | h
    · obtain ⟨w,hw,hwab⟩ := iha hr.1 h
      exact ⟨w,.inl hw,hwab⟩
    · obtain ⟨w,hw,hwab⟩ := ihb hr.2 h
      exact ⟨w,.inr hw,hwab⟩
  | many p n =>
    obtain ⟨u,hu,rfl⟩ := List.mem_map.mp h
    obtain ⟨w,hn,hp,ha,hb,-⟩ := mem_manyFrom.mp hu
    exact ⟨w,⟨hn,hp⟩,ha,hb⟩
  | lazy p n =>
    obtain ⟨u,hu,rfl⟩ := List.mem_map.mp h
    obtain ⟨w,hn,hp,ha,hb,-⟩ := mem_manyFrom.mp (mem_lazyFrom.mp hu)
    exact ⟨w,⟨hn,hp⟩,ha,hb⟩
  | group a ih =>
    obtain ⟨u,hu,rfl⟩ := List.mem_map.mp h
    obtain ⟨w,hw,hwab⟩ := ih hr hu
    exact ⟨w,hw,hwab⟩
  | ahead | atStart | atEnd | boundary => cases hr

theorem takes_run {r : Pattern} {w : List Char} (h : r.Takes w) {s : Cursor} {rest : List Char}
    (hs : s.after = w++rest) :
    ∃ t ∈ r.run s,t.after = rest ∧ t.before = w.reverse++s.before := by
  induction r generalizing s w rest with
  | empty =>
    obtain rfl : w = [] := h
    exact ⟨s,List.mem_singleton_self _,hs,rfl⟩
  | char p =>
    obtain ⟨c,hc,rfl⟩ := h
    refine ⟨⟨c::s.before,rest,s.groups⟩,?_,rfl,rfl⟩
    rw [run,hs]
    simp [hc]
  | seq a b iha ihb =>
    obtain ⟨x,y,rfl,hx,hy⟩ := h
    rw [List.append_assoc] at hs
    obtain ⟨u,hu,hua,hub⟩ := iha hx hs
    obtain ⟨t,ht,hta,htb⟩ := ihb hy hua
    refine ⟨t,List.mem_flatMap.mpr ⟨u,hu,ht⟩,hta,?_⟩
    rw [htb,hub,List.reverse_append,List.append_assoc]
  | alt a b iha ihb =>
    rcases h with h | h
    · obtain ⟨t,ht,htab⟩ := iha h hs
      exact ⟨t,List.mem_append_left _ ht,htab⟩
    · obtain ⟨t,ht,htab⟩ := ihb h hs
      exact ⟨t,List.mem_append_right _ ht,htab⟩
  | many p n =>
    have hmem : (⟨w.reverse++s.before,rest,[]⟩ : Cursor) ∈ manyFrom p n s.before s.after :=
      mem_manyFrom.mpr ⟨w,h.1,h.2,hs,rfl,rfl⟩
    exact ⟨_,List.mem_map.mpr ⟨_,hmem,rfl⟩,rfl,rfl⟩
  | lazy p n =>
    have hmem : (⟨w.reverse++s.before,rest,[]⟩ : Cursor) ∈ lazyFrom p n s.before s.after :=
      mem_lazyFrom.mpr (mem_manyFrom.mpr ⟨w,h.1,h.2,hs,rfl,rfl⟩)
    exact ⟨_,List.mem_map.mpr ⟨_,hmem,rfl⟩,rfl,rfl⟩
  | group a ih =>
    obtain ⟨t,ht,hta,htb⟩ := ih h hs
    exact ⟨_,List.mem_map.mpr ⟨t,ht,rfl⟩,hta,htb⟩
  | ahead | atStart | atEnd | boundary => exact h.elim

/-- Such a pattern matches at a position exactly if it takes a text that stands there. -/
theorem run_free_iff {r : Pattern} (hr : r.free = true) (s : Cursor) :
    (r.run s).isEmpty = false ↔ ∃ w,r.Takes w ∧ w <+: s.after := by
  rw [List.isEmpty_eq_false_iff_exists_mem]
  constructor
  · intro h
    obtain ⟨t,ht⟩ := h
    obtain ⟨w,hw,hs,-⟩ := run_takes hr ht
    exact ⟨w,hw,t.after,hs.symm⟩
  · intro h
    obtain ⟨w,hw,rest,hrest⟩ := h
    obtain ⟨t,ht,-⟩ := takes_run hw hrest.symm
    exact ⟨t,ht⟩

/-- No text the pattern takes has this character. -/
def avoids (r : Pattern) (c : Char) : Bool :=
  match r with
  | char p => !p c
  | seq a b => a.avoids c && b.avoids c
  | alt a b => a.avoids c && b.avoids c
  | many p _ => !p c
  | lazy p _ => !p c
  | group a => a.avoids c
  | _ => true

theorem Takes.avoids {r : Pattern} {c : Char} {w : List Char} (h : r.Takes w)
    (hr : r.avoids c = true) : c ∉ w := by
  induction r generalizing w with
  | empty =>
    obtain rfl : w = [] := h
    exact List.not_mem_nil
  | char p =>
    obtain ⟨d,hd,rfl⟩ := h
    intro hc
    obtain rfl := List.mem_singleton.mp hc
    simp [Pattern.avoids,hd] at hr
  | seq a b iha ihb =>
    rw [Pattern.avoids,Bool.and_eq_true] at hr
    obtain ⟨x,y,rfl,hx,hy⟩ := h
    intro hc
    rcases List.mem_append.mp hc with hc | hc
    · exact iha hx hr.1 hc
    · exact ihb hy hr.2 hc
  | alt a b iha ihb =>
    rw [Pattern.avoids,Bool.and_eq_true] at hr
    rcases h with h | h
    · exact iha h hr.1
    · exact ihb h hr.2
  | many p n | lazy p n =>
    intro hc
    simp [Pattern.avoids,h.2 c hc] at hr
  | group a ih => exact ih h hr
  | ahead | atStart | atEnd | boundary => exact h.elim

/-- Literal text is taken up to what the flags do not tell apart. -/
theorem takes_text {fold : Char → Char} {s : String} {w : List Char} :
    (text fold s).Takes w ↔ w.map fold = s.toList.map fold := by
  have hgen (l : List Char) :
      (seqs (l.map fun c => char fun x => fold x == fold c)).Takes w ↔
        w.map fold = l.map fold := by
    induction l generalizing w with
    | nil => simp [seqs,Takes]
    | cons c cs ih =>
      rw [List.map_cons,seqs,Takes,List.map_cons]
      constructor
      · intro hparts
        obtain ⟨x,y,rfl,⟨d,hd,rfl⟩,hy⟩ := hparts
        rw [List.singleton_append,List.map_cons,ih.mp hy,beq_iff_eq.mp hd]
      · intro h
        obtain ⟨d,y,rfl,hd,hy⟩ := List.map_eq_cons_iff.mp h
        exact ⟨[d],y,rfl,⟨d,by simp [hd],rfl⟩,ih.mpr hy⟩
  exact hgen s.toList

theorem takes_seqs_cons {a : Pattern} {as : List Pattern} {w : List Char} :
    (seqs (a::as)).Takes w ↔ ∃ x y,w = x++y ∧ a.Takes x ∧ (seqs as).Takes y := Iff.rfl

theorem takes_seqs_nil {w : List Char} : (seqs []).Takes w ↔ w = [] := Iff.rfl

theorem takes_alt {a b : Pattern} {w : List Char} :
    (alt a b).Takes w ↔ a.Takes w ∨ b.Takes w := Iff.rfl

theorem takes_seqs_one {a : Pattern} {w : List Char} : (seqs [a]).Takes w ↔ a.Takes w := by
  rw [takes_seqs_cons]
  constructor
  · intro hparts
    obtain ⟨x,y,rfl,hx,rfl⟩ := hparts
    rwa [List.append_nil]
  · intro h
    exact ⟨w,[],(List.append_nil w).symm,h,rfl⟩

end Pattern

theorem toLower_fixed {c : Char} (hd : c.toLower.toNat < 65) : c.toLower = c := by
  delta Char.toLower at hd ⊢
  split_ifs at hd ⊢ with h
  · exfalso
    obtain ⟨hA,hZ⟩ := h
    have hshift : ('a'.val - 'A'.val).toNat = 32 := by decide
    have hlow : 65 ≤ c.val.toNat := UInt32.le_iff_toNat_le.mp hA
    have hhigh : c.val.toNat ≤ 90 := UInt32.le_iff_toNat_le.mp hZ
    have hval : (c.val+('a'.val - 'A'.val)).toNat < 65 := hd
    rw [UInt32.toNat_add,hshift] at hval
    omega
  · rfl
/-- Below the letters, characters are told apart. -/
theorem foldCase_fixed {c d : Char} (h : foldCase c = d) (hd : d.toNat < 65) : c = d := by
  subst h
  unfold foldCase at hd ⊢
  split at hd
  · simp at hd
  · simp at hd
  · simp at hd
  · simp at hd
  · simp at hd
  · exact (toLower_fixed hd).symm

theorem map_foldCase_fixed {w l : List Char} (h : w.map foldCase = l)
    (hl : (l.all fun c => c.toNat < 65) = true) : w = l := by
  induction w generalizing l with
  | nil => exact h
  | cons c cs ih =>
    obtain rfl := h
    rw [List.map_cons] at hl ⊢
    rw [List.all_cons,Bool.and_eq_true,decide_eq_true_eq] at hl
    have hc : c = foldCase c := foldCase_fixed rfl hl.1
    have hcs : cs = cs.map foldCase := ih rfl hl.2
    rw [← hc,← hcs]

end Regex
