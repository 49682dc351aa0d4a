import SoftwareFactory.Security.RateLimiter
import Mathlib.Algebra.Order.Group.Basic
import Mathlib.Algebra.Order.Ring.Int

namespace SoftwareFactory.Security

variable {κ θ : Type}

/-- The requests allowed at times that satisfy `I`. -/
def hits (I : θ → Bool) (as : List (Answer κ θ)) : Nat := as.countP fun a => a.allowed && I a.now

theorem hits_append (I : θ → Bool) (as bs : List (Answer κ θ)) :
    hits I (as++bs) = hits I as+hits I bs := List.countP_append

theorem hits_le (I : θ → Bool) (as : List (Answer κ θ)) :
    hits I as ≤ as.countP fun a => a.allowed := by
  apply List.countP_mono_left
  intro a _ h
  rw [Bool.and_eq_true] at h
  exact h.1

theorem hits_eq_zero {I : θ → Bool} {as : List (Answer κ θ)} (h : ∀ a ∈ as,I a.now = false) :
    hits I as = 0 := by
  rw [hits,List.countP_eq_zero]
  intro a ha
  simp [h a ha]

/-- The last window of a list of answers begins at one place. -/
theorem last_opened {pre mid old rest : List (Answer κ θ)} {x y : Answer κ θ}
    (h : pre++y::mid = old++x::rest) (hy : y.opened = true) (hmid : ∀ z ∈ mid,z.opened = false)
    (hx : x.opened = true) (hrest : ∀ z ∈ rest,z.opened = false) : y::mid = x::rest := by
  rcases List.append_eq_append_iff.mp h with ⟨a,-,ha⟩ | ⟨a,-,ha⟩
  · cases a with
    | nil => exact ha
    | cons b a =>
      have hmem : x ∈ mid := by
        rw [(List.cons.inj ha).2]
        simp
      rw [hmid x hmem] at hx
      cases hx
  · cases a with
    | nil => exact ha.symm
    | cons b a =>
      have hmem : y ∈ rest := by
        rw [(List.cons.inj ha).2]
        simp
      rw [hrest y hmem] at hy
      cases hy

/-- The answers a client got. -/
def own [DecidableEq κ] (c : κ) (as : List (Answer κ θ)) : List (Answer κ θ) :=
  as.filter fun a => a.client = c

variable [AddCommGroup θ] [LinearOrder θ]

/-- What a limiter guarantees a client, in terms of the answers the client got. -/
structure Guarantees (maxRequests : Nat) (windowSeconds : θ) (as : List (Answer κ θ)) : Prop where
  closedOpen : ∀ a,hits (fun t => a ≤ t && t < a+windowSeconds) as ≤ 2*maxRequests-1
  openClosed : ∀ a,hits (fun t => a < t && t ≤ a+windowSeconds) as ≤ 2*maxRequests-1
  window : ∀ pre x mid post,as = pre++x::mid++post → x.opened = true →
    (∀ y ∈ mid,y.opened = false) → (x::mid).countP (fun a => a.allowed) ≤ maxRequests
  refused : ∀ pre x post,as = pre++x::post → x.allowed = false →
    maxRequests ≤ hits (fun t => x.now-windowSeconds < t && t ≤ x.now) pre

namespace RateLimiter

variable {r r' : RateLimiter κ θ} {c : κ}

/-- The two limiters are the same to the client. -/
structure SameFor (c : κ) (r r' : RateLimiter κ θ) : Prop where
  maxRequests : r.maxRequests = r'.maxRequests
  windowSeconds : r.windowSeconds = r'.windowSeconds
  state : r.state c = r'.state c

/-- An interval that is shorter than the window. -/
structure Short (window : θ) (I : θ → Bool) : Prop where
  convex : ∀ x y z,I x = true → I z = true → x ≤ y → y ≤ z → I y = true
  diameter : ∀ x y,I x = true → I y = true → y-x < window

/-- The answers since the window began are `cur`, those before it `old`. -/
structure Window (r : RateLimiter κ θ) (c : κ) (old cur : List (Answer κ θ)) (start : θ)
    (count : Nat) : Prop where
  entry : r.state c = some (start,count)
  begins : ∃ x rest,cur = x::rest ∧ x.now = start ∧ x.allowed = true ∧ x.opened = true ∧
    ∀ y ∈ rest,y.opened = false
  counted : cur.countP (fun a => a.allowed) = count
  bounded : count ≤ r.maxRequests
  within : ∀ y ∈ cur,start ≤ y.now ∧ y.now-start < r.windowSeconds
  before : ∀ y ∈ old,y.now ≤ start
  openedIn : ∀ I,Short r.windowSeconds I → I start = true → hits I old ≤ r.maxRequests-1
  beforeIn : ∀ I,Short r.windowSeconds I → hits I old ≤ 2*r.maxRequests-1

namespace Window

variable {old cur : List (Answer κ θ)} {start : θ} {count : Nat}

/-- An interval that misses the beginning of the window has at least one hit less in it. -/
theorem hits_cur (h : Window r c old cur start count) {I : θ → Bool} (hstart : I start = false) :
    hits I cur ≤ r.maxRequests-1 := by
  obtain ⟨x,rest,rfl,hx,hallowed,-,-⟩ := h.begins
  have hcounted := h.counted
  have hbounded := h.bounded
  have hrest := hits_le I rest
  rw [List.countP_cons,hallowed] at hcounted
  have hcons : hits I (x::rest) = hits I rest := by
    rw [hits,List.countP_cons,hx,hstart]
    simp [hits]
  simp only [if_true] at hcounted
  omega

/-- In a short interval there are at most `2*maxRequests-1` hits. -/
theorem hits_le_all (h : Window r c old cur start count) {I : θ → Bool}
    (hI : Short r.windowSeconds I) : hits I (old++cur) ≤ 2*r.maxRequests-1 := by
  have hpos := r.maxRequests_pos
  have hcur := hits_le I cur
  have hcounted := h.counted
  have hbounded := h.bounded
  rw [hits_append]
  cases hstart : I start with
  | true =>
    have hold := h.openedIn I hI hstart
    omega
  | false =>
    have hless := h.hits_cur hstart
    by_cases hnone : ∀ a ∈ cur,I a.now = false
    · have hold := h.beforeIn I hI
      have hzero := hits_eq_zero hnone
      omega
    · obtain ⟨a,ha,hIa⟩ : ∃ a ∈ cur,I a.now = true := by simpa using hnone
      have hzero : hits I old = 0 := by
        apply hits_eq_zero
        intro y hy
        by_contra hIy
        have hmid := hI.convex y.now start a.now (by simpa using hIy) hIa (h.before y hy)
          (h.within a ha).1
        rw [hmid] at hstart
        cases hstart
      omega

/-- When the next window begins, the interval around its beginning has nothing before the last
window and misses that window's beginning. -/
theorem hits_reopened (h : Window r c old cur start count) [IsOrderedAddMonoid θ] {now : θ}
    (hexpired : r.windowSeconds ≤ now-start) {I : θ → Bool} (hI : Short r.windowSeconds I)
    (hnow : I now = true) : hits I (old++cur) ≤ r.maxRequests-1 := by
  have hfar (t : θ) (ht : t ≤ start) : I t = false := by
    by_contra hIt
    have hlt := hI.diameter t now (by simpa using hIt) hnow
    have hle : now-start ≤ now-t := sub_le_sub_left ht now
    exact absurd (hexpired.trans hle) (not_le_of_gt hlt)
  have hold : hits I old = 0 := hits_eq_zero fun y hy => hfar _ (h.before y hy)
  have hcur := h.hits_cur (hfar start le_rfl)
  rw [hits_append,hold,Nat.zero_add]
  exact hcur

/-- A call inside the window. -/
theorem extended {now : θ} {count' : Nat} {allowed : Bool} (h : Window r c old cur start count)
    (hmax : r'.maxRequests = r.maxRequests) (hwindow : r'.windowSeconds = r.windowSeconds)
    (hentry : r'.state c = some (start,count'))
    (hcount : count' = count+if allowed then 1 else 0) (hbounded : count' ≤ r.maxRequests)
    (hnow : start ≤ now ∧ now-start < r.windowSeconds) :
    Window r' c old (cur++[⟨c,now,allowed,false⟩]) start count' where
  entry := hentry
  begins := by
    obtain ⟨x,rest,rfl,hx,hallowed,hopened,hrest⟩ := h.begins
    refine ⟨x,rest++[⟨c,now,allowed,false⟩],rfl,hx,hallowed,hopened,?_⟩
    intro y hy
    rcases List.mem_append.mp hy with hy | hy
    · exact hrest y hy
    · obtain rfl := List.mem_singleton.mp hy
      rfl
  counted := by
    rw [List.countP_append,h.counted,hcount]
    cases allowed <;> rfl
  bounded := by rw [hmax]; exact hbounded
  within y hy := by
    rw [hwindow]
    rcases List.mem_append.mp hy with hy | hy
    · exact h.within y hy
    · obtain rfl := List.mem_singleton.mp hy
      exact hnow
  before := h.before
  openedIn I hI hstart := by
    rw [hwindow] at hI
    rw [hmax]
    exact h.openedIn I hI hstart
  beforeIn I hI := by
    rw [hwindow] at hI
    rw [hmax]
    exact h.beforeIn I hI

theorem start_le {now : θ} (h : Window r c old cur start count)
    (hlater : ∀ y ∈ old++cur,y.now ≤ now) : start ≤ now := by
  obtain ⟨x,rest,rfl,rfl,-⟩ := h.begins
  exact hlater x (by simp)

end Window

/-- After the answers `as` the client is unknown, or in a window. -/
def Tracks (r : RateLimiter κ θ) (c : κ) (as : List (Answer κ θ)) : Prop :=
  r.state c = none ∧ as = [] ∨
    ∃ old cur start count,as = old++cur ∧ Window r c old cur start count

theorem Tracks.hits_le {as : List (Answer κ θ)} (h : Tracks r c as) {I : θ → Bool}
    (hI : Short r.windowSeconds I) :
    hits I as ≤ 2*r.maxRequests-1 := by
  rcases h with ⟨-,rfl⟩ | ⟨old,cur,start,count,rfl,h⟩
  · exact Nat.zero_le _
  · exact h.hits_le_all hI

section intervals

variable [IsOrderedAddMonoid θ]

theorem short_closedOpen (window a : θ) : Short window fun t => a ≤ t && t < a+window where
  convex x y z hx hz hxy hyz := by
    simp only [Bool.and_eq_true,decide_eq_true_eq] at hx hz ⊢
    exact ⟨hx.1.trans hxy,lt_of_le_of_lt hyz hz.2⟩
  diameter x y hx hy := by
    simp only [Bool.and_eq_true,decide_eq_true_eq] at hx hy
    have hlt : y < x+window := lt_of_lt_of_le hy.2 (add_le_add_left hx.1 window)
    exact sub_lt_iff_lt_add'.mpr hlt

theorem short_openClosed (window a : θ) : Short window fun t => a < t && t ≤ a+window where
  convex x y z hx hz hxy hyz := by
    simp only [Bool.and_eq_true,decide_eq_true_eq] at hx hz ⊢
    exact ⟨lt_of_lt_of_le hx.1 hxy,hyz.trans hz.2⟩
  diameter x y hx hy := by
    simp only [Bool.and_eq_true,decide_eq_true_eq] at hx hy
    have hlt : y < x+window := lt_of_le_of_lt hy.2 (add_lt_add_left hx.1 window)
    exact sub_lt_iff_lt_add'.mpr hlt

/-- What is guaranteed stays guaranteed. -/
theorem Tracks.guarantees {as : List (Answer κ θ)} {x : Answer κ θ} (h : Tracks r c (as++[x]))
    (has : Guarantees r.maxRequests r.windowSeconds as)
    (hx : x.allowed = false →
      r.maxRequests ≤ hits (fun t => x.now-r.windowSeconds < t && t ≤ x.now) as) :
    Guarantees r.maxRequests r.windowSeconds (as++[x]) where
  closedOpen a := h.hits_le (short_closedOpen _ a)
  openClosed a := h.hits_le (short_openClosed _ a)
  window pre y mid post hsplit hy hmid := by
    rcases List.eq_nil_or_concat post with rfl | ⟨post,z,rfl⟩
    · rw [List.append_nil] at hsplit
      rcases h with ⟨-,hnil⟩ | ⟨old,cur,start,count,hcur,h⟩
      · simp at hnil
      · obtain ⟨x',rest,rfl,-,-,hopened,hrest⟩ := h.begins
        rw [last_opened (hsplit.symm.trans hcur) hy hmid hopened hrest,h.counted]
        exact h.bounded
    · rw [List.concat_eq_append,← List.append_assoc] at hsplit
      exact has.window pre y mid post (List.append_inj_left' hsplit rfl) hy hmid
  refused pre y post hsplit hy := by
    rcases List.eq_nil_or_concat post with rfl | ⟨post,z,rfl⟩
    · obtain ⟨rfl,hlast⟩ := List.append_inj' hsplit rfl
      obtain rfl : x = y := (List.cons.inj hlast).1
      exact hx hy
    · have hsplit' : as++[x] = (pre++y::post)++[z] := by
        rw [hsplit,List.concat_eq_append,List.append_assoc]
        rfl
      exact has.refused pre y post (List.append_inj_left' hsplit' rfl) hy

end intervals

variable [DecidableEq κ]

/-- The cases of a call. -/
theorem allow_cases (r : RateLimiter κ θ) (c : κ) (now : θ) :
    (r.state c = none ∧ r.opens c now = true ∧ r.allow c now = (true,r.set c (now,1))) ∨
    ∃ start count,r.state c = some (start,count) ∧
      ((r.windowSeconds ≤ now-start ∧ r.opens c now = true ∧
          r.allow c now = (true,r.set c (now,1))) ∨
        (now-start < r.windowSeconds ∧ r.opens c now = false ∧ count < r.maxRequests ∧
          r.allow c now = (true,r.set c (start,count+1))) ∨
        (now-start < r.windowSeconds ∧ r.opens c now = false ∧ r.maxRequests ≤ count ∧
          r.allow c now = (false,r))) := by
  rw [allow,opens]
  cases hstate : r.state c with
  | none => exact .inl ⟨rfl,rfl,rfl⟩
  | some entry =>
    obtain ⟨start,count⟩ := entry
    refine .inr ⟨start,count,rfl,?_⟩
    simp only
    by_cases hexpired : r.windowSeconds ≤ now-start
    · exact .inl ⟨hexpired,by simpa using hexpired,by rw [if_pos hexpired]⟩
    · have hlt : now-start < r.windowSeconds := lt_of_not_ge hexpired
      right
      rw [if_neg hexpired]
      by_cases hcount : count < r.maxRequests
      · exact .inl ⟨hlt,by simpa using hlt,hcount,by rw [if_pos hcount]⟩
      · exact .inr ⟨hlt,by simpa using hlt,by omega,by rw [if_neg hcount]⟩

@[simp] theorem set_maxRequests (r : RateLimiter κ θ) (c : κ) (entry : θ × Nat) :
    (r.set c entry).maxRequests = r.maxRequests := rfl

@[simp] theorem set_windowSeconds (r : RateLimiter κ θ) (c : κ) (entry : θ × Nat) :
    (r.set c entry).windowSeconds = r.windowSeconds := rfl

@[simp] theorem set_self (r : RateLimiter κ θ) (c : κ) (entry : θ × Nat) :
    (r.set c entry).state c = some entry := if_pos rfl

theorem set_other (r : RateLimiter κ θ) {c d : κ} (h : c ≠ d) (entry : θ × Nat) :
    (r.set d entry).state c = r.state c := if_neg h

theorem allow_params (r : RateLimiter κ θ) (c : κ) (now : θ) :
    (r.allow c now).2.maxRequests = r.maxRequests ∧
      (r.allow c now).2.windowSeconds = r.windowSeconds := by
  rcases allow_cases r c now with ⟨-,-,h⟩ | ⟨_,_,-,⟨-,-,h⟩ | ⟨-,-,-,h⟩ | ⟨-,-,-,h⟩⟩ <;>
    rw [h] <;> exact ⟨rfl,rfl⟩

/-- A call of another client does not matter. -/
theorem allow_other {d : κ} (h : c ≠ d) (now : θ) : SameFor c (r.allow d now).2 r := by
  obtain ⟨hmax,hwindow⟩ := allow_params r d now
  refine ⟨hmax,hwindow,?_⟩
  rcases allow_cases r d now with ⟨-,-,hr⟩ | ⟨_,_,-,⟨-,-,hr⟩ | ⟨-,-,-,hr⟩ | ⟨-,-,-,hr⟩⟩ <;> rw [hr]
  · exact set_other r h _
  · exact set_other r h _
  · exact set_other r h _

/-- A call of the client depends on nothing else. -/
theorem SameFor.allow (h : SameFor c r r') (now : θ) :
    (r.allow c now).1 = (r'.allow c now).1 ∧ r.opens c now = r'.opens c now ∧
      SameFor c (r.allow c now).2 (r'.allow c now).2 := by
  obtain ⟨hmax,hwindow,hstate⟩ := h
  refine ⟨?_,by rw [opens,opens,hstate,hwindow],?_⟩
  · rw [RateLimiter.allow,RateLimiter.allow,hstate,hmax,hwindow]
    cases r'.state c with
    | none => rfl
    | some entry => simp only; split_ifs <;> rfl
  · refine ⟨?_,?_,?_⟩
    · rw [(allow_params r c now).1,(allow_params r' c now).1,hmax]
    · rw [(allow_params r c now).2,(allow_params r' c now).2,hwindow]
    · rw [RateLimiter.allow,RateLimiter.allow,hstate,hmax,hwindow]
      cases hs : r'.state c with
      | none => simp
      | some entry => simp only; split_ifs <;> simp [hstate,hs]

/-- The answers a client gets depend on its own calls only. -/
theorem SameFor.answers (h : SameFor c r r') (calls : List (Call κ θ)) :
    own c (r.answers calls) = r'.answers (calls.filter fun call => call.client = c) := by
  induction calls generalizing r r' with
  | nil => rfl
  | cons call calls ih =>
    by_cases hc : call.client = c
    · subst hc
      obtain ⟨hanswer,hopens,hrest⟩ := h.allow call.now
      rw [RateLimiter.answers,own,List.filter_cons_of_pos (by simp),
        List.filter_cons_of_pos (by simp),RateLimiter.answers,hanswer,hopens]
      exact congrArg _ (ih hrest)
    · have hother := allow_other (r := r) (Ne.symm hc) call.now
      rw [RateLimiter.answers,own,List.filter_cons_of_neg (by simpa using hc),
        List.filter_cons_of_neg (by simpa using hc)]
      exact ih ⟨hother.maxRequests.trans h.maxRequests,
        hother.windowSeconds.trans h.windowSeconds,hother.state.trans h.state⟩

section step

variable [IsOrderedAddMonoid θ] {as : List (Answer κ θ)}

/-- A call that begins a window. -/
theorem Tracks.reopened (h : Tracks r c as) {now : θ} (hlater : ∀ y ∈ as,y.now ≤ now)
    (hexpired : ∀ start count,r.state c = some (start,count) → r.windowSeconds ≤ now-start) :
    Window (r.set c (now,1)) c as [⟨c,now,true,true⟩] now 1 where
  entry := set_self r c _
  begins := ⟨_,[],rfl,rfl,rfl,rfl,by simp⟩
  counted := rfl
  bounded := r.maxRequests_pos
  within y hy := by
    obtain rfl := List.mem_singleton.mp hy
    exact ⟨le_rfl,by simpa using r.window_pos⟩
  before := hlater
  openedIn I hI hnow := by
    rcases h with ⟨-,rfl⟩ | ⟨old,cur,start,count,rfl,h⟩
    · exact Nat.zero_le _
    · exact h.hits_reopened (hexpired _ _ h.entry) hI hnow
  beforeIn I hI := by
    rcases h with ⟨-,rfl⟩ | ⟨old,cur,start,count,rfl,h⟩
    · exact Nat.zero_le _
    · exact h.hits_le_all hI

/-- One call keeps track of the client. -/
theorem Tracks.step (h : Tracks r c as) {now : θ} (hlater : ∀ y ∈ as,y.now ≤ now) :
    Tracks (r.allow c now).2 c (as++[⟨c,now,(r.allow c now).1,r.opens c now⟩]) := by
  rcases allow_cases r c now with ⟨hstate,hopens,hallow⟩ | ⟨start,count,hstate,hcases⟩
  · rw [hopens,hallow]
    refine .inr ⟨as,_,now,1,rfl,h.reopened hlater ?_⟩
    intro start count hsome
    rw [hstate] at hsome
    cases hsome
  · rcases hcases with ⟨hexpired,hopens,hallow⟩ | hinside
    · rw [hopens,hallow]
      refine .inr ⟨as,_,now,1,rfl,h.reopened hlater ?_⟩
      intro start' count' hsome
      rw [hstate] at hsome
      obtain ⟨rfl,rfl⟩ := Prod.mk.inj (Option.some.inj hsome)
      exact hexpired
    · rcases h with ⟨hnone,-⟩ | ⟨old,cur,start',count',rfl,h⟩
      · rw [hnone] at hstate
        cases hstate
      · have hentry := h.entry
        rw [hstate] at hentry
        obtain ⟨rfl,rfl⟩ := Prod.mk.inj (Option.some.inj hentry)
        have hle := h.start_le hlater
        rcases hinside with ⟨hlt,hopens,hcount,hallow⟩ | ⟨hlt,hopens,hcount,hallow⟩
        · rw [hopens,hallow]
          refine .inr ⟨old,_,start,count+1,List.append_assoc _ _ _,?_⟩
          exact h.extended rfl rfl (set_self r c _) rfl hcount ⟨hle,hlt⟩
        · rw [hopens,hallow]
          refine .inr ⟨old,_,start,count,List.append_assoc _ _ _,?_⟩
          exact h.extended rfl rfl hstate rfl h.bounded ⟨hle,hlt⟩

/-- A refusal has the hits of its window behind it. -/
theorem Tracks.refused (h : Tracks r c as) {now : θ} (hlater : ∀ y ∈ as,y.now ≤ now)
    (hno : (r.allow c now).1 = false) :
    r.maxRequests ≤ hits (fun t => now-r.windowSeconds < t && t ≤ now) as := by
  rcases allow_cases r c now with ⟨-,-,hallow⟩ | ⟨start,count,hstate,hcases⟩
  · rw [hallow] at hno
    cases hno
  · rcases hcases with ⟨-,-,hallow⟩ | ⟨-,-,-,hallow⟩ | ⟨hlt,-,hcount,-⟩
    · rw [hallow] at hno
      cases hno
    · rw [hallow] at hno
      cases hno
    · rcases h with ⟨hnone,-⟩ | ⟨old,cur,start',count',rfl,h⟩
      · rw [hnone] at hstate
        cases hstate
      · have hentry := h.entry
        rw [hstate] at hentry
        obtain ⟨rfl,rfl⟩ := Prod.mk.inj (Option.some.inj hentry)
        have hcur : hits (fun t => now-r.windowSeconds < t && t ≤ now) cur = count := by
          rw [hits,← h.counted]
          apply List.countP_congr
          intro y hy
          have hrecent : now-r.windowSeconds < y.now :=
            lt_of_lt_of_le (sub_lt_comm.mp hlt) (h.within y hy).1
          have hle : y.now ≤ now := hlater y (List.mem_append_right _ hy)
          simp [hrecent,hle]
        rw [hits_append,hcur]
        omega

end step

variable [IsOrderedAddMonoid θ] {as : List (Answer κ θ)}

/-- A run of one client's calls. -/
theorem answers_guaranteed (h : Tracks r c as) (has : Guarantees r.maxRequests r.windowSeconds as)
    {calls : List (Call κ θ)} (hown : ∀ call ∈ calls,call.client = c)
    (hlater : ∀ y ∈ as,∀ call ∈ calls,y.now ≤ call.now)
    (hsorted : calls.Pairwise fun x y => x.now ≤ y.now) :
    Guarantees r.maxRequests r.windowSeconds (as++r.answers calls) := by
  induction calls generalizing r as with
  | nil => simpa [answers] using has
  | cons call calls ih =>
    obtain ⟨hfirst,hsorted⟩ := List.pairwise_cons.mp hsorted
    obtain rfl : call.client = c := hown call List.mem_cons_self
    have hbefore : ∀ y ∈ as,y.now ≤ call.now := fun y hy => hlater y hy call List.mem_cons_self
    obtain ⟨hmax,hwindow⟩ := allow_params r call.client call.now
    have hstep := h.step hbefore
    have hg : Guarantees (r.allow call.client call.now).2.maxRequests
        (r.allow call.client call.now).2.windowSeconds
        (as++[⟨call.client,call.now,(r.allow call.client call.now).1,
          r.opens call.client call.now⟩]) := by
      apply hstep.guarantees
      · rw [hmax,hwindow]
        exact has
      · intro hno
        rw [hmax,hwindow]
        exact h.refused hbefore hno
    have hrest := ih hstep hg (fun d hd => hown d (List.mem_cons_of_mem _ hd)) ?_ hsorted
    · rw [hmax,hwindow,List.append_assoc] at hrest
      exact hrest
    · intro y hy d hd
      rcases List.mem_append.mp hy with hy | hy
      · exact hlater y hy d (List.mem_cons_of_mem _ hd)
      · obtain rfl := List.mem_singleton.mp hy
        exact hfirst d hd

/-- Every run of a new limiter: the answers to a client depend on its own calls, and they are
within the limits if its times never decrease. -/
theorem init_guarantees {maxRequests : Int} {windowSeconds : θ} (hmax : 1 ≤ maxRequests)
    (hwindow : 0 < windowSeconds) :
    ∃ r : RateLimiter κ θ,init maxRequests windowSeconds = .ok r ∧ ∀ calls : List (Call κ θ),
      (∀ c,own c (r.answers calls) = r.answers (calls.filter fun call => call.client = c)) ∧
      ∀ c,(calls.filter fun call => call.client = c).Pairwise (fun x y => x.now ≤ y.now) →
        Guarantees maxRequests.toNat windowSeconds (own c (r.answers calls)) := by
  refine ⟨⟨maxRequests.toNat,windowSeconds,fun _ => none,by omega,hwindow⟩,?_,?_⟩
  · rw [init,dif_neg (by omega),dif_neg (not_le_of_gt hwindow)]
  · intro calls
    refine ⟨fun c => SameFor.answers ⟨rfl,rfl,rfl⟩ calls,?_⟩
    intro c hsorted
    rw [SameFor.answers ⟨rfl,rfl,rfl⟩]
    have hempty : Guarantees maxRequests.toNat windowSeconds ([] : List (Answer κ θ)) :=
      ⟨fun _ => Nat.zero_le _,fun _ => Nat.zero_le _,fun pre x mid post h => by simp at h,
        fun pre x post h => by simp at h⟩
    have hown : ∀ call ∈ calls.filter fun call => call.client = c,call.client = c := by
      intro call hcall
      simpa using (List.mem_filter.mp hcall).2
    exact @answers_guaranteed κ θ _ _ ⟨maxRequests.toNat,windowSeconds,fun _ => none,_,hwindow⟩ c
      _ _ [] (.inl ⟨rfl,rfl⟩) hempty _ hown (by simp) hsorted

/-- Two clients; the first asks four times in one window and once after it. -/
def interleavedCalls : List (Call Nat Int) := [⟨1,0⟩,⟨1,1⟩,⟨2,1⟩,⟨1,2⟩,⟨1,3⟩,⟨1,11⟩]

/-- Three requests in ten seconds: the fourth is refused, and the other client is not charged. -/
theorem three_guarantees : ∃ r : RateLimiter Nat Int,init 3 10 = .ok r ∧
    (r.answers interleavedCalls).map (fun a => (a.client,a.allowed,a.opened)) =
      [(1,true,true),(1,true,false),(2,true,true),(1,true,false),(1,false,false),(1,true,true)] ∧
    own 1 (r.answers interleavedCalls) = r.answers [⟨1,0⟩,⟨1,1⟩,⟨1,2⟩,⟨1,3⟩,⟨1,11⟩] ∧
    Guarantees 3 10 (own 1 (r.answers interleavedCalls)) := by
  have hanswers : (init 3 10 : Except String (RateLimiter Nat Int)).toOption.map (fun r =>
      (r.answers interleavedCalls).map fun a => (a.client,a.allowed,a.opened)) =
        some [(1,true,true),(1,true,false),(2,true,true),(1,true,false),(1,false,false),
          (1,true,true)] := by decide
  have hsorted : (interleavedCalls.filter fun call => call.client = 1).Pairwise
      fun x y => x.now ≤ y.now := by decide
  obtain ⟨r,hr,h⟩ := @init_guarantees Nat Int _ _ _ _ 3 10 (by decide) (by decide)
  have hown := (h interleavedCalls).1 1
  have hlimits := (h interleavedCalls).2 1 hsorted
  rw [hr] at hanswers
  exact ⟨r,hr,Option.some.inj hanswers,hown,hlimits⟩

end RateLimiter

end SoftwareFactory.Security
