import Mathlib.Data.List.Infix

namespace LexicalPath

abbrev Segment := List Char

def dotDot : Segment := ['.','.']

/-- A path in which every `..` that could cancel a name has done so. -/
@[ext] structure LexPath where
  rooted : Bool
  up : Nat
  names : List Segment
  deriving DecidableEq, Repr

namespace LexPath

/-- The directory so many levels up; the root has none above it. -/
def climb (p : LexPath) (k : Nat) : LexPath where
  rooted := p.rooted
  up := if p.rooted then p.up else p.up+(k-p.names.length)
  names := p.names.take (p.names.length-k)

def push (p : LexPath) (s : Segment) : LexPath :=
  if s = dotDot then p.climb 1 else { p with names := p.names++[s] }

def resolveFrom (p : LexPath) (segments : List Segment) : LexPath := segments.foldl push p

def resolve (rooted : Bool) (segments : List Segment) : LexPath :=
  resolveFrom ⟨rooted,0,[]⟩ segments

/-- A relative path read from a directory. -/
def join (p r : LexPath) : LexPath :=
  { p.climb r.up with names := (p.climb r.up).names++r.names }

theorem climb_zero (p : LexPath) : p.climb 0 = p := by
  ext1 <;> simp [climb]

theorem climb_climb (p : LexPath) (a b : Nat) : (p.climb a).climb b = p.climb (a+b) := by
  have hlen : (p.names.take (p.names.length-a)).length = p.names.length-a := by simp
  ext1
  · rfl
  · simp only [climb,hlen]
    split_ifs
    · rfl
    · omega
  · simp only [climb,hlen,List.take_take]
    congr 1
    omega

/-- One level up from a name is one name less. -/
theorem climb_join (p r : LexPath) (h : 1 ≤ r.names.length) :
    (p.join r).climb 1 = p.join { r with names := r.names.take (r.names.length-1) } := by
  have hlen : (p.join r).names.length = (p.climb r.up).names.length+r.names.length := by
    simp [join]
  ext1
  · rfl
  · have hup : (p.join r).up+(1-(p.join r).names.length) = (p.join r).up := by omega
    change (if (p.join r).rooted then _ else _) = (p.join r).up
    rw [hup,ite_self]
  · change (p.join r).names.take ((p.join r).names.length-1) =
      (p.climb r.up).names++r.names.take (r.names.length-1)
    rw [hlen,join,List.take_append,List.take_of_length_le (by omega)]
    congr 2
    omega

theorem push_join (p r : LexPath) (hr : r.rooted = false) (s : Segment) :
    (p.join r).push s = p.join (r.push s) := by
  by_cases hs : s = dotDot
  · rw [push,push,if_pos hs,if_pos hs]
    cases hn : r.names with
    | nil =>
      have hjoin : p.join r = p.climb r.up := by simp [join,hn]
      have hclimb : r.climb 1 = ⟨false,r.up+1,[]⟩ := by simp [climb,hn,hr]
      rw [hjoin,hclimb,climb_climb]
      simp [join]
    | cons n ns =>
      have hlen : 1 ≤ r.names.length := by simp [hn]
      have hclimb : r.climb 1 = { r with names := r.names.take (r.names.length-1) } := by
        ext1
        · rfl
        · simp only [climb,hr,Bool.false_eq_true,if_false]
          omega
        · rfl
      rw [climb_join p r hlen,hclimb]
  · rw [push,push,if_neg hs,if_neg hs]
    simp [join]

theorem push_rooted (p : LexPath) (s : Segment) : (p.push s).rooted = p.rooted := by
  rw [push]
  split_ifs <;> rfl

/-- Reading a relative path segment by segment from a directory, or reduced to its normal form
first, comes to the same place. -/
theorem resolveFrom_eq_join (p : LexPath) (segments : List Segment) :
    p.resolveFrom segments = p.join (resolve false segments) := by
  have hgen (r : LexPath) (hr : r.rooted = false) :
      (p.join r).resolveFrom segments = p.join (r.resolveFrom segments) := by
    induction segments generalizing r with
    | nil => rfl
    | cons s ss ih =>
      have hr' : (r.push s).rooted = false := by rw [push_rooted,hr]
      change ((p.join r).push s).resolveFrom ss = p.join ((r.push s).resolveFrom ss)
      rw [push_join p r hr,ih _ hr']
  have hstart : p.join ⟨false,0,[]⟩ = p := by simp [join,climb_zero]
  have h := hgen ⟨false,0,[]⟩ rfl
  rw [hstart] at h
  exact h

/-- `d` lies strictly below `w`. -/
def Under (w d : LexPath) : Prop :=
  d.rooted = w.rooted ∧ d.up = w.up ∧ ∃ rest,rest ≠ [] ∧ d.names = w.names++rest

/-- `d` is `w` or one of the directories above it. -/
def Above (w d : LexPath) : Prop := ∃ k,d = w.climb k

/-- A relative path leaves the directory: after climbing it comes down beside the names that
it climbed over, or, climbing past a relative directory's first name, comes down at all. -/
def Escapes (w r : LexPath) : Prop :=
  if w.rooted ∨ r.up ≤ w.names.length then
    ¬ r.names <+: w.names.drop (w.names.length-r.up) ∧
      ¬ w.names.drop (w.names.length-r.up) <+: r.names
  else r.names ≠ []

theorem climb_up {w : LexPath} {k : Nat} (h : w.rooted ∨ k ≤ w.names.length) :
    (w.climb k).up = w.up := by
  rw [climb]
  simp only
  split_ifs with hr
  · rfl
  · have hk := h.resolve_left hr
    omega

theorem join_under {w r : LexPath} (h : w.rooted ∨ r.up ≤ w.names.length) :
    Under w (w.join r) ↔
      ∃ rest,rest ≠ [] ∧ r.names = w.names.drop (w.names.length-r.up)++rest := by
  have hsplit := List.take_append_drop (w.names.length-r.up) w.names
  have hnames : (w.join r).names = w.names.take (w.names.length-r.up)++r.names := rfl
  have hcancel (rest : List Segment) : (w.join r).names = w.names++rest ↔
      r.names = w.names.drop (w.names.length-r.up)++rest := by
    rw [hnames]
    nth_rewrite 3 [← hsplit]
    rw [List.append_assoc,List.append_cancel_left_eq]
  constructor
  · intro hparts
    obtain ⟨-,-,rest,hne,hrest⟩ := hparts
    exact ⟨rest,hne,(hcancel rest).mp hrest⟩
  · intro hparts
    obtain ⟨rest,hne,hrest⟩ := hparts
    exact ⟨rfl,climb_up h,rest,hne,(hcancel rest).mpr hrest⟩

theorem join_above {w r : LexPath} (h : w.rooted ∨ r.up ≤ w.names.length) :
    Above w (w.join r) ↔ r.names <+: w.names.drop (w.names.length-r.up) := by
  have hsplit := List.take_append_drop (w.names.length-r.up) w.names
  have hnames : (w.join r).names = w.names.take (w.names.length-r.up)++r.names := rfl
  constructor
  · intro hparts
    obtain ⟨j,hj⟩ := hparts
    have hpre : w.names.take (w.names.length-r.up)++r.names <+:
        w.names.take (w.names.length-r.up)++w.names.drop (w.names.length-r.up) := by
      rw [hsplit,← hnames,hj]
      exact List.take_prefix _ _
    exact (List.prefix_append_right_inj _).mp hpre
  · intro hparts
    obtain ⟨rest,hrest⟩ := hparts
    have hw : w.names = (w.join r).names++rest := by
      rw [hnames,List.append_assoc,hrest,hsplit]
    have hlen := congrArg List.length hw
    rw [List.length_append] at hlen
    refine ⟨rest.length,?_⟩
    ext1
    · rfl
    · rw [climb_up (.inr (by omega))]
      exact climb_up h
    · change (w.join r).names = w.names.take (w.names.length-rest.length)
      nth_rewrite 2 [hw]
      rw [List.take_append_of_le_length (by omega),List.take_of_length_le (by omega)]

/-- A relative path either escapes, or leads below the directory, or to the directory itself
or one above it. -/
theorem not_escapes_iff (w r : LexPath) :
    ¬ Escapes w r ↔ Under w (w.join r) ∨ Above w (w.join r) := by
  rw [Escapes]
  by_cases h : w.rooted ∨ r.up ≤ w.names.length
  · rw [if_pos h,join_under h,join_above h,not_and_or,not_not,not_not,or_comm]
    constructor
    · intro hcase
      rcases hcase with ⟨rest,hrest⟩ | hpre
      · by_cases hne : rest = []
        · right
          exact ⟨[],by rw [← hrest,hne]; simp⟩
        · exact .inl ⟨rest,hne,hrest.symm⟩
      · exact .inr hpre
    · intro hcase
      rcases hcase with ⟨rest,-,hrest⟩ | hpre
      · exact .inl ⟨rest,hrest.symm⟩
      · exact .inr hpre
  · rw [if_neg h,not_not]
    have hroot : w.rooted = false := by
      by_contra hr
      exact h (.inl (by simpa using hr))
    have hk : w.names.length < r.up := by
      by_contra hle
      exact h (.inr (by omega))
    have hup : (w.join r).up = w.up+(r.up-w.names.length) := by
      simp [join,climb,hroot]
    have hnames : (w.join r).names = r.names := by
      have h0 : w.names.length-r.up = 0 := by omega
      simp [join,climb,h0]
    constructor
    · intro hnil
      right
      refine ⟨r.up,?_⟩
      simp [join,hnil]
    · intro hcase
      rcases hcase with ⟨-,hu,-⟩ | ⟨j,hj⟩
      · omega
      · have hju : (w.climb j).up = w.up+(j-w.names.length) := by simp [climb,hroot]
        rw [hj,hju] at hup
        have h0 : w.names.length-j = 0 := by omega
        rw [← hnames,hj]
        simp [climb,h0]

end LexPath

end LexicalPath
