import SoftwareFactory.Lib.Splice

namespace Regex

/-- A position in a text with the groups captured on the way to it; `before` is what stands
before the position, last character first. -/
structure Cursor where
  before : List Char
  after : List Char
  groups : List (List Char) := []

/-- The patterns of a backtracking matcher. Repetition is over single characters; groups do
not nest. -/
inductive Pattern where
  | empty
  | char (p : Char → Bool)
  | seq (a b : Pattern)
  | alt (a b : Pattern)
  | many (p : Char → Bool) (min : Nat)
  | lazy (p : Char → Bool) (min : Nat)
  | group (a : Pattern)
  | ahead (a : Pattern)
  | atStart
  | atEnd
  | boundary (word : Char → Bool)

/-- The ways to repeat a character class at least `min` times, the longest first. -/
def manyFrom (p : Char → Bool) : Nat → List Char → List Char → List Cursor
  | min,before,[] => if min = 0 then [⟨before,[],[]⟩] else []
  | min,before,c::cs =>
    (if p c then manyFrom p (min-1) (c::before) cs else [])++
      if min = 0 then [⟨before,c::cs,[]⟩] else []

/-- The same ways, the shortest first. -/
def lazyFrom (p : Char → Bool) : Nat → List Char → List Char → List Cursor
  | min,before,[] => if min = 0 then [⟨before,[],[]⟩] else []
  | min,before,c::cs =>
    (if min = 0 then [⟨before,c::cs,[]⟩] else [])++
      if p c then lazyFrom p (min-1) (c::before) cs else []

/-- `$`: the end of the text, or the line break that ends it. -/
def endsHere (after : List Char) : Bool := after == [] || after == ['\n']

def atBoundary (word : Char → Bool) (s : Cursor) : Bool :=
  s.before.head?.any word != s.after.head?.any word

namespace Pattern

/-- The positions a match may end at, in the order in which a backtracking matcher finds
them. -/
def run : Pattern → Cursor → List Cursor
  | empty,s => [s]
  | char p,s =>
    match s.after with
    | [] => []
    | c::cs => if p c then [⟨c::s.before,cs,s.groups⟩] else []
  | seq a b,s => (a.run s).flatMap b.run
  | alt a b,s => a.run s++b.run s
  | many p n,s => (manyFrom p n s.before s.after).map fun t => { t with groups := s.groups }
  | lazy p n,s => (lazyFrom p n s.before s.after).map fun t => { t with groups := s.groups }
  | group a,s => (a.run s).map fun t =>
    { t with groups := t.groups++[s.after.take (s.after.length-t.after.length)] }
  | ahead a,s => if (a.run s).isEmpty then [] else [s]
  | atStart,s => if s.before.isEmpty then [s] else []
  | atEnd,s => if endsHere s.after then [s] else []
  | boundary word,s => if atBoundary word s then [s] else []

def opt (a : Pattern) : Pattern := alt a empty

def seqs : List Pattern → Pattern
  | [] => empty
  | a::as => seq a (seqs as)

def alts : List Pattern → Pattern
  | [] => alt empty empty
  | [a] => a
  | a::as => alt a (alts as)

/-- Literal text; `fold` identifies what the flags of the pattern do not tell apart. -/
def text (fold : Char → Char) (s : String) : Pattern :=
  seqs (s.toList.map fun c => char fun x => fold x == fold c)

end Pattern

/-- `re.IGNORECASE`, on the letters patterns are written with: beside the ASCII letters, four
other characters match an ASCII letter. -/
def foldCase (c : Char) : Char :=
  match c.toNat with
  | 0x130 => 'i'
  | 0x131 => 'i'
  | 0x17f => 's'
  | 0x212a => 'k'
  | 0xd3 => Char.ofNat 0xf3
  | _ => c.toLower

structure Match where
  text : List Char
  groups : List (List Char)

/-- The text kept of a match, followed by a mark. -/
def keepGroup (mark : List Char) (m : Match) : List Char := m.groups.headD []++mark

namespace Pattern

/-- The match at a position. -/
def first (r : Pattern) (before after : List Char) : Option Match :=
  (r.run ⟨before,after,[]⟩).head?.map fun t =>
    ⟨after.take (after.length-t.after.length),t.groups⟩

/-- `re.search`: the leftmost match. -/
def search (r : Pattern) (before : List Char) : List Char → Option Match
  | [] => r.first before []
  | c::cs => (r.first before (c::cs)).or (search r (c::before) cs)

end Pattern

namespace Pattern

/-- The match at a position, with its length. The patterns that texts are cut at match no
empty text. -/
def next (r : Pattern) (before after : List Char) : Option (Nat × Match) :=
  (r.first before after).map fun m => (m.text.length,m)

/-- `re.sub`. -/
def sub (r : Pattern) (repl : Match → List Char) (s : List Char) : List Char :=
  Splice.render repl (Splice.cut r.next 0 [] s)

/-- `re.findall`. -/
def findall (r : Pattern) (s : List Char) : List Match :=
  (Splice.cut r.next 0 [] s).filterMap Sum.getRight?

/-- `re.split`, for a pattern without groups. -/
def split (r : Pattern) (s : List Char) : List (List Char) :=
  Splice.segments (Splice.cut r.next 0 [] s)

end Pattern

/-- A position further on in the same text, with no group lost. -/
structure Cursor.Reaches (s t : Cursor) (w : List Char) (gs : List (List Char)) : Prop where
  after : s.after = w++t.after
  before : t.before = w.reverse++s.before
  groups : t.groups = s.groups++gs

theorem Cursor.Reaches.refl (s : Cursor) : s.Reaches s [] [] :=
  ⟨rfl,rfl,(List.append_nil _).symm⟩

theorem Cursor.Reaches.trans {s t u : Cursor} {v w : List Char} {gs hs : List (List Char)}
    (h : s.Reaches t v gs) (h' : t.Reaches u w hs) : s.Reaches u (v++w) (gs++hs) := by
  refine ⟨?_,?_,?_⟩
  · rw [h.after,h'.after,List.append_assoc]
  · rw [h'.before,h.before,List.reverse_append,List.append_assoc]
  · rw [h'.groups,h.groups,List.append_assoc]

/-- The text between two positions is what the matcher took. -/
theorem Cursor.Reaches.take {s t : Cursor} {w : List Char} {gs : List (List Char)}
    (h : s.Reaches t w gs) : s.after.take (s.after.length-t.after.length) = w := by
  rw [h.after]
  simp

theorem mem_manyFrom {p : Char → Bool} {n : Nat} {before after : List Char} {t : Cursor} :
    t ∈ manyFrom p n before after ↔
      ∃ w,n ≤ w.length ∧ (∀ c ∈ w,p c = true) ∧ after = w++t.after ∧
        t.before = w.reverse++before ∧ t.groups = [] := by
  induction after generalizing n before with
  | nil =>
    rw [manyFrom]
    constructor
    · intro h
      split_ifs at h with hn
      · obtain rfl := List.mem_singleton.mp h
        exact ⟨[],by omega,by simp,rfl,rfl,rfl⟩
      · simp at h
    · intro hparts
      obtain ⟨w,hn,-,hw,hb,hg⟩ := hparts
      obtain ⟨rfl,ht⟩ := List.append_eq_nil_iff.mp hw.symm
      have hn0 : n = 0 := by simpa using hn
      obtain ⟨tb,ta,tg⟩ := t
      simp only [List.reverse_nil,List.nil_append] at ht hb hg
      rw [if_pos hn0,List.mem_singleton,ht,hb,hg]
  | cons c cs ih =>
    rw [manyFrom,List.mem_append]
    constructor
    · intro hcase
      rcases hcase with h | h
      · split_ifs at h with hc
        · obtain ⟨w,hn,hp,hcs,hb,hg⟩ := ih.mp h
          refine ⟨c::w,?_,?_,by rw [hcs]; rfl,by rw [hb]; simp,hg⟩
          · simp only [List.length_cons]
            omega
          · intro d hd
            rcases List.mem_cons.mp hd with rfl | hd
            · exact hc
            · exact hp d hd
        · simp at h
      · split_ifs at h with hn
        · obtain rfl := List.mem_singleton.mp h
          exact ⟨[],by omega,by simp,rfl,rfl,rfl⟩
        · simp at h
    · intro hparts
      obtain ⟨w,hn,hp,hw,hb,hg⟩ := hparts
      cases w with
      | nil =>
        right
        have hn0 : n = 0 := by simpa using hn
        obtain ⟨tb,ta,tg⟩ := t
        simp only [List.nil_append,List.reverse_nil] at hw hb hg
        rw [if_pos hn0,List.mem_singleton,hw,hb,hg]
      | cons d ds =>
        left
        obtain ⟨rfl,hcs⟩ := List.cons.inj hw
        rw [if_pos (hp c List.mem_cons_self)]
        refine ih.mpr ⟨ds,?_,fun e he => hp e (List.mem_cons_of_mem _ he),hcs,by simpa using hb,hg⟩
        simp only [List.length_cons] at hn
        omega

/-- Lazy repetition finds what greedy repetition finds. -/
theorem mem_lazyFrom {p : Char → Bool} {n : Nat} {before after : List Char} {t : Cursor} :
    t ∈ lazyFrom p n before after ↔ t ∈ manyFrom p n before after := by
  induction after generalizing n before with
  | nil => rfl
  | cons c cs ih =>
    rw [lazyFrom,manyFrom,List.mem_append,List.mem_append,or_comm]
    split_ifs <;> simp [ih]

/-- A test of the position takes nothing. -/
theorem Cursor.Reaches.of_test {c : Prop} [Decidable c] {s t : Cursor}
    (h : t ∈ if c then [s] else []) : ∃ w gs,s.Reaches t w gs := by
  split_ifs at h
  · obtain rfl := List.mem_singleton.mp h
    exact ⟨[],[],Cursor.Reaches.refl _⟩
  · simp at h

namespace Pattern

/-- A match takes a stretch of the text and may add groups. -/
theorem run_reaches {r : Pattern} {s t : Cursor} (h : t ∈ r.run s) : ∃ w gs,s.Reaches t w gs := by
  induction r generalizing s t with
  | empty =>
    obtain rfl := List.mem_singleton.mp h
    exact ⟨[],[],Cursor.Reaches.refl _⟩
  | char p =>
    rw [run] at h
    cases hs : s.after with
    | nil => simp [hs] at h
    | cons c cs =>
      simp only [hs] at h
      split_ifs at h with hc
      · obtain rfl := List.mem_singleton.mp h
        exact ⟨[c],[],hs,rfl,(List.append_nil _).symm⟩
      · simp at h
  | seq a b iha ihb =>
    obtain ⟨u,hu,ht⟩ := List.mem_flatMap.mp h
    obtain ⟨v,gs,hv⟩ := iha hu
    obtain ⟨w,hs,hw⟩ := ihb ht
    exact ⟨_,_,hv.trans hw⟩
  | alt a b iha ihb =>
    rcases List.mem_append.mp h with h | h
    · exact iha h
    · exact ihb h
  | many p n =>
    obtain ⟨u,hu,rfl⟩ := List.mem_map.mp h
    obtain ⟨w,-,-,ha,hb,-⟩ := mem_manyFrom.mp hu
    exact ⟨w,[],ha,hb,(List.append_nil _).symm⟩
  | lazy p n =>
    obtain ⟨u,hu,rfl⟩ := List.mem_map.mp h
    obtain ⟨w,-,-,ha,hb,-⟩ := mem_manyFrom.mp (mem_lazyFrom.mp hu)
    exact ⟨w,[],ha,hb,(List.append_nil _).symm⟩
  | group a ih =>
    obtain ⟨u,hu,rfl⟩ := List.mem_map.mp h
    obtain ⟨w,gs,hw⟩ := ih hu
    exact ⟨w,gs++[w],hw.after,hw.before,by rw [hw.take,hw.groups,List.append_assoc]⟩
  | ahead a ih =>
    rw [run] at h
    split_ifs at h
    · simp at h
    · obtain rfl := List.mem_singleton.mp h
      exact ⟨[],[],Cursor.Reaches.refl _⟩
  | atStart => exact Cursor.Reaches.of_test h
  | atEnd => exact Cursor.Reaches.of_test h
  | boundary word => exact Cursor.Reaches.of_test h

/-- A pattern without groups. -/
def plain : Pattern → Bool
  | seq a b => a.plain && b.plain
  | alt a b => a.plain && b.plain
  | group _ => false
  | _ => true

theorem run_plain {r : Pattern} {s t : Cursor} (hr : r.plain = true) (h : t ∈ r.run s) :
    t.groups = s.groups := by
  induction r generalizing s t with
  | seq a b iha ihb =>
    rw [plain,Bool.and_eq_true] at hr
    obtain ⟨u,hu,ht⟩ := List.mem_flatMap.mp h
    rw [ihb hr.2 ht,iha hr.1 hu]
  | alt a b iha ihb =>
    rw [plain,Bool.and_eq_true] at hr
    rcases List.mem_append.mp h with h | h
    · exact iha hr.1 h
    · exact ihb hr.2 h
  | group a => exact absurd hr (by simp [plain])
  | char p =>
    rw [run] at h
    cases hs : s.after <;> simp only [hs] at h
    · simp at h
    · split_ifs at h <;> simp_all
  | empty | ahead | atStart | atEnd | boundary =>
    rw [run] at h
    simp_all
  | many p n | lazy p n =>
    obtain ⟨u,-,rfl⟩ := List.mem_map.mp h
    rfl

/-- A match is a stretch of the text from the position on. -/
theorem first_eq_some {r : Pattern} {before after : List Char} {m : Match}
    (h : r.first before after = some m) :
    ∃ t ∈ r.run ⟨before,after,[]⟩,m.groups = t.groups ∧ after = m.text++t.after := by
  rw [first,Option.map_eq_some_iff] at h
  obtain ⟨t,ht,rfl⟩ := h
  have hmem := List.mem_of_head? ht
  obtain ⟨w,gs,hw⟩ := run_reaches hmem
  refine ⟨t,hmem,rfl,?_⟩
  have hw' := hw.take
  simp only at hw' ⊢
  rw [hw']
  exact hw.after

/-- A pattern that opens with a group captures the front of its match. -/
theorem first_group {a b : Pattern} {before after : List Char} {m : Match} (ha : a.plain = true)
    (h : (seq (group a) b).first before after = some m) :
    ∃ g gs,m.groups = g::gs ∧ g <+: after := by
  obtain ⟨t,ht,hg,-⟩ := first_eq_some h
  obtain ⟨u,hu,ht⟩ := List.mem_flatMap.mp ht
  obtain ⟨v,hv,rfl⟩ := List.mem_map.mp hu
  obtain ⟨g,_,hgv⟩ := run_reaches hv
  obtain ⟨w,gs,hw⟩ := run_reaches ht
  refine ⟨g,gs,?_,v.after,hgv.after.symm⟩
  have htake := hgv.take
  simp only at htake
  rw [hg,hw.groups,run_plain ha hv,htake]
  rfl

/-- Substitution that keeps what the opening group captured leaves stretches of the text with
marks between them. -/
theorem sub_spliced {a b : Pattern} {mark s : List Char} (ha : a.plain = true) :
    Splice.Spliced (· <:+: s) mark ((seq (group a) b).sub (keepGroup mark) s) := by
  apply Splice.cut_spliced
  · intro gap hgap _
    exact hgap.isInfix
  · intro before gap rest n m hs _ hnext
    rw [next,Option.map_eq_some_iff] at hnext
    obtain ⟨m',hm,heq⟩ := hnext
    obtain ⟨-,rfl⟩ := Prod.mk.inj heq
    obtain ⟨g,gs,hg,rest',rfl⟩ := first_group ha hm
    refine ⟨g,by rw [keepGroup,hg,List.headD_cons],?_⟩
    have hinfix : gap++g <:+: gap++(g++rest') := ⟨[],rest',by simp⟩
    exact hinfix.trans hs.isInfix

end Pattern

end Regex
