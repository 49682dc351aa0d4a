import SoftwareFactory.Lib.Splice

namespace PyText

/-- The characters `str.strip` removes and `str.isspace` accepts. -/
def isSpace (c : Char) : Bool :=
  let n := c.toNat
  (9 ≤ n && n ≤ 13) || (28 ≤ n && n ≤ 32) || n == 0x85 || n == 0xa0 || n == 0x1680 ||
    (0x2000 ≤ n && n ≤ 0x200a) || n == 0x2028 || n == 0x2029 || n == 0x202f ||
    n == 0x205f || n == 0x3000

/-- `str.lower` on one character: ASCII letters, and the Kelvin sign, the one other
character whose lower case is an ASCII letter. Other characters stand for themselves. -/
def lowerChar (c : Char) : Char := if c.toNat = 0x212a then 'k' else c.toLower

def lower (s : String) : String := String.ofList (s.toList.map lowerChar)

/-- `str.upper` on ASCII letters. -/
def upper (s : String) : String := String.ofList (s.toList.map Char.toUpper)

def strip (s : String) : String :=
  String.ofList (((s.toList.dropWhile isSpace).reverse.dropWhile isSpace).reverse)

/-- `s.lstrip(chars)`. -/
def lstripChars (chars : List Char) (s : String) : String :=
  String.ofList (s.toList.dropWhile fun c => c ∈ chars)

def isLineBreak (c : Char) : Bool :=
  let n := c.toNat
  (10 ≤ n && n ≤ 13) || (28 ≤ n && n ≤ 30) || n == 0x85 || n == 0x2028 || n == 0x2029

/-- The lines of a text, `line` being the characters read of the current one, reversed. -/
def splitLinesFrom (line : List Char) : List Char → List (List Char)
  | [] => if line = [] then [] else [line.reverse]
  | '\r' :: '\n' :: cs => line.reverse :: splitLinesFrom [] cs
  | c::cs =>
    if isLineBreak c then line.reverse :: splitLinesFrom [] cs
    else splitLinesFrom (c::line) cs

/-- `str.splitlines`. -/
def splitLines (s : String) : List String := (splitLinesFrom [] s.toList).map String.ofList

/-- `needle in s`. -/
def contains (s needle : String) : Bool := decide (needle.toList <:+: s.toList)

theorem contains_append_left {s needle : String} (t : String) (h : contains s needle = true) :
    contains (s++t) needle = true := by
  simp only [contains,decide_eq_true_eq,String.toList_append] at h ⊢
  exact h.trans (List.prefix_append _ _).isInfix

/-- Lowering keeps every occurrence of a needle that is in lower case already. -/
theorem contains_lower {s needle : String} (hn : lower needle = needle)
    (h : contains s needle = true) : contains (lower s) needle = true := by
  simp only [contains,decide_eq_true_eq] at h ⊢
  obtain ⟨a,b,hs⟩ := h
  have hl : needle.toList.map lowerChar = needle.toList := by
    have := congrArg String.toList hn
    simpa [lower] using this
  refine ⟨a.map lowerChar,b.map lowerChar,?_⟩
  rw [lower,String.toList_ofList,← hs,List.map_append,List.map_append,hl]

/-- `s.strip(..)` of the characters in a class. -/
def stripBy (p : Char → Bool) (s : List Char) : List Char :=
  ((s.dropWhile p).reverse.dropWhile p).reverse

/-- Where a replacement starts. -/
def starts (old : List Char) (_ after : List Char) : Option (Nat × Unit) :=
  if old <+: after then some (old.length,()) else none

/-- `s.replace(old, new)`, for an `old` that is not empty. -/
def replace (s old new : List Char) : List Char :=
  Splice.render (fun _ => new) (Splice.cut (starts old) 0 [] s)

/-- `s.split(sep)`, for a separator that is not empty. -/
def split (sep s : List Char) : List (List Char) := Splice.segments (Splice.cut (starts sep) 0 [] s)

/-- `s.split(maxsplit=1)`. -/
def splitOnce (s : List Char) : List (List Char) :=
  let s := s.dropWhile isSpace
  let rest := (s.dropWhile fun c => !isSpace c).dropWhile isSpace
  if s = [] then []
  else if rest = [] then [s.takeWhile fun c => !isSpace c]
  else [s.takeWhile fun c => !isSpace c,rest]

/-- `s.splitlines()`. -/
def lines (s : List Char) : List (List Char) := splitLinesFrom [] s

theorem not_infix_of_passed {old gap rest : List Char} (hold : old ≠ [])
    (h : Splice.Passed (starts old) gap rest) : ¬ old <:+: gap := by
  intro hparts
  obtain ⟨x,y,hxy⟩ := hparts
  have hgap : gap = x++(old++y) := by rw [← hxy,List.append_assoc]
  obtain ⟨before,hb⟩ := h x (old++y) hgap (by simp [hold])
  have hpos := List.length_pos_iff.mpr hold
  have hpre : old <+: old++y++rest := ⟨y++rest,by simp⟩
  refine hb (old.length-1) () ?_
  rw [starts,if_pos hpre]
  congr 2
  omega

/-- Replacement leaves stretches of the text without the replaced text, and the new text
between them. -/
theorem replace_spliced {s old new : List Char} (hold : old ≠ []) :
    Splice.Spliced (fun gap => gap <:+: s ∧ ¬ old <:+: gap) new (replace s old new) := by
  apply Splice.cut_spliced
  · intro gap hgap hpassed
    exact ⟨hgap.isInfix,not_infix_of_passed hold hpassed⟩
  · intro before gap rest n v hs hpassed _
    refine ⟨[],rfl,?_⟩
    rw [List.append_nil]
    exact ⟨(List.prefix_append gap rest).isInfix.trans hs.isInfix,
      not_infix_of_passed hold hpassed⟩

/-- Replacing one character by another. -/
theorem replace_char (a b : Char) (s : List Char) :
    replace s [a] [b] = s.map fun c => if c = a then b else c := by
  have hcut (before : List Char) : Splice.render (fun _ => [b])
      (Splice.cut (starts [a]) 0 before s) = s.map fun c => if c = a then b else c := by
    induction s generalizing before with
    | nil => rfl
    | cons c cs ih =>
      rw [Splice.cut,starts]
      by_cases hc : c = a
      · subst hc
        simp [ih]
      · have hpre : ¬ [a] <+: c::cs := by
          intro h
          obtain ⟨t,ht⟩ := h
          exact hc (List.cons.inj ht).1.symm
        rw [if_neg hpre]
        simp [ih,hc]
  exact hcut []

/-- A front whose ends are not stripped stays. -/
theorem stripBy_append {p : Char → Bool} {x r : List Char} {c d : Char}
    (hhead : x.head? = some c) (hc : p c = false) (hlast : x.getLast? = some d)
    (hd : p d = false) : ∃ r',stripBy p (x++r) = x++r' := by
  have hfront : (x++r).dropWhile p = x++r := by
    cases x with
    | nil => simp at hhead
    | cons y ys =>
      obtain rfl := Option.some.inj hhead
      rw [List.cons_append,List.dropWhile_cons,if_neg (by simp [hc])]
  have hback : x.reverse.dropWhile p = x.reverse := by
    rw [← List.head?_reverse] at hlast
    cases hx : x.reverse with
    | nil => simp [hx] at hlast
    | cons y ys =>
      rw [hx] at hlast
      obtain rfl := Option.some.inj hlast
      rw [List.dropWhile_cons,if_neg (by simp [hd])]
  refine ⟨(r.reverse.dropWhile p).reverse,?_⟩
  rw [stripBy,hfront,List.reverse_append,List.dropWhile_append]
  split_ifs with hr
  · rw [List.isEmpty_iff] at hr
    simp [hback,hr]
  · simp

theorem splitLinesFrom_head {line : List Char} (h : line ≠ []) (s : List Char) :
    ∃ l ∈ splitLinesFrom line s,line.reverse <+: l := by
  induction line,s using splitLinesFrom.induct with
  | case1 => exact absurd rfl h
  | case2 line hline =>
    rw [splitLinesFrom,if_neg hline]
    exact ⟨_,List.mem_singleton_self _,List.prefix_rfl⟩
  | case3 line cs ih =>
    rw [splitLinesFrom]
    exact ⟨_,List.mem_cons_self,List.prefix_rfl⟩
  | case4 line c cs hcr hbreak ih =>
    rw [splitLinesFrom,if_pos hbreak]
    · exact ⟨_,List.mem_cons_self,List.prefix_rfl⟩
    · exact hcr
  | case5 line c cs hcr hbreak ih =>
    rw [splitLinesFrom,if_neg hbreak]
    · obtain ⟨l,hl,hpre⟩ := ih (List.cons_ne_nil _ _)
      rw [List.reverse_cons] at hpre
      exact ⟨l,hl,(List.prefix_append _ _).trans hpre⟩
    · exact hcr

/-- A line break ends the line; a line feed after a carriage return belongs to it. -/
theorem splitLinesFrom_break (line : List Char) {c : Char} (hc : isLineBreak c = true)
    (s : List Char) :
    splitLinesFrom line (c::s) = line.reverse::splitLinesFrom [] s ∨
      ∃ s',c = '\r' ∧ s = '\n'::s' ∧
        splitLinesFrom line (c::s) = line.reverse::splitLinesFrom [] s' := by
  by_cases hcr : ∃ s',c = '\r' ∧ s = '\n'::s'
  · obtain ⟨s',rfl,rfl⟩ := hcr
    exact .inr ⟨s',rfl,rfl,by rw [splitLinesFrom]⟩
  · left
    rw [splitLinesFrom,if_pos hc]
    intro s' hc' hs'
    exact hcr ⟨s',hc',hs'⟩

theorem splitLinesFrom_char {line : List Char} {c : Char} (hc : ¬ isLineBreak c = true)
    (s : List Char) : splitLinesFrom line (c::s) = splitLinesFrom (c::line) s := by
  rw [splitLinesFrom,if_neg hc]
  rintro s' rfl -
  exact hc (by decide)

/-- A line of a text begins a line of every longer text. -/
theorem splitLinesFrom_prefix {line a b l : List Char} (h : a <+: b)
    (hl : l ∈ splitLinesFrom line a) : ∃ l' ∈ splitLinesFrom line b,l <+: l' := by
  obtain ⟨z,rfl⟩ := h
  induction line,a using splitLinesFrom.induct with
  | case1 => simp [splitLinesFrom] at hl
  | case2 line hline =>
    rw [splitLinesFrom,if_neg hline] at hl
    obtain rfl := List.mem_singleton.mp hl
    exact splitLinesFrom_head hline z
  | case3 line cs ih =>
    rw [splitLinesFrom] at hl
    rw [List.cons_append,List.cons_append,splitLinesFrom]
    rcases List.mem_cons.mp hl with rfl | hl
    · exact ⟨_,List.mem_cons_self,List.prefix_rfl⟩
    · obtain ⟨l',hl',hpre⟩ := ih hl
      exact ⟨l',List.mem_cons_of_mem _ hl',hpre⟩
  | case4 line c cs hcr hbreak ih =>
    rw [splitLinesFrom,if_pos hbreak] at hl
    · rcases splitLinesFrom_break line hbreak (cs++z) with hz | ⟨s',hc,hs',hz⟩
      · rw [List.cons_append,hz]
        rcases List.mem_cons.mp hl with rfl | hl
        · exact ⟨_,List.mem_cons_self,List.prefix_rfl⟩
        · obtain ⟨l',hl',hpre⟩ := ih hl
          exact ⟨l',List.mem_cons_of_mem _ hl',hpre⟩
      · rw [List.cons_append,hz]
        cases cs with
        | nil =>
          obtain rfl := List.mem_singleton.mp hl
          exact ⟨_,List.mem_cons_self,List.prefix_rfl⟩
        | cons d ds =>
          obtain ⟨rfl,-⟩ := List.cons.inj hs'
          exact absurd rfl (hcr ds hc)
    · exact hcr
  | case5 line c cs hcr hbreak ih =>
    rw [splitLinesFrom_char hbreak] at hl
    rw [List.cons_append,splitLinesFrom_char hbreak]
    exact ih hl

/-- A line feed at the end makes no new line but an empty one. -/
theorem splitLinesFrom_newline {line s l : List Char}
    (hl : l ∈ splitLinesFrom line (s++['\n'])) : l ∈ splitLinesFrom line s ∨ l = [] := by
  induction line,s using splitLinesFrom.induct with
  | case1 =>
    right
    exact List.mem_singleton.mp hl
  | case2 line hline =>
    left
    rw [splitLinesFrom,if_neg hline]
    exact hl
  | case3 line cs ih =>
    rw [List.cons_append,List.cons_append,splitLinesFrom] at hl
    rw [splitLinesFrom]
    rcases List.mem_cons.mp hl with rfl | hl
    · exact .inl List.mem_cons_self
    · exact (ih hl).imp_left (List.mem_cons_of_mem _)
  | case4 line c cs hcr hbreak ih =>
    rw [splitLinesFrom,if_pos hbreak]
    · rcases splitLinesFrom_break line hbreak (cs++['\n']) with hz | ⟨s',hc,hs',hz⟩
      · rw [List.cons_append,hz] at hl
        rcases List.mem_cons.mp hl with rfl | hl
        · exact .inl List.mem_cons_self
        · exact (ih hl).imp_left (List.mem_cons_of_mem _)
      · rw [List.cons_append,hz] at hl
        cases cs with
        | nil =>
          obtain ⟨-,rfl⟩ := List.cons.inj hs'
          exact .inl hl
        | cons d ds =>
          obtain ⟨rfl,-⟩ := List.cons.inj hs'
          exact absurd rfl (hcr ds hc)
    · exact hcr
  | case5 line c cs hcr hbreak ih =>
    rw [List.cons_append,splitLinesFrom_char hbreak] at hl
    rw [splitLinesFrom_char hbreak]
    exact ih hl

/-- What the Unicode tables say of a character; the ASCII characters are known. -/
structure Unicode where
  isWord : Char → Bool
  digit : Char → Option Nat
  isWord_ascii : ∀ c,c.toNat < 128 → isWord c = (c.isAlphanum || c == '_')
  digit_ascii : ∀ c,c.toNat < 128 → digit c = if c.isDigit then some (c.toNat-48) else none
  digit_lt : ∀ c n,digit c = some n → n < 10
  digit_word : ∀ c,(digit c).isSome → isWord c = true

/-- `int(digits)`: more than 4300 digits are refused. -/
def int (u : Unicode) (digits : List Char) : Option Nat :=
  if 4300 < digits.length then none
  else some (digits.foldl (fun n c => 10*n+(u.digit c).getD 0) 0)

/-- `str(n)`. -/
def digits (n : Nat) : List Char := Nat.toDigits 10 n

end PyText
