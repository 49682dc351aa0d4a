import Mathlib.Data.List.Infix
import Mathlib.Data.Char

namespace Fnmatch

/-- One element of a bracket expression. -/
inductive SetItem where
  | single (c : Char)
  | range (a b : Char)
  deriving DecidableEq, Repr

def SetItem.accepts (x : Char) : SetItem → Bool
  | single c => c == x
  | range a b => decide (a ≤ x) && decide (x ≤ b)

/-- What stands between the brackets: a dash between two characters makes a range. -/
def setItems : List Char → List SetItem
  | a :: '-' :: b :: cs => .range a b::setItems cs
  | a::cs => .single a::setItems cs
  | [] => []

def SetItem.isEmptyRange : SetItem → Bool
  | single _ => false
  | range a b => decide (b < a)

/-- One element of a shell pattern. -/
inductive Glob where
  | char (c : Char)
  | any
  | star
  | set (negated : Bool) (items : List SetItem)
  deriving DecidableEq, Repr

def Glob.accepts (x : Char) : Glob → Bool
  | char c => c == x
  | any => true
  | star => true
  | set negated items => items.any (·.accepts x) != negated

/-- The body of a bracket expression, given what follows the bracket and an optional `!`. A
closing bracket that comes first belongs to the body. -/
def bracketBody : List Char → Option (List Char)
  | ']'::cs => if ']' ∈ cs then some (']'::cs.takeWhile (· ≠ ']')) else none
  | cs => if ']' ∈ cs then some (cs.takeWhile (· ≠ ']')) else none

/-- Empty ranges are dropped; a `!` that comes first by that negates the rest. -/
def plainSet (body : List Char) : Glob :=
  match (setItems body).filter fun i => !i.isEmptyRange with
  | .single '!'::items => .set true items
  | .range '!' b::items => .set true (.single '-'::.single b::items)
  | items => .set false items

/-- A bracket expression with the number of characters it takes after the bracket. -/
def bracket : List Char → Option (Nat × Glob)
  | '!'::cs => (bracketBody cs).map fun body => (body.length+2,.set true (setItems body))
  | cs => (bracketBody cs).map fun body => (body.length+1,plainSet body)

/-- `fnmatch.translate`, `skip` characters belonging to the element before. -/
def translate : Nat → List Char → List Glob
  | _,[] => []
  | skip+1,_::cs => translate skip cs
  | 0,c::cs =>
    if c = '*' then .star::translate 0 cs
    else if c = '?' then .any::translate 0 cs
    else if c = '[' then
      match bracket cs with
      | some (n,g) => g::translate n cs
      | none => .char c::translate 0 cs
    else .char c::translate 0 cs

/-- The suffixes of a text. -/
def tails : List Char → List (List Char)
  | [] => [[]]
  | c::cs => (c::cs)::tails cs

def matchGlobs : List Glob → List Char → Bool
  | [],s => s.isEmpty
  | .star::gs,s => (tails s).any (matchGlobs gs)
  | g::gs,s =>
    match s with
    | [] => false
    | c::cs => g.accepts c && matchGlobs gs cs

/-- `fnmatch.fnmatch` where file names are case sensitive. -/
def fnmatch (name pattern : List Char) : Bool := matchGlobs (translate 0 pattern) name

theorem mem_tails {s t : List Char} : t ∈ tails s ↔ t <:+ s := by
  induction s with
  | nil => simp [tails]
  | cons c cs ih => simp [tails,ih,List.suffix_cons_iff]

/-- A pattern without special characters. -/
def Literal (pattern : List Char) : Prop :=
  ∀ c ∈ pattern,c ≠ '*' ∧ c ≠ '?' ∧ c ≠ '['

theorem literal_of_not_mem {p : List Char} (hstar : '*' ∉ p) (hmark : '?' ∉ p)
    (hopen : '[' ∉ p) : Literal p := by
  intro c hc
  refine ⟨?_,?_,?_⟩ <;> rintro rfl <;> contradiction

theorem translate_append {p : List Char} (hp : Literal p) (q : List Char) :
    translate 0 (p++q) = p.map .char++translate 0 q := by
  induction p with
  | nil => rfl
  | cons c cs ih =>
    obtain ⟨h1,h2,h3⟩ := hp c List.mem_cons_self
    rw [List.cons_append,translate,if_neg h1,if_neg h2,if_neg h3,
      ih fun d hd => hp d (List.mem_cons_of_mem _ hd)]
    rfl

theorem matchGlobs_chars {p : List Char} {gs : List Glob} {s : List Char} :
    matchGlobs (p.map .char++gs) s = true ↔ ∃ t,s = p++t ∧ matchGlobs gs t = true := by
  induction p generalizing s with
  | nil => simp
  | cons c cs ih =>
    cases s with
    | nil => simp [matchGlobs]
    | cons d ds =>
      change ((Glob.char c).accepts d && matchGlobs (cs.map .char++gs) ds) = true ↔ _
      rw [Bool.and_eq_true,ih]
      simp only [Glob.accepts,beq_iff_eq,List.cons_append,List.cons.injEq]
      constructor
      · intro h
        obtain ⟨rfl,t,ht,hm⟩ := h
        exact ⟨t,⟨rfl,ht⟩,hm⟩
      · intro h
        obtain ⟨t,⟨rfl,ht⟩,hm⟩ := h
        exact ⟨rfl,t,ht,hm⟩

theorem fnmatch_literal {p s : List Char} (hp : Literal p) : fnmatch s p = true ↔ s = p := by
  have h := translate_append hp []
  rw [List.append_nil] at h
  rw [fnmatch,h,matchGlobs_chars]
  simp [translate,matchGlobs]

theorem matchGlobs_stars (n : Nat) (s : List Char) :
    matchGlobs (translate 0 (List.replicate (n+1) '*')) s = true := by
  induction n with
  | zero =>
    simp only [List.replicate,translate,if_true,matchGlobs,List.any_eq_true]
    exact ⟨[],mem_tails.mpr List.nil_suffix,rfl⟩
  | succ n ih =>
    rw [List.replicate_succ,translate,if_pos rfl,matchGlobs,List.any_eq_true]
    exact ⟨s,mem_tails.mpr List.suffix_rfl,ih⟩

/-- A literal front followed by stars; two of them say no more than one. -/
theorem fnmatch_stars {p s : List Char} (hp : Literal p) (n : Nat) :
    fnmatch s (p++List.replicate (n+1) '*') = true ↔ p <+: s := by
  rw [fnmatch,translate_append hp,matchGlobs_chars]
  constructor
  · intro h
    obtain ⟨t,rfl,-⟩ := h
    exact List.prefix_append p t
  · intro h
    obtain ⟨t,rfl⟩ := h
    exact ⟨t,rfl,matchGlobs_stars n t⟩

end Fnmatch
