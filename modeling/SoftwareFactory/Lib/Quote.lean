import Mathlib.Data.List.Basic

namespace Quote

variable {α : Type} [DecidableEq α]

/-- Text to stand between two marks: a mark in it, and the sign that escapes, are escaped. -/
def escape (mark slash : α) (s : List α) : List α :=
  s.flatMap fun c => if c = mark ∨ c = slash then [slash,c] else [c]

/-- What stands before the closing mark, un-escaped, and what stands behind it. -/
def read (mark slash : α) (escaped : Bool) : List α → Option (List α × List α)
  | [] => none
  | c::cs =>
    if escaped then (read mark slash false cs).map fun p => (c::p.1,p.2)
    else if c = mark then some ([],cs)
    else if c = slash then read mark slash true cs
    else (read mark slash false cs).map fun p => (c::p.1,p.2)

variable {mark slash : α}

theorem escape_cons (c : α) (s : List α) : escape mark slash (c::s) =
    (if c = mark ∨ c = slash then [slash,c] else [c])++escape mark slash s := List.flatMap_cons

/-- The reader stops at the mark that closes the text, whatever is behind it. -/
theorem read_escape (hne : mark ≠ slash) (s rest : List α) :
    read mark slash false (escape mark slash s++mark::rest) = some (s,rest) := by
  induction s with
  | nil =>
    have hnil : escape mark slash [] = [] := rfl
    rw [hnil,List.nil_append,read,if_neg (by decide),if_pos rfl]
  | cons c s ih =>
    rw [escape_cons,List.append_assoc]
    by_cases hc : c = mark ∨ c = slash
    · rw [if_pos hc,List.cons_append,List.singleton_append,read,if_neg (by decide),
        if_neg hne.symm,if_pos rfl,read,if_pos rfl,ih]
      rfl
    · rw [not_or] at hc
      rw [if_neg (not_or.mpr hc),List.singleton_append,read,if_neg (by decide),if_neg hc.1,
        if_neg hc.2,ih]
      rfl

end Quote
