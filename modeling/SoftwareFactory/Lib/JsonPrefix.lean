import SoftwareFactory.Lib.JsonText
import Mathlib.Data.List.TakeWhile

namespace Json

/-- What is left starts with a character no number goes on with. -/
def Ends (rest : List Char) : Prop := ∃ c cs,rest = c::cs ∧ prolongs c = false

theorem digits_split {s ds r : List Char} (h : digits s = (ds,r)) :
    s = ds++r ∧ ∀ c ∈ ds,c.isDigit = true := by
  rw [digits,List.span_eq_takeWhile_dropWhile] at h
  obtain ⟨hds,hdrop⟩ := Prod.mk.inj h
  refine ⟨by rw [← hds,← hdrop,List.takeWhile_append_dropWhile],?_⟩
  intro c hc
  rw [← hds] at hc
  exact List.mem_takeWhile_imp hc

theorem digits_extend {s ds r : List Char} (h : digits s = (ds,r)) (hr : r ≠ [])
    (q : List Char) : digits (s++q) = (ds,r++q) := by
  obtain ⟨hsplit,hall⟩ := digits_split h
  have hdrop : s.dropWhile Char.isDigit = r := by
    rw [digits,List.span_eq_takeWhile_dropWhile] at h
    exact (Prod.mk.inj h).2
  cases r with
  | nil => exact absurd rfl hr
  | cons c r =>
    have hc : c.isDigit = false := by
      have hhead := List.head_dropWhile_not Char.isDigit
        (show s.dropWhile Char.isDigit ≠ [] by simp [hdrop])
      simpa [hdrop] using hhead
    rw [digits,List.span_eq_takeWhile_dropWhile,hsplit,List.append_assoc,
      List.takeWhile_append_of_pos hall,List.dropWhile_append_of_pos hall,List.cons_append]
    simp [hc]

theorem integerPart_zero (cs : List Char) : integerPart ('0'::cs) = some (['0'],cs) := by
  have h : digits ('0'::cs) = ('0'::cs.takeWhile Char.isDigit,cs.dropWhile Char.isDigit) := by
    rw [digits,List.span_eq_takeWhile_dropWhile,List.takeWhile_cons_of_pos (by decide),
      List.dropWhile_cons_of_pos (by decide)]
  rw [integerPart,h]
  rfl

theorem integerPart_digits {s ds r : List Char} (h : digits s = (ds,r)) (hne : ds ≠ [])
    (hzero : ds.head? ≠ some '0') : integerPart s = some (ds,r) := by
  unfold integerPart
  rw [h]
  split
  · next h => exact absurd (Prod.mk.inj h).1 hne
  · next h =>
    rw [(Prod.mk.inj h).1] at hzero
    exact absurd rfl hzero
  · rfl

theorem integerPart_inv {s ds r : List Char} (h : integerPart s = some (ds,r)) :
    ds = ['0'] ∧ s = '0'::r ∨ digits s = (ds,r) ∧ ds ≠ [] ∧ ds.head? ≠ some '0' := by
  unfold integerPart at h
  split at h
  · exact absurd h (by simp)
  · next ds' r' hd =>
    obtain ⟨hsplit,_⟩ := digits_split hd
    obtain ⟨hds,hr⟩ := Prod.mk.inj (Option.some.inj h)
    left
    refine ⟨hds.symm,?_⟩
    rw [hsplit] at hr ⊢
    rw [← hr]
    rfl
  · next hnil hzero =>
    obtain hd := Option.some.inj h
    right
    refine ⟨hd,?_,?_⟩
    · intro he
      rw [he] at hd
      exact hnil r hd
    · intro hhead
      obtain ⟨cs,hcs⟩ := List.head?_eq_some_iff.mp hhead
      rw [hcs] at hd
      exact hzero cs r hd

theorem integerPart_extend {s ds r : List Char} (h : integerPart s = some (ds,r)) (hr : r ≠ [])
    (q : List Char) : integerPart (s++q) = some (ds,r++q) := by
  cases integerPart_inv h with
  | inl h => rw [h.1,h.2,List.cons_append,integerPart_zero]
  | inr h => exact integerPart_digits (digits_extend h.1 hr q) h.2.1 h.2.2

theorem Ends.ne_nil {r : List Char} (h : Ends r) : r ≠ [] := by
  obtain ⟨c,cs,rfl,_⟩ := h
  simp

theorem Ends.append {r : List Char} (h : Ends r) (q : List Char) : Ends (r++q) := by
  obtain ⟨c,cs,rfl,hc⟩ := h
  exact ⟨c,cs++q,rfl,hc⟩

theorem Ends.ne_cons {r : List Char} (h : Ends r) {c : Char} (hc : prolongs c = true)
    (cs : List Char) : r ≠ c::cs := by
  obtain ⟨d,ds,rfl,hd⟩ := h
  intro he
  rw [(List.cons.inj he).1,hc] at hd
  exact absurd hd (by decide)

def signSplit : List Char → List Char × List Char
  | '+'::ds => (['+'],ds)
  | '-'::ds => (['-'],ds)
  | ds => ([],ds)

theorem signSplit_extend {s : List Char} (h : s ≠ []) (q : List Char) :
    signSplit (s++q) = ((signSplit s).1,(signSplit s).2++q) := by
  cases s with
  | nil => exact absurd rfl h
  | cons c cs =>
    by_cases hplus : c = '+'
    · rw [hplus]
      rfl
    by_cases hminus : c = '-'
    · rw [hminus]
      rfl
    have hother : ∀ ds,signSplit (c::ds) = ([],c::ds) := by
      intro ds
      unfold signSplit
      split
      · next h => exact absurd (List.cons.inj h).1 hplus
      · next h => exact absurd (List.cons.inj h).1 hminus
      · rfl
    rw [List.cons_append,hother,hother,List.cons_append]

theorem exponentPart_sign {e : Char} (he : e = 'e' ∨ e = 'E') (cs : List Char) :
    exponentPart (e::cs) =
      match digits (signSplit cs).2 with
      | ([],_) => ([],e::cs)
      | (ds,rest) => (e::(signSplit cs).1++ds,rest) := by
  unfold exponentPart
  exact if_pos he

theorem exponentPart_other {e : Char} (he : ¬(e = 'e' ∨ e = 'E')) (cs : List Char) :
    exponentPart (e::cs) = ([],e::cs) := by
  unfold exponentPart
  exact if_neg he

theorem exponentPart_extend {s ds r : List Char} (h : exponentPart s = (ds,r)) (hr : Ends r)
    (q : List Char) : exponentPart (s++q) = (ds,r++q) := by
  cases s with
  | nil => exact absurd (Prod.mk.inj h).2.symm hr.ne_nil
  | cons e cs =>
    by_cases he : e = 'e' ∨ e = 'E'
    · rw [exponentPart_sign he] at h
      cases hd : digits (signSplit cs).2 with
      | mk es t =>
        rw [hd] at h
        cases es with
        | nil =>
          have hp : prolongs e = true := by
            cases he with
            | inl he => rw [he]; decide
            | inr he => rw [he]; decide
          exact absurd (Prod.mk.inj h).2.symm (hr.ne_cons hp cs)
        | cons d es =>
          obtain ⟨hds,ht⟩ := Prod.mk.inj h
          have hcs : cs ≠ [] := by
            intro hnil
            rw [hnil] at hd
            exact absurd (Prod.mk.inj hd).1 (by simp)
          have hlong := digits_extend hd (by rw [ht]; exact hr.ne_nil) q
          rw [List.cons_append,exponentPart_sign he,signSplit_extend hcs,hlong,← hds,← ht]
    · rw [exponentPart_other he] at h
      rw [List.cons_append,exponentPart_other he,← (Prod.mk.inj h).1,← (Prod.mk.inj h).2]
      rfl

theorem fractionPart_other {c : Char} (hc : c ≠ '.') (cs : List Char) :
    fractionPart (c::cs) = ([],c::cs) := by
  unfold fractionPart
  split
  · next h => exact absurd (List.cons.inj h).1 hc
  · rfl

theorem fractionPart_extend {s ds r : List Char} (h : fractionPart s = (ds,r)) (hr : r ≠ [])
    (hdot : r.head? ≠ some '.') (q : List Char) : fractionPart (s++q) = (ds,r++q) := by
  cases s with
  | nil => exact absurd (Prod.mk.inj h).2.symm hr
  | cons c cs =>
    by_cases hc : c = '.'
    · subst hc
      rw [fractionPart] at h
      cases hd : digits cs with
      | mk es t =>
        rw [hd] at h
        cases es with
        | nil =>
          rw [← (Prod.mk.inj h).2] at hdot
          exact absurd rfl hdot
        | cons e es =>
          obtain ⟨hds,ht⟩ := Prod.mk.inj h
          rw [List.cons_append,fractionPart,digits_extend hd (by rw [ht]; exact hr) q,← hds,← ht]
    · rw [fractionPart_other hc] at h
      rw [List.cons_append,fractionPart_other hc,← (Prod.mk.inj h).1,← (Prod.mk.inj h).2]
      rfl

/-- What an exponent is looked for in is not empty, nor does it start with a point. -/
theorem exponentPart_rest {s ds r : List Char} (h : exponentPart s = (ds,r)) (hr : Ends r) :
    s ≠ [] ∧ s.head? ≠ some '.' := by
  cases s with
  | nil => exact absurd (Prod.mk.inj h).2.symm hr.ne_nil
  | cons c cs =>
    refine ⟨by simp,?_⟩
    intro hc
    rw [Option.some.inj hc,exponentPart_other (by decide)] at h
    exact hr.ne_cons (by decide) cs (Prod.mk.inj h).2.symm

theorem scanUnsigned_extend {sign body r : List Char} {v : Json}
    (h : scanUnsigned sign body = some (v,r)) (hr : Ends r) (q : List Char) :
    scanUnsigned sign (body++q) = some (v,r++q) := by
  unfold scanUnsigned at h
  cases hint : integerPart body with
  | none =>
    rw [hint] at h
    exact absurd h (by simp)
  | some p =>
    obtain ⟨int,r1⟩ := p
    rw [hint] at h
    cases hfrac : fractionPart r1 with
    | mk frac r2 =>
      cases hexp : exponentPart r2 with
      | mk exp r3 =>
        simp only [Option.bind_eq_bind,Option.bind_some,hfrac,hexp] at h
        split_ifs at h with hlong
        obtain ⟨hv,hr3⟩ := Prod.mk.inj (Option.some.inj h)
        rw [hr3] at hexp
        obtain ⟨hne,hdot⟩ := exponentPart_rest hexp hr
        have hr1 : r1 ≠ [] := by
          intro hnil
          rw [hnil] at hfrac
          exact hne (Prod.mk.inj hfrac).2.symm
        unfold scanUnsigned
        rw [integerPart_extend hint hr1]
        simp only [Option.bind_eq_bind,Option.bind_some,fractionPart_extend hfrac hne hdot,
          exponentPart_extend hexp hr,if_neg hlong,hv]

theorem scanNumber_extend {s r : List Char} {v : Json} (h : scanNumber s = some (v,r))
    (hr : Ends r) (q : List Char) : scanNumber (s++q) = some (v,r++q) := by
  cases s with
  | nil => exact absurd h (by simp [scanNumber,integerPart,digits,List.span,List.span.loop])
  | cons c cs =>
    by_cases hc : c = '-'
    · rw [hc,scanNumber_minus] at h
      rw [hc,List.cons_append,scanNumber_minus,scanUnsigned_extend h hr]
    · rw [scanNumber_plain hc] at h
      have hlong := scanUnsigned_extend h hr q
      rw [List.cons_append] at hlong
      rw [List.cons_append,scanNumber_plain hc,hlong]

theorem stringUnits_extend {s r : List Char} {us : List Nat} (h : stringUnits s = some (us,r))
    (q : List Char) : stringUnits (s++q) = some (us,r++q) := by
  fun_induction stringUnits s generalizing us with
  | case1 => exact absurd h (by simp)
  | case2 cs =>
    obtain ⟨hu,hr⟩ := Prod.mk.inj (Option.some.inj h)
    rw [← hu,← hr]
    rfl
  | case3 a b c d cs ih =>
    simp only [Option.bind_eq_bind,Option.bind_eq_some_iff] at h
    obtain ⟨n,hn,⟨us',r'⟩,hp,hus⟩ := h
    obtain ⟨hu,rfl⟩ := Prod.mk.inj (Option.some.inj hus)
    simp only [List.cons_append]
    rw [stringUnits,hn,ih hp,← hu]
    rfl
  | case4 c cs hshort ih =>
    simp only [Option.bind_eq_bind,Option.bind_eq_some_iff] at h
    obtain ⟨e,he,⟨us',r'⟩,hp,hus⟩ := h
    obtain ⟨hu,rfl⟩ := Prod.mk.inj (Option.some.inj hus)
    have hc : c ≠ 'u' := by
      intro hc
      have hnone : escaped 'u' = none := by decide
      rw [hc,hnone] at he
      exact absurd he (by simp)
    rw [List.cons_append,List.cons_append,stringUnits_escaped he hc,ih hp,← hu]
    rfl
  | case5 c cs hq hu hb ih =>
    simp only [Option.bind_eq_bind,Option.bind_eq_some_iff] at h
    obtain ⟨⟨us',r'⟩,hp,hus⟩ := h
    obtain ⟨hunits,rfl⟩ := Prod.mk.inj (Option.some.inj hus)
    have hc : c ≠ '\\' := by
      intro hc
      cases cs with
      | nil => exact absurd hp (by simp [stringUnits])
      | cons d cs => exact hb d cs hc rfl
    rw [List.cons_append,stringUnits_plain hq hc,ih hp,← hunits]
    rfl

theorem stringBody_extend {s t r : List Char} (h : stringBody s = some (t,r)) (q : List Char) :
    stringBody (s++q) = some (t,r++q) := by
  unfold stringBody at h
  cases hs : stringUnits s with
  | none =>
    rw [hs] at h
    exact absurd h (by simp)
  | some p =>
    obtain ⟨us,r'⟩ := p
    rw [hs] at h
    obtain ⟨ht,rfl⟩ := Prod.mk.inj (Option.some.inj h)
    rw [stringBody,stringUnits_extend hs,Option.map_some,ht]

theorem scanUnsigned_number {sign body r : List Char} {v : Json}
    (h : scanUnsigned sign body = some (v,r)) : ∃ t,v = .number t := by
  simp only [scanUnsigned,Option.bind_eq_bind,Option.bind_eq_some_iff] at h
  obtain ⟨⟨int,r1⟩,_,h⟩ := h
  split_ifs at h with hlong
  exact ⟨_,(Prod.mk.inj (Option.some.inj h)).1.symm⟩

theorem scanNumber_number {s r : List Char} {v : Json} (h : scanNumber s = some (v,r)) :
    ∃ t,v = .number t := by
  cases s with
  | nil => exact absurd h (by simp [scanNumber,integerPart,digits,List.span,List.span.loop])
  | cons c cs =>
    by_cases hc : c = '-'
    · rw [hc,scanNumber_minus] at h
      exact scanUnsigned_number h
    · rw [scanNumber_plain hc] at h
      exact scanUnsigned_number h

/-- The literals by name. -/
def literals : List (String × Json) :=
  [("null",Json.null),("true",.bool true),("false",.bool false),("NaN",.number "NaN".toList),
    ("Infinity",.number "Infinity".toList),("-Infinity",.number "-Infinity".toList)]

theorem literal_inv {s r : List Char} {v : Json} (h : literal s = some (v,r)) :
    ∃ name,(name,v) ∈ literals ∧ s = name.toList++r := by
  obtain ⟨p,hp,hv⟩ := List.exists_of_findSome?_eq_some h
  obtain ⟨name,w⟩ := p
  dsimp only at hv
  split_ifs at hv with hlead
  obtain ⟨hw,hr⟩ := Prod.mk.inj (Option.some.inj hv)
  obtain ⟨t,ht⟩ := hlead
  refine ⟨name,by rw [← hw]; exact hp,?_⟩
  rw [← hr,← ht,← String.length_toList,List.drop_left]

theorem literal_name {name : String} {v : Json} (h : (name,v) ∈ literals) (r : List Char) :
    (scanNumber (name.toList++r)).or (literal (name.toList++r)) = some (v,r) := by
  simp only [literals,List.mem_cons,List.not_mem_nil,or_false,Prod.mk.injEq] at h
  rcases h with ⟨rfl,rfl⟩ | ⟨rfl,rfl⟩ | ⟨rfl,rfl⟩ | ⟨rfl,rfl⟩ | ⟨rfl,rfl⟩ | ⟨rfl,rfl⟩ <;> rfl

/-- Only a number can be prolonged by what follows. -/
def Settled (v : Json) (rest : List Char) : Prop :=
  match v with
  | .number _ => Ends rest
  | _ => True

theorem Ends.settled {rest : List Char} (h : Ends rest) (v : Json) : Settled v rest := by
  cases v with
  | number t => exact h
  | _ => trivial

theorem skipBlank_extend {s : List Char} {c : Char} {cs : List Char} (h : skipBlank s = c::cs)
    (q : List Char) : skipBlank (s++q) = c::(cs++q) := by
  induction s with
  | nil => exact absurd h (by simp [skipBlank])
  | cons d s ih =>
    cases hd : isBlank d with
    | true =>
      rw [skipBlank,List.dropWhile_cons_of_pos hd] at h
      rw [List.cons_append,skipBlank,List.dropWhile_cons_of_pos hd]
      exact ih h
    | false =>
      rw [skipBlank_cons hd] at h
      rw [List.cons_append,skipBlank_cons hd,(List.cons.inj h).1,(List.cons.inj h).2]

/-- What precedes a comma or a bracket, blanks in between or not, is settled. -/
theorem ends_of_skipBlank {s : List Char} {c : Char} {cs : List Char}
    (h : skipBlank s = c::cs) (hc : prolongs c = false) : Ends s := by
  cases s with
  | nil => exact absurd h (by simp [skipBlank])
  | cons d s =>
    refine ⟨d,s,rfl,?_⟩
    cases hd : isBlank d with
    | true =>
      simp only [isBlank,Bool.or_eq_true,beq_iff_eq] at hd
      rcases hd with ((rfl | rfl) | rfl) | rfl <;> decide
    | false =>
      rw [skipBlank_cons hd] at h
      rw [(List.cons.inj h).1,hc]

theorem atom_extend {s r : List Char} {v : Json} (h : (scanNumber s).or (literal s) = some (v,r))
    (hr : Settled v r) (q : List Char) :
    (scanNumber (s++q)).or (literal (s++q)) = some (v,r++q) := by
  cases hn : scanNumber s with
  | some p =>
    rw [hn,Option.some_or] at h
    rw [Option.some.inj h] at hn
    obtain ⟨t,rfl⟩ := scanNumber_number hn
    rw [scanNumber_extend hn hr,Option.some_or]
  | none =>
    rw [hn,Option.none_or] at h
    obtain ⟨name,hname,rfl⟩ := literal_inv h
    rw [List.append_assoc,literal_name hname]

/-- What a reader with `fuel` steps has taken does not depend on what follows. -/
structure Extends (fuel : Nat) : Prop where
  value : ∀ (s : List Char) (v : Json) (r q : List Char) (fuel' : Nat),fuel ≤ fuel' →
    value fuel s = some (v,r) → Settled v r → value fuel' (s++q) = some (v,r++q)
  elements : ∀ (s : List Char) (vs : List Json) (r q : List Char) (fuel' : Nat),fuel ≤ fuel' →
    elements fuel s = some (vs,r) → elements fuel' (s++q) = some (vs,r++q)
  members : ∀ (s : List Char) (fs : List (List Char × Json)) (r q : List Char) (fuel' : Nat),
    fuel ≤ fuel' → members fuel s = some (fs,r) → members fuel' (s++q) = some (fs,r++q)

theorem extends_zero : Extends 0 where
  value := by
    intro s v r q fuel' _ h
    exact absurd h (by simp [value])
  elements := by
    intro s vs r q fuel' _ h
    exact absurd h (by simp [elements])
  members := by
    intro s fs r q fuel' _ h
    exact absurd h (by simp [members])

section step

variable {fuel fuel' : Nat} {s r : List Char}

theorem elements_inv {vs : List Json} (h : elements (fuel+1) s = some (vs,r)) :
    ∃ v t,value fuel s = some (v,t) ∧
      (skipBlank t = ']'::r ∧ vs = [v] ∨
        ∃ u ws,skipBlank t = ','::u ∧ elements fuel (skipBlank u) = some (ws,r) ∧ vs = v::ws) := by
  simp only [elements,Option.bind_eq_bind,Option.bind_eq_some_iff] at h
  obtain ⟨⟨v,t⟩,hv,h⟩ := h
  refine ⟨v,t,hv,?_⟩
  dsimp only at h
  split at h
  · next u hu =>
    obtain ⟨⟨ws,r'⟩,hws,h⟩ := Option.bind_eq_some_iff.mp h
    obtain ⟨hvs,rfl⟩ := Prod.mk.inj (Option.some.inj h)
    exact .inr ⟨u,ws,hu,hws,hvs.symm⟩
  · next u hu =>
    obtain ⟨hvs,rfl⟩ := Prod.mk.inj (Option.some.inj h)
    exact .inl ⟨hu,hvs.symm⟩
  · exact absurd h (by simp)

theorem members_inv {fs : List (List Char × Json)} (h : members (fuel+1) s = some (fs,r)) :
    ∃ cs key k l v t,s = '"'::cs ∧ stringBody cs = some (key,k) ∧ skipBlank k = ':'::l ∧
      value fuel (skipBlank l) = some (v,t) ∧
      (skipBlank t = '\x7d'::r ∧ fs = [(key,v)] ∨
        ∃ u gs,skipBlank t = ','::u ∧ members fuel (skipBlank u) = some (gs,r) ∧
          fs = (key,v)::gs) := by
  unfold members at h
  split at h
  · next heq => exact absurd heq (by simp)
  · next f cs heq =>
    obtain rfl : fuel = f := Nat.succ.inj heq
    obtain ⟨⟨key,k⟩,hkey,h⟩ := Option.bind_eq_some_iff.mp h
    dsimp only at h
    split at h
    · next l hl =>
      obtain ⟨⟨v,t⟩,hv,h⟩ := Option.bind_eq_some_iff.mp h
      refine ⟨cs,key,k,l,v,t,rfl,hkey,hl,hv,?_⟩
      dsimp only at h
      split at h
      · next u hu =>
        obtain ⟨⟨gs,r'⟩,hgs,h⟩ := Option.bind_eq_some_iff.mp h
        obtain ⟨hfs,rfl⟩ := Prod.mk.inj (Option.some.inj h)
        exact .inr ⟨u,gs,hu,hgs,hfs.symm⟩
      · next u hu =>
        obtain ⟨hfs,rfl⟩ := Prod.mk.inj (Option.some.inj h)
        exact .inl ⟨hu,hfs.symm⟩
      · exact absurd h (by simp)
    · exact absurd h (by simp)
  · exact absurd h (by simp)

theorem atom_nil : (scanNumber []).or (literal []) = none := rfl

theorem value_nil (fuel : Nat) : value fuel [] = none := by
  cases fuel with
  | zero => rw [value]
  | succ fuel =>
    rw [value]
    · exact atom_nil
    · simp
    · simp
    · simp

theorem elements_nil (fuel : Nat) : elements fuel [] = none := by
  cases fuel with
  | zero => rw [elements]
  | succ fuel =>
    rw [elements,value_nil]
    rfl

theorem members_nil (fuel : Nat) : members fuel [] = none := by
  cases fuel with
  | zero => rw [members]
  | succ fuel =>
    rw [members]
    simp

/-- How a value starts decides how it is read. -/
inductive Shape (fuel : Nat) : List Char → Json → List Char → Prop
  | string {cs t r : List Char} (h : stringBody cs = some (t,r)) :
      Shape fuel ('"'::cs) (.string t) r
  | emptyObject {cs r : List Char} (h : skipBlank cs = '\x7d'::r) :
      Shape fuel ('{'::cs) (.object []) r
  | object {c : Char} {cs ds r : List Char} {fs : List (List Char × Json)}
      (h : skipBlank cs = c::ds) (hc : c ≠ '\x7d') (hfs : members fuel (c::ds) = some (fs,r)) :
      Shape fuel ('{'::cs) (.object fs) r
  | emptyArray {cs r : List Char} (h : skipBlank cs = ']'::r) :
      Shape fuel ('['::cs) (.array []) r
  | array {c : Char} {cs ds r : List Char} {vs : List Json}
      (h : skipBlank cs = c::ds) (hc : c ≠ ']') (hvs : elements fuel (c::ds) = some (vs,r)) :
      Shape fuel ('['::cs) (.array vs) r
  | atom {c : Char} {cs r : List Char} {v : Json} (h1 : c ≠ '"') (h2 : c ≠ '{') (h3 : c ≠ '[')
      (h : (scanNumber (c::cs)).or (literal (c::cs)) = some (v,r)) : Shape fuel (c::cs) v r

theorem value_shape {v : Json} (h : value (fuel+1) s = some (v,r)) : Shape fuel s v r := by
  cases s with
  | nil => exact absurd h (by simp [value_nil])
  | cons c cs =>
    by_cases h1 : c = '"'
    · subst h1
      rw [value] at h
      obtain ⟨⟨t,r'⟩,ht,h⟩ := Option.bind_eq_some_iff.mp h
      obtain ⟨rfl,rfl⟩ := Prod.mk.inj (Option.some.inj h)
      exact .string ht
    by_cases h2 : c = '{'
    · subst h2
      cases hs : skipBlank cs with
      | nil =>
        rw [value,hs] at h
        simp only [members_nil] at h
        exact absurd h (by simp)
      | cons d ds =>
        by_cases hd : d = '\x7d'
        · subst hd
          rw [value,hs] at h
          obtain ⟨rfl,rfl⟩ := Prod.mk.inj (Option.some.inj h)
          exact .emptyObject hs
        · rw [value_object hs hd] at h
          obtain ⟨⟨fs,r'⟩,hfs,h⟩ := Option.map_eq_some_iff.mp h
          obtain ⟨rfl,rfl⟩ := Prod.mk.inj h
          exact .object hs hd hfs
    by_cases h3 : c = '['
    · subst h3
      cases hs : skipBlank cs with
      | nil =>
        rw [value,hs] at h
        simp only [elements_nil] at h
        exact absurd h (by simp)
      | cons d ds =>
        by_cases hd : d = ']'
        · subst hd
          rw [value,hs] at h
          obtain ⟨rfl,rfl⟩ := Prod.mk.inj (Option.some.inj h)
          exact .emptyArray hs
        · rw [value_array hs hd] at h
          obtain ⟨⟨vs,r'⟩,hvs,h⟩ := Option.map_eq_some_iff.mp h
          obtain ⟨rfl,rfl⟩ := Prod.mk.inj h
          exact .array hs hd hvs
    rw [value_atom h1 h2 h3] at h
    exact .atom h1 h2 h3 h

theorem Extends.value_step (h : Extends fuel) {v : Json} (hv : Json.value (fuel+1) s = some (v,r))
    (hr : Settled v r) (q : List Char) (hfuel : fuel+1 ≤ fuel') :
    Json.value fuel' (s++q) = some (v,r++q) := by
  obtain ⟨n,rfl⟩ : ∃ n,fuel' = n+1 := ⟨fuel'-1,by omega⟩
  have hn : fuel ≤ n := by omega
  cases value_shape hv with
  | string hs =>
    rw [List.cons_append,Json.value,stringBody_extend hs]
    rfl
  | emptyObject hs =>
    rw [List.cons_append,Json.value,skipBlank_extend hs]
    rfl
  | object hs hc hfs =>
    have hlong := h.members _ _ _ q n hn hfs
    rw [List.cons_append,value_object (skipBlank_extend hs q) hc,← List.cons_append,hlong]
    rfl
  | emptyArray hs =>
    rw [List.cons_append,Json.value,skipBlank_extend hs]
    rfl
  | array hs hc hvs =>
    have hlong := h.elements _ _ _ q n hn hvs
    rw [List.cons_append,value_array (skipBlank_extend hs q) hc,← List.cons_append,hlong]
    rfl
  | atom h1 h2 h3 hs =>
    have hlong := atom_extend hs hr q
    rw [List.cons_append] at hlong
    rw [List.cons_append,value_atom h1 h2 h3,hlong]

theorem skipBlank_nil_or (s : List Char) : skipBlank s = [] ∨ ∃ c cs,skipBlank s = c::cs := by
  cases skipBlank s with
  | nil => exact .inl rfl
  | cons c cs => exact .inr ⟨c,cs,rfl⟩

theorem Extends.elements_step (h : Extends fuel) {vs : List Json}
    (hvs : Json.elements (fuel+1) s = some (vs,r)) (q : List Char) (hfuel : fuel+1 ≤ fuel') :
    Json.elements fuel' (s++q) = some (vs,r++q) := by
  obtain ⟨n,rfl⟩ : ∃ n,fuel' = n+1 := ⟨fuel'-1,by omega⟩
  have hn : fuel ≤ n := by omega
  obtain ⟨v,t,hv,hend⟩ := elements_inv hvs
  cases hend with
  | inl hclose =>
    obtain ⟨ht,hvs⟩ := hclose
    have hlong := h.value s v t q n hn hv ((ends_of_skipBlank ht (by decide)).settled v)
    rw [elements_close hlong (skipBlank_extend ht q),hvs]
  | inr hcomma =>
    obtain ⟨u,ws,ht,hws,hvs⟩ := hcomma
    have hlong := h.value s v t q n hn hv ((ends_of_skipBlank ht (by decide)).settled v)
    rw [elements_comma hlong (skipBlank_extend ht q)]
    cases skipBlank_nil_or u with
    | inl hu =>
      rw [hu,elements_nil] at hws
      exact absurd hws (by simp)
    | inr hu =>
      obtain ⟨c,cs,hu⟩ := hu
      rw [hu] at hws
      rw [skipBlank_extend hu,← List.cons_append,h.elements _ _ _ q n hn hws,hvs]
      rfl

theorem Extends.members_step (h : Extends fuel) {fs : List (List Char × Json)}
    (hfs : Json.members (fuel+1) s = some (fs,r)) (q : List Char) (hfuel : fuel+1 ≤ fuel') :
    Json.members fuel' (s++q) = some (fs,r++q) := by
  obtain ⟨n,rfl⟩ : ∃ n,fuel' = n+1 := ⟨fuel'-1,by omega⟩
  have hn : fuel ≤ n := by omega
  obtain ⟨cs,key,k,l,v,t,rfl,hkey,hl,hv,hend⟩ := members_inv hfs
  have hvalue : ∀ {d : Char} {ds : List Char},skipBlank t = d::ds → prolongs d = false →
      Json.value n (skipBlank (l++q)) = some (v,t++q) := by
    intro d ds ht hd
    cases skipBlank_nil_or l with
    | inl hnil =>
      rw [hnil,value_nil] at hv
      exact absurd hv (by simp)
    | inr hcons =>
      obtain ⟨c,cs,hcs⟩ := hcons
      rw [hcs] at hv
      rw [skipBlank_extend hcs,← List.cons_append]
      exact h.value _ v t q n hn hv ((ends_of_skipBlank ht hd).settled v)
  cases hend with
  | inl hclose =>
    obtain ⟨ht,hfs⟩ := hclose
    rw [List.cons_append,members_close (stringBody_extend hkey q) (skipBlank_extend hl q)
      (hvalue ht (by decide)) (skipBlank_extend ht q),hfs]
  | inr hcomma =>
    obtain ⟨u,gs,ht,hgs,hfs⟩ := hcomma
    rw [List.cons_append,members_comma (stringBody_extend hkey q) (skipBlank_extend hl q)
      (hvalue ht (by decide)) (skipBlank_extend ht q)]
    cases skipBlank_nil_or u with
    | inl hu =>
      rw [hu,members_nil] at hgs
      exact absurd hgs (by simp)
    | inr hu =>
      obtain ⟨c,cs,hu⟩ := hu
      rw [hu] at hgs
      rw [skipBlank_extend hu,← List.cons_append,h.members _ _ _ q n hn hgs,hfs]
      rfl

end step

theorem extends_all (fuel : Nat) : Extends fuel := by
  induction fuel with
  | zero => exact extends_zero
  | succ fuel h =>
    exact ⟨fun _ _ _ q _ hfuel hv hr => h.value_step hv hr q hfuel,
      fun _ _ _ q _ hfuel hvs => h.elements_step hvs q hfuel,
      fun _ _ _ q _ hfuel hfs => h.members_step hfs q hfuel⟩

theorem skipBlank_append_nil {s : List Char} (h : skipBlank s = []) (q : List Char) :
    skipBlank (s++q) = skipBlank q := by
  induction s with
  | nil => rfl
  | cons d s ih =>
    cases hd : isBlank d with
    | true =>
      rw [skipBlank,List.dropWhile_cons_of_pos hd] at h
      rw [List.cons_append,skipBlank,List.dropWhile_cons_of_pos hd]
      exact ih h
    | false =>
      rw [skipBlank_cons hd] at h
      exact absurd h (by simp)

/-- A document that is no bare number and is followed by more is read if blanks follow. -/
theorem loads_append {p : List Char} {v : Json} (h : loads p = some v)
    (hv : ∀ t,v ≠ .number t) (q : List Char) :
    loads (p++q) = if skipBlank q = [] then some v else none := by
  unfold loads at h
  obtain ⟨⟨w,r⟩,hw,h⟩ := Option.bind_eq_some_iff.mp h
  dsimp only at h
  split_ifs at h with hr
  obtain rfl := Option.some.inj h
  have hsettled : Settled w r := by
    cases w with
    | number t => exact absurd rfl (hv t)
    | _ => trivial
  have hskip : skipBlank (p++q) = skipBlank p++q := by
    cases skipBlank_nil_or p with
    | inl hp =>
      rw [hp,value_nil] at hw
      exact absurd hw (by simp)
    | inr hp =>
      obtain ⟨c,cs,hp⟩ := hp
      rw [hp,skipBlank_extend hp,List.cons_append]
  have hlong := (extends_all _).value _ w r q (2*(p++q).length+2)
    (by rw [List.length_append]; omega) hw hsettled
  unfold loads
  rw [hskip,hlong]
  simp only [Option.bind_eq_bind,Option.bind_some,skipBlank_append_nil hr]

theorem atom_not_object {s r : List Char} {fs : List (List Char × Json)} :
    (scanNumber s).or (literal s) ≠ some (.object fs,r) := by
  intro h
  cases hn : scanNumber s with
  | some p =>
    rw [hn,Option.some_or] at h
    rw [Option.some.inj h] at hn
    obtain ⟨t,ht⟩ := scanNumber_number hn
    exact absurd ht (by simp)
  | none =>
    rw [hn,Option.none_or] at h
    obtain ⟨name,hname,_⟩ := literal_inv h
    simp [literals] at hname

/-- A value is an object exactly if it starts with a brace. -/
theorem object_iff_brace {fuel : Nat} {c : Char} {cs r : List Char} {v : Json}
    (h : value fuel (c::cs) = some (v,r)) : (∃ fs,v = .object fs) ↔ c = '{' := by
  cases fuel with
  | zero => exact absurd h (by simp [value])
  | succ fuel =>
    cases value_shape h with
    | string _ => simp
    | emptyObject _ => simp
    | object _ _ _ => simp
    | emptyArray _ => simp
    | array _ _ _ => simp
    | atom h1 h2 h3 hs =>
      constructor
      · intro hv
        obtain ⟨fs,rfl⟩ := hv
        exact absurd hs atom_not_object
      · intro hc
        exact absurd hc h2

theorem loads_value {s : List Char} {v : Json} (h : loads s = some v) :
    ∃ c cs fuel r,skipBlank s = c::cs ∧ value fuel (c::cs) = some (v,r) := by
  obtain ⟨⟨w,r⟩,hw,h⟩ := Option.bind_eq_some_iff.mp h
  dsimp only at h
  split_ifs at h with hr
  rw [← Option.some.inj h]
  cases skipBlank_nil_or s with
  | inl hs =>
    rw [hs,value_nil] at hw
    exact absurd hw (by simp)
  | inr hs =>
    obtain ⟨c,cs,hs⟩ := hs
    exact ⟨c,cs,_,r,hs,by rw [hs] at hw; exact hw⟩

/-- The document of an object that lost its end is refused. -/
theorem loads_torn {p q : List Char} {fs : List (List Char × Json)}
    (h : loads (p++q) = some (.object fs)) (hq : skipBlank q ≠ []) : loads p = none := by
  cases hp : loads p with
  | none => rfl
  | some w =>
    obtain ⟨c,cs,fuel,r,hs,hv⟩ := loads_value h
    obtain ⟨d,ds,fuel',r',hs',hw⟩ := loads_value hp
    rw [skipBlank_extend hs'] at hs
    have hc : c = '{' := (object_iff_brace hv).mp ⟨fs,rfl⟩
    rw [← (List.cons.inj hs).1] at hc
    obtain ⟨gs,rfl⟩ := (object_iff_brace hw).mpr hc
    rw [loads_append hp (by simp),if_neg hq] at h
    exact absurd h (by simp)

theorem text_object_closed (fs : List (List Char × Json)) :
    ∃ s,text 0 (.object fs) = s++['\x7d'] := by
  cases fs with
  | nil => exact ⟨['{'],rfl⟩
  | cons f fs => exact ⟨_,by rw [text]⟩

theorem skipBlank_closed {q s : List Char} {c : Char} (hc : isBlank c = false)
    (hq : q = s++[c]) : skipBlank q ≠ [] := by
  intro h
  rw [hq,skipBlank,List.dropWhile_eq_nil_iff] at h
  have hblank := h c (by simp)
  rw [hc] at hblank
  exact absurd hblank (by decide)

/-- An object that was written in part is refused, wherever the text breaks off. -/
theorem dumps_torn {fs : List (List Char × Json)} (h : (Json.object fs).Integral)
    {t p q : List Char} (ht : dumps (.object fs) = some t) (hpq : p++q = t) (hq : q ≠ []) :
    loadsStrict p = none := by
  obtain ⟨htext,hv⟩ := h.writable ht
  obtain ⟨s,hs⟩ := text_object_closed fs
  obtain ⟨u,c,hu⟩ := (List.eq_nil_or_concat q).resolve_left hq
  have hc : c = '\x7d' := by
    have hlast := congrArg List.getLast? (hpq.trans (htext.trans hs))
    rw [hu] at hlast
    simpa using hlast
  rw [hc,List.concat_eq_append] at hu
  have hwhole : loads (p++q) = some (.object fs) := by rw [hpq,htext,loads_text hv]
  have hnone := loads_torn hwhole (skipBlank_closed (by decide) hu)
  rw [loadsStrict,hnone]
  exact ite_self none

end Json
