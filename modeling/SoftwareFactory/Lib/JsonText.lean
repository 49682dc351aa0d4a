import SoftwareFactory.Lib.Json
import Mathlib.Data.List.TakeDrop

namespace Json

def hexChar (n : Nat) : Char := Nat.digitChar (n%16)

/-- `\uXXXX`. -/
def escapedUnit (n : Nat) : List Char :=
  ['\\','u',hexChar (n/4096),hexChar (n/256),hexChar (n/16),hexChar n]

/-- One character of a string under `ensure_ascii`. -/
def escapeChar (c : Char) : List Char :=
  if c = '\\' then ['\\','\\']
  else if c = '"' then ['\\','"']
  else if c = Char.ofNat 8 then ['\\','b']
  else if c = Char.ofNat 12 then ['\\','f']
  else if c = '\n' then ['\\','n']
  else if c = '\r' then ['\\','r']
  else if c = '\t' then ['\\','t']
  else if 0x20 ≤ c.toNat ∧ c.toNat ≤ 0x7e then [c]
  else if c.toNat < 0x10000 then escapedUnit c.toNat
  else escapedUnit (0xd800+(c.toNat-0x10000)/0x400)++
    escapedUnit (0xdc00+(c.toNat-0x10000)%0x400)

def stringText (s : List Char) : List Char := '"'::s.flatMap escapeChar++['"']

/-- The line break before an item at a depth of `n`. -/
def newline (n : Nat) : List Char := '\n'::List.replicate (2*n) ' '

mutual

/-- `json.dumps(v, indent=2)` at a depth of `n`. -/
def text (n : Nat) : Json → List Char
  | .null => "null".toList
  | .bool true => "true".toList
  | .bool false => "false".toList
  | .number t => t
  | .string s => stringText s
  | .array [] => ['[',']']
  | .array (v::vs) => itemsText (n+1) '[' (v::vs)++newline n++[']']
  | .object [] => ['{','}']
  | .object (f::fs) => fieldsText (n+1) '{' (f::fs)++newline n++['}']

/-- Items, each on a line of its own; `lead` stands before the first. -/
def itemsText (n : Nat) (lead : Char) : List Json → List Char
  | [] => []
  | v::vs => lead::newline n++text n v++itemsText n ',' vs

def fieldsText (n : Nat) (lead : Char) : List (List Char × Json) → List Char
  | [] => []
  | (key,v)::fs => lead::newline n++stringText key++ ':':: ' '::text n v++fieldsText n ',' fs

end

/-- `int.__repr__`. -/
def intText : Int → List Char
  | .ofNat n => Nat.toDigits 10 n
  | .negSucc n => '-'::Nat.toDigits 10 (n+1)

mutual

/-- The numbers of a value, in the order in which they are written. -/
def numerals : Json → List (List Char)
  | .number t => [t]
  | .array vs => numeralsItems vs
  | .object fs => numeralsFields fs
  | _ => []

def numeralsItems : List Json → List (List Char)
  | [] => []
  | v::vs => numerals v++numeralsItems vs

def numeralsFields : List (List Char × Json) → List (List Char)
  | [] => []
  | (_,v)::fs => numerals v++numeralsFields fs

end

/-- `int.__repr__` refuses an integer of more than 4300 digits. -/
def fits (t : List Char) : Bool := (t.filter Char.isDigit).length ≤ 4300

/-- `json.dumps(v, indent=2)`; `none` is a ValueError. -/
def dumps (v : Json) : Option (List Char) :=
  if v.numerals.all fits then some (text 0 v) else none

mutual

/-- What every number of a value satisfies. -/
def Numbers (p : List Char → Prop) : Json → Prop
  | .number t => p t
  | .array vs => NumbersItems p vs
  | .object fs => NumbersFields p fs
  | _ => True

def NumbersItems (p : List Char → Prop) : List Json → Prop
  | [] => True
  | v::vs => Numbers p v ∧ NumbersItems p vs

def NumbersFields (p : List Char → Prop) : List (List Char × Json) → Prop
  | [] => True
  | (_,v)::fs => Numbers p v ∧ NumbersFields p fs

end

/-- The integers `json.dumps` writes and `json.loads` reads: those of at most 4300 digits. -/
def Writable (t : List Char) : Prop := (∃ i,t = intText i) ∧ fits t = true

/-- No control character stands unescaped in a string of a document; the flag says whether the
text starts within one. -/
def controlFree : Bool → List Char → Bool
  | _,[] => true
  | false,'"'::cs => controlFree true cs
  | false,_::cs => controlFree false cs
  | true,'\\'::_::cs => controlFree true cs
  | true,'"'::cs => controlFree false cs
  | true,c::cs => 0x20 ≤ c.toNat && controlFree true cs

/-- `json.loads(s)`, which by default is strict about control characters. -/
def loadsStrict (s : List Char) : Option Json := if controlFree false s then loads s else none

/-- Induction over a document, its lists of items and its lists of fields. -/
theorem induct {P : Json → Prop} {Q : List Json → Prop} {R : List (List Char × Json) → Prop}
    (hnull : P .null) (hbool : ∀ b,P (.bool b)) (hnumber : ∀ t,P (.number t))
    (hstring : ∀ s,P (.string s)) (harray : ∀ vs,Q vs → P (.array vs))
    (hobject : ∀ fs,R fs → P (.object fs)) (hnil : Q []) (hcons : ∀ v vs,P v → Q vs → Q (v::vs))
    (hend : R []) (hfield : ∀ key v fs,P v → R fs → R ((key,v)::fs)) (v : Json) : P v :=
  @Json.rec P Q R (fun f => P f.2) hnull hbool hnumber hstring harray hobject hnil hcons hend
    (fun f fs hf hfs => hfield f.1 f.2 fs hf hfs) (fun _ _ h => h) v

theorem numbers_of_numerals {p : List Char → Prop} {v : Json} :
    (∀ t ∈ numerals v,p t) → Numbers p v := by
  refine induct (P := fun v => (∀ t ∈ numerals v,p t) → Numbers p v)
    (Q := fun vs => (∀ t ∈ numeralsItems vs,p t) → NumbersItems p vs)
    (R := fun fs => (∀ t ∈ numeralsFields fs,p t) → NumbersFields p fs)
    ?_ ?_ ?_ ?_ ?_ ?_ ?_ ?_ ?_ ?_ v
  · exact fun _ => trivial
  · exact fun _ _ => trivial
  · exact fun t h => h t (by simp [numerals])
  · exact fun _ _ => trivial
  · exact fun vs ih h => ih h
  · exact fun fs ih h => ih h
  · exact fun _ => trivial
  · intro v vs hv hvs h
    exact ⟨hv fun t ht => h t (by simp [numeralsItems,ht]),
      hvs fun t ht => h t (by simp [numeralsItems,ht])⟩
  · exact fun _ => trivial
  · intro key v fs hv hfs h
    exact ⟨hv fun t ht => h t (by simp [numeralsFields,ht]),
      hfs fun t ht => h t (by simp [numeralsFields,ht])⟩

/-- A value whose numbers are integers. -/
def Integral (v : Json) : Prop := ∀ t ∈ v.numerals,∃ i,t = intText i

theorem Integral.writable {v : Json} (h : v.Integral) {t : List Char} (ht : dumps v = some t) :
    t = text 0 v ∧ Numbers Writable v := by
  unfold dumps at ht
  split_ifs at ht with hfits
  rw [List.all_eq_true] at hfits
  exact ⟨(Option.some.inj ht).symm,numbers_of_numerals fun u hu => ⟨h u hu,hfits u hu⟩⟩

theorem hexDigit_hexChar (n : Nat) : hexDigit (hexChar n) = some (n%16) := by
  have h : ∀ k < 16,hexDigit (Nat.digitChar k) = some k := by decide
  exact h (n%16) (Nat.mod_lt n (by decide))

theorem hex4_escapedUnit {n : Nat} (h : n < 0x10000) :
    hex4 (hexChar (n/4096)) (hexChar (n/256)) (hexChar (n/16)) (hexChar n) = some n := by
  have hsum : ((n/4096%16*16+n/256%16)*16+n/16%16)*16+n%16 = n := by omega
  simp [hex4,hexDigit_hexChar,hsum]

theorem stringUnits_escapedUnit {n : Nat} (h : n < 0x10000) (rest : List Char) :
    stringUnits (escapedUnit n++rest) =
      (stringUnits rest).map fun p => (n::p.1,p.2) := by
  simp only [escapedUnit,List.cons_append,List.nil_append]
  rw [stringUnits,hex4_escapedUnit h]
  cases stringUnits rest with
  | none => rfl
  | some p => rfl

/-- The code units of a character as `ensure_ascii` writes them. -/
def units (c : Char) : List Nat :=
  if c.toNat < 0x10000 then [c.toNat]
  else [0xd800+(c.toNat-0x10000)/0x400,0xdc00+(c.toNat-0x10000)%0x400]

theorem toNat_lt (c : Char) : c.toNat < 0x110000 := by
  have h : c.toNat.isValidChar := c.valid
  unfold Nat.isValidChar at h
  omega

theorem not_surrogate (c : Char) : ¬(0xd800 ≤ c.toNat ∧ c.toNat < 0xe000) := by
  have h : c.toNat.isValidChar := c.valid
  unfold Nat.isValidChar at h
  omega

theorem stringUnits_plain {c : Char} (hq : c ≠ '"') (hb : c ≠ '\\') (rest : List Char) :
    stringUnits (c::rest) = (stringUnits rest).map fun p => (c.toNat::p.1,p.2) := by
  rw [stringUnits]
  · cases stringUnits rest with
    | none => rfl
    | some p => rfl
  · exact hq
  · intro a b d e cs h
    exact absurd h hb
  · intro d cs h
    exact absurd h hb

theorem stringUnits_escaped {e c : Char} (he : escaped e = some c) (hu : e ≠ 'u')
    (rest : List Char) :
    stringUnits ('\\'::e::rest) = (stringUnits rest).map fun p => (c.toNat::p.1,p.2) := by
  rw [stringUnits,he]
  · cases stringUnits rest with
    | none => rfl
    | some p => rfl
  · intro a b d f cs h
    exact absurd h hu

/-- One step of the reader over one written character. -/
theorem stringUnits_escapeChar (c : Char) (rest : List Char) :
    stringUnits (escapeChar c++rest) =
      (stringUnits rest).map fun p => (units c++p.1,p.2) := by
  have hshort : ∀ {e : Char},escaped e = some c → e ≠ 'u' → c.toNat < 0x10000 →
      stringUnits ('\\'::e::rest) = (stringUnits rest).map fun p => (units c++p.1,p.2) := by
    intro e he hu hc
    rw [stringUnits_escaped he hu,units,if_pos hc]
    rfl
  unfold escapeChar
  split_ifs with h1 h2 h3 h4 h5 h6 h7 h8 h9
  · exact hshort (by rw [h1]; decide) (by decide) (by rw [h1]; decide)
  · exact hshort (by rw [h2]; decide) (by decide) (by rw [h2]; decide)
  · exact hshort (by rw [h3]; decide) (by decide) (by rw [h3]; decide)
  · exact hshort (by rw [h4]; decide) (by decide) (by rw [h4]; decide)
  · exact hshort (by rw [h5]; decide) (by decide) (by rw [h5]; decide)
  · exact hshort (by rw [h6]; decide) (by decide) (by rw [h6]; decide)
  · exact hshort (by rw [h7]; decide) (by decide) (by rw [h7]; decide)
  · have hc : c.toNat < 0x10000 := by omega
    rw [List.singleton_append,stringUnits_plain h2 h1,units,if_pos hc]
    rfl
  · rw [stringUnits_escapedUnit h9,units,if_pos h9]
    rfl
  · have hc := toNat_lt c
    rw [List.append_assoc,stringUnits_escapedUnit (by omega),stringUnits_escapedUnit (by omega),
      units,if_neg h9]
    cases stringUnits rest with
    | none => rfl
    | some p => rfl

theorem unitChar_toNat (c : Char) : unitChar c.toNat = c := by
  rw [unitChar,if_neg (not_surrogate c),Char.ofNat_toNat]

theorem joinUnits_units (c : Char) (us : List Nat) :
    joinUnits (units c++us) = c::joinUnits us := by
  have hc := toNat_lt c
  have hs := not_surrogate c
  unfold units
  split_ifs with h
  · cases us with
    | nil =>
      rw [List.append_nil,joinUnits,unitChar_toNat]
      rfl
    | cons u us =>
      rw [List.singleton_append,joinUnits,if_neg (by omega),unitChar_toNat]
  · have hsum : 0x10000+(0xd800+(c.toNat-0x10000)/0x400-0xd800)*0x400+
        (0xdc00+(c.toNat-0x10000)%0x400-0xdc00) = c.toNat := by omega
    rw [List.cons_append,List.singleton_append,joinUnits,if_pos (by omega),hsum,
      Char.ofNat_toNat]

theorem stringUnits_written (s rest : List Char) :
    stringUnits (s.flatMap escapeChar++ '"'::rest) = some (s.flatMap units,rest) := by
  induction s with
  | nil => rfl
  | cons c s ih =>
    rw [List.flatMap_cons,List.append_assoc,stringUnits_escapeChar,ih,List.flatMap_cons]
    rfl

theorem joinUnits_written (s : List Char) : joinUnits (s.flatMap units) = s := by
  induction s with
  | nil => rfl
  | cons c s ih => rw [List.flatMap_cons,joinUnits_units,ih]

/-- A written string is read back, whatever follows it. -/
theorem stringBody_written (s rest : List Char) :
    stringBody (s.flatMap escapeChar++ '"'::rest) = some (s,rest) := by
  rw [stringBody,stringUnits_written,Option.map_some,joinUnits_written]

/-- A character that would prolong a number. -/
def prolongs (c : Char) : Bool := c.isDigit || c == '.' || c == 'e' || c == 'E'

def Stops (rest : List Char) : Prop := ∀ c ∈ rest.head?,prolongs c = false

theorem stops_nil : Stops [] := by simp [Stops]

theorem stops_cons {c : Char} {cs : List Char} (h : prolongs c = false) : Stops (c::cs) := by
  simpa [Stops] using h

theorem toDigits_leading {n : Nat} {ds : List Char} (h : Nat.toDigits 10 n = '0'::ds) :
    ds = [] := by
  induction n using Nat.strong_induction_on generalizing ds with
  | _ n ih =>
    by_cases hn : n < 10
    · rw [Nat.toDigits_of_lt_base hn] at h
      exact (List.cons.inj h).2.symm
    · rw [Nat.toDigits_of_base_le (by decide) (by omega)] at h
      cases hd : Nat.toDigits 10 (n/10) with
      | nil => exact absurd hd Nat.toDigits_ne_nil
      | cons c cs =>
        rw [hd,List.cons_append] at h
        have hc : c = '0' := (List.cons.inj h).1
        rw [hc] at hd
        have hcs : cs = [] := ih (n/10) (by omega) hd
        have hval : Nat.ofDigitChars 10 (Nat.toDigits 10 (n/10)) 0 = n/10 :=
          Nat.ofDigitChars_ten_toDigits
        rw [hd,hcs] at hval
        have hzero : Nat.ofDigitChars 10 ['0'] 0 = 0 := by decide
        omega

theorem digits_append {ds rest : List Char} (hds : ∀ c ∈ ds,c.isDigit = true)
    (hr : Stops rest) : digits (ds++rest) = (ds,rest) := by
  have hrest : rest.takeWhile Char.isDigit = [] ∧ rest.dropWhile Char.isDigit = rest := by
    cases rest with
    | nil => simp
    | cons c cs =>
      have hc : prolongs c = false := hr c rfl
      have hd : c.isDigit = false := by
        simp only [prolongs,Bool.or_eq_false_iff] at hc
        exact hc.1.1.1
      simp [hd]
  rw [digits,List.span_eq_takeWhile_dropWhile,List.takeWhile_append_of_pos hds,
    List.dropWhile_append_of_pos hds,hrest.1,hrest.2,List.append_nil]

theorem fractionPart_stops {rest : List Char} (hr : Stops rest) :
    fractionPart rest = ([],rest) := by
  unfold fractionPart
  split
  · exact absurd (hr '.' rfl) (by decide)
  · rfl

theorem exponentPart_stops {rest : List Char} (hr : Stops rest) :
    exponentPart rest = ([],rest) := by
  cases rest with
  | nil => rfl
  | cons c cs =>
    have hc : ¬(c = 'e' ∨ c = 'E') := by
      intro he
      have hp : prolongs c = false := hr c rfl
      cases he with
      | inl he => exact absurd hp (by rw [he]; decide)
      | inr he => exact absurd hp (by rw [he]; decide)
    unfold exponentPart
    exact if_neg hc

theorem integerPart_toDigits (n : Nat) {rest : List Char} (hr : Stops rest) :
    integerPart (Nat.toDigits 10 n++rest) = some (Nat.toDigits 10 n,rest) := by
  have hdigits : ∀ c ∈ Nat.toDigits 10 n,c.isDigit = true :=
    fun c hc => Nat.isDigit_of_mem_toDigits (by decide) (by decide) hc
  have hd := digits_append hdigits hr
  unfold integerPart
  rw [hd]
  split
  · next h => exact absurd (congrArg Prod.fst h) Nat.toDigits_ne_nil
  · next ds rest' h =>
    have hds := congrArg Prod.fst h
    dsimp only at hds
    rw [toDigits_leading hds] at hds
    rw [hds]
    rfl
  · rfl

theorem filter_isDigit_toDigits (n : Nat) :
    (Nat.toDigits 10 n).filter Char.isDigit = Nat.toDigits 10 n := by
  rw [List.filter_eq_self]
  intro c hc
  exact Nat.isDigit_of_mem_toDigits (by decide) (by decide) hc

/-- The start of a decimal is a digit. -/
theorem toDigits_cons (n : Nat) : ∃ c cs,Nat.toDigits 10 n = c::cs ∧ c.isDigit = true := by
  cases hd : Nat.toDigits 10 n with
  | nil => exact absurd hd Nat.toDigits_ne_nil
  | cons c cs =>
    have hmem : c ∈ Nat.toDigits 10 n := by simp [hd]
    exact ⟨c,cs,rfl,Nat.isDigit_of_mem_toDigits (by decide) (by decide) hmem⟩

/-- What follows the sign of a number. -/
def scanUnsigned (sign body : List Char) : Option (Json × List Char) := do
  let (int,rest) ← integerPart body
  let (frac,rest) := fractionPart rest
  let (exp,rest) := exponentPart rest
  if frac = [] ∧ exp = [] ∧ 4300 < int.length then none
  else some (.number (sign++int++frac++exp),rest)

theorem scanNumber_minus (cs : List Char) : scanNumber ('-'::cs) = scanUnsigned ['-'] cs := rfl

theorem scanNumber_plain {c : Char} (hc : c ≠ '-') (cs : List Char) :
    scanNumber (c::cs) = scanUnsigned [] (c::cs) := by
  unfold scanNumber
  split
  next sign body h =>
  split at h
  · next he => exact absurd (List.cons.inj he).1 hc
  · rw [← (Prod.mk.inj h).1,← (Prod.mk.inj h).2]
    rfl

/-- A decimal of at most 4300 digits is read in full by what follows the sign. -/
theorem scanUnsigned_toDigits (n : Nat) (hn : (Nat.toDigits 10 n).length ≤ 4300)
    {rest : List Char} (hr : Stops rest) (sign : List Char) :
    scanUnsigned sign (Nat.toDigits 10 n++rest) =
      some (.number (sign++Nat.toDigits 10 n),rest) := by
  rw [scanUnsigned,integerPart_toDigits n hr]
  have hlen : ¬4300 < (Nat.toDigits 10 n).length := by omega
  simp [fractionPart_stops hr,exponentPart_stops hr,hlen]

theorem scanNumber_intText {i : Int} (hi : fits (intText i) = true)
    {rest : List Char} (hr : Stops rest) :
    scanNumber (intText i++rest) = some (.number (intText i),rest) := by
  cases i with
  | ofNat n =>
    have hlen : (Nat.toDigits 10 n).length ≤ 4300 := by
      simpa [fits,intText,filter_isDigit_toDigits] using hi
    obtain ⟨c,cs,hd,hc⟩ := toDigits_cons n
    have hsign : c ≠ '-' := by
      intro h
      rw [h] at hc
      exact absurd hc (by decide)
    have h := scanUnsigned_toDigits n hlen hr []
    rw [hd,List.cons_append] at h
    rw [intText,hd,List.cons_append,scanNumber_plain hsign,h]
    rfl
  | negSucc n =>
    have hlen : (Nat.toDigits 10 (n+1)).length ≤ 4300 := by
      simpa [fits,intText,filter_isDigit_toDigits,List.filter_cons] using hi
    exact scanUnsigned_toDigits (n+1) hlen hr ['-']

theorem skipBlank_newline (n : Nat) (rest : List Char) :
    skipBlank (newline n++rest) = skipBlank rest := by
  have hblank : ∀ k,skipBlank (List.replicate k ' '++rest) = skipBlank rest := by
    intro k
    induction k with
    | zero => rfl
    | succ k ih =>
      rw [List.replicate_succ,List.cons_append,skipBlank,List.dropWhile_cons_of_pos (by decide)]
      exact ih
  rw [newline,List.cons_append,skipBlank,List.dropWhile_cons_of_pos (by decide)]
  exact hblank (2*n)

theorem skipBlank_cons {c : Char} (hc : isBlank c = false) (rest : List Char) :
    skipBlank (c::rest) = c::rest := by
  rw [skipBlank,List.dropWhile_cons_of_neg (by simp [hc])]

/-- The first character of a number. -/
def startsNumber (c : Char) : Bool := c == '-' || c.isDigit

theorem intText_cons (i : Int) : ∃ c cs,intText i = c::cs ∧ startsNumber c = true := by
  cases i with
  | ofNat n =>
    obtain ⟨c,cs,hd,hc⟩ := toDigits_cons n
    exact ⟨c,cs,hd,by simp [startsNumber,hc]⟩
  | negSucc n => exact ⟨'-',_,rfl,by decide⟩

theorem startsNumber_ne {c d : Char} (hc : startsNumber c = true)
    (hd : startsNumber d = false) : c ≠ d := by
  intro h
  rw [h,hd] at hc
  exact absurd hc (by decide)

theorem not_blank_of_startsNumber {c : Char} (hc : startsNumber c = true) :
    isBlank c = false := by
  have h1 := startsNumber_ne hc (d := ' ') (by decide)
  have h2 := startsNumber_ne hc (d := '\t') (by decide)
  have h3 := startsNumber_ne hc (d := '\n') (by decide)
  have h4 := startsNumber_ne hc (d := '\r') (by decide)
  simp [isBlank,h1,h2,h3,h4]

/-- A written value starts with neither a blank nor a closing bracket. -/
theorem text_cons {v : Json} (hv : Numbers Writable v) (n : Nat) :
    ∃ c cs,text n v = c::cs ∧ isBlank c = false ∧ c ≠ ']' := by
  cases v with
  | null => exact ⟨'n',_,rfl,by decide⟩
  | bool b =>
    cases b with
    | true => exact ⟨'t',_,rfl,by decide⟩
    | false => exact ⟨'f',_,rfl,by decide⟩
  | number t =>
    obtain ⟨⟨i,hi⟩,_⟩ := hv
    obtain ⟨c,cs,hc,hs⟩ := intText_cons i
    exact ⟨c,cs,hi.trans hc,not_blank_of_startsNumber hs,startsNumber_ne hs (by decide)⟩
  | string s => exact ⟨'"',_,rfl,by decide⟩
  | array vs =>
    cases vs with
    | nil => exact ⟨'[',_,rfl,by decide⟩
    | cons v vs => exact ⟨'[',_,rfl,by decide⟩
  | object fs =>
    cases fs with
    | nil => exact ⟨'{',_,rfl,by decide⟩
    | cons f fs => exact ⟨'{',_,rfl,by decide⟩

theorem skipBlank_text {v : Json} (hv : Numbers Writable v) (n : Nat) (rest : List Char) :
    skipBlank (text n v++rest) = text n v++rest := by
  obtain ⟨c,cs,hc,hb,_⟩ := text_cons hv n
  rw [hc,List.cons_append,skipBlank_cons hb]

/-- A value that starts with none of the brackets is a number or a literal. -/
theorem value_atom {fuel : Nat} {c : Char} {cs : List Char} (h1 : c ≠ '"') (h2 : c ≠ '{')
    (h3 : c ≠ '[') : value (fuel+1) (c::cs) = (scanNumber (c::cs)).or (literal (c::cs)) := by
  rw [value]
  · intro d h
    exact h1 (List.cons.inj h).1
  · intro d h
    exact h2 (List.cons.inj h).1
  · intro d h
    exact h3 (List.cons.inj h).1

theorem value_array {fuel : Nat} {c : Char} {cs ds : List Char} (h : skipBlank cs = c::ds)
    (hc : c ≠ ']') :
    value (fuel+1) ('['::cs) = (elements fuel (c::ds)).map fun p => (.array p.1,p.2) := by
  rw [value,h]
  split
  · next h => exact absurd (List.cons.inj h).1 hc
  · cases elements fuel (c::ds) with
    | none => rfl
    | some p => rfl

theorem value_object {fuel : Nat} {c : Char} {cs ds : List Char} (h : skipBlank cs = c::ds)
    (hc : c ≠ '\x7d') :
    value (fuel+1) ('{'::cs) = (members fuel (c::ds)).map fun p => (.object p.1,p.2) := by
  rw [value,h]
  split
  · next h => exact absurd (List.cons.inj h).1 hc
  · cases members fuel (c::ds) with
    | none => rfl
    | some p => rfl

/-- The elements before a comma and after it. -/
theorem elements_comma {fuel : Nat} {cs ds es : List Char} {v : Json}
    (hv : value fuel cs = some (v,ds)) (hd : skipBlank ds = ','::es) :
    elements (fuel+1) cs = (elements fuel (skipBlank es)).map fun p => (v::p.1,p.2) := by
  rw [elements,hv]
  simp only [Option.bind_eq_bind,Option.bind_some,hd]
  cases elements fuel (skipBlank es) with
  | none => rfl
  | some p => rfl

theorem elements_close {fuel : Nat} {cs ds es : List Char} {v : Json}
    (hv : value fuel cs = some (v,ds)) (hd : skipBlank ds = ']'::es) :
    elements (fuel+1) cs = some ([v],es) := by
  rw [elements,hv]
  simp only [Option.bind_eq_bind,Option.bind_some,hd]
  rfl

theorem members_comma {fuel : Nat} {cs ds es ks ls : List Char} {key : List Char} {v : Json}
    (hk : stringBody cs = some (key,ks)) (hc : skipBlank ks = ':'::ls)
    (hv : value fuel (skipBlank ls) = some (v,ds)) (hd : skipBlank ds = ','::es) :
    members (fuel+1) ('"'::cs) =
      (members fuel (skipBlank es)).map fun p => ((key,v)::p.1,p.2) := by
  rw [members,hk]
  simp only [Option.bind_eq_bind,Option.bind_some,hc,hv,hd]
  cases members fuel (skipBlank es) with
  | none => rfl
  | some p => rfl

theorem members_close {fuel : Nat} {cs ds es ks ls : List Char} {key : List Char} {v : Json}
    (hk : stringBody cs = some (key,ks)) (hc : skipBlank ks = ':'::ls)
    (hv : value fuel (skipBlank ls) = some (v,ds)) (hd : skipBlank ds = '\x7d'::es) :
    members (fuel+1) ('"'::cs) = some ([(key,v)],es) := by
  rw [members,hk]
  simp only [Option.bind_eq_bind,Option.bind_some,hc,hv,hd]
  rfl

theorem stops_newline (n : Nat) (rest : List Char) : Stops (newline n++rest) :=
  stops_cons (by decide)

/-- With `fuel` steps the reader gives back what the writer wrote, whatever follows it short
of a longer number. -/
structure Reads (fuel : Nat) : Prop where
  value : ∀ (v : Json) (n : Nat) (rest : List Char),Numbers Writable v → Stops rest →
    2*(text n v).length ≤ fuel → value fuel (text n v++rest) = some (v,rest)
  elements : ∀ (v : Json) (vs : List Json) (n m : Nat) (rest : List Char),
    NumbersItems Writable (v::vs) → 2*(text n v++itemsText n ',' vs).length < fuel →
    elements fuel (text n v++itemsText n ',' vs++(newline m++ ']'::rest)) = some (v::vs,rest)
  members : ∀ (key : List Char) (v : Json) (fs : List (List Char × Json)) (n m : Nat)
    (rest : List Char),NumbersFields Writable ((key,v)::fs) →
    2*(text n v++fieldsText n ',' fs).length < fuel →
    members fuel (stringText key++ ':':: ' '::text n v++fieldsText n ',' fs++
      (newline m++ '\x7d'::rest)) = some ((key,v)::fs,rest)

theorem reads_zero : Reads 0 where
  value := by
    intro v n rest hv hr hfuel
    obtain ⟨c,cs,hc,_⟩ := text_cons hv n
    rw [hc] at hfuel
    simp at hfuel
  elements := by
    intro v vs n m rest hv hfuel
    omega
  members := by
    intro key v fs n m rest hv hfuel
    omega

section step

variable {fuel : Nat}

theorem Reads.array_step (h : Reads fuel) {v : Json} {vs : List Json}
    (hv : NumbersItems Writable (v::vs)) (n : Nat) (rest : List Char)
    (hfuel : 2*(text n (.array (v::vs))).length ≤ fuel+1) :
    Json.value (fuel+1) (text n (.array (v::vs))++rest) = some (.array (v::vs),rest) := by
  have hlen : 2*(text (n+1) v++itemsText (n+1) ',' vs).length < fuel := by
    simp [text,itemsText,newline] at hfuel ⊢
    omega
  have hitems := h.elements v vs (n+1) n rest hv hlen
  obtain ⟨c,cs,hc,_,hne⟩ := text_cons hv.1 (n+1)
  have hskip := skipBlank_text hv.1 (n+1) (itemsText (n+1) ',' vs++(newline n++ ']'::rest))
  simp only [List.append_assoc,hc,List.cons_append] at hitems hskip
  rw [text,itemsText]
  simp only [List.append_assoc,List.cons_append,List.nil_append]
  rw [value_array (c := c) (by rw [skipBlank_newline,hc,List.cons_append,hskip]) hne,hitems]
  rfl

theorem Reads.object_step (h : Reads fuel) {key : List Char} {v : Json}
    {fs : List (List Char × Json)} (hv : NumbersFields Writable ((key,v)::fs)) (n : Nat)
    (rest : List Char)
    (hfuel : 2*(text n (.object ((key,v)::fs))).length ≤ fuel+1) :
    Json.value (fuel+1) (text n (.object ((key,v)::fs))++rest) =
      some (.object ((key,v)::fs),rest) := by
  have hlen : 2*(text (n+1) v++fieldsText (n+1) ',' fs).length < fuel := by
    simp [text,fieldsText,newline] at hfuel ⊢
    omega
  have hfields := h.members key v fs (n+1) n rest hv hlen
  rw [text,fieldsText]
  simp only [stringText,List.append_assoc,List.cons_append,List.nil_append] at hfields ⊢
  rw [value_object (c := '"') (by rw [skipBlank_newline,skipBlank_cons (by decide)])
    (by decide),hfields]
  rfl

theorem Reads.value_step (h : Reads fuel) {v : Json} (hv : Numbers Writable v) (n : Nat)
    {rest : List Char} (hr : Stops rest) (hfuel : 2*(text n v).length ≤ fuel+1) :
    Json.value (fuel+1) (text n v++rest) = some (v,rest) := by
  cases v with
  | null => rfl
  | bool b =>
    cases b with
    | true => rfl
    | false => rfl
  | number t =>
    obtain ⟨⟨i,hi⟩,hlen⟩ := hv
    rw [hi] at hlen
    obtain ⟨c,cs,hc,hs⟩ := intText_cons i
    have hscan := scanNumber_intText hlen hr
    rw [hc,List.cons_append] at hscan
    rw [text,hi,hc,List.cons_append,value_atom (startsNumber_ne hs (by decide))
      (startsNumber_ne hs (by decide)) (startsNumber_ne hs (by decide)),hscan]
    rfl
  | string s =>
    rw [text,stringText,List.append_assoc,List.cons_append,Json.value,List.singleton_append,
      stringBody_written]
    rfl
  | array vs =>
    cases vs with
    | nil => rfl
    | cons v vs => exact h.array_step hv n rest hfuel
  | object fs =>
    cases fs with
    | nil => rfl
    | cons f fs => exact h.object_step hv n rest hfuel

theorem Reads.elements_step (h : Reads fuel) {v : Json} {vs : List Json}
    (hv : NumbersItems Writable (v::vs)) (n m : Nat) (rest : List Char)
    (hfuel : 2*(text n v++itemsText n ',' vs).length < fuel+1) :
    Json.elements (fuel+1) (text n v++itemsText n ',' vs++(newline m++ ']'::rest)) =
      some (v::vs,rest) := by
  rw [List.length_append] at hfuel
  cases vs with
  | nil =>
    rw [itemsText,List.append_nil]
    exact elements_close (h.value v n _ hv.1 (stops_newline m _) (by omega))
      (by rw [skipBlank_newline,skipBlank_cons (by decide)])
  | cons w ws =>
    have hlen : 2*(text n w++itemsText n ',' ws).length < fuel := by
      simp [itemsText,newline] at hfuel ⊢
      omega
    have hitems := h.elements w ws n m rest hv.2 hlen
    rw [itemsText]
    simp only [List.append_assoc,List.cons_append] at hitems ⊢
    rw [elements_comma (h.value v n _ hv.1 (stops_cons (by decide)) (by omega))
      (skipBlank_cons (by decide) _),skipBlank_newline,skipBlank_text hv.2.1,hitems]
    rfl

theorem Reads.members_step (h : Reads fuel) {key : List Char} {v : Json}
    {fs : List (List Char × Json)} (hv : NumbersFields Writable ((key,v)::fs)) (n m : Nat)
    (rest : List Char) (hfuel : 2*(text n v++fieldsText n ',' fs).length < fuel+1) :
    Json.members (fuel+1) (stringText key++ ':':: ' '::text n v++fieldsText n ',' fs++
      (newline m++ '\x7d'::rest)) = some ((key,v)::fs,rest) := by
  rw [List.length_append] at hfuel
  have hcolon : ∀ ds,skipBlank (':'::ds) = ':'::ds := skipBlank_cons (by decide)
  have hspace : ∀ ds,skipBlank (' '::(text n v++ds)) = text n v++ds := by
    intro ds
    rw [skipBlank,List.dropWhile_cons_of_pos (by decide)]
    exact skipBlank_text hv.1 n ds
  cases fs with
  | nil =>
    rw [fieldsText,List.append_nil]
    simp only [stringText,List.append_assoc,List.cons_append,List.nil_append]
    exact members_close (stringBody_written key _) (hcolon _)
      (by rw [hspace]; exact h.value v n _ hv.1 (stops_newline m _) (by omega))
      (by rw [skipBlank_newline,skipBlank_cons (by decide)])
  | cons g gs =>
    obtain ⟨key',w⟩ := g
    have hlen : 2*(text n w++fieldsText n ',' gs).length < fuel := by
      simp [fieldsText,newline] at hfuel ⊢
      omega
    have hfields := h.members key' w gs n m rest hv.2 hlen
    rw [fieldsText]
    simp only [stringText,List.append_assoc,List.cons_append,List.nil_append] at hfields ⊢
    rw [members_comma (stringBody_written key _) (hcolon _)
      (by rw [hspace]; exact h.value v n _ hv.1 (stops_cons (by decide)) (by omega))
      (skipBlank_cons (by decide) _),skipBlank_newline,skipBlank_cons (by decide),hfields]
    rfl

end step

theorem reads (fuel : Nat) : Reads fuel := by
  induction fuel with
  | zero => exact reads_zero
  | succ fuel h =>
    exact ⟨fun _ n _ hv hr hfuel => h.value_step hv n hr hfuel,
      fun _ _ n m rest hv hfuel => h.elements_step hv n m rest hfuel,
      fun _ _ _ n m rest hv hfuel => h.members_step hv n m rest hfuel⟩

theorem loads_text {v : Json} (hv : Numbers Writable v) : loads (text 0 v) = some v := by
  have hvalue := (reads (2*(text 0 v).length+2)).value v 0 [] hv stops_nil (by omega)
  have hskip := skipBlank_text hv 0 []
  rw [List.append_nil] at hvalue hskip
  rw [loads,hskip,hvalue]
  rfl

/-- The characters of a written document outside its strings. -/
def isMark (c : Char) : Bool :=
  (c == '\n' || (decide (0x20 ≤ c.toNat) && decide (c.toNat ≤ 0x7e))) && c != '"'

/-- A text of strings with printable characters and line feeds around them. -/
inductive Pieces : List Char → Prop
  | nil : Pieces []
  | mark {c : Char} {s : List Char} (hc : isMark c = true) (h : Pieces s) : Pieces (c::s)
  | string {s : List Char} (t : List Char) (h : Pieces s) : Pieces (stringText t++s)

theorem startsNumber_isMark {c : Char} (hc : startsNumber c = true) : isMark c = true := by
  have hquote := startsNumber_ne hc (d := '"') (by decide)
  simp only [startsNumber,Bool.or_eq_true,beq_iff_eq,Char.isDigit,Bool.and_eq_true,
    decide_eq_true_eq] at hc
  have hplain : 0x20 ≤ c.toNat ∧ c.toNat ≤ 0x7e := by
    cases hc with
    | inl hc => rw [hc]; decide
    | inr hc =>
      have h1 : 48 ≤ c.val.toNat := hc.1
      have h2 : c.val.toNat ≤ 57 := hc.2
      unfold Char.toNat
      omega
  simp [isMark,hplain,hquote]

theorem intText_isMark (i : Int) : (intText i).all isMark = true := by
  have hdigits : ∀ n,(Nat.toDigits 10 n).all isMark = true := by
    intro n
    rw [List.all_eq_true]
    intro c hc
    exact startsNumber_isMark
      (by simp [startsNumber,Nat.isDigit_of_mem_toDigits (by decide) (by decide) hc])
  cases i with
  | ofNat n => exact hdigits n
  | negSucc n =>
    rw [intText,List.all_cons,hdigits]
    decide

theorem hexChar_plain (n : Nat) :
    0x20 ≤ (hexChar n).toNat ∧ (hexChar n).toNat ≤ 0x7e ∧ hexChar n ≠ '"' ∧ hexChar n ≠ '\\' := by
  have h : ∀ k < 16,0x20 ≤ (Nat.digitChar k).toNat ∧ (Nat.digitChar k).toNat ≤ 0x7e ∧
      Nat.digitChar k ≠ '"' ∧ Nat.digitChar k ≠ '\\' := by decide
  exact h (n%16) (Nat.mod_lt n (by decide))

theorem controlFree_plain {c : Char} (hq : c ≠ '"') (hb : c ≠ '\\') (hc : 0x20 ≤ c.toNat)
    (rest : List Char) : controlFree true (c::rest) = controlFree true rest := by
  rw [controlFree]
  · simp [hc]
  · intro d cs h
    exact absurd h hb
  · exact hq

theorem controlFree_escapedUnit (n : Nat) (rest : List Char) :
    controlFree true (escapedUnit n++rest) = controlFree true rest := by
  have hhex : ∀ k ds,controlFree true (hexChar k::ds) = controlFree true ds := by
    intro k ds
    obtain ⟨h1,_,h3,h4⟩ := hexChar_plain k
    exact controlFree_plain h3 h4 h1 ds
  simp only [escapedUnit,List.cons_append,List.nil_append]
  rw [controlFree,hhex,hhex,hhex,hhex]

theorem controlFree_escapeChar (c : Char) (rest : List Char) :
    controlFree true (escapeChar c++rest) = controlFree true rest := by
  unfold escapeChar
  split_ifs with h1 h2 h3 h4 h5 h6 h7 h8 h9
  · rfl
  · rfl
  · rfl
  · rfl
  · rfl
  · rfl
  · rfl
  · exact controlFree_plain h2 h1 h8.1 rest
  · exact controlFree_escapedUnit _ rest
  · rw [List.append_assoc,controlFree_escapedUnit,controlFree_escapedUnit]

theorem controlFree_stringText (t rest : List Char) :
    controlFree false (stringText t++rest) = controlFree false rest := by
  have hbody : controlFree true (t.flatMap escapeChar++ '"'::rest) = controlFree false rest := by
    induction t with
    | nil => rfl
    | cons c t ih => rw [List.flatMap_cons,List.append_assoc,controlFree_escapeChar,ih]
  rw [stringText,List.append_assoc,List.cons_append,controlFree,List.singleton_append,hbody]

theorem escapedUnit_ascii (n : Nat) : ∀ c ∈ escapedUnit n,c.toNat < 128 := by
  intro c hc
  have hhex : ∀ k,(hexChar k).toNat < 128 := by
    intro k
    have h := hexChar_plain k
    omega
  simp only [escapedUnit,List.mem_cons,List.not_mem_nil,or_false] at hc
  rcases hc with rfl | rfl | rfl | rfl | rfl | rfl
  · decide
  · decide
  · exact hhex _
  · exact hhex _
  · exact hhex _
  · exact hhex _

theorem escapeChar_ascii (d : Char) : ∀ c ∈ escapeChar d,c.toNat < 128 := by
  intro c hc
  have hpair : ∀ e : Char,e.toNat < 128 → c ∈ ['\\',e] → c.toNat < 128 := by
    intro e he hc
    simp only [List.mem_cons,List.not_mem_nil,or_false] at hc
    cases hc with
    | inl hc => rw [hc]; decide
    | inr hc => rw [hc]; exact he
  unfold escapeChar at hc
  split_ifs at hc with h1 h2 h3 h4 h5 h6 h7 h8 h9
  · exact hpair _ (by decide) hc
  · exact hpair _ (by decide) hc
  · exact hpair _ (by decide) hc
  · exact hpair _ (by decide) hc
  · exact hpair _ (by decide) hc
  · exact hpair _ (by decide) hc
  · exact hpair _ (by decide) hc
  · rw [List.mem_singleton.mp hc]
    omega
  · exact escapedUnit_ascii _ c hc
  · cases List.mem_append.mp hc with
    | inl hc => exact escapedUnit_ascii _ c hc
    | inr hc => exact escapedUnit_ascii _ c hc

theorem stringText_ascii (t : List Char) : ∀ c ∈ stringText t,c.toNat < 128 := by
  intro c hc
  simp only [stringText,List.cons_append,List.mem_cons,List.mem_append,List.mem_flatMap,
    List.not_mem_nil,or_false] at hc
  rcases hc with rfl | ⟨d,_,hc⟩ | rfl
  · decide
  · exact escapeChar_ascii d c hc
  · decide

theorem isMark_ascii {c : Char} (hc : isMark c = true) : c.toNat < 128 ∧ c ≠ '"' := by
  simp only [isMark,Bool.and_eq_true,Bool.or_eq_true,beq_iff_eq,decide_eq_true_eq,
    bne_iff_ne] at hc
  refine ⟨?_,hc.2⟩
  cases hc.1 with
  | inl h => rw [h]; decide
  | inr h => omega

namespace Pieces

variable {s t : List Char}

theorem append (hs : Pieces s) (ht : Pieces t) : Pieces (s++t) := by
  induction hs with
  | nil => exact ht
  | mark hc _ ih => exact .mark hc ih
  | string u _ ih =>
    rw [List.append_assoc]
    exact .string u ih

theorem marks (h : s.all isMark = true) : Pieces s := by
  induction s with
  | nil => exact .nil
  | cons c s ih =>
    rw [List.all_cons,Bool.and_eq_true] at h
    exact .mark h.1 (ih h.2)

theorem newline (n : Nat) : Pieces (newline n) := by
  refine .mark (by decide) (marks ?_)
  rw [List.all_eq_true]
  intro c hc
  rw [(List.mem_replicate.mp hc).2]
  decide

theorem single (t : List Char) : Pieces (stringText t) := by
  have h := Pieces.string t .nil
  rwa [List.append_nil] at h

theorem text {v : Json} : Numbers Writable v → ∀ n,Pieces (text n v) := by
  refine induct (P := fun v => Numbers Writable v → ∀ n,Pieces (Json.text n v))
    (Q := fun vs => NumbersItems Writable vs → ∀ n lead,isMark lead = true →
      Pieces (itemsText n lead vs))
    (R := fun fs => NumbersFields Writable fs → ∀ n lead,isMark lead = true →
      Pieces (fieldsText n lead fs)) ?_ ?_ ?_ ?_ ?_ ?_ ?_ ?_ ?_ ?_ v
  · intro _ n
    exact marks (s := "null".toList) (by decide)
  · intro b _ n
    cases b with
    | true => exact marks (s := "true".toList) (by decide)
    | false => exact marks (s := "false".toList) (by decide)
  · intro t ht n
    obtain ⟨⟨i,rfl⟩,_⟩ := ht
    exact marks (intText_isMark i)
  · intro t _ n
    exact single t
  · intro vs ih hvs n
    cases vs with
    | nil => exact marks (s := ['[',']']) (by decide)
    | cons v vs =>
      exact ((ih hvs (n+1) '[' (by decide)).append (newline n)).append (marks (by decide))
  · intro fs ih hfs n
    cases fs with
    | nil => exact marks (s := ['{','\x7d']) (by decide)
    | cons f fs =>
      exact ((ih hfs (n+1) '{' (by decide)).append (newline n)).append (marks (by decide))
  · intro _ n lead _
    exact .nil
  · intro v vs hv hvs h n lead hlead
    exact ((Pieces.mark hlead (newline n)).append (hv h.1 n)).append (hvs h.2 n ',' (by decide))
  · intro _ n lead _
    exact .nil
  · intro key v fs hv hfs h n lead hlead
    have hlast := hfs h.2 n ',' (by decide)
    have hcolon := marks (s := [':',' ']) (by decide)
    have hparts := (((Pieces.mark hlead (newline n)).append (single key)).append hcolon).append
      ((hv h.1 n).append hlast)
    rw [fieldsText]
    simpa only [List.append_assoc,List.cons_append,List.nil_append] using hparts

/-- Outside strings there is nothing for the strict reader to refuse, and inside them every
control character is escaped. -/
theorem controlFree (hs : Pieces s) (rest : List Char) :
    controlFree false (s++rest) = controlFree false rest := by
  induction hs with
  | nil => rfl
  | mark hc _ ih =>
    rw [List.cons_append,Json.controlFree]
    · exact ih
    · exact (isMark_ascii hc).2
  | string t _ ih => rw [List.append_assoc,controlFree_stringText,ih]

theorem ascii (hs : Pieces s) : ∀ c ∈ s,c.toNat < 128 := by
  induction hs with
  | nil => simp
  | mark hc _ ih =>
    intro d hd
    cases List.mem_cons.mp hd with
    | inl hd => rw [hd]; exact (isMark_ascii hc).1
    | inr hd => exact ih d hd
  | string t _ ih =>
    intro d hd
    cases List.mem_append.mp hd with
    | inl hd => exact stringText_ascii t d hd
    | inr hd => exact ih d hd

end Pieces

/-- What `json.dumps(v, indent=2)` writes `json.loads` reads as `v`. -/
theorem loadsStrict_dumps {v : Json} (h : v.Integral) {t : List Char} (ht : dumps v = some t) :
    loadsStrict t = some v := by
  obtain ⟨rfl,hv⟩ := h.writable ht
  have hfree := (Pieces.text hv 0).controlFree []
  rw [List.append_nil] at hfree
  rw [loadsStrict,hfree,loads_text hv]
  rfl

theorem dumps_ascii {v : Json} (h : v.Integral) {t : List Char} (ht : dumps v = some t) :
    ∀ c ∈ t,c.toNat < 128 := by
  obtain ⟨rfl,hv⟩ := h.writable ht
  exact (Pieces.text hv 0).ascii

end Json
