import SoftwareFactory.Lib.JsonText

namespace PyDict

def str (s : String) : Json := .string s.toList

def int (n : Int) : Json := .number (Json.intText n)

def dict (fields : List (String × Json)) : Json :=
  .object (fields.map fun f => (f.1.toList,f.2))

/-- `d[key]`. -/
def item (key : String) : Json → Option Json
  | .object fields => Json.get fields key.toList
  | _ => none

def asStr : Json → Option String
  | .string s => some (String.ofList s)
  | _ => none

/-- `int(text)` of a number without fraction and exponent. -/
def parseInt : List Char → Option Int
  | '-'::ds => if ds ≠ [] ∧ ds.all Char.isDigit then some (-(Nat.ofDigitChars 10 ds 0)) else none
  | ds => if ds ≠ [] ∧ ds.all Char.isDigit then some (Nat.ofDigitChars 10 ds 0) else none

def asInt : Json → Option Int
  | .number t => parseInt t
  | _ => none

def asNat (v : Json) : Option Nat := (asInt v).bind Int.toNat?

def asList : Json → Option (List Json)
  | .array vs => some vs
  | _ => none

/-- A value that may be `None`. -/
def nullable {α : Type} (read : Json → Option α) : Json → Option (Option α)
  | .null => some none
  | v => (read v).map some

@[simp] theorem item_dict (key : String) (fields : List (String × Json)) :
    item key (dict fields) = (fields.reverse.find? fun f => f.1 == key).map Prod.snd := by
  have hkey : ((fun f : List Char × Json => f.1 == key.toList) ∘
      fun f : String × Json => (f.1.toList,f.2)) = fun f => f.1 == key := by
    funext f
    rw [Bool.eq_iff_iff]
    simp [String.toList_inj]
  rw [dict,item,Json.get,← List.map_reverse,List.find?_map,hkey,Option.map_map]
  rfl

@[simp] theorem asStr_str (s : String) : asStr (str s) = some s := by
  rw [str,asStr,String.ofList_toList]

theorem parseInt_intText (i : Int) : parseInt (Json.intText i) = some i := by
  have hall : ∀ n,(Nat.toDigits 10 n).all Char.isDigit = true := by
    intro n
    rw [List.all_eq_true]
    exact fun c hc => Nat.isDigit_of_mem_toDigits (by decide) (by decide) hc
  cases i with
  | ofNat n =>
    obtain ⟨c,cs,hd,hc⟩ := Json.toDigits_cons n
    rw [Json.intText]
    unfold parseInt
    split
    · next ds h =>
      rw [hd] at h
      rw [(List.cons.inj h).1] at hc
      exact absurd hc (by decide)
    · rw [if_pos ⟨Nat.toDigits_ne_nil,hall n⟩,Nat.ofDigitChars_ten_toDigits]
      rfl
  | negSucc n =>
    rw [Json.intText,parseInt,if_pos ⟨Nat.toDigits_ne_nil,hall _⟩,Nat.ofDigitChars_ten_toDigits]
    rfl

@[simp] theorem asInt_int (i : Int) : asInt (int i) = some i := parseInt_intText i

@[simp] theorem asNat_int (n : Nat) : asNat (int n) = some n := by
  rw [asNat,asInt_int]
  rfl

variable {α : Type} {read : Json → Option α} {write : α → Json}

theorem nullable_written (hread : ∀ a,read (write a) = some a) (hne : ∀ a,write a ≠ .null)
    (a : Option α) : nullable read ((a.map write).getD .null) = some a := by
  cases a with
  | none => rfl
  | some a =>
    rw [Option.map_some,Option.getD_some]
    unfold nullable
    split
    · next hnull => exact absurd hnull (hne a)
    · rw [hread,Option.map_some]

theorem mapM_written (hread : ∀ a,read (write a) = some a) (as : List α) :
    (as.map write).mapM read = some as := by
  induction as with
  | nil => rfl
  | cons a as ih => simp [hread,ih]

theorem integral_str (s : String) : (str s).Integral := by simp [str,Json.Integral,Json.numerals]

theorem integral_int (i : Int) : (int i).Integral := by
  simp [int,Json.Integral,Json.numerals]

theorem integral_null : Json.null.Integral := by simp [Json.Integral,Json.numerals]

theorem integral_array {vs : List Json} (h : ∀ v ∈ vs,v.Integral) : (Json.array vs).Integral := by
  unfold Json.Integral
  rw [Json.numerals]
  induction vs with
  | nil => simp [Json.numeralsItems]
  | cons v vs ih =>
    intro t ht
    rw [Json.numeralsItems] at ht
    cases List.mem_append.mp ht with
    | inl ht => exact h v (by simp) t ht
    | inr ht => exact ih (fun w hw => h w (by simp [hw])) t ht

theorem integral_dict {fields : List (String × Json)} (h : ∀ f ∈ fields,f.2.Integral) :
    (dict fields).Integral := by
  unfold dict Json.Integral
  rw [Json.numerals]
  induction fields with
  | nil => simp [Json.numeralsFields]
  | cons f fields ih =>
    intro t ht
    rw [List.map_cons,Json.numeralsFields] at ht
    cases List.mem_append.mp ht with
    | inl ht => exact h f (by simp) t ht
    | inr ht => exact ih (fun w hw => h w (by simp [hw])) t ht

end PyDict
