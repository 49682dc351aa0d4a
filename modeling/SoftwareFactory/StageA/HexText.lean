import SoftwareFactory.StageA.Contracts

namespace SoftwareFactory.StageA

theorem length_hexText (bytes : List UInt8) : (hexText bytes).length = 2*bytes.length := by
  induction bytes with
  | nil => rfl
  | cons b bytes ih =>
    rw [hexText,List.flatMap_cons,List.length_append,List.length_cons]
    rw [hexText] at ih
    rw [ih]
    simp only [List.length_cons,List.length_nil]
    omega

theorem hexAlphabet_digit (i : Nat) (h : i < 16) : isHexDigit (hexAlphabet.getD i ' ') = true := by
  have hall : ∀ i : Fin 16,isHexDigit (hexAlphabet.getD i ' ') = true := by decide
  exact hall ⟨i,h⟩

theorem isHexDigit_hexText {bytes : List UInt8} {c : Char} (h : c ∈ hexText bytes) :
    isHexDigit c = true := by
  obtain ⟨b,-,hc⟩ := List.mem_flatMap.mp h
  have hhigh : (b >>> 4).toNat < 16 := by
    have hb := b.toNat_lt
    rw [UInt8.toNat_shiftRight,Nat.shiftRight_eq_div_pow]
    simp
    omega
  have hlow : (b &&& 15).toNat < 16 := by
    rw [UInt8.toNat_and]
    exact lt_of_le_of_lt Nat.and_le_right (by decide)
  simp only [List.mem_cons,List.not_mem_nil,or_false] at hc
  rcases hc with rfl | rfl
  · exact hexAlphabet_digit _ hhigh
  · exact hexAlphabet_digit _ hlow

theorem hex64_hexText (v : Vector UInt8 32) : hex64 (hexText v.toList) = true := by
  rw [hex64,length_hexText,Vector.length_toList,Bool.and_eq_true,List.all_eq_true]
  exact ⟨by decide,fun c hc => isHexDigit_hexText hc⟩

/-- 64 lowercase hexadecimal digits. -/
def HexDigest (h : Str) : Prop :=
  h.length = 64 ∧ ∀ c ∈ h,('0' ≤ c ∧ c ≤ '9') ∨ ('a' ≤ c ∧ c ≤ 'f')

theorem hex64_iff {h : Str} : hex64 h = true ↔ HexDigest h := by
  simp [hex64,isHexDigit,HexDigest]

theorem hexDigit_inj {a b : Nat} (ha : a < 16) (hb : b < 16)
    (h : hexAlphabet.getD a ' ' = hexAlphabet.getD b ' ') : a = b := by
  have hall : ∀ a : Fin 16,∀ b : Fin 16,
      hexAlphabet.getD a.val ' ' = hexAlphabet.getD b.val ' ' → a = b := by decide
  exact congrArg Fin.val (hall ⟨a,ha⟩ ⟨b,hb⟩ h)

theorem hexByte_inj {a b : UInt8}
    (h4 : (a >>> 4).toNat = (b >>> 4).toNat) (h0 : (a &&& 15).toNat = (b &&& 15).toNat) :
    a = b := by
  apply UInt8.toNat_inj.mp
  have ha := Nat.div_add_mod a.toNat 16
  have hb := Nat.div_add_mod b.toNat 16
  simp only [UInt8.toNat_shiftRight,UInt8.toNat_and,UInt8.toNat_ofNat] at h4 h0
  rw [show (15 % 2^8 : Nat) = 2^4-1 by decide,Nat.and_two_pow_sub_one_eq_mod,
    Nat.and_two_pow_sub_one_eq_mod] at h0
  simp only [Nat.shiftRight_eq_div_pow,Nat.reducePow,Nat.reduceMod] at h4 h0
  omega

theorem hexText_inj {a b : List UInt8} (h : hexText a = hexText b) : a = b := by
  induction a generalizing b with
  | nil =>
    cases b with
    | nil => rfl
    | cons y ys => simp [hexText] at h
  | cons x xs ih =>
    cases b with
    | nil => simp [hexText] at h
    | cons y ys =>
      simp only [hexText,List.flatMap_cons,List.cons_append,List.nil_append,List.cons.injEq] at h
      obtain ⟨h4,h0,ht⟩ := h
      have hbound (z : UInt8) : (z >>> 4).toNat < 16 ∧ (z &&& 15).toNat < 16 := by
        have hz := z.toNat_lt
        simp only [UInt8.toNat_shiftRight,UInt8.toNat_and,UInt8.toNat_ofNat]
        refine ⟨?_,lt_of_le_of_lt Nat.and_le_right (by decide)⟩
        simp only [Nat.shiftRight_eq_div_pow,Nat.reducePow,Nat.reduceMod]
        omega
      have hx := hexByte_inj (hexDigit_inj (hbound x).1 (hbound y).1 h4)
        (hexDigit_inj (hbound x).2 (hbound y).2 h0)
      rw [hx,ih ht]

/-- The bytes of a hash that is written out. -/
def unhex (s : Str) : Vector UInt8 32 :=
  Vector.ofFn fun i =>
    UInt8.ofNat (16*hexAlphabet.idxOf (s.getD (2*i) '0')+hexAlphabet.idxOf (s.getD (2*i+1) '0'))

theorem decimal_digit {n : Nat} {c : Char} (h : c ∈ decimal n) : c.isDigit = true :=
  Nat.isDigit_of_mem_toDigits (by decide) (by decide) h

theorem decimal_inj {m n : Nat} (h : decimal m = decimal n) : m = n := by
  have hm : Nat.ofDigitChars 10 (decimal m) 0 = m := Nat.ofDigitChars_ten_toDigits
  have hn : Nat.ofDigitChars 10 (decimal n) 0 = n := Nat.ofDigitChars_ten_toDigits
  rw [← hm,h,hn]

end SoftwareFactory.StageA
