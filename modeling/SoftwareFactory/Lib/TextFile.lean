import Mathlib.Data.List.Basic

/-- The bytes `write_text(s, encoding="utf-8")` leaves in a file. -/
def writeText (s : List Char) : List UInt8 := s.flatMap String.utf8EncodeChar

/-- `read_text(encoding="utf-8")`; `none` is a `UnicodeDecodeError`. -/
def readText (bytes : List UInt8) : Option (List Char) :=
  bytes.toByteArray.utf8Decode?.map Array.toList

theorem readText_writeText (s : List Char) : readText (writeText s) = some s := by
  have h := List.utf8Decode?_utf8Encode (l := s)
  rw [List.utf8Encode] at h
  rw [readText,writeText,h]
  simp

theorem utf8EncodeChar_ascii {c : Char} (hc : c.toNat < 128) :
    (String.utf8EncodeChar c).length = 1 := by
  rw [String.length_utf8EncodeChar,Char.utf8Size_eq_one_iff,UInt32.le_iff_toNat_le]
  have hval : c.val.toNat < 128 := hc
  have hmax : (127 : UInt32).toNat = 127 := rfl
  omega

/-- The bytes of a text in ASCII may be cut wherever its characters may. -/
theorem take_writeText {s : List Char} (hs : ∀ c ∈ s,c.toNat < 128) (n : Nat) :
    (writeText s).take n = writeText (s.take n) := by
  induction s generalizing n with
  | nil => simp [writeText]
  | cons c s ih =>
    cases n with
    | zero => simp [writeText]
    | succ n =>
      have hlen := utf8EncodeChar_ascii (hs c (by simp))
      have hrest := ih (fun d hd => hs d (by simp [hd])) n
      obtain ⟨b,hb⟩ := List.length_eq_one_iff.mp hlen
      unfold writeText at hrest ⊢
      rw [List.take_succ_cons,List.flatMap_cons,List.flatMap_cons,hb,List.singleton_append,
        List.take_succ_cons,hrest,List.singleton_append]

theorem length_writeText {s : List Char} (hs : ∀ c ∈ s,c.toNat < 128) :
    (writeText s).length = s.length := by
  induction s with
  | nil => rfl
  | cons c s ih =>
    have hlen := utf8EncodeChar_ascii (hs c (by simp))
    have hrest := ih fun d hd => hs d (by simp [hd])
    unfold writeText at hrest ⊢
    rw [List.flatMap_cons,List.length_append,hlen,hrest,List.length_cons,Nat.add_comm]
