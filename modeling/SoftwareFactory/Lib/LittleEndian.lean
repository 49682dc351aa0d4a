import SoftwareFactory.Lib.Bytes

namespace ByteBuffer

def load16 : List UInt8 → UInt16
  | b0::b1::_ => b0.toUInt16 ||| b1.toUInt16 <<< 8
  | _ => 0

def load32 : List UInt8 → UInt32
  | b0::b1::b2::b3::_ =>
    b0.toUInt32 ||| b1.toUInt32 <<< 8 ||| b2.toUInt32 <<< 16 ||| b3.toUInt32 <<< 24
  | _ => 0

def store16 (v : UInt16) : List UInt8 := [v.toUInt8,(v >>> 8).toUInt8]

def store32 (v : UInt32) : List UInt8 :=
  [v.toUInt8,(v >>> 8).toUInt8,(v >>> 16).toUInt8,(v >>> 24).toUInt8]

/-- The 16-bit words of a buffer; a last odd byte is left out. -/
def loadUnits : List UInt8 → List UInt16
  | b0::b1::bs => load16 [b0,b1]::loadUnits bs
  | _ => []

@[simp] theorem store16_length (v : UInt16) : (store16 v).length = 2 := rfl
@[simp] theorem store32_length (v : UInt32) : (store32 v).length = 4 := rfl

theorem load16_store16 (v : UInt16) (bs : List UInt8) : load16 (store16 v++bs) = v :=
  (join16_eq_iff _ _ v).mpr ⟨rfl,rfl⟩

@[simp] theorem load32_store32 (v : UInt32) (bs : List UInt8) : load32 (store32 v++bs) = v :=
  (join32_eq_iff _ _ _ _ v).mpr ⟨rfl,rfl,rfl,rfl⟩

theorem store16_load16 (b0 b1 : UInt8) : store16 (load16 [b0,b1]) = [b0,b1] := by
  obtain ⟨h0,h1⟩ := (join16_eq_iff b0 b1 (load16 [b0,b1])).mp rfl
  rw [store16,← h0,← h1]

theorem store32_load32 {s : List UInt8} (h : 4 ≤ s.length) : store32 (load32 s) = s.take 4 := by
  match s,h with
  | b0::b1::b2::b3::s,_ =>
    obtain ⟨h0,h1,h2,h3⟩ := (join32_eq_iff b0 b1 b2 b3 (load32 (b0::b1::b2::b3::s))).mp rfl
    rw [store32,← h0,← h1,← h2,← h3]
    rfl

/-- A word does not depend on what stands behind it. -/
theorem load32_take {s : List UInt8} {n : Nat} (hn : 4 ≤ n) : load32 (s.take n) = load32 s := by
  match n,hn with
  | n+4,_ =>
    match s with
    | [] | [_] | [_,_] | [_,_,_] | _::_::_::_::_ => rfl

@[simp] theorem store_units_length (us : List UInt16) :
    (us.flatMap store16).length = 2*us.length := by
  induction us with
  | nil => rfl
  | cons u us ih =>
    rw [List.flatMap_cons,List.length_append,ih,store16_length,List.length_cons]
    omega

@[simp] theorem loadUnits_store (us : List UInt16) : loadUnits (us.flatMap store16) = us := by
  induction us with
  | nil => rfl
  | cons u us ih =>
    have hu : load16 [u.toUInt8,(u >>> 8).toUInt8] = u := load16_store16 u []
    rw [List.flatMap_cons]
    change load16 [u.toUInt8,(u >>> 8).toUInt8]::loadUnits (us.flatMap store16) = _
    rw [hu,ih]

theorem store_loadUnits {s : List UInt8} (h : s.length % 2 = 0) :
    (loadUnits s).flatMap store16 = s := by
  fun_induction loadUnits s with
  | case1 b0 b1 bs ih =>
    rw [List.flatMap_cons,store16_load16,ih]
    · rfl
    · simpa [Nat.add_assoc] using h
  | case2 s hs =>
    match s,hs with
    | [],_ => rfl
    | [_],_ => simp at h
    | b0::b1::bs,hs => exact absurd rfl (hs b0 b1 bs)

theorem loadUnits_length (s : List UInt8) : (loadUnits s).length = s.length/2 := by
  fun_induction loadUnits s with
  | case1 b0 b1 bs ih =>
    simp only [List.length_cons,ih]
    omega
  | case2 s hs =>
    match s,hs with
    | [],_ | [_],_ => simp
    | b0::b1::bs,hs => exact absurd rfl (hs b0 b1 bs)

end ByteBuffer
