import SoftwareFactory.StageA.TokenSidReading
import Mathlib.Data.List.TakeDrop

namespace SoftwareFactory.StageA.Windows

open ByteBuffer Effect Eff

/-- A security identifier of revision 1. -/
structure Sid where
  authority : Nat
  subauthorities : List UInt32
  authority_lt : authority < 2^48
  few : subauthorities.length ≤ 15

namespace Sid

variable (sid : Sid)

def count : UInt8 := UInt8.ofNat sid.subauthorities.length

/-- The authority, most significant byte first. -/
def authorityBytes (a : Nat) : List UInt8 :=
  [UInt8.ofNat (a/2^40),UInt8.ofNat (a/2^32%2^8),UInt8.ofNat (a/2^24%2^8),
    UInt8.ofNat (a/2^16%2^8),UInt8.ofNat (a/2^8%2^8),UInt8.ofNat (a%2^8)]

/-- The structure `SID` in memory. -/
def bytes : List UInt8 :=
  sidRevision::sid.count::(authorityBytes sid.authority++sid.subauthorities.flatMap store32)

/-- An authority of more than 32 bits is written in hexadecimal. -/
def authorityText (a : Nat) : Str :=
  if a < 2^32 then Nat.toDigits 10 a
  else
    let digits := Nat.toDigits 16 a
    "0x".toList++(List.replicate (12-digits.length) '0'++digits)

def subauthorityText (s : UInt32) : Str := '-'::Nat.toDigits 10 s.toNat

/-- The string form of a SID. -/
def text : Str :=
  "S-1-".toList++(authorityText sid.authority++sid.subauthorities.flatMap subauthorityText)

theorem count_toNat : sid.count.toNat = sid.subauthorities.length := by
  have hfew := sid.few
  rw [count,UInt8.toNat_ofNat']
  omega

theorem length_bytes : sid.bytes.length = sidLength sid.count := by
  have hsubs : (sid.subauthorities.flatMap store32).length = 4*sid.subauthorities.length := by
    induction sid.subauthorities with
    | nil => rfl
    | cons s subs ih =>
      rw [List.flatMap_cons,List.length_append,ih,store32_length,List.length_cons]
      omega
  simp only [bytes,authorityBytes,List.length_cons,List.length_append,List.length_nil,hsubs]
  rw [sidLength,count_toNat,minSidBytes]
  omega

end Sid

/-- Four bytes for each subauthority. -/
theorem exists_subauthorities (n : Nat) (bs : List UInt8) (h : bs.length = 4*n) :
    ∃ subs : List UInt32,subs.length = n ∧ subs.flatMap store32 = bs := by
  induction n generalizing bs with
  | zero => exact ⟨[],rfl,(List.length_eq_zero_iff.mp h).symm⟩
  | succ n ih =>
    obtain ⟨subs,hlen,hsubs⟩ := ih (bs.drop 4) (by rw [List.length_drop]; omega)
    refine ⟨load32 bs::subs,by simp [hlen],?_⟩
    rw [List.flatMap_cons,hsubs,store32_load32 (by omega),List.take_append_drop]

theorem exists_authority (bs : List UInt8) (h : bs.length = 6) :
    ∃ a < 2^48,Sid.authorityBytes a = bs := by
  obtain ⟨b0,b1,b2,b3,b4,b5,rfl⟩ : ∃ b0 b1 b2 b3 b4 b5,bs = [b0,b1,b2,b3,b4,b5] := by
    match bs,h with
    | [b0,b1,b2,b3,b4,b5],_ => exact ⟨b0,b1,b2,b3,b4,b5,rfl⟩
  have h0 := b0.toNat_lt
  have h1 := b1.toNat_lt
  have h2 := b2.toNat_lt
  have h3 := b3.toNat_lt
  have h4 := b4.toNat_lt
  have h5 := b5.toNat_lt
  obtain ⟨a,ha⟩ : ∃ a,a = ((((b0.toNat*2^8+b1.toNat)*2^8+b2.toNat)*2^8+b3.toNat)*2^8+
      b4.toNat)*2^8+b5.toNat := ⟨_,rfl⟩
  have hbyte : ∀ (b : UInt8) (n : Nat),n = b.toNat → UInt8.ofNat n = b := by
    intro b n hn
    rw [hn,UInt8.ofNat_toNat]
  refine ⟨a,by omega,?_⟩
  rw [Sid.authorityBytes,hbyte b0 _ (by omega),hbyte b1 _ (by omega),hbyte b2 _ (by omega),
    hbyte b3 _ (by omega),hbyte b4 _ (by omega),hbyte b5 _ (by omega)]

/-- Memory with a header that the decoder accepts begins with a SID. -/
theorem exists_sid {memory : List UInt8} (hrevision : memory.getD 0 0 = sidRevision)
    (hcount : memory.getD 1 0 ≤ sidMaxSubAuthorities)
    (hlength : sidLength (memory.getD 1 0) ≤ memory.length) :
    ∃ sid : Sid,sid.count = memory.getD 1 0 ∧ sid.bytes <+: memory := by
  obtain ⟨n,hn⟩ : ∃ n,n = (memory.getD 1 0).toNat := ⟨_,rfl⟩
  have hfew : n ≤ 15 := by
    rw [hn]
    exact UInt8.le_iff_toNat_le.mp hcount
  rw [sidLength,minSidBytes,← hn] at hlength
  obtain ⟨a,ha,hauthority⟩ := exists_authority ((memory.drop 2).take 6) (by simp; omega)
  obtain ⟨subs,hsubs,hbytes⟩ := exists_subauthorities n ((memory.drop 8).take (4*n))
    (by simp; omega)
  have hsid : UInt8.ofNat subs.length = memory.getD 1 0 := by
    rw [hsubs,hn,UInt8.ofNat_toNat]
  refine ⟨⟨a,subs,ha,by omega⟩,hsid,memory.drop (8+4*n),?_⟩
  have hhead : memory = memory.getD 0 0::memory.getD 1 0::memory.drop 2 := by
    cases memory with
    | nil => simp at hlength
    | cons b0 rest =>
      cases rest with
      | nil =>
        rw [List.length_singleton] at hlength
        omega
      | cons b1 rest => rfl
  have htail : memory.drop 2 = (memory.drop 2).take 6++((memory.drop 8).take (4*n)++
      memory.drop (8+4*n)) := by
    have hdrop : memory.drop (8+4*n) = (memory.drop 8).drop (4*n) := by rw [List.drop_drop]
    have hdrop8 : memory.drop 8 = (memory.drop 2).drop 6 := by rw [List.drop_drop]
    rw [hdrop,List.take_append_drop,hdrop8,List.take_append_drop]
  rw [Sid.bytes,Sid.count,hsid,hauthority,hbytes,← hrevision]
  conv_rhs => rw [hhead,htail]
  simp

section memory

variable {ν : Type} {sys : SidFunctions ν} {base returned : Nat} {buffer memory : List UInt8}

theorem loadPointer_take {n : Nat} (hn : 8 ≤ n) (bytes : List UInt8) :
    loadPointer (bytes.take n) = loadPointer bytes := by
  rw [loadPointer,loadPointer,List.drop_take,load32_take (by omega),load32_take (by omega)]

theorem loadPointer_storePointer {a : Nat} (ha : a < 2^64) (rest : List UInt8) :
    loadPointer (storePointer a++rest) = a := by
  have hdrop : (storePointer a++rest).drop 4 = store32 (UInt32.ofNat (a/2^32))++rest := by
    rw [storePointer,List.append_assoc]
    exact List.drop_left' rfl
  rw [loadPointer,hdrop,storePointer,List.append_assoc,load32_store32,load32_store32,
    UInt32.toNat_ofNat',UInt32.toNat_ofNat']
  omega

theorem getD_take {n i : Nat} (hi : i < n) (bytes : List UInt8) :
    (bytes.take n).getD i 0 = bytes.getD i 0 := by
  simp [List.getD_eq_getElem?_getD,hi]

/-- What the decoder finds at distance `k` from the start of the buffer. -/
structure SidAt (sys : SidFunctions ν) (base : Nat) (buffer : List UInt8) (returned k : Nat) :
    Prop where
  pointer : loadPointer buffer = base+k
  pointer_set : base+k ≠ 0
  behind : tokenUserBytes ≤ k
  header : k+minSidBytes ≤ returned
  revision : (buffer.drop k).getD 0 0 = sidRevision
  count : (buffer.drop k).getD 1 0 ≤ sidMaxSubAuthorities
  inside : k+sidLength ((buffer.drop k).getD 1 0) ≤ returned
  valid : sys.isValidSid (buffer.drop k) = true
  same_length : sys.getLengthSid (buffer.drop k) = sidLength ((buffer.drop k).getD 1 0)

theorem sidMemory_ok (h : returned ≤ buffer.length) :
    sys.sidMemory base buffer returned = .ok memory ↔
      (tokenUserBytes+minSidBytes ≤ returned ∧ returned ≤ maxTokenUserBytes) ∧
        ∃ k,SidAt sys base buffer returned k ∧ memory = buffer.drop k := by
  have hpointer := loadPointer_lt buffer
  have htake : loadPointer (buffer.take tokenUserBytes) = loadPointer buffer :=
    loadPointer_take (by decide) buffer
  have hroom : tokenUserBytes+minSidBytes ≤ returned → returned ≤ maxTokenUserBytes →
      sizeSub returned minSidBytes = returned-minSidBytes ∧
        ∀ k,k+minSidBytes ≤ returned → sizeSub returned k = returned-k := by
    intro hlow hhigh
    simp only [tokenUserBytes,minSidBytes,maxTokenUserBytes] at hlow hhigh ⊢
    exact ⟨sizeSub_of_le (by omega) (by omega),fun k hk => sizeSub_of_le (by omega) (by omega)⟩
  have hsub : ∀ k,loadPointer buffer = base+k → sizeSub (loadPointer buffer) base = k := by
    intro k hk
    rw [sizeSub]
    omega
  rw [SidFunctions.sidMemory,parse_bind_ok]
  simp only [parse_bind_ok,parseFailIf_ok,copyOut_ok]
  simp only [exists_const,and_assoc,exists_and_left,exists_eq_left,List.drop_zero,htake,
    getD_take (by decide : 0 < 2),getD_take (by decide : 1 < 2)]
  simp only [not_or,not_lt,not_not,gt_iff_lt]
  constructor
  · intro hparts
    obtain ⟨⟨hlow,hhigh⟩,_,⟨hset,hbase,hbehind,hheader⟩,_,⟨hrevision,hcount⟩,hinside,
      ⟨hvalid,hsame⟩,hm⟩ := hparts
    obtain ⟨hend,hleft⟩ := hroom hlow hhigh
    obtain ⟨k,hk⟩ : ∃ k,loadPointer buffer = base+k := ⟨loadPointer buffer-base,by omega⟩
    rw [hsub k hk] at hbehind hheader hrevision hcount hinside hvalid hsame hm
    have hin : k+minSidBytes ≤ returned := by
      simp only [minSidBytes,tokenUserBytes] at hlow hend hheader ⊢
      omega
    rw [hleft k hin] at hinside
    refine ⟨hlow,hhigh,k,⟨hk,by omega,hbehind,hin,hrevision,UInt8.not_lt.mp hcount,by omega,?_,
      hsame⟩,(Except.ok.inj hm).symm⟩
    simpa using hvalid
  · intro hparts
    obtain ⟨hlow,hhigh,k,hat,rfl⟩ := hparts
    obtain ⟨hend,hleft⟩ := hroom hlow hhigh
    have hin := hat.header
    have hset := hat.pointer_set
    have hinside := hat.inside
    have hk := hat.pointer
    rw [hsub k hk,hleft k hin,hend]
    have hsizes : tokenUserBytes = 16 ∧ minSidBytes = 8 := ⟨rfl,rfl⟩
    refine ⟨⟨hlow,hhigh⟩,by omega,⟨by omega,by omega,hat.behind,by omega⟩,by omega,
      ⟨hat.revision,UInt8.not_lt.mpr hat.count⟩,by omega,⟨by simp [hat.valid],hat.same_length⟩,rfl⟩

end memory

section string

variable {sid : Sid} {s : Str}

theorem isDigit_toDigits {n : Nat} {c : Char} (hc : c ∈ Nat.toDigits 10 n) : IsDigit c := by
  have hdigit := Nat.isDigit_of_mem_toDigits (by decide) (by decide) hc
  rw [Char.isDigit,Bool.and_eq_true,decide_eq_true_eq,decide_eq_true_eq] at hdigit
  exact hdigit

theorem digitGroup_toDigits (n : Nat) : DigitGroup (Nat.toDigits 10 n) :=
  ⟨Nat.toDigits_ne_nil,fun _ hc => isDigit_toDigits hc⟩

theorem spliced_subauthorities (subs : List UInt32) {g : Str} (hg : DigitGroup g) :
    Splice.Spliced DigitGroup ['-'] (g++subs.flatMap Sid.subauthorityText) := by
  induction subs generalizing g with
  | nil => simpa using Splice.Spliced.last hg
  | cons a subs ih =>
    have hrest : Splice.Spliced DigitGroup ['-']
        (g++['-']++(Nat.toDigits 10 a.toNat++subs.flatMap Sid.subauthorityText)) :=
      .cons hg (ih (digitGroup_toDigits a.toNat))
    simpa [Sid.subauthorityText] using hrest

theorem Sid.sidText (h : sid.authority < 2^32) : SidText sid.text := by
  refine ⟨_,rfl,?_⟩
  rw [authorityText,if_pos h]
  exact spliced_subauthorities _ (digitGroup_toDigits _)

theorem length_toDigits {b n k : Nat} (hb : 1 < b) (hk : 0 < k) (hn : n < b^k) :
    0 < (Nat.toDigits b n).length ∧ (Nat.toDigits b n).length ≤ k :=
  ⟨Nat.length_toDigits_pos,(Nat.length_toDigits_le_iff hb hk).mpr hn⟩

theorem length_authorityText {a : Nat} (ha : a < 2^48) :
    0 < (Sid.authorityText a).length ∧ (Sid.authorityText a).length ≤ 14 := by
  rw [Sid.authorityText]
  split_ifs with h
  · have hlen := length_toDigits (b := 10) (n := a) (k := 10) (by decide) (by decide) (by omega)
    omega
  · have hlen := length_toDigits (b := 16) (n := a) (k := 12) (by decide) (by decide) (by omega)
    have hx : "0x".toList.length = 2 := by decide
    simp only [List.length_append,List.length_replicate,hx]
    omega

theorem length_subauthorities (subs : List UInt32) :
    (subs.flatMap Sid.subauthorityText).length ≤ 11*subs.length := by
  induction subs with
  | nil => simp
  | cons a subs ih =>
    have ha := a.toNat_lt
    have hlen := length_toDigits (b := 10) (n := a.toNat) (k := 10) (by decide) (by decide)
      (by omega)
    rw [List.flatMap_cons,List.length_append,Sid.subauthorityText,List.length_cons,
      List.length_cons]
    omega

theorem Sid.length_text (sid : Sid) :
    5 ≤ sid.text.length ∧ sid.text.length ≤ maxSidCharacters := by
  have hauthority := length_authorityText sid.authority_lt
  have hsubs := length_subauthorities sid.subauthorities
  have hfew := sid.few
  have hlead : "S-1-".toList.length = 4 := by decide
  rw [text,List.length_append,List.length_append,hlead,maxSidCharacters]
  omega

def wideText (s : Str) : WStr := s.map fun c => c.toNat.toUInt16

theorem SidSign.wide {c : Char} (h : SidSign c) :
    WideSign c.toNat.toUInt16 ∧ narrow c.toNat.toUInt16 = c := by
  have hsmall : c.toNat < 128 := by
    rcases h with h | rfl | rfl
    · have hhigh : c.toNat ≤ '9'.toNat := h.2
      have hnine : '9'.toNat = 57 := by decide
      omega
    · decide
    · decide
  have hall : ∀ n < 128,SidSign (Char.ofNat n) →
      WideSign n.toUInt16 ∧ narrow n.toUInt16 = Char.ofNat n := by
    unfold SidSign IsDigit WideSign narrow
    decide
  have hc := hall c.toNat hsmall
  rw [Char.ofNat_toNat] at hc
  exact hc h

theorem Sid.signs (h : sid.authority < 2^32) : ∀ c ∈ sid.text,SidSign c := by
  intro c hc
  rcases (Sid.sidText h).mem hc with hdigit | hdash | hs
  · exact .inl hdigit
  · exact .inr (.inr hdash)
  · exact .inr (.inl hs)

/-- The signs of a SID's text are let through unless its authority is written in hexadecimal. -/
theorem Sid.wideSigns (sid : Sid) :
    (∀ c ∈ wideText sid.text,WideSign c) ↔ sid.authority < 2^32 := by
  constructor
  · intro hall
    by_contra hlarge
    have hx : 'x' ∈ sid.text := by
      rw [text,authorityText,if_neg hlarge]
      simp
    have hsign := hall _ (List.mem_map_of_mem hx)
    rw [WideSign] at hsign
    exact absurd hsign (by decide)
  · intro hsmall c hc
    obtain ⟨d,hd,rfl⟩ := List.mem_map.mp hc
    exact (Sid.signs hsmall d hd).wide.1

theorem sidResult_text : sidResult (wideText sid.text) = .ok s ↔
    sid.authority < 2^32 ∧ s = sid.text := by
  have hlead : (wideText sid.text)[0]? = some 0x53 ∧ (wideText sid.text)[1]? = some 0x2d := by
    have hstart : "S-1-".toList = ['S','-','1','-'] := by decide
    rw [Sid.text,hstart]
    exact ⟨rfl,rfl⟩
  have hlength : (wideText sid.text).length = sid.text.length := List.length_map _
  rw [sidResult_ok,hlength,sid.wideSigns]
  simp only [hlead,sid.length_text,and_self,true_and]
  apply and_congr_right
  intro hsmall
  have hback : (wideText sid.text).map narrow = sid.text := by
    have hid : sid.text.map (narrow ∘ fun c => c.toNat.toUInt16) = sid.text.map id := by
      apply List.map_congr_left
      intro c hc
      exact (Sid.signs hsmall c hc).wide.2
    rw [wideText,List.map_map,hid,List.map_id]
  rw [hback]

end string

section exact

variable {ν : Type} {sys : SidFunctions ν} {base returned k : Nat} {buffer memory : List UInt8}
  {sid : Sid} {w : ν} {s : Str}

/-- What Windows documents of its functions on a SID. -/
structure Documented (sys : SidFunctions ν) : Prop where
  valid : ∀ (sid : Sid) rest,sys.isValidSid (sid.bytes++rest) = true
  length : ∀ (sid : Sid) rest,sys.getLengthSid (sid.bytes++rest) = sid.bytes.length
  text : ∀ (sid : Sid) rest w,
    (sys.convertSidToStringSid (sid.bytes++rest) w).1 = .ok (some (wideText sid.text))

/-- A buffer with a pointer to a SID, which lies within what was returned of it. -/
structure Placed (base : Nat) (buffer : List UInt8) (returned k : Nat) (sid : Sid) : Prop where
  enough : tokenUserBytes+minSidBytes ≤ returned
  bounded : returned ≤ maxTokenUserBytes
  pointer : loadPointer buffer = base+k
  pointer_set : base+k ≠ 0
  behind : tokenUserBytes ≤ k
  inside : k+sid.bytes.length ≤ returned
  stored : sid.bytes <+: buffer.drop k

theorem Sid.head (sid : Sid) (rest : List UInt8) :
    (sid.bytes++rest).getD 0 0 = sidRevision ∧ (sid.bytes++rest).getD 1 0 = sid.count := by
  rw [bytes]
  exact ⟨rfl,rfl⟩

theorem SidAt.exists_placed (h : SidAt sys base buffer returned k)
    (hlength : returned ≤ buffer.length) (henough : tokenUserBytes+minSidBytes ≤ returned)
    (hbounded : returned ≤ maxTokenUserBytes) : ∃ sid,Placed base buffer returned k sid := by
  have hinside := h.inside
  have hroom : sidLength ((buffer.drop k).getD 1 0) ≤ (buffer.drop k).length := by
    rw [List.length_drop]
    omega
  obtain ⟨sid,hcount,hstored⟩ := exists_sid h.revision h.count hroom
  rw [← hcount,← sid.length_bytes] at hinside
  exact ⟨sid,henough,hbounded,h.pointer,h.pointer_set,h.behind,hinside,hstored⟩

theorem Placed.sidAt (hsys : Documented sys) (h : Placed base buffer returned k sid) :
    SidAt sys base buffer returned k := by
  obtain ⟨rest,hrest⟩ := h.stored
  obtain ⟨hrevision,hcount⟩ := sid.head rest
  have hinside := h.inside
  have hlen := sid.length_bytes
  have hfew := sid.few
  rw [hrest] at hrevision hcount
  refine ⟨h.pointer,h.pointer_set,h.behind,?_,hrevision,?_,?_,?_,?_⟩
  · rw [hlen,sidLength] at hinside
    omega
  · rw [hcount,UInt8.le_iff_toNat_le,sid.count_toNat]
    exact hfew
  · rw [hcount,← hlen]
    exact hinside
  · rw [← hrest]
    exact hsys.valid sid rest
  · rw [hcount,← hlen,← hrest]
    exact hsys.length sid rest

theorem convertSid_text (hsys : Documented sys) (rest : List UInt8) :
    (sys.convertSid (sid.bytes++rest) w).1 = .ok s ↔ sid.authority < 2^32 ∧ s = sid.text := by
  have htext := hsys.text sid rest w
  rw [SidFunctions.convertSid]
  cases hconvert : sys.convertSidToStringSid (sid.bytes++rest) w with
  | mk r w1 =>
    rw [hconvert] at htext
    obtain rfl : r = .ok (some (wideText sid.text)) := htext
    dsimp only
    rw [owning_apply,← sidResult_text]
    cases sidResult (wideText sid.text) with
    | ok t => simp [Win32.parsed]
    | error stop => cases stop <;> simp [Win32.parsed]

/-- The decoder returns a text exactly if the buffer holds a SID with this text, the authority of
which is of 32 bits. -/
theorem decodeTokenUserSid_ok (hsys : Documented sys) (h : returned ≤ buffer.length) :
    (sys.decodeTokenUserSid base buffer returned w).1 = .ok s ↔
      ∃ k sid,Placed base buffer returned k sid ∧ sid.authority < 2^32 ∧ s = sid.text := by
  rw [SidFunctions.decodeTokenUserSid]
  constructor
  · intro hrun
    cases hmemory : sys.sidMemory base buffer returned with
    | error stop =>
      rw [hmemory] at hrun
      cases stop <;> cases hrun
    | ok memory =>
      obtain ⟨⟨henough,hbounded⟩,k,hat,rfl⟩ := (sidMemory_ok h).mp hmemory
      obtain ⟨sid,hplaced⟩ := hat.exists_placed h henough hbounded
      obtain ⟨rest,hrest⟩ := hplaced.stored
      rw [hmemory,← hrest] at hrun
      exact ⟨k,sid,hplaced,(convertSid_text hsys rest).mp hrun⟩
  · intro hplaced
    obtain ⟨k,sid,hplaced,htext⟩ := hplaced
    have hmemory := (sidMemory_ok h).mpr
      ⟨⟨hplaced.enough,hplaced.bounded⟩,k,hplaced.sidAt hsys,rfl⟩
    obtain ⟨rest,hrest⟩ := hplaced.stored
    rw [hmemory,← hrest]
    exact (convertSid_text hsys rest).mpr htext

/-- One call of the port up to the decoder: the token is opened, the size is asked for, a buffer
of this size is made and filled. -/
inductive Delivered (calls : TokenSidNativeCalls ν) (sys : SidFunctions ν) (w : ν) :
    Handle → Nat → List UInt8 → Nat → ν → Prop
  | filled {token base : Nat} {error : UInt32} {sizing answer : TokenUserAnswer} {w1 w2 w3 w4 : ν}
      (hopen : calls.openCurrentProcessToken tokenQuery w = (.ok (token,error),w1))
      (htoken : token ≠ 0 ∧ token ≠ invalidHandleValue)
      (hsizing : calls.queryTokenUser token none 0 w1 = (.ok sizing,w2))
      (hsize : sizing.success = false ∧ sizing.win32Error = errorInsufficientBuffer)
      (henough : tokenUserBytes+minSidBytes ≤ sizing.returnedLength)
      (hbounded : sizing.returnedLength ≤ maxTokenUserBytes)
      (hnew : sys.allocate sizing.returnedLength w2 = (.ok base,w3))
      (hread : calls.queryTokenUser token (some base) sizing.returnedLength w3 = (.ok answer,w4))
      (hsuccess : answer.success = true)
      (hlength : answer.returnedLength ≤ sizing.returnedLength) :
      Delivered calls sys w token base
        (copyTo (List.replicate sizing.returnedLength 0) 0
          (answer.bytes.take sizing.returnedLength)) answer.returnedLength w4

section port

variable {calls : TokenSidNativeCalls ν} {α : Type} {m : Eff ν Thrown α} {a : α} {w' : ν}

theorem else_raise_ok {p : Prop} [Decidable p] {t : Thrown} :
    (if p then Eff.raise t else m) w = (.ok a,w') ↔ ¬p ∧ m w = (.ok a,w') := by
  split_ifs with h <;> simp [h]

theorem rethrowing_ok {handler : Thrown → Thrown} :
    Eff.catching m (fun t => Eff.raise (handler t)) w = (.ok a,w') ↔ m w = (.ok a,w') := by
  cases h : m w with
  | mk r w1 =>
    cases r with
    | ok b => rw [catching_ok h]
    | error t =>
      rw [catching_error h]
      simp

theorem newBuffer_ok {required : Nat} :
    sys.newBuffer required w = (.ok base,w') ↔ sys.allocate required w = (.ok base,w') := by
  rw [SidFunctions.newBuffer]
  cases sys.allocate required w with
  | mk r w1 => cases r <;> simp

theorem readToken_ok {token : Handle} : sys.readToken calls token w = (.ok s,w') ↔
    ∃ sizing w1,calls.queryTokenUser token none 0 w = (.ok sizing,w1) ∧
      ¬(sizing.success = true ∨ sizing.win32Error ≠ errorInsufficientBuffer) ∧
      ¬sizing.returnedLength < tokenUserBytes+minSidBytes ∧
      ¬sizing.returnedLength > maxTokenUserBytes ∧
      ∃ base w2,sys.allocate sizing.returnedLength w1 = (.ok base,w2) ∧
        ∃ answer w3,
          calls.queryTokenUser token (some base) sizing.returnedLength w2 = (.ok answer,w3) ∧
          ¬(!answer.success) = true ∧ ¬answer.returnedLength > sizing.returnedLength ∧
          sys.decodeTokenUserSid base (copyTo (List.replicate sizing.returnedLength 0) 0
            (answer.bytes.take sizing.returnedLength)) answer.returnedLength w3 = (.ok s,w') := by
  rw [SidFunctions.readToken]
  simp only [bind_ok,else_raise_ok,failIf_ok,newBuffer_ok]
  simp only [exists_const,and_assoc,exists_and_left,exists_eq_left']

/-- What the port returns it has decoded from a buffer that was delivered. -/
theorem readBody_ok : sys.readBody (some calls) w = (.ok s,w') ↔
    ∃ token base buffer returned w1 w2,Delivered calls sys w token base buffer returned w1 ∧
      sys.decodeTokenUserSid base buffer returned w1 = (.ok s,w2) ∧
        w' = calls.close token w2 := by
  rw [SidFunctions.readBody]
  constructor
  · intro hrun
    obtain ⟨opened,w1,hopen,hrun⟩ := bind_ok.mp hrun
    obtain ⟨token,error⟩ := opened
    obtain ⟨htoken,hrun⟩ := else_raise_ok.mp hrun
    obtain ⟨w2,hrun,hclose⟩ := owning_ok.mp hrun
    obtain ⟨sizing,w3,hsizing,hsize,henough,hbounded,base,w4,hnew,answer,w5,hread,hsuccess,
      hlength,hdecode⟩ := readToken_ok.mp hrun
    simp only [not_or,not_not,Bool.not_eq_true] at htoken hsize hsuccess
    have hdelivered := Delivered.filled hopen htoken hsizing hsize (not_lt.mp henough)
      (not_lt.mp hbounded) hnew hread (by simpa using hsuccess) (not_lt.mp hlength)
    exact ⟨token,base,_,_,w5,w2,hdelivered,hdecode,hclose⟩
  · intro hall
    obtain ⟨token,base,buffer,returned,w1,w2,hdelivered,hdecode,hclose⟩ := hall
    cases hdelivered with
    | filled hopen htoken hsizing hsize henough hbounded hnew hread hsuccess hlength =>
      refine bind_ok.mpr ⟨_,_,hopen,else_raise_ok.mpr ⟨?_,owning_ok.mpr ⟨w2,?_,hclose⟩⟩⟩
      · simpa using htoken
      · refine readToken_ok.mpr ⟨_,_,hsizing,?_,not_lt.mpr henough,not_lt.mpr hbounded,_,_,hnew,_,_,
          hread,?_,not_lt.mpr hlength,hdecode⟩
        · simp [hsize.1,hsize.2]
        · simp [hsuccess]

end port

theorem readCurrentProcessSid_ok (hsys : Documented sys) (calls : TokenSidNativeCalls ν) {w : ν}
    {s : Str} : (sys.readCurrentProcessSid (some calls) w).1 = .ok s ↔
      ∃ token base buffer returned w1 k sid,Delivered calls sys w token base buffer returned w1 ∧
        Placed base buffer returned k sid ∧ sid.authority < 2^32 ∧ s = sid.text := by
  have hreturns : (sys.readCurrentProcessSid (some calls) w).1 = .ok s ↔
      ∃ w',sys.readBody (some calls) w = (.ok s,w') := by
    constructor
    · intro h
      have hrun : sys.readCurrentProcessSid (some calls) w = (.ok s,_) := Prod.ext h rfl
      rw [SidFunctions.readCurrentProcessSid] at hrun
      exact ⟨_,rethrowing_ok.mp hrun⟩
    · intro h
      obtain ⟨w',h⟩ := h
      rw [SidFunctions.readCurrentProcessSid,rethrowing_ok.mpr h]
  have hroom : ∀ {token base buffer returned w1},
      Delivered calls sys w token base buffer returned w1 → returned ≤ buffer.length := by
    intro token base buffer returned w1 hdelivered
    cases hdelivered with
    | filled _ _ _ _ _ _ _ _ _ hlength => simpa using hlength
  rw [hreturns]
  simp only [readBody_ok]
  constructor
  · intro hall
    obtain ⟨w',token,base,buffer,returned,w1,w2,hdelivered,hdecode,_⟩ := hall
    obtain ⟨k,sid,hsid⟩ := (decodeTokenUserSid_ok hsys (hroom hdelivered)).mp
      (congrArg Prod.fst hdecode)
    exact ⟨token,base,buffer,returned,w1,k,sid,hdelivered,hsid⟩
  · intro hall
    obtain ⟨token,base,buffer,returned,w1,k,sid,hdelivered,hsid⟩ := hall
    have hdecode := (decodeTokenUserSid_ok (w := w1) hsys (hroom hdelivered)).mpr ⟨k,sid,hsid⟩
    exact ⟨_,token,base,buffer,returned,w1,_,hdelivered,Prod.ext hdecode rfl,rfl⟩

/-- The port returns a text exactly if Windows has delivered a buffer that holds a SID with this
text, the authority of which is of 32 bits; the text is then one the binder takes for a SID. -/
theorem readCurrentProcessSid_exact (hsys : Documented sys) (calls : TokenSidNativeCalls ν)
    (w : ν) (s : Str) :
    ((sys.readCurrentProcessSid (some calls) w).1 = .ok s ↔
      ∃ token base buffer returned w1 k sid,Delivered calls sys w token base buffer returned w1 ∧
        Placed base buffer returned k sid ∧ sid.authority < 2^32 ∧ s = sid.text) ∧
      ((sys.readCurrentProcessSid (some calls) w).1 = .ok s → SidText s) := by
  have hexact := readCurrentProcessSid_ok hsys calls (w := w) (s := s)
  refine ⟨hexact,fun hrun => ?_⟩
  obtain ⟨_,_,_,_,_,_,sid,_,_,hsmall,hs⟩ := hexact.mp hrun
  rw [hs]
  exact Sid.sidText hsmall

end exact

section reference

def storedAuthority (memory : List UInt8) : Nat :=
  ((memory.drop 2).take 6).foldl (fun a b => a*2^8+b.toNat) 0

def storedSubauthorities : Nat → List UInt8 → List UInt32
  | 0,_ => []
  | n+1,bs => load32 bs::storedSubauthorities n (bs.drop 4)

/-- The functions on SIDs as they are documented, with an allocator that has one address. -/
def referenceSid : SidFunctions Unit where
  allocate _ w := (.ok 0x1000,w)
  isValidSid memory := memory.getD 0 0 = sidRevision ∧ memory.getD 1 0 ≤ sidMaxSubAuthorities
  getLengthSid memory := sidLength (memory.getD 1 0)
  convertSidToStringSid memory w := (.ok (some (wideText ("S-1-".toList++
    (Sid.authorityText (storedAuthority memory)++
      (storedSubauthorities (memory.getD 1 0).toNat (memory.drop 8)).flatMap
        Sid.subauthorityText)))),w)
  localFree _ w := w

theorem storedAuthority_bytes (sid : Sid) (rest : List UInt8) :
    storedAuthority (sid.bytes++rest) = sid.authority := by
  have hlt := sid.authority_lt
  have htake : ((sid.bytes++rest).drop 2).take 6 = Sid.authorityBytes sid.authority := rfl
  rw [storedAuthority,htake,Sid.authorityBytes]
  simp only [List.foldl_cons,List.foldl_nil,UInt8.toNat_ofNat']
  omega

theorem storedSubauthorities_bytes (subs : List UInt32) (rest : List UInt8) :
    storedSubauthorities subs.length (subs.flatMap store32++rest) = subs := by
  induction subs with
  | nil => rfl
  | cons a subs ih =>
    have hdrop : ((a::subs).flatMap store32++rest).drop 4 = subs.flatMap store32++rest := by
      rw [List.flatMap_cons,List.append_assoc]
      exact List.drop_left' rfl
    rw [List.length_cons,storedSubauthorities,hdrop,ih,List.flatMap_cons,List.append_assoc,
      load32_store32]

theorem referenceSid_documented : Documented referenceSid where
  valid sid rest := by
    obtain ⟨hrevision,hcount⟩ := sid.head rest
    have hfew := sid.few
    have hle : sid.count ≤ sidMaxSubAuthorities := by
      rw [UInt8.le_iff_toNat_le,sid.count_toNat]
      exact hfew
    simp only [referenceSid,hrevision,hcount,hle,and_self,decide_true]
  length sid rest := by
    rw [sid.length_bytes,← (sid.head rest).2]
    rfl
  text sid rest w := by
    have hdrop : (sid.bytes++rest).drop 8 = sid.subauthorities.flatMap store32++rest := rfl
    have hcount := (sid.head rest).2
    simp only [referenceSid,storedAuthority_bytes,hcount,sid.count_toNat,hdrop,
      storedSubauthorities_bytes]
    rfl

/-- A backend whose token is that of the local system. -/
def localSystemCalls : TokenSidNativeCalls Unit where
  openCurrentProcessToken _ w := (.ok (4,0),w)
  queryTokenUser _ buffer _ w :=
    match buffer with
    | none => (.ok ⟨false,[],28,errorInsufficientBuffer⟩,w)
    | some base => (.ok ⟨true,storePointer (base+16)++List.replicate 8 0++
        [1,1,0,0,0,0,0,5,18,0,0,0],28,0⟩,w)
  close _ w := w

theorem readCurrentProcessSid_local :
    (∃ token base buffer returned w1 k sid,
      Delivered localSystemCalls referenceSid () token base buffer returned w1 ∧
        Placed base buffer returned k sid ∧ sid.authority < 2^32 ∧ "S-1-5-18".toList = sid.text) ∧
      SidText "S-1-5-18".toList := by
  have hrun : (referenceSid.readCurrentProcessSid (some localSystemCalls) ()).1 =
      .ok "S-1-5-18".toList := by
    have hvalue : (referenceSid.readCurrentProcessSid (some localSystemCalls) ()).1.toOption =
        some "S-1-5-18".toList := by decide +kernel
    cases hresult : (referenceSid.readCurrentProcessSid (some localSystemCalls) ()).1 with
    | ok s =>
      rw [hresult] at hvalue
      exact congrArg Except.ok (Option.some.inj hvalue)
    | error t =>
      rw [hresult] at hvalue
      cases hvalue
  obtain ⟨hexact,hsid⟩ := readCurrentProcessSid_exact referenceSid_documented localSystemCalls ()
    "S-1-5-18".toList
  exact ⟨hexact.mp hrun,hsid hrun⟩

end reference

end SoftwareFactory.StageA.Windows
