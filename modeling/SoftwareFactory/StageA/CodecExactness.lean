import SoftwareFactory.Lib.LittleEndian
import SoftwareFactory.StageA.ReadFixtureHeadCodec

namespace SoftwareFactory.StageA.ReadFixtureHead

open ByteBuffer

theorem put16_eq (out : Bytes) (k : Nat) (v : UInt16) :
    put16 out k v = copyTo out k (store16 v) := rfl

theorem put32_eq (out : Bytes) (k : Nat) (v : UInt32) :
    put32 out k v = copyTo out k (store32 v) := rfl

theorem get16_eq_iff {wire : Bytes} {k : Nat} (h : k+2 ≤ wire.length) (v : UInt16) :
    get16 (wire.drop k) = v ↔ FieldAt wire k (store16 v) := by
  have hlen : 2 ≤ (wire.drop k).length := by rw [List.length_drop]; omega
  rw [FieldAt]
  rcases hd : wire.drop k with _ | ⟨b0,_ | ⟨b1,rest⟩⟩
  · simp [hd] at hlen
  · simp [hd] at hlen
  · rw [get16,join16_eq_iff,store16,List.cons_prefix_cons,List.cons_prefix_cons]
    simp [eq_comm]

theorem get32_eq_iff {wire : Bytes} {k : Nat} (h : k+4 ≤ wire.length) (v : UInt32) :
    get32 (wire.drop k) = v ↔ FieldAt wire k (store32 v) := by
  have hlen : 4 ≤ (wire.drop k).length := by rw [List.length_drop]; omega
  rw [FieldAt]
  rcases hd : wire.drop k with _ | ⟨b0,_ | ⟨b1,_ | ⟨b2,_ | ⟨b3,rest⟩⟩⟩⟩
  · simp [hd] at hlen
  · simp [hd] at hlen
  · simp [hd] at hlen
  · simp [hd] at hlen
  · rw [get32,join32_eq_iff,store32]
    simp only [List.cons_prefix_cons,List.nil_prefix,and_true]
    simp [eq_comm]

/-- A 32-bit length field holds the number it was written from. -/
theorem get32_toNat_eq_iff {wire : Bytes} {k n : Nat} (h : k+4 ≤ wire.length) (hn : n < 2^32) :
    (get32 (wire.drop k)).toNat = n ↔ FieldAt wire k (store32 n.toUInt32) := by
  rw [← get32_eq_iff h,← UInt32.toNat_inj]
  have e : n.toUInt32.toNat = n := Nat.mod_eq_of_lt hn
  rw [e]

theorem fixedHeader_iff {wire : Bytes} (h : 12 ≤ wire.length) :
    fixedHeader wire = true ↔ FieldAt wire 0 magic ∧ FieldAt wire 4 (store16 version) := by
  rw [fixedHeader,Bool.and_eq_true,Bool.and_eq_true,beq_iff_eq,beq_iff_eq,decide_eq_true_eq,
    get16_eq_iff (by omega),fieldAt_iff_take (k := 0) (n := 4) rfl,List.drop_zero]
  simp [h]

/-- The fixed header as bytes. -/
def headerLayout (kind : UInt16) (total : UInt32) : Bytes :=
  magic++(store16 version++(store16 kind++store32 total))

theorem writeHeader_eq (out : Bytes) (kind : UInt16) (total : UInt32) (h : 12 ≤ out.length) :
    writeHeader out kind total = headerLayout kind total++out.drop 12 := by
  have h0 := copyTo_append (k := 0) [] out magic rfl (by simp [magic]; omega)
  rw [List.nil_append,List.nil_append] at h0
  simp only [writeHeader,put16_eq,put32_eq]
  rw [h0,copyTo_append (k := 4) magic _ _ rfl (by simp [magic]; omega),
    copyTo_append (k := 6) (magic++store16 version) _ _ rfl (by simp [magic]; omega),
    copyTo_append (k := 8) (magic++store16 version++store16 kind) _ _ rfl
      (by simp [magic]; omega)]
  simp only [headerLayout,List.drop_drop,List.append_assoc,store16_length,store32_length]
  rfl

@[simp] theorem headerLayout_length (kind : UInt16) (total : UInt32) :
    (headerLayout kind total).length = 12 := rfl

/-- A request as the wire contract lays it out. -/
theorem encodeRequest_eq (n : Nonce) (d : P10Digest) :
    encodeRequest n d = headerLayout requestKind requestBytes.toUInt32++
      (store16 operation++(store16 0++(n.toList++d.toList))) := by
  simp only [encodeRequest,put16_eq]
  rw [writeHeader_eq _ _ _ (by decide),copyTo_append (k := 12) _ _ _ rfl (by decide),
    copyTo_append (k := 14) _ _ _ rfl (by decide),
    copyTo_append (k := 16) _ _ _ rfl (by simp [requestBytes]),
    copyTo_append (k := 32) _ _ _ (by simp) (by simp [requestBytes])]
  simp [requestBytes]

/-- The fixed part of a response as bytes. -/
def responseLayout (kind : UInt16) (total : UInt32) (status : UInt16) (n : Nonce)
    (d : P10Digest) (size : UInt16) : Bytes :=
  headerLayout kind total++
    (store16 operation++(store16 status++(n.toList++(d.toList++store16 size))))

@[simp] theorem responseLayout_length (kind : UInt16) (total : UInt32) (status : UInt16)
    (n : Nonce) (d : P10Digest) (size : UInt16) :
    (responseLayout kind total status n d size).length = headBytes := by
  simp [responseLayout,headBytes]

theorem writeCommonResponse_eq (out : Bytes) (kind : UInt16) (total : UInt32) (status : UInt16)
    (n : Nonce) (d : P10Digest) (size : UInt16) (h : headBytes ≤ out.length) :
    writeCommonResponse out kind total status n d size =
      responseLayout kind total status n d size++out.drop headBytes := by
  rw [headBytes] at h ⊢
  simp only [writeCommonResponse,put16_eq]
  rw [writeHeader_eq _ _ _ (by omega),copyTo_append (k := 12) _ _ _ rfl (by simp; omega),
    copyTo_append (k := 14) _ _ _ rfl (by simp; omega),
    copyTo_append (k := 16) _ _ _ rfl (by simp; omega),
    copyTo_append (k := 32) _ _ _ (by simp) (by simp; omega),
    copyTo_append (k := 64) _ _ _ (by simp) (by simp; omega)]
  simp [responseLayout]

theorem encodeGenericErrorResponse_eq (n : Nonce) (d : P10Digest) :
    encodeGenericErrorResponse n d = responseLayout errorKind errorResponseBytes.toUInt32 1 n d 0 := by
  rw [encodeGenericErrorResponse,writeCommonResponse_eq _ _ _ _ _ _ _ (by decide)]
  exact List.append_nil _

/-- The two payload lengths of the contract. -/
def PayloadLength (k : Nat) : Prop := k = activeP11Bytes ∨ k = terminalP11Bytes

theorem encodeVerifiedSuccessResponse_eq (n : Nonce) (d : P10Digest) (p : Bytes)
    (h : PayloadLength p.length) :
    encodeVerifiedSuccessResponse n d p =
      ⟨.none,responseLayout successKind (headBytes+p.length).toUInt32 0 n d p.length.toUInt16++p⟩ := by
  have hp : ¬ (p.length ≠ activeP11Bytes ∧ p.length ≠ terminalP11Bytes) := by
    rcases h with h | h <;> simp [h]
  rw [encodeVerifiedSuccessResponse,if_neg hp]
  simp only [List.length_replicate]
  rw [writeCommonResponse_eq _ _ _ _ _ _ _ (by simp),
    copyTo_append (k := headBytes) _ _ _ (by simp) (by simp)]
  simp

theorem fieldAt_take_iff {wire : Bytes} {m k : Nat} (v : Vector UInt8 m) :
    FieldAt wire k v.toList ↔ (wire.drop k).take m = v.toList := fieldAt_iff_take (by simp)

/-- What `validate_request` checks before it looks at the digest. -/
def RequestFrame (wire : Bytes) : Prop :=
  wire.length = requestBytes ∧ fixedHeader wire ∧ get16 (wire.drop 6) = requestKind ∧
    (get32 (wire.drop 8)).toNat = requestBytes ∧ get16 (wire.drop 12) = operation ∧
    get16 (wire.drop 14) = 0

/-- Every byte of a request is pinned by the frame, the nonce or the digest. -/
theorem eq_encodeRequest_iff (wire : Bytes) (n : Nonce) (d : P10Digest) :
    wire = encodeRequest n d ↔ RequestFrame wire ∧
      (wire.drop 16).take 16 = n.toList ∧ (wire.drop 32).take 32 = d.toList := by
  by_cases hlen : wire.length = requestBytes
  · have h64 : wire.length = 64 := hlen
    have hm : magic.length = 4 := rfl
    rw [encodeRequest_eq,headerLayout,RequestFrame,fixedHeader_iff (by omega),
      get16_eq_iff (by omega),get32_toNat_eq_iff (by omega) (by decide),get16_eq_iff (by omega),
      get16_eq_iff (by omega),← fieldAt_take_iff,← fieldAt_take_iff]
    simp only [List.append_assoc]
    rw [eq_append_iff]
    simp only [drop_eq_append_iff,hm,store16_length,store32_length,Vector.length_toList,
      Nat.reduceAdd]
    rw [drop_eq_iff (by simp [h64])]
    simp only [hlen,true_and,and_assoc]
  · constructor
    · intro heq
      subst heq
      exact absurd (by simp [encodeRequest_eq,requestBytes]) hlen
    · intro h
      obtain ⟨hf,_⟩ := h
      exact absurd hf.1 hlen

/-- The array a run of `m` bytes fills. -/
theorem exists_vector (wire : Bytes) (k m : Nat) (h : k+m ≤ wire.length) :
    ∃ v : Vector UInt8 m,(wire.drop k).take m = v.toList := by
  have hm : ((wire.drop k).take m).toArray.size = m := by
    simp
    omega
  exact ⟨⟨((wire.drop k).take m).toArray,hm⟩,by simp [Vector.toList]⟩

theorem copyNonce_eq {wire : Bytes} {k : Nat} {n : Nonce}
    (h : (wire.drop k).take 16 = n.toList) : copyNonce (wire.drop k) = n := by
  have hlen := congrArg List.length h
  simp only [List.length_take,Vector.length_toList] at hlen
  apply Vector.ext
  intro i hi
  have hd : i < (wire.drop k).length := by omega
  have hget : (wire.drop k)[i] = n[i] := by
    have hi' : i < n.toList.length := by simpa using hi
    have ht : i < ((wire.drop k).take 16).length := by simp only [h]; exact hi'
    calc (wire.drop k)[i] = ((wire.drop k).take 16)[i] := by rw [List.getElem_take]
      _ = n.toList[i] := by simp only [h]
      _ = n[i] := Vector.getElem_toList hi'
  rw [copyNonce,Vector.getElem_ofFn,← hget]
  exact (List.getElem_eq_getD 0).symm

/-- A frame is a request for some digest. -/
theorem requestFrame_iff (wire : Bytes) :
    RequestFrame wire ↔ ∃ n d,wire = encodeRequest n d := by
  constructor
  · intro hf
    have hlen : wire.length = 64 := hf.1
    obtain ⟨n,hn⟩ := exists_vector wire 16 16 (by omega)
    obtain ⟨d,hd⟩ := exists_vector wire 32 32 (by omega)
    exact ⟨n,d,(eq_encodeRequest_iff wire n d).mpr ⟨hf,hn,hd⟩⟩
  · intro hparts
    obtain ⟨n,d,h⟩ := hparts
    exact ((eq_encodeRequest_iff wire n d).mp h).1

theorem RequestFrame.validate {wire : Bytes} (h : RequestFrame wire) (d : P10Digest) :
    validateRequest wire d = if (wire.drop 32).take 32 ≠ d.toList then ⟨.correlationMismatch,none⟩
      else ⟨.none,some (copyNonce (wire.drop 16))⟩ := by
  obtain ⟨h1,h2,h3,h4,h5,h6⟩ := h
  rw [validateRequest,if_neg (by simp [h1,h2,h3,h4,h5,h6])]

theorem validateRequest_of_not_frame {wire : Bytes} (h : ¬ RequestFrame wire) (d : P10Digest) :
    validateRequest wire d = ⟨.malformed,none⟩ := by
  rw [validateRequest,if_pos]
  by_contra hc
  push Not at hc
  exact h hc

/-- What the validator answers to a request made for digest `d'`. -/
theorem validateRequest_encodeRequest (n : Nonce) (d d' : P10Digest) :
    validateRequest (encodeRequest n d') d =
      if d' = d then ⟨.none,some n⟩ else ⟨.correlationMismatch,none⟩ := by
  obtain ⟨hf,hn,hd⟩ := (eq_encodeRequest_iff _ n d').mp rfl
  rw [hf.validate,hd,copyNonce_eq hn]
  by_cases h : d' = d
  · simp [h]
  · have hl : d'.toList ≠ d.toList := fun e => h (Vector.toList_inj.mp e)
    simp [h,hl]

theorem encodeRequest_inj {n n' : Nonce} {d d' : P10Digest}
    (h : encodeRequest n d = encodeRequest n' d') : n = n' ∧ d = d' := by
  obtain ⟨_,hn,hd⟩ := (eq_encodeRequest_iff _ n d).mp rfl
  obtain ⟨_,hn',hd'⟩ := (eq_encodeRequest_iff _ n' d').mp h
  exact ⟨Vector.toList_inj.mp (hn.symm.trans hn'),Vector.toList_inj.mp (hd.symm.trans hd')⟩

/-- Each outcome of the request validator, by the bytes that give rise to it. -/
theorem validateRequest_exact (wire : Bytes) (d : P10Digest) :
    (∀ n,validateRequest wire d = ⟨.none,some n⟩ ↔ wire = encodeRequest n d) ∧
    ((validateRequest wire d).failure = .correlationMismatch ↔
      ∃ n d',d' ≠ d ∧ wire = encodeRequest n d') ∧
    ((validateRequest wire d).failure = .malformed ↔ ¬ ∃ n d',wire = encodeRequest n d') ∧
    ((validateRequest wire d).nonce.isSome ↔ (validateRequest wire d).failure = .none) := by
  by_cases hf : RequestFrame wire
  · obtain ⟨n,d',rfl⟩ := (requestFrame_iff wire).mp hf
    rw [validateRequest_encodeRequest]
    by_cases h : d' = d
    · subst h
      simp only [if_true]
      refine ⟨fun m => ?_,?_,?_,?_⟩
      · constructor
        · intro hm
          injection hm with _ hm
          rw [Option.some.inj hm]
        · intro hm
          rw [(encodeRequest_inj hm).1]
      · simp only [reduceCtorEq,false_iff]
        intro hparts
        obtain ⟨m,e,hne,hm⟩ := hparts
        exact hne (encodeRequest_inj hm).2.symm
      · simp only [reduceCtorEq,false_iff,not_not]
        exact ⟨n,d',rfl⟩
      · simp
    · simp only [h,if_false]
      refine ⟨fun m => ?_,?_,?_,?_⟩
      · simp only [RequestValidation.mk.injEq,reduceCtorEq,false_and,false_iff]
        intro hm
        exact h (encodeRequest_inj hm).2
      · simp only [true_iff]
        exact ⟨n,d',h,rfl⟩
      · simp only [reduceCtorEq,false_iff,not_not]
        exact ⟨n,d',rfl⟩
      · simp
  · have hno : ¬ ∃ n d',wire = encodeRequest n d' := fun h => hf ((requestFrame_iff wire).mpr h)
    rw [validateRequest_of_not_frame hf]
    refine ⟨fun m => ?_,?_,?_,?_⟩
    · simp only [RequestValidation.mk.injEq,reduceCtorEq,false_and,false_iff]
      exact fun hm => hno ⟨m,d,hm⟩
    · simp only [reduceCtorEq,false_iff]
      intro hparts
      obtain ⟨m,e,_,hm⟩ := hparts
      exact hno ⟨m,e,hm⟩
    · simpa using hno
    · simp

/-- The fields the response validator reads, one by one, are the whole response. -/
theorem eq_responseLayout_iff {wire : Bytes} (hlen : headBytes ≤ wire.length) (kind : UInt16)
    (total : UInt32) (status : UInt16) (n : Nonce) (d : P10Digest) (size : UInt16) (p : Bytes) :
    wire = responseLayout kind total status n d size++p ↔ fixedHeader wire ∧
      get16 (wire.drop 6) = kind ∧ get32 (wire.drop 8) = total ∧
      get16 (wire.drop 12) = operation ∧ get16 (wire.drop 14) = status ∧
      (wire.drop 16).take 16 = n.toList ∧ (wire.drop 32).take 32 = d.toList ∧
      get16 (wire.drop 64) = size ∧ wire.drop headBytes = p := by
  rw [headBytes] at hlen
  have hm : magic.length = 4 := rfl
  rw [fixedHeader_iff (by omega),get16_eq_iff (by omega),get32_eq_iff (by omega),
    get16_eq_iff (by omega),get16_eq_iff (by omega),get16_eq_iff (by omega),
    ← fieldAt_take_iff,← fieldAt_take_iff,responseLayout,headerLayout]
  simp only [List.append_assoc]
  rw [eq_append_iff]
  simp only [drop_eq_append_iff,hm,store16_length,store32_length,Vector.length_toList,Nat.reduceAdd,
    headBytes,and_assoc]

/-- The checks of `validate_response` before it tells success from error. -/
def ResponseFrame (wire : Bytes) : Prop :=
  headBytes ≤ wire.length ∧ wire.length ≤ maximumResponseBytes ∧ fixedHeader wire ∧
    (get32 (wire.drop 8)).toNat = wire.length ∧ get16 (wire.drop 12) = operation

def IsError (wire : Bytes) : Prop :=
  get16 (wire.drop 6) = errorKind ∧ get16 (wire.drop 14) = 1 ∧
    wire.length = errorResponseBytes ∧ (get16 (wire.drop 64)).toNat = 0

instance (wire : Bytes) : Decidable (IsError wire) := inferInstanceAs (Decidable (_ ∧ _))

def IsSuccess (wire : Bytes) : Prop :=
  get16 (wire.drop 6) = successKind ∧ get16 (wire.drop 14) = 0 ∧
    PayloadLength (get16 (wire.drop 64)).toNat ∧
    wire.length = headBytes+(get16 (wire.drop 64)).toNat

/-- An error frame with its echoes is the one error encoding. -/
theorem eq_encodeGenericErrorResponse_iff (wire : Bytes) (n : Nonce) (d : P10Digest) :
    wire = encodeGenericErrorResponse n d ↔ (ResponseFrame wire ∧ IsError wire) ∧
      (wire.drop 16).take 16 = n.toList ∧ (wire.drop 32).take 32 = d.toList := by
  by_cases hlen : wire.length = errorResponseBytes
  · have h66 : wire.length = headBytes := hlen
    have hmax : wire.length ≤ maximumResponseBytes := by rw [hlen]; decide
    have hdrop : wire.drop headBytes = [] := List.drop_eq_nil_of_le h66.le
    rw [encodeGenericErrorResponse_eq,← List.append_nil (responseLayout _ _ _ _ _ _),
      eq_responseLayout_iff h66.ge,ResponseFrame,IsError,← UInt32.toNat_inj,
      ← UInt16.toNat_inj (a := get16 (wire.drop 64))]
    have ht : errorResponseBytes.toUInt32.toNat = wire.length := by rw [hlen]; rfl
    have hz : (0 : UInt16).toNat = 0 := rfl
    rw [ht,hz]
    constructor
    · intro hparts
      obtain ⟨h1,h2,h3,h4,h5,h6,h7,h8,-⟩ := hparts
      exact ⟨⟨⟨h66.ge,hmax,h1,h3,h4⟩,h2,h5,hlen,h8⟩,h6,h7⟩
    · intro hparts
      obtain ⟨⟨⟨-,-,h1,h3,h4⟩,h2,h5,-,h8⟩,h6,h7⟩ := hparts
      exact ⟨h1,h2,h3,h4,h5,h6,h7,h8,hdrop⟩
  · constructor
    · intro heq
      subst heq
      exact absurd (by simp [encodeGenericErrorResponse_eq]; rfl) hlen
    · intro hparts
      obtain ⟨⟨-,h⟩,-⟩ := hparts
      exact absurd h.2.2.1 hlen

theorem PayloadLength.lt {k : Nat} (h : PayloadLength k) : headBytes+k < 2^16 := by
  rcases h with rfl | rfl <;> decide

/-- A success frame with its echoes and its payload is the one success encoding. -/
theorem eq_encodeVerifiedSuccessResponse_iff (wire : Bytes) (n : Nonce) (d : P10Digest)
    {p : Bytes} (hp : PayloadLength p.length) :
    wire = (encodeVerifiedSuccessResponse n d p).bytes ↔ (ResponseFrame wire ∧ IsSuccess wire) ∧
      (wire.drop 16).take 16 = n.toList ∧ (wire.drop 32).take 32 = d.toList ∧
      wire.drop headBytes = p := by
  have hlt := hp.lt
  have hlen16 : p.length.toUInt16.toNat = p.length := Nat.mod_eq_of_lt (by omega)
  have hlen32 : (headBytes+p.length).toUInt32.toNat = headBytes+p.length :=
    Nat.mod_eq_of_lt (by omega)
  have hmax : headBytes+p.length ≤ maximumResponseBytes := by
    rcases hp with hp | hp <;> rw [hp] <;> decide
  rw [encodeVerifiedSuccessResponse_eq n d p hp]
  by_cases hlen : wire.length = headBytes+p.length
  · rw [eq_responseLayout_iff (by omega),ResponseFrame,IsSuccess,← UInt32.toNat_inj,
      ← UInt16.toNat_inj (a := get16 (wire.drop 64)),hlen16,hlen32,hlen]
    constructor
    · intro hparts
      obtain ⟨h1,h2,h3,h4,h5,h6,h7,h8,h9⟩ := hparts
      exact ⟨⟨⟨by omega,hmax,h1,h3,h4⟩,h2,h5,by rw [h8]; exact hp,by rw [h8]⟩,h6,h7,h9⟩
    · intro hparts
      obtain ⟨⟨⟨-,-,h1,h3,h4⟩,h2,h5,-,h8⟩,h6,h7,h9⟩ := hparts
      exact ⟨h1,h2,h3,h4,h5,h6,h7,by omega,h9⟩
  · constructor
    · intro heq
      subst heq
      exact absurd (by simp) hlen
    · intro hparts
      obtain ⟨⟨hf,-⟩,-,-,h⟩ := hparts
      have hh := congrArg List.length h
      rw [List.length_drop] at hh
      have hle := hf.1
      exact absurd (by omega) hlen

theorem isError_iff (wire : Bytes) :
    ResponseFrame wire ∧ IsError wire ↔ ∃ n d,wire = encodeGenericErrorResponse n d := by
  constructor
  · intro h
    have hlen : 66 ≤ wire.length := h.1.1
    obtain ⟨n,hn⟩ := exists_vector wire 16 16 (by omega)
    obtain ⟨d,hd⟩ := exists_vector wire 32 32 (by omega)
    exact ⟨n,d,(eq_encodeGenericErrorResponse_iff wire n d).mpr ⟨h,hn,hd⟩⟩
  · intro hparts
    obtain ⟨n,d,h⟩ := hparts
    exact ((eq_encodeGenericErrorResponse_iff wire n d).mp h).1

theorem isSuccess_iff (wire : Bytes) :
    ResponseFrame wire ∧ IsSuccess wire ↔
      ∃ n d p,PayloadLength p.length ∧ wire = (encodeVerifiedSuccessResponse n d p).bytes := by
  constructor
  · intro h
    have hlen : 66 ≤ wire.length := h.1.1
    obtain ⟨n,hn⟩ := exists_vector wire 16 16 (by omega)
    obtain ⟨d,hd⟩ := exists_vector wire 32 32 (by omega)
    have hp : PayloadLength (wire.drop headBytes).length := by
      obtain ⟨-,-,-,hp,hl⟩ := h
      have e : (wire.drop headBytes).length = (get16 (wire.drop 64)).toNat := by
        rw [List.length_drop]
        omega
      rw [e]
      exact hp
    exact ⟨n,d,_,hp,(eq_encodeVerifiedSuccessResponse_iff wire n d hp).mpr ⟨h,hn,hd,rfl⟩⟩
  · intro hparts
    obtain ⟨n,d,p,hp,h⟩ := hparts
    exact ((eq_encodeVerifiedSuccessResponse_iff wire n d hp).mp h).1

/-- The caller's own inputs, which no response can change. -/
def TrustedInput (p : Bytes) (len : Nat) : Prop := PayloadLength len ∧ p.length = len

section validator

variable {wire : Bytes} {n n' : Nonce} {d d' : P10Digest} {p q : Bytes} {len : Nat}

theorem validateResponse_of_not_trusted (h : ¬ TrustedInput p len) :
    validateResponse wire n d p len = ⟨.invalidTrustedInput,[]⟩ := by
  rw [validateResponse,if_pos]
  by_contra hc
  push Not at hc
  exact h ⟨Classical.or_iff_not_imp_left.mpr hc.1,hc.2⟩

theorem TrustedInput.cond (h : TrustedInput p len) :
    ¬ ((len ≠ activeP11Bytes ∧ len ≠ terminalP11Bytes) ∨ p.length ≠ len) := by
  rcases h with ⟨h | h,hl⟩ <;> simp [h,hl]

theorem validateResponse_of_not_frame (ht : TrustedInput p len)
    (h : ¬ (ResponseFrame wire ∧ (IsError wire ∨ IsSuccess wire))) :
    validateResponse wire n d p len = ⟨.malformed,[]⟩ := by
  rw [validateResponse,if_neg ht.cond]
  by_cases hf : ResponseFrame wire
  · have hk := not_or.mp fun hk => h ⟨hf,hk⟩
    obtain ⟨h1,h2,h3,h4,h5⟩ := hf
    rw [if_neg (by simp [h1,h2,h3,h4,h5])]
    exact if_pos hk
  · rw [if_pos]
    by_contra hc
    push Not at hc
    exact hf hc

theorem IsError.not_success (h : IsError wire) : ¬ IsSuccess wire := by
  intro hs
  exact absurd (h.1.symm.trans hs.1) (by decide)

theorem ResponseFrame.validate (ht : TrustedInput p len) (hf : ResponseFrame wire)
    (hk : IsError wire ∨ IsSuccess wire) :
    validateResponse wire n d p len =
      if (wire.drop 16).take 16 ≠ n.toList ∨ (wire.drop 32).take 32 ≠ d.toList then
        ⟨.correlationMismatch,[]⟩
      else if IsError wire then ⟨.readIncomplete,[]⟩
      else if (get16 (wire.drop 64)).toNat ≠ len ∨ (wire.drop headBytes).take p.length ≠ p then
        ⟨.correlationMismatch,[]⟩
      else ⟨.none,(wire.drop headBytes).take len⟩ := by
  rw [validateResponse,if_neg ht.cond]
  obtain ⟨h1,h2,h3,h4,h5⟩ := hf
  rw [if_neg (by simp [h1,h2,h3,h4,h5])]
  exact if_neg fun h => hk.elim h.1 h.2

/-- What the validator answers to an error response with echoes `n'` and `d'`. -/
theorem validateResponse_error (ht : TrustedInput p len) :
    validateResponse (encodeGenericErrorResponse n' d') n d p len =
      if n' = n ∧ d' = d then ⟨.readIncomplete,[]⟩ else ⟨.correlationMismatch,[]⟩ := by
  obtain ⟨⟨hf,he⟩,hn,hd⟩ := (eq_encodeGenericErrorResponse_iff _ n' d').mp rfl
  rw [hf.validate ht (.inl he),hn,hd]
  by_cases h : n' = n ∧ d' = d
  · obtain ⟨rfl,rfl⟩ := h
    rw [if_neg (by simp),if_pos he,if_pos ⟨rfl,rfl⟩]
  · have hne : n'.toList ≠ n.toList ∨ d'.toList ≠ d.toList := by
      simpa [Vector.toList_inj,imp_iff_not_or] using h
    rw [if_pos hne,if_neg h]

/-- What the validator answers to a success response carrying `q`. -/
theorem validateResponse_success (ht : TrustedInput p len) (hq : PayloadLength q.length) :
    validateResponse (encodeVerifiedSuccessResponse n' d' q).bytes n d p len =
      if n' = n ∧ d' = d ∧ q = p then ⟨.none,p⟩ else ⟨.correlationMismatch,[]⟩ := by
  obtain ⟨⟨hf,hs⟩,hn,hd,hq'⟩ := (eq_encodeVerifiedSuccessResponse_iff _ n' d' hq).mp rfl
  have he : ¬ IsError _ := fun he => he.not_success hs
  have hlen : (get16 ((encodeVerifiedSuccessResponse n' d' q).bytes.drop 64)).toNat = q.length := by
    have h := congrArg List.length hq'
    rw [List.length_drop,hs.2.2.2] at h
    omega
  rw [hf.validate ht (.inr hs),if_neg he,hn,hd,hq',hlen]
  by_cases hnd : n' = n ∧ d' = d
  · obtain ⟨rfl,rfl⟩ := hnd
    rw [if_neg (by simp)]
    by_cases hqp : q = p
    · subst hqp
      simp [ht.2]
    · rw [if_pos,if_neg (by simp [hqp])]
      by_contra hc
      push Not at hc
      have htake := hc.2
      rw [ht.2,← hc.1,List.take_length] at htake
      exact hqp htake
  · have hne : n'.toList ≠ n.toList ∨ d'.toList ≠ d.toList := by
      simpa [Vector.toList_inj,imp_iff_not_or] using hnd
    rw [if_pos hne,if_neg fun h => hnd ⟨h.1,h.2.1⟩]

theorem validateResponse_success_accepts (hq : PayloadLength q.length) :
    (validateResponse (encodeVerifiedSuccessResponse n' d' q).bytes n d p len).failure = .none ↔
      TrustedInput p len ∧ n' = n ∧ d' = d ∧ q = p := by
  by_cases ht : TrustedInput p len
  · rw [validateResponse_success ht hq]
    split_ifs with h <;> simp [ht,h]
  · rw [validateResponse_of_not_trusted ht]
    simp [ht]

/-- The success or the error encoding of some nonce and digest. -/
def WellFormedFrame (wire : Bytes) : Prop :=
  (∃ n d p,PayloadLength p.length ∧ wire = (encodeVerifiedSuccessResponse n d p).bytes) ∨
    ∃ n d,wire = encodeGenericErrorResponse n d

theorem wellFormedFrame_iff :
    WellFormedFrame wire ↔ ResponseFrame wire ∧ (IsError wire ∨ IsSuccess wire) := by
  rw [WellFormedFrame,← isSuccess_iff,← isError_iff,← and_or_left,or_comm]

theorem encodeVerifiedSuccessResponse_inj (hp : PayloadLength p.length)
    (hq : PayloadLength q.length) (h : (encodeVerifiedSuccessResponse n d p).bytes =
      (encodeVerifiedSuccessResponse n' d' q).bytes) : n = n' ∧ d = d' ∧ p = q := by
  obtain ⟨_,hn,hd,hb⟩ := (eq_encodeVerifiedSuccessResponse_iff _ n d hp).mp rfl
  obtain ⟨_,hn',hd',hb'⟩ := (eq_encodeVerifiedSuccessResponse_iff _ n' d' hq).mp h
  exact ⟨Vector.toList_inj.mp (hn.symm.trans hn'),Vector.toList_inj.mp (hd.symm.trans hd'),
    hb.symm.trans hb'⟩

theorem encodeGenericErrorResponse_inj
    (h : encodeGenericErrorResponse n d = encodeGenericErrorResponse n' d') :
    n = n' ∧ d = d' := by
  obtain ⟨_,hn,hd⟩ := (eq_encodeGenericErrorResponse_iff _ n d).mp rfl
  obtain ⟨_,hn',hd'⟩ := (eq_encodeGenericErrorResponse_iff _ n' d').mp h
  exact ⟨Vector.toList_inj.mp (hn.symm.trans hn'),Vector.toList_inj.mp (hd.symm.trans hd')⟩

theorem success_ne_error (hp : PayloadLength p.length) :
    (encodeVerifiedSuccessResponse n d p).bytes ≠ encodeGenericErrorResponse n' d' := by
  intro h
  have hs := ((eq_encodeVerifiedSuccessResponse_iff _ n d hp).mp rfl).1.2
  have he := ((eq_encodeGenericErrorResponse_iff _ n' d').mp h).1.2
  exact he.not_success hs

open Classical in
/-- The whole validator, told by what the message is. -/
theorem validateResponse_eq (ht : TrustedInput p len) :
    validateResponse wire n d p len =
      if wire = (encodeVerifiedSuccessResponse n d p).bytes then ⟨.none,p⟩
      else if wire = encodeGenericErrorResponse n d then ⟨.readIncomplete,[]⟩
      else if WellFormedFrame wire then ⟨.correlationMismatch,[]⟩
      else ⟨.malformed,[]⟩ := by
  have hp : PayloadLength p.length := by rw [ht.2]; exact ht.1
  by_cases hw : WellFormedFrame wire
  · rcases id hw with ⟨n',d',q,hq,rfl⟩ | ⟨n',d',rfl⟩
    · rw [validateResponse_success ht hq,if_neg (success_ne_error hq),if_pos hw]
      refine if_congr ⟨?_,fun h => encodeVerifiedSuccessResponse_inj hq hp h⟩ rfl rfl
      intro hparts
      obtain ⟨rfl,rfl,rfl⟩ := hparts
      rfl
    · rw [validateResponse_error ht,if_neg (success_ne_error hp).symm,if_pos hw]
      refine if_congr ⟨?_,fun h => encodeGenericErrorResponse_inj h⟩ rfl rfl
      intro hparts
      obtain ⟨rfl,rfl⟩ := hparts
      rfl
  · have hs : wire ≠ (encodeVerifiedSuccessResponse n d p).bytes :=
      fun h => hw (.inl ⟨n,d,p,hp,h⟩)
    have he : wire ≠ encodeGenericErrorResponse n d := fun h => hw (.inr ⟨n,d,h⟩)
    rw [if_neg hs,if_neg he,if_neg hw]
    exact validateResponse_of_not_frame ht fun h => hw (wellFormedFrame_iff.mpr h)

end validator

/-- Each outcome of the response validator, by the bytes that give rise to it. -/
theorem validateResponse_exact (wire : Bytes) (n : Nonce) (d : P10Digest) (p : Bytes)
    (len : Nat) :
    ((validateResponse wire n d p len).failure = .invalidTrustedInput ↔
      ¬ PayloadLength len ∨ p.length ≠ len) ∧
    ((validateResponse wire n d p len).failure = .none ↔ TrustedInput p len ∧
      wire = (encodeVerifiedSuccessResponse n d p).bytes) ∧
    (validateResponse wire n d p len = ⟨.none,p⟩ ↔ TrustedInput p len ∧
      wire = (encodeVerifiedSuccessResponse n d p).bytes) ∧
    ((validateResponse wire n d p len).failure = .readIncomplete ↔ TrustedInput p len ∧
      wire = encodeGenericErrorResponse n d) ∧
    ((validateResponse wire n d p len).failure = .correlationMismatch ↔ TrustedInput p len ∧
      WellFormedFrame wire ∧ wire ≠ (encodeVerifiedSuccessResponse n d p).bytes ∧
      wire ≠ encodeGenericErrorResponse n d) ∧
    ((validateResponse wire n d p len).failure = .malformed ↔ TrustedInput p len ∧
      ¬ WellFormedFrame wire) ∧
    ((validateResponse wire n d p len).failure = .none ∨
      (validateResponse wire n d p len).verifiedP11 = []) := by
  rw [← not_and_or]
  change (_ ↔ ¬ TrustedInput p len) ∧ _
  by_cases ht : TrustedInput p len
  · have hp : PayloadLength p.length := by rw [ht.2]; exact ht.1
    have hes : encodeGenericErrorResponse n d ≠ (encodeVerifiedSuccessResponse n d p).bytes :=
      (success_ne_error hp).symm
    have hsw : WellFormedFrame (encodeVerifiedSuccessResponse n d p).bytes :=
      .inl ⟨n,d,p,hp,rfl⟩
    have hew : WellFormedFrame (encodeGenericErrorResponse n d) := .inr ⟨n,d,rfl⟩
    rw [validateResponse_eq ht]
    split_ifs with hs he hw
    · simp [ht,hs,hsw,hes.symm]
    · simp [ht,he,hew,hes]
    · simp [ht,hs,he,hw]
    · simp [ht,hs,he,hw]
  · simp [validateResponse_of_not_trusted ht,ht]

end SoftwareFactory.StageA.ReadFixtureHead
