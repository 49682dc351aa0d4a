import SoftwareFactory.StageA.HexText
import Mathlib.Data.List.Induction

namespace SoftwareFactory.StageA

structure WriterResult where
  artifactSha256 : Str
  artifactBytes : UInt32
  deriving DecidableEq

def writerPrefix : Str := "\x7b\"schema_version\":1,\"artifact_sha256\":\""
def writerMiddle : Str := "\",\"artifact_bytes\":"

/-- `static_cast<unsigned>(c - '0')`. -/
def digitOf (c : Char) : UInt32 := c.val-48

/-- One turn of the loop over the digits. -/
def digitStep (n : UInt32) (c : Char) : Except StdException UInt32 :=
  if c < '0' ∨ '9' < c ∨ (1048576-digitOf c)/10 < n then
    .error ⟨.invalidArgument,"writer result decimal range"⟩
  else .ok (n*10+digitOf c)

def parseWriterResult (bytes : Str) : Except StdException WriterResult :=
  if 256 < bytes.length then .error ⟨.lengthError,"writer result over 256 bytes"⟩
  else if bytes.take writerPrefix.length ≠ writerPrefix then
    .error ⟨.invalidArgument,"writer result prefix"⟩
  else
    let bytes := bytes.drop writerPrefix.length
    if bytes.length < 64+writerMiddle.length+2 ∨ !hex64 (bytes.take 64) then
      .error ⟨.invalidArgument,"writer result digest"⟩
    else
      let artifactSha256 := bytes.take 64
      let bytes := bytes.drop 64
      if bytes.take writerMiddle.length ≠ writerMiddle then
        .error ⟨.invalidArgument,"writer result fields"⟩
      else
        let bytes := bytes.drop writerMiddle.length
        if bytes.length < 2 ∨ bytes.getLast? ≠ some '\x7d' ∨
            (bytes.head? = some '0' ∧ bytes.length ≠ 2) then
          .error ⟨.invalidArgument,"writer result decimal"⟩
        else do
          let artifactBytes ← bytes.dropLast.foldlM digitStep 0
          return { artifactSha256, artifactBytes }

/-- An exception of another kind would pass through. -/
def writerResultEvidence (bytes actualM5Sha256 : Str) (actualM5Bytes : UInt32) :
    Except StdException Evidence :=
  let e : Evidence :=
    { object := "M4/writer-result.json", profile := "data-only-v1", step := "parse-and-correlate" }
  match parseWriterResult bytes with
  | .ok parsed =>
    if parsed.artifactSha256 ≠ actualM5Sha256 ∨ parsed.artifactBytes ≠ actualM5Bytes then
      .ok { e with verdict := .rejectMismatch, detail := "M5 correlation mismatch" }
    else .ok { e with verdict := .acceptCurrent, detail := "DATA_ACCEPTED only" }
  | .error ⟨.lengthError,what⟩ => .ok { e with error := .oversized, detail := what }
  | .error ⟨.invalidArgument,what⟩ => .ok { e with error := .malformed, detail := what }
  | .error ex => .error ex

section digits

variable {c : Char} {n n' : UInt32} {d : Str}

/-- A decimal digit by its number. -/
theorem digit_range (h0 : '0' ≤ c) (h9 : c ≤ '9') : 48 ≤ c.val.toNat ∧ c.val.toNat ≤ 57 :=
  ⟨UInt32.le_iff_toNat_le.mp h0,UInt32.le_iff_toNat_le.mp h9⟩

theorem digitOf_toNat (h0 : '0' ≤ c) : (digitOf c).toNat = c.val.toNat-48 := by
  have hle : (48 : UInt32) ≤ c.val := h0
  rw [digitOf,UInt32.toNat_sub_of_le _ _ hle]
  rfl

theorem digitOf_lt (h0 : '0' ≤ c) (h9 : c ≤ '9') : (digitOf c).toNat < 10 := by
  have hrange := digit_range h0 h9
  rw [digitOf_toNat h0]
  omega

/-- The subtraction of the range test stays above zero. -/
theorem room_toNat (h0 : '0' ≤ c) (h9 : c ≤ '9') :
    (1048576-digitOf c).toNat = 1048576-(digitOf c).toNat := by
  have hlt := digitOf_lt h0 h9
  apply UInt32.toNat_sub_of_le
  rw [UInt32.le_iff_toNat_le]
  simp only [UInt32.reduceToNat]
  omega

theorem digitStep_ok : digitStep n c = .ok n' ↔ '0' ≤ c ∧ c ≤ '9' ∧
    n.toNat*10+(digitOf c).toNat ≤ 1048576 ∧ n'.toNat = n.toNat*10+(digitOf c).toNat := by
  rw [digitStep]
  by_cases hdigit : '0' ≤ c ∧ c ≤ '9'
  · obtain ⟨h0,h9⟩ := hdigit
    have hroom := room_toNat h0 h9
    have hlt := digitOf_lt h0 h9
    have hquot : ((1048576-digitOf c)/10).toNat = (1048576-(digitOf c).toNat)/10 := by
      rw [UInt32.toNat_div,hroom]
      rfl
    have hsum : n.toNat*10+(digitOf c).toNat < 2^32 →
        (n*10+digitOf c).toNat = n.toNat*10+(digitOf c).toNat := by
      intro h
      rw [UInt32.toNat_add,UInt32.toNat_mul]
      simp only [UInt32.reduceToNat]
      omega
    by_cases hover : (1048576-digitOf c)/10 < n
    · rw [if_pos (.inr (.inr hover))]
      rw [UInt32.lt_iff_toNat_lt,hquot] at hover
      simp only [reduceCtorEq,false_iff,not_and]
      intro _ _ hle
      omega
    · rw [if_neg (by rw [not_or,not_or,not_lt,not_lt]; exact ⟨h0,h9,hover⟩)]
      rw [UInt32.lt_iff_toNat_lt,hquot] at hover
      have hle : n.toNat*10+(digitOf c).toNat ≤ 1048576 := by omega
      have hval := hsum (by omega)
      constructor
      · intro h
        obtain rfl := Except.ok.inj h
        exact ⟨h0,h9,hle,hval⟩
      · intro h
        exact congrArg Except.ok (UInt32.toNat_inj.mp (hval.trans h.2.2.2.symm))
  · have hout : c < '0' ∨ '9' < c ∨ (1048576-digitOf c)/10 < n := by
      rw [not_and_or,not_le,not_le] at hdigit
      exact hdigit.imp id .inl
    rw [if_pos hout]
    simp only [reduceCtorEq,false_iff]
    intro h
    exact hdigit ⟨h.1,h.2.1⟩

theorem digitChar_digitOf (h0 : '0' ≤ c) (h9 : c ≤ '9') :
    Nat.digitChar (digitOf c).toNat = c := by
  have hrange := digit_range h0 h9
  have hall : ∀ i : Fin 10,(Nat.digitChar i).val.toNat = 48+i := by decide
  have hval := hall ⟨(digitOf c).toNat,digitOf_lt h0 h9⟩
  apply Char.ext
  apply UInt32.toNat_inj.mp
  rw [hval]
  simp only [digitOf_toNat h0]
  omega

theorem digitOf_digitChar {i : Nat} (hi : i < 10) : '0' ≤ Nat.digitChar i ∧
    Nat.digitChar i ≤ '9' ∧ (digitOf (Nat.digitChar i)).toNat = i := by
  have hall : ∀ i : Fin 10,'0' ≤ Nat.digitChar i ∧ Nat.digitChar i ≤ '9' ∧
      (digitOf (Nat.digitChar i)).toNat = i := by decide
  exact hall ⟨i,hi⟩

theorem digits_snoc : (d++[c]).foldlM digitStep 0 = .ok n' ↔
    ∃ n,d.foldlM digitStep 0 = .ok n ∧ digitStep n c = .ok n' := by
  rw [List.foldlM_append]
  cases d.foldlM digitStep 0 with
  | error e => simp [bind,Except.bind]
  | ok n => cases hstep : digitStep n c <;> simp [bind,Except.bind,pure,Except.pure,hstep]

end digits

section decimals

variable {d : Str} {n : UInt32} {m : Nat}

/-- The last digit comes behind the others. -/
theorem decimal_snoc (h : 10 ≤ m) : decimal m = decimal (m/10)++[Nat.digitChar (m%10)] :=
  Nat.toDigits_of_base_le (by decide) h

theorem decimal_one (h : m < 10) : decimal m = [Nat.digitChar m] := Nat.toDigits_of_lt_base h

theorem decimal_ne_nil : decimal m ≠ [] := Nat.toDigits_ne_nil

theorem decimal_head (h : 0 < m) : (decimal m).head? ≠ some '0' := by
  induction m using Nat.strong_induction_on with
  | _ m ih =>
    by_cases hlt : m < 10
    · rw [decimal_one hlt,List.head?_cons,ne_eq,Option.some.injEq,Nat.digitChar_eq_zero]
      omega
    · rw [decimal_snoc (by omega),List.head?_append_of_ne_nil _ decimal_ne_nil]
      exact ih (m/10) (by omega) (by omega)

/-- A number without needless zeros. -/
structure Canonical (d : Str) : Prop where
  ne_nil : d ≠ []
  zero : d.head? = some '0' → d.length = 1

theorem canonical_decimal (m : Nat) : Canonical (decimal m) := by
  refine ⟨decimal_ne_nil,fun hhead => ?_⟩
  cases m with
  | zero => rfl
  | succ m => exact absurd hhead (decimal_head (Nat.succ_pos m))

/-- The digits the loop takes in spell what it has counted. -/
theorem digits_decimal (hd : Canonical d) (h : d.foldlM digitStep 0 = .ok n) :
    n.toNat ≤ 1048576 ∧ decimal n.toNat = d := by
  induction d using List.reverseRecOn generalizing n with
  | nil => exact absurd rfl hd.ne_nil
  | append_singleton e c ih =>
    obtain ⟨k,hk,hstep⟩ := digits_snoc.mp h
    obtain ⟨h0,h9,hle,hn⟩ := digitStep_ok.mp hstep
    have hlt := digitOf_lt h0 h9
    have hchar := digitChar_digitOf h0 h9
    refine ⟨by omega,?_⟩
    by_cases he : e = []
    · subst he
      obtain rfl : 0 = k := Except.ok.inj hk
      have hvalue : n.toNat = (digitOf c).toNat := by simpa using hn
      rw [hvalue,decimal_one hlt,hchar,List.nil_append]
    · have hcanonical : Canonical e := by
        refine ⟨he,fun hhead => ?_⟩
        have hone := hd.zero (by rw [List.head?_append_of_ne_nil _ he]; exact hhead)
        have hpos := List.length_pos_iff.mpr he
        simp only [List.length_append,List.length_singleton] at hone
        omega
      obtain ⟨-,hdecimal⟩ := ih hcanonical hk
      have hpos : 0 < k.toNat := by
        apply Nat.pos_of_ne_zero
        intro hzero
        rw [hzero] at hdecimal
        have hone := hd.zero (by rw [← hdecimal]; rfl)
        rw [← hdecimal] at hone
        simp [decimal] at hone
      have hdiv : n.toNat/10 = k.toNat := by omega
      have hmod : n.toNat%10 = (digitOf c).toNat := by omega
      rw [decimal_snoc (by omega),hdiv,hmod,hdecimal,hchar]

/-- The loop takes in every number up to its limit. -/
theorem decimal_digits (h : m ≤ 1048576) :
    (decimal m).foldlM digitStep 0 = .ok (UInt32.ofNat m) := by
  have hvalue (m : Nat) (h : m ≤ 1048576) : (UInt32.ofNat m).toNat = m :=
    UInt32.toNat_ofNat_of_lt' (by simp only [UInt32.size]; omega)
  induction m using Nat.strong_induction_on with
  | _ m ih =>
    by_cases hlt : m < 10
    · obtain ⟨h0,h9,hdigit⟩ := digitOf_digitChar hlt
      rw [decimal_one hlt,← List.nil_append [Nat.digitChar m]]
      refine digits_snoc.mpr ⟨0,rfl,digitStep_ok.mpr ⟨h0,h9,?_,?_⟩⟩
      · simp only [hdigit,UInt32.toNat_zero]
        omega
      · simp only [hdigit,UInt32.toNat_zero,hvalue m h]
        omega
    · obtain ⟨h0,h9,hdigit⟩ := digitOf_digitChar (Nat.mod_lt m (by decide : 0 < 10))
      have hdiv := hvalue (m/10) (by omega)
      rw [decimal_snoc (by omega)]
      refine digits_snoc.mpr ⟨_,ih (m/10) (by omega) (by omega),digitStep_ok.mpr ⟨h0,h9,?_,?_⟩⟩
      · rw [hdiv,hdigit]
        omega
      · rw [hdiv,hdigit,hvalue m h]
        omega

end decimals

/-- The only text that gives the digest and the size. -/
structure WriterText (h : Str) (n : Nat) (b : Str) : Prop where
  digest : HexDigest h
  size : n ≤ 1048576
  text : b = writerPrefix++(h++(writerMiddle++(decimal n++['\x7d'])))

section parse

variable {b h : Str} {n : UInt32} {m : Nat}

/-- A number with the closing brace behind it. -/
theorem closed_iff {b : Str} : ¬ (b.length < 2 ∨ b.getLast? ≠ some '\x7d' ∨
      (b.head? = some '0' ∧ b.length ≠ 2)) ↔ ∃ d,b = d++['\x7d'] ∧ Canonical d := by
  constructor
  · intro hb
    simp only [not_or,not_lt,not_not,not_and,ne_eq] at hb
    obtain ⟨hlen,hlast,hzero⟩ := hb
    obtain ⟨d,rfl⟩ : ∃ d,b = d++['\x7d'] := ⟨b.dropLast,(List.dropLast_append_getLast? _ hlast).symm⟩
    have hne : d ≠ [] := by
      intro hd
      simp [hd] at hlen
    refine ⟨d,rfl,hne,fun hhead => ?_⟩
    have htwo := hzero (by rw [List.head?_append_of_ne_nil _ hne]; exact hhead)
    simpa using htwo
  · intro hb
    obtain ⟨d,rfl,hd⟩ := hb
    have hpos := List.length_pos_iff.mpr hd.ne_nil
    simp only [not_or,not_lt,not_not,not_and,ne_eq,List.length_append,List.length_singleton,
      List.head?_append_of_ne_nil _ hd.ne_nil,List.getLast?_concat]
    exact ⟨by omega,trivial,fun hhead => by rw [hd.zero hhead]⟩

theorem parseWriterResult_cut : parseWriterResult b = .ok ⟨h,n⟩ ↔ b.length ≤ 256 ∧
    hex64 h = true ∧ ∃ d,b = writerPrefix++(h++(writerMiddle++(d++['\x7d']))) ∧ Canonical d ∧
      d.foldlM digitStep 0 = .ok n := by
  constructor
  · intro hp
    rw [parseWriterResult] at hp
    dsimp only at hp
    split_ifs at hp with hlen hlead hdigest hmiddle hdecimal
    simp only [not_lt] at hlen
    simp only [not_or,not_lt,not_not,Bool.not_eq_true',Bool.not_eq_false] at hlead hdigest hmiddle
    obtain ⟨d,hd,hcanonical⟩ := closed_iff.mp hdecimal
    rw [hd,List.dropLast_concat] at hp
    have hb := List.take_append_drop writerPrefix.length b
    have hrest := List.take_append_drop 64 (b.drop writerPrefix.length)
    have htail := List.take_append_drop writerMiddle.length
      ((b.drop writerPrefix.length).drop 64)
    rw [hlead] at hb
    rw [hmiddle,hd] at htail
    cases hfold : d.foldlM digitStep 0 with
    | error e =>
      rw [hfold] at hp
      cases hp
    | ok k =>
      rw [hfold] at hp
      obtain ⟨rfl,rfl⟩ := WriterResult.mk.inj (Except.ok.inj hp)
      refine ⟨hlen,hdigest.2,d,?_,hcanonical,hfold⟩
      rw [htail,hrest,hb]
  · intro hp
    obtain ⟨hlen,hhex,d,hb,hcanonical,hfold⟩ := hp
    have hsize : h.length = 64 := (hex64_iff.mp hhex).1
    have hpos := List.length_pos_iff.mpr hcanonical.ne_nil
    have hclosed := closed_iff.mpr ⟨d,rfl,hcanonical⟩
    rw [parseWriterResult,if_neg (by omega),hb,List.take_left,if_neg (by simp)]
    dsimp only
    rw [List.drop_left,List.take_left' hsize,List.drop_left' hsize,List.take_left,List.drop_left,
      if_neg (by simp [hhex,hsize]; omega),if_neg (by simp),if_neg hclosed,List.dropLast_concat,
      hfold]
    rfl

theorem parseWriterResult_ok : parseWriterResult b = .ok ⟨h,n⟩ ↔ WriterText h n.toNat b := by
  rw [parseWriterResult_cut]
  constructor
  · intro hp
    obtain ⟨-,hhex,d,hb,hcanonical,hfold⟩ := hp
    obtain ⟨hle,hdecimal⟩ := digits_decimal hcanonical hfold
    exact ⟨hex64_iff.mp hhex,hle,by rw [hdecimal]; exact hb⟩
  · intro ht
    have hfold := decimal_digits ht.size
    rw [UInt32.ofNat_toNat] at hfold
    refine ⟨?_,hex64_iff.mpr ht.digest,_,ht.text,canonical_decimal _,hfold⟩
    have hdigits : (decimal n.toNat).length ≤ 7 :=
      (Nat.length_toDigits_le_iff (by decide) (by decide)).mpr (by have := ht.size; omega)
    have hlead : writerPrefix.length = 39 := by decide
    have hmiddle : writerMiddle.length = 19 := by decide
    rw [ht.text]
    simp only [List.length_append,hlead,hmiddle,ht.digest.1,List.length_singleton]
    omega

theorem WriterText.toNat (ht : WriterText h m b) : (UInt32.ofNat m).toNat = m := by
  have hle := ht.size
  exact UInt32.toNat_ofNat_of_lt' (by simp only [UInt32.size]; omega)

theorem WriterText.parse (ht : WriterText h m b) :
    parseWriterResult b = .ok ⟨h,UInt32.ofNat m⟩ :=
  parseWriterResult_ok.mpr (by rw [ht.toNat]; exact ht)

/-- A text gives one digest and one size. -/
theorem WriterText.unique {h' : Str} {m' : Nat} (ht : WriterText h m b)
    (ht' : WriterText h' m' b) : h = h' ∧ m = m' := by
  have hp := ht.parse
  rw [ht'.parse] at hp
  obtain ⟨hdigest,hsize⟩ := WriterResult.mk.inj (Except.ok.inj hp)
  have hm := congrArg UInt32.toNat hsize
  rw [ht.toNat,ht'.toNat] at hm
  exact ⟨hdigest.symm,hm.symm⟩

/-- Only the length has an error of its own. -/
theorem parseWriterResult_error {e : StdException} (hp : parseWriterResult b = .error e) :
    e.kind = (if 256 < b.length then .lengthError else .invalidArgument) := by
  have hdigits (d : Str) (k : UInt32) (e : StdException) (h : d.foldlM digitStep k = .error e) :
      e.kind = .invalidArgument := by
    induction d generalizing k with
    | nil => cases h
    | cons c d ih =>
      rw [List.foldlM_cons] at h
      cases hstep : digitStep k c with
      | ok k' =>
        rw [hstep] at h
        exact ih k' h
      | error e' =>
        rw [hstep] at h
        obtain rfl : e' = e := Except.error.inj h
        rw [digitStep] at hstep
        split_ifs at hstep
        rw [← Except.error.inj hstep]
  rw [parseWriterResult] at hp
  dsimp only at hp
  split_ifs at hp ⊢ with hlen hlead hdigest hmiddle hdecimal
  · rw [← Except.error.inj hp]
  · rw [← Except.error.inj hp]
  · rw [← Except.error.inj hp]
  · rw [← Except.error.inj hp]
  · rw [← Except.error.inj hp]
  · cases hfold : (((b.drop writerPrefix.length).drop 64).drop
        writerMiddle.length).dropLast.foldlM digitStep 0 with
    | ok k =>
      rw [hfold] at hp
      cases hp
    | error e' =>
      rw [hfold] at hp
      rw [← Except.error.inj hp]
      exact hdigits _ _ _ hfold

/-- What the evidence says of a text that is parsed. -/
theorem writerResultEvidence_ok (hp : parseWriterResult b = .ok ⟨h,n⟩) (actual : Str)
    (size : UInt32) : ∃ e,writerResultEvidence b actual size = .ok e ∧
      e.verdict = (if h = actual ∧ n = size then .acceptCurrent else .rejectMismatch) := by
  rw [writerResultEvidence,hp]
  dsimp only
  by_cases hsame : h = actual ∧ n = size
  · rw [if_neg (by rw [not_or,not_not,not_not]; exact hsame),if_pos hsame]
    exact ⟨_,rfl,rfl⟩
  · rw [if_pos (not_and_or.mp hsame),if_neg hsame]
    exact ⟨_,rfl,rfl⟩

theorem writerResultEvidence_error {ex : StdException} (hp : parseWriterResult b = .error ex)
    (actual : Str) (size : UInt32) : ∃ e,writerResultEvidence b actual size = .ok e ∧
      e.verdict = .stopInconclusive ∧
      e.error = (if 256 < b.length then .oversized else .malformed) := by
  have hkind := parseWriterResult_error hp
  obtain ⟨kind,what⟩ := ex
  rw [writerResultEvidence,hp]
  by_cases hlen : 256 < b.length
  · rw [if_pos hlen] at hkind ⊢
    subst hkind
    exact ⟨_,rfl,rfl,rfl⟩
  · rw [if_neg hlen] at hkind ⊢
    subst hkind
    exact ⟨_,rfl,rfl,rfl⟩

end parse

/-- The parser accepts exactly the canonical texts, its unsigned arithmetic never wraps, and
the evidence says how a text relates to the actual pair. -/
theorem writerResult_exact :
    (∀ b h n,parseWriterResult b = .ok ⟨h,n⟩ ↔ WriterText h n.toNat b) ∧
    (∀ (taken : Str) n c,taken.foldlM digitStep 0 = .ok n → '0' ≤ c → c ≤ '9' →
      (digitOf c).toNat ≤ 1048576 ∧
      (1048576-digitOf c).toNat = 1048576-(digitOf c).toNat ∧
      ∀ n',digitStep n c = .ok n' →
        (n*10).toNat = n.toNat*10 ∧ n'.toNat = n.toNat*10+(digitOf c).toNat) ∧
    ∀ b actual size,∃ e,writerResultEvidence b actual size = .ok e ∧
      (e.verdict = .acceptCurrent ↔ WriterText actual size.toNat b) ∧
      (e.verdict = .rejectMismatch ↔ ∃ h n,WriterText h n b ∧ (h,n) ≠ (actual,size.toNat)) ∧
      (e.verdict = .stopInconclusive ↔ ¬ ∃ h n,WriterText h n b) ∧
      (e.verdict = .stopInconclusive →
        (e.error = .oversized ↔ 256 < b.length) ∧
        (e.error = .malformed ↔ ¬ 256 < b.length)) := by
  refine ⟨fun b h n => parseWriterResult_ok,?_,?_⟩
  · intro taken n c _ h0 h9
    have hlt := digitOf_lt h0 h9
    refine ⟨by omega,room_toNat h0 h9,fun n' hstep => ?_⟩
    obtain ⟨-,-,hle,hn⟩ := digitStep_ok.mp hstep
    refine ⟨?_,hn⟩
    rw [UInt32.toNat_mul]
    simp only [UInt32.reduceToNat]
    omega
  · intro b actual size
    cases hp : parseWriterResult b with
    | ok r =>
      obtain ⟨h,n⟩ := r
      have ht := parseWriterResult_ok.mp hp
      obtain ⟨e,he,hverdict⟩ := writerResultEvidence_ok hp actual size
      have hstop : ¬ ¬ ∃ h n,WriterText h n b := fun hnone => hnone ⟨h,_,ht⟩
      refine ⟨e,he,?_⟩
      rw [hverdict]
      by_cases hsame : h = actual ∧ n = size
      · obtain ⟨rfl,rfl⟩ := hsame
        have hmismatch : ¬ ∃ h' n',WriterText h' n' b ∧ (h',n') ≠ (h,n.toNat) := by
          intro hall
          obtain ⟨h',n',ht',hne⟩ := hall
          obtain ⟨hh,hn⟩ := ht'.unique ht
          exact hne (by rw [hh,hn])
        rw [if_pos ⟨rfl,rfl⟩]
        simp only [reduceCtorEq,true_iff,false_iff,false_imp_iff,and_true]
        exact ⟨ht,hmismatch,hstop⟩
      · have hother : ¬ WriterText actual size.toNat b := by
          intro ht'
          obtain ⟨hh,hn⟩ := ht.unique ht'
          exact hsame ⟨hh,UInt32.toNat_inj.mp hn⟩
        have hmismatch : ∃ h' n',WriterText h' n' b ∧ (h',n') ≠ (actual,size.toNat) := by
          refine ⟨h,_,ht,fun hpair => ?_⟩
          obtain ⟨hh,hn⟩ := Prod.mk.inj hpair
          exact hsame ⟨hh,UInt32.toNat_inj.mp hn⟩
        rw [if_neg hsame]
        simp only [reduceCtorEq,false_iff,true_iff,false_imp_iff,and_true]
        exact ⟨hother,hmismatch,hstop⟩
    | error ex =>
      obtain ⟨e,he,hverdict,herror⟩ := writerResultEvidence_error hp actual size
      have hnone : ∀ h n,¬ WriterText h n b := by
        intro h n ht
        rw [ht.parse] at hp
        cases hp
      refine ⟨e,he,?_⟩
      rw [hverdict,herror]
      by_cases hlen : 256 < b.length
      · simp [hnone,hlen]
      · simp [hnone,hlen]

example : (digitStep 104857 '6').toOption = some 1048576 ∧
    (digitStep 104857 '7').toOption = none := by decide

end SoftwareFactory.StageA
