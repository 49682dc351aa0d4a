import SoftwareFactory.Lib.LittleEndian
import SoftwareFactory.StageA.SnapshotRules
import SoftwareFactory.StageA.WindowsSnapshot

namespace SoftwareFactory.StageA.Windows

open ByteBuffer

def directoryBufferBytes : Nat := 65536

/-- `offsetof(FILE_ID_EXTD_DIR_INFO, FileName)`. -/
def headerSize : Nat := 88

/-- Subtraction and addition of `std::size_t`. -/
def sizeSub (a b : Nat) : Nat := (a+2^64-b) % 2^64

def sizeAdd (a b : Nat) : Nat := (a+b) % 2^64

/-- How a run of the parser stops without a page: with the failure that it throws, with a read
outside the buffer, or with rounds of the loop left over. -/
inductive ParseStop where
  | failure (f : ObservationFailure)
  | outside
  | unfinished

/-- `memcpy` of `n` bytes from offset `k` of the buffer. -/
def copyOut (bytes : List UInt8) (k n : Nat) : Except ParseStop (List UInt8) :=
  if k+n ≤ bytes.length then .ok ((bytes.drop k).take n) else .error .outside

def parseFail {α : Type} (kind : ErrorKind) (object : Str) (profile step message : String) :
    Except ParseStop α :=
  .error (.failure
    { kind := kind, object := object, profile := profile, step := step, message := message })

def parseFailIf (p : Prop) [Decidable p] (kind : ErrorKind) (object : Str)
    (profile step message : String) : Except ParseStop Unit :=
  if p then parseFail kind object profile step message else .ok ()

/-- The header and the name of one record, up to `page.entries.push_back`. -/
def parseRecord (bytes : List UInt8) (size offset : Nat) :
    Except ParseStop (NativeEntry × UInt32 × Nat) := do
  parseFailIf (offset > sizeSub size headerSize) .incomplete "state/" directoryProfile
    "enumeration-buffer" "truncated directory header"
  let entry ← copyOut bytes offset headerSize
  let nameBytes := (load32 (entry.drop 60)).toNat
  parseFailIf (nameBytes = 0 ∨ nameBytes % 2 ≠ 0 ∨
      nameBytes > sizeSub (sizeSub size offset) headerSize)
    .incomplete "state/" directoryProfile "enumeration-buffer" "truncated directory name"
  let wide ← copyOut bytes (sizeAdd offset headerSize) nameBytes
  match utf8 (loadUnits wide) with
  | .error failure =>
    parseFail .malformed "state/" directoryProfile "enumeration-name" failure.what
  | .ok name =>
    let result : NativeEntry :=
      { name := name
        fileId := Vector.ofFn fun i => entry.getD (72+i) 0
        attributes := load32 (entry.drop 56)
        reparseTag := load32 (entry.drop 68) }
    parseFailIf (result.attributes &&& fileAttributeDevice ≠ 0) .identityDrift result.name
      childProfile "enumeration-type" "device-marked state child is not a regular file"
    return (result,load32 entry,nameBytes)

def finishPage (entries : List NativeEntry) : Except ParseStop DirectoryPage := do
  parseFailIf (entries = []) .incomplete "state/" directoryProfile "enumeration-page"
    "successful empty page"
  return ⟨false,entries⟩

/-- The loop, with the number of rounds it may take. -/
def parseFrom (bytes : List UInt8) (size : Nat) :
    Nat → Nat → List NativeEntry → Except ParseStop DirectoryPage
  | 0,_,_ => .error .unfinished
  | rounds+1,offset,entries => do
    let (result,nextEntryOffset,nameBytes) ← parseRecord bytes size offset
    let entries := entries++[result]
    if nextEntryOffset = 0 then finishPage entries
    else
      let next := nextEntryOffset.toNat
      parseFailIf (next % 8 ≠ 0 ∨ next < sizeAdd headerSize nameBytes ∨
          next > sizeSub size offset)
        .incomplete "state/" directoryProfile "enumeration-buffer" "invalid next entry offset"
      parseFrom bytes size rounds (sizeAdd offset next) entries

/-- `parse_file_id_extd_directory_buffer`; `none` is a null pointer. -/
def parseFileIdExtdDirectoryBuffer (bytes : Option (List UInt8)) (size : Nat) :
    Except ParseStop DirectoryPage := do
  parseFailIf (size = 0) .incomplete "state/" directoryProfile "enumeration-page"
    "successful empty page"
  match bytes with
  | none =>
    parseFail .incomplete "state/" directoryProfile "enumeration-buffer"
      "invalid or truncated directory buffer"
  | some bytes =>
    parseFailIf (size > directoryBufferBytes ∨ size < headerSize) .incomplete "state/"
      directoryProfile "enumeration-buffer" "invalid or truncated directory buffer"
    parseFrom bytes size (size+1) 0 []

/-- The record of `nameBytes` bytes of name and the next offset `next` at offset `o`. -/
structure RecordAt (bytes : List UInt8) (o : Nat) (entry : NativeEntry) (next nameBytes : Nat) :
    Prop where
  header : o+headerSize ≤ bytes.length
  name_length : nameBytes = (load32 (bytes.drop (o+60))).toNat
  name_inside : 0 < nameBytes ∧ nameBytes % 2 = 0 ∧ o+headerSize+nameBytes ≤ bytes.length
  name : wideCharToMultiByte (loadUnits ((bytes.drop (o+headerSize)).take nameBytes)) =
    some entry.name
  file_id : entry.fileId = Vector.ofFn fun i => bytes.getD (o+72+i) 0
  attributes : entry.attributes = load32 (bytes.drop (o+56))
  reparse_tag : entry.reparseTag = load32 (bytes.drop (o+68))
  no_device : entry.attributes &&& fileAttributeDevice = 0
  next_offset : next = (load32 (bytes.drop o)).toNat

/-- The records from offset `o` on, up to the first one without a next offset. -/
inductive RecordChain (bytes : List UInt8) : Nat → List NativeEntry → Prop where
  | last {o nameBytes : Nat} {entry : NativeEntry} (h : RecordAt bytes o entry 0 nameBytes) :
      RecordChain bytes o [entry]
  | link {o next nameBytes : Nat} {entry : NativeEntry} {entries : List NativeEntry}
      (h : RecordAt bytes o entry next nameBytes) (hnext : next ≠ 0) (haligned : next % 8 = 0)
      (hbehind : headerSize+nameBytes ≤ next) (hinside : o+next ≤ bytes.length)
      (t : RecordChain bytes (o+next) entries) :
      RecordChain bytes o (entry::entries)

section rules

variable {α : Type} {kind : ErrorKind} {object : Str} {profile step message : String}

theorem parseFailIf_ok {p : Prop} [Decidable p] {u : Unit} :
    parseFailIf p kind object profile step message = .ok u ↔ ¬ p := by
  rw [parseFailIf]
  split_ifs with h <;> simp [parseFail,h]

theorem parseFailIf_of_not {p : Prop} [Decidable p] (h : ¬ p) :
    parseFailIf p kind object profile step message = .ok () := if_neg h

/-- Nothing but a thrown failure stops the parser. -/
def OnlyFails (m : Except ParseStop α) : Prop := ∀ stop,m = .error stop → ∃ f,stop = .failure f

theorem OnlyFails.fail :
    OnlyFails (parseFail kind object profile step message : Except ParseStop α) := by
  intro stop h
  exact ⟨_,(Except.error.inj h).symm⟩

theorem OnlyFails.failIf (p : Prop) [Decidable p] :
    OnlyFails (parseFailIf p kind object profile step message) := by
  rw [parseFailIf]
  split_ifs
  · exact .fail
  · intro stop h
    cases h

theorem OnlyFails.ok (a : α) : OnlyFails (.ok a : Except ParseStop α) := by
  intro stop h
  cases h

theorem OnlyFails.bind {β : Type} {m : Except ParseStop α} {f : α → Except ParseStop β}
    (hm : OnlyFails m) (hf : ∀ a,m = .ok a → OnlyFails (f a)) : OnlyFails (m >>= f) := by
  cases hres : m with
  | error stop =>
    intro stop' h
    obtain rfl := Except.error.inj h
    exact hm _ hres
  | ok a => exact hf a hres

end rules

theorem parse_bind_ok {α β : Type} {m : Except ParseStop α} {f : α → Except ParseStop β}
    {b : β} : (m >>= f) = .ok b ↔ ∃ a,m = .ok a ∧ f a = .ok b := by
  cases m with
  | error e => simp [bind,Except.bind]
  | ok a => simp [bind,Except.bind]

theorem sizeSub_of_le {a b : Nat} (h : b ≤ a) (ha : a < 2^64) : sizeSub a b = a-b := by
  rw [sizeSub]
  omega

theorem sizeAdd_of_lt {a b : Nat} (h : a+b < 2^64) : sizeAdd a b = a+b := Nat.mod_eq_of_lt h

theorem copyOut_ok {bytes out : List UInt8} {k n : Nat} :
    copyOut bytes k n = .ok out ↔ k+n ≤ bytes.length ∧ out = (bytes.drop k).take n := by
  rw [copyOut]
  split_ifs with h
  · simp [h,eq_comm]
  · simp [h]

theorem utf8_ok {w : WStr} {name : Str} (hw : w.length ≤ 2147483647) :
    utf8 w = .ok name ↔ wideCharToMultiByte w = some name := by
  rw [utf8,if_neg (by omega)]
  cases wideCharToMultiByte w <;> simp

section buffer

variable {bytes : List UInt8} {o : Nat}

/-- A field of the header is the same in the buffer and in the copy of the header. -/
theorem header_load32 {k : Nat} (hk : k+4 ≤ headerSize) :
    load32 (((bytes.drop o).take headerSize).drop k) = load32 (bytes.drop (o+k)) := by
  rw [List.drop_take,List.drop_drop]
  apply load32_take
  omega

theorem header_fileId : (Vector.ofFn fun i : Fin 16 =>
    ((bytes.drop o).take headerSize).getD (72+i) 0) =
      Vector.ofFn fun i : Fin 16 => bytes.getD (o+72+i) 0 := by
  congr 1
  funext i
  have hi : 72+i.val < headerSize := by
    have := i.isLt
    rw [headerSize]
    omega
  simp [List.getD_eq_getElem?_getD,hi,Nat.add_assoc]

/-- The room that is left for a name is what the subtractions say. -/
theorem room_eq (hmax : bytes.length ≤ directoryBufferBytes) (ho : o+headerSize ≤ bytes.length) :
    sizeSub (sizeSub bytes.length o) headerSize = bytes.length-o-headerSize ∧
      sizeAdd o headerSize = o+headerSize := by
  have hmax' : bytes.length ≤ 65536 := hmax
  have h1 : sizeSub bytes.length o = bytes.length-o := sizeSub_of_le (by omega) (by omega)
  constructor
  · rw [h1]
    exact sizeSub_of_le (by omega) (by omega)
  · exact sizeAdd_of_lt (by omega)

theorem parseRecord_ok {entry : NativeEntry} {next : UInt32} {nameBytes : Nat}
    (hmin : headerSize ≤ bytes.length) (hmax : bytes.length ≤ directoryBufferBytes) :
    parseRecord bytes bytes.length o = .ok (entry,next,nameBytes) ↔
      RecordAt bytes o entry next.toNat nameBytes := by
  have hmax' : bytes.length ≤ 65536 := hmax
  have hsub : sizeSub bytes.length headerSize = bytes.length-headerSize :=
    sizeSub_of_le hmin (by omega)
  have hunits (n : Nat) (hn : n ≤ bytes.length) :
      (loadUnits ((bytes.drop (o+headerSize)).take n)).length ≤ 2147483647 := by
    rw [loadUnits_length,List.length_take]
    omega
  rw [parseRecord,hsub,parse_bind_ok]
  simp only [parse_bind_ok,parseFailIf_ok,copyOut_ok]
  constructor
  · intro hparts
    obtain ⟨-,-,header,⟨hin,rfl⟩,-,hname,wide,⟨hwide,rfl⟩,h⟩ := hparts
    obtain ⟨hroom,hadd⟩ := room_eq hmax hin
    rw [hroom,header_load32 (by decide)] at hname
    rw [hadd,header_load32 (by decide)] at hwide h
    simp only [header_load32 (by decide : 56+4 ≤ headerSize),
      header_load32 (by decide : 68+4 ≤ headerSize),header_fileId,
      load32_take (by decide : 4 ≤ headerSize)] at h
    obtain ⟨n,hn⟩ : ∃ n,n = (load32 (bytes.drop (o+60))).toNat := ⟨_,rfl⟩
    rw [← hn] at hname hwide h
    cases htext : utf8 (loadUnits ((bytes.drop (o+headerSize)).take n)) with
    | error e =>
      rw [htext] at h
      cases h
    | ok name =>
      simp only [htext,parse_bind_ok,parseFailIf_ok,not_not] at h
      obtain ⟨-,hdevice,h⟩ := h
      have hresult := Except.ok.inj h
      simp only [Prod.mk.injEq] at hresult
      obtain ⟨rfl,rfl,rfl⟩ := hresult
      rw [utf8_ok (hunits n (by omega))] at htext
      exact ⟨hin,hn,by omega,htext,rfl,rfl,rfl,hdevice,rfl⟩
  · intro h
    obtain ⟨hroom,hadd⟩ := room_eq hmax h.header
    have hheader := h.header
    obtain ⟨hpos,heven,hinside⟩ := h.name_inside
    have hn := h.name_length
    have htext := (utf8_ok (hunits nameBytes (by omega))).mpr h.name
    have hnext : load32 (bytes.drop o) = next := UInt32.toNat_inj.mp h.next_offset.symm
    refine ⟨(),by omega,_,⟨h.header,rfl⟩,(),?_,_,⟨?_,rfl⟩,?_⟩
    · rw [hroom,header_load32 (by decide),← hn]
      omega
    · rw [hadd,header_load32 (by decide),← hn]
      exact hinside
    · rw [hadd,header_load32 (by decide),← hn,htext]
      simp only [header_load32 (by decide : 56+4 ≤ headerSize),
        header_load32 (by decide : 68+4 ≤ headerSize),header_fileId,
        load32_take (by decide : 4 ≤ headerSize),← h.attributes]
      rw [parse_bind_ok]
      refine ⟨(),parseFailIf_ok.mpr (not_not.mpr h.no_device),?_⟩
      rw [hnext,← h.reparse_tag,← h.file_id]
      rfl

theorem copyOut_onlyFails {k n : Nat} (h : k+n ≤ bytes.length) : OnlyFails (copyOut bytes k n) := by
  rw [copyOut,if_pos h]
  exact .ok _

theorem parseRecord_onlyFails (hmin : headerSize ≤ bytes.length)
    (hmax : bytes.length ≤ directoryBufferBytes) :
    OnlyFails (parseRecord bytes bytes.length o) := by
  have hmax' : bytes.length ≤ 65536 := hmax
  have hsub : sizeSub bytes.length headerSize = bytes.length-headerSize :=
    sizeSub_of_le hmin (by omega)
  rw [parseRecord,hsub]
  refine (OnlyFails.failIf _).bind fun _ h1 => ?_
  have hin : o+headerSize ≤ bytes.length := by
    have := parseFailIf_ok.mp h1
    omega
  obtain ⟨hroom,hadd⟩ := room_eq hmax hin
  refine (copyOut_onlyFails hin).bind fun header _ => ?_
  dsimp only
  rw [hroom,hadd]
  refine (OnlyFails.failIf _).bind fun _ h2 => ?_
  have hname := parseFailIf_ok.mp h2
  refine (copyOut_onlyFails (by omega)).bind fun wide _ => ?_
  cases utf8 (loadUnits wide) with
  | error e => exact .fail
  | ok name => exact (OnlyFails.failIf _).bind fun _ _ => .ok _

theorem finishPage_ok {entries : List NativeEntry} {entry : NativeEntry} :
    finishPage (entries++[entry]) = .ok ⟨false,entries++[entry]⟩ := by
  rw [finishPage,parseFailIf_of_not (by simp)]
  rfl

/-- The check of a next offset, without wrapping. -/
theorem nextOffset_iff {next nameBytes : Nat} (hmax : bytes.length ≤ directoryBufferBytes)
    (hinside : o+headerSize+nameBytes ≤ bytes.length) :
    ¬ (next % 8 ≠ 0 ∨ next < sizeAdd headerSize nameBytes ∨ next > sizeSub bytes.length o) ↔
      next % 8 = 0 ∧ headerSize+nameBytes ≤ next ∧ o+next ≤ bytes.length := by
  have hmax' : bytes.length ≤ 65536 := hmax
  have hsub : sizeSub bytes.length o = bytes.length-o := sizeSub_of_le (by omega) (by omega)
  have hadd : sizeAdd headerSize nameBytes = headerSize+nameBytes := sizeAdd_of_lt (by omega)
  rw [hsub,hadd]
  omega

theorem offset_step {next : Nat} (hmax : bytes.length ≤ directoryBufferBytes)
    (h : o+next ≤ bytes.length) : sizeAdd o next = o+next := by
  have hmax' : bytes.length ≤ 65536 := hmax
  exact sizeAdd_of_lt (by omega)

theorem RecordAt.unique {entry entry' : NativeEntry} {next next' nameBytes nameBytes' : Nat}
    (h : RecordAt bytes o entry next nameBytes) (h' : RecordAt bytes o entry' next' nameBytes') :
    entry = entry' ∧ next = next' ∧ nameBytes = nameBytes' := by
  have hname : nameBytes = nameBytes' := h.name_length.trans h'.name_length.symm
  have htext := h.name.symm.trans (hname ▸ h'.name)
  refine ⟨?_,h.next_offset.trans h'.next_offset.symm,hname⟩
  cases entry
  cases entry'
  simp only [NativeEntry.mk.injEq]
  exact ⟨Option.some.inj htext,h.file_id.trans h'.file_id.symm,
    h.attributes.trans h'.attributes.symm,h.reparse_tag.trans h'.reparse_tag.symm⟩

/-- A run of the loop, with rounds enough for the rest of the buffer. -/
theorem parseFrom_ok (hmin : headerSize ≤ bytes.length)
    (hmax : bytes.length ≤ directoryBufferBytes) {rounds : Nat} {entries : List NativeEntry}
    {page : DirectoryPage} (ho : o ≤ bytes.length) (hrounds : bytes.length < o+rounds) :
    parseFrom bytes bytes.length rounds o entries = .ok page ↔
      ∃ rest,RecordChain bytes o rest ∧ page = ⟨false,entries++rest⟩ := by
  induction rounds generalizing o entries with
  | zero => omega
  | succ rounds ih =>
    rw [parseFrom,parse_bind_ok]
    constructor
    · intro hparts
      obtain ⟨⟨entry,next,nameBytes⟩,hr,h⟩ := hparts
      have hrecord := (parseRecord_ok hmin hmax).mp hr
      dsimp only at h
      split_ifs at h with hnext
      · rw [finishPage_ok] at h
        rw [hnext] at hrecord
        exact ⟨[entry],.last hrecord,(Except.ok.inj h).symm⟩
      · rw [parse_bind_ok] at h
        obtain ⟨u,hguard,h⟩ := h
        rw [parseFailIf_ok,nextOffset_iff hmax hrecord.name_inside.2.2] at hguard
        obtain ⟨haligned,hbehind,hinside⟩ := hguard
        have hpos : 0 < next.toNat := by
          have := hrecord.name_inside.1
          omega
        rw [offset_step hmax hinside,ih hinside (by omega)] at h
        obtain ⟨rest,hrest,rfl⟩ := h
        refine ⟨entry::rest,.link hrecord (by omega) haligned hbehind hinside hrest,?_⟩
        rw [List.append_assoc]
        rfl
    · intro hparts
      obtain ⟨rest,hrest,rfl⟩ := hparts
      cases hrest with
      | @last _ nameBytes entry hrecord =>
        have hzero : RecordAt bytes o entry (0 : UInt32).toNat nameBytes := hrecord
        refine ⟨_,(parseRecord_ok hmin hmax).mpr hzero,?_⟩
        dsimp only
        rw [if_pos rfl,finishPage_ok]
      | @link _ next nameBytes entry rest hrecord hnext haligned hbehind hinside hrest =>
        obtain ⟨field,rfl⟩ : ∃ field : UInt32,next = field.toNat := ⟨_,hrecord.next_offset⟩
        refine ⟨_,(parseRecord_ok hmin hmax).mpr hrecord,?_⟩
        dsimp only
        have hfield : field ≠ 0 := by
          intro heq
          subst heq
          exact hnext rfl
        rw [if_neg hfield,parse_bind_ok]
        refine ⟨(),?_,?_⟩
        · rw [parseFailIf_ok,nextOffset_iff hmax hrecord.name_inside.2.2]
          exact ⟨haligned,hbehind,hinside⟩
        · rw [offset_step hmax hinside,ih hinside (by omega)]
          exact ⟨rest,hrest,by rw [List.append_assoc]; rfl⟩

theorem parseFrom_onlyFails (hmin : headerSize ≤ bytes.length)
    (hmax : bytes.length ≤ directoryBufferBytes) {rounds : Nat} {entries : List NativeEntry}
    (ho : o ≤ bytes.length) (hrounds : bytes.length < o+rounds) :
    OnlyFails (parseFrom bytes bytes.length rounds o entries) := by
  induction rounds generalizing o entries with
  | zero => omega
  | succ rounds ih =>
    rw [parseFrom]
    refine (parseRecord_onlyFails hmin hmax).bind fun r hr => ?_
    obtain ⟨entry,next,nameBytes⟩ := r
    have hrecord := (parseRecord_ok hmin hmax).mp hr
    obtain ⟨hpos,-,hinside⟩ := hrecord.name_inside
    dsimp only
    split_ifs with hnext
    · rw [finishPage_ok]
      exact .ok _
    · refine (OnlyFails.failIf _).bind fun _ h => ?_
      obtain ⟨-,hbehind,hinside⟩ := (nextOffset_iff hmax hinside).mp (parseFailIf_ok.mp h)
      rw [offset_step hmax hinside]
      exact ih hinside (by omega)

/-- A page comes of a well-formed chain of records in a buffer of the right size, and it holds
those records; everything else is a failure, never a read outside the buffer and never a loop
that goes on. -/
theorem parse_ok {page : DirectoryPage} :
    parseFileIdExtdDirectoryBuffer (some bytes) bytes.length = .ok page ↔
      headerSize ≤ bytes.length ∧ bytes.length ≤ directoryBufferBytes ∧
        ∃ entries,RecordChain bytes 0 entries ∧ page = ⟨false,entries⟩ := by
  rw [parseFileIdExtdDirectoryBuffer]
  simp only [parse_bind_ok,parseFailIf_ok]
  constructor
  · intro hparts
    obtain ⟨-,-,-,hsize,h⟩ := hparts
    rw [not_or,not_lt,not_lt] at hsize
    obtain ⟨hmax,hmin⟩ := hsize
    rw [parseFrom_ok hmin hmax (Nat.zero_le _) (by omega)] at h
    exact ⟨hmin,hmax,h⟩
  · intro hparts
    obtain ⟨hmin,hmax,h⟩ := hparts
    have hpos : 0 < headerSize := by decide
    refine ⟨(),by omega,(),by omega,?_⟩
    rw [parseFrom_ok hmin hmax (Nat.zero_le _) (by omega)]
    exact h

theorem parse_onlyFails (buffer : Option (List UInt8)) (size : Nat)
    (hsize : ∀ bytes ∈ buffer,size = bytes.length) :
    OnlyFails (parseFileIdExtdDirectoryBuffer buffer size) := by
  cases buffer with
  | none => exact (OnlyFails.failIf _).bind fun _ _ => .fail
  | some bytes =>
    obtain rfl := hsize bytes rfl
    rw [parseFileIdExtdDirectoryBuffer]
    refine (OnlyFails.failIf _).bind fun _ _ => (OnlyFails.failIf _).bind fun _ h => ?_
    have hguard := parseFailIf_ok.mp h
    rw [not_or,not_lt,not_lt] at hguard
    exact parseFrom_onlyFails hguard.2 hguard.1 (Nat.zero_le _) (by omega)

end buffer

end SoftwareFactory.StageA.Windows
