import SoftwareFactory.StageA.DirectoryParser

namespace SoftwareFactory.StageA.Windows

open ByteBuffer

/-- A record of a directory page, with the fields that the parser does not read: the file index,
the times and the sizes, and the size of the extended attributes. -/
structure RawRecord where
  times : List UInt8
  eaSize : List UInt8
  units : WStr
  entry : NativeEntry
  times_length : times.length = 52
  ea_length : eaSize.length = 4
  named : units ≠ []
  name : wideCharToMultiByte units = some entry.name
  no_device : entry.attributes &&& fileAttributeDevice = 0

/-- The header and the name. -/
def RawRecord.size (r : RawRecord) : Nat := headerSize+2*r.units.length

def RawRecord.bytes (r : RawRecord) (next : Nat) : List UInt8 :=
  store32 (UInt32.ofNat next)++(r.times++(store32 r.entry.attributes++
    (store32 (UInt32.ofNat (2*r.units.length))++(r.eaSize++(store32 r.entry.reparseTag++
      (r.entry.fileId.toList++r.units.flatMap store16))))))

/-- Records, each with the bytes that stand between it and the next one, or behind the last
one. -/
def written : List (RawRecord × List UInt8) → List UInt8
  | [] => []
  | [(r,tail)] => r.bytes 0++tail
  | (r,gap)::q::qs => r.bytes (r.size+gap.length)++(gap++written (q::qs))

def Aligned : List (RawRecord × List UInt8) → Prop
  | [] | [_] => True
  | (r,gap)::q::qs => (r.size+gap.length) % 8 = 0 ∧ Aligned (q::qs)

/-- A page laid out within the buffer. -/
structure PageLayout where
  records : List (RawRecord × List UInt8)
  nonempty : records ≠ []
  aligned : Aligned records
  fits : (written records).length ≤ directoryBufferBytes

def PageLayout.entries (l : PageLayout) : List NativeEntry := l.records.map fun q => q.1.entry

variable {bytes : List UInt8} {o : Nat}

@[simp] theorem RawRecord.bytes_length (r : RawRecord) (next : Nat) :
    (r.bytes next).length = r.size := by
  simp [RawRecord.bytes,RawRecord.size,r.times_length,r.ea_length,headerSize]
  omega

/-- The bytes of a Windows file id in the buffer. -/
theorem fileId_toList (h : o+16 ≤ bytes.length) :
    (Vector.ofFn fun i : Fin 16 => bytes.getD (o+i) 0).toList = (bytes.drop o).take 16 := by
  apply List.ext_getElem
  · simp
    omega
  · intro i h1 h2
    have hi : i < 16 := by simpa using h1
    have hin : o+i < bytes.length := by omega
    simp [List.getD_eq_getElem?_getD,hin]

theorem fileId_ofFn {id : Vector UInt8 16} {rest : List UInt8}
    (h : bytes.drop o = id.toList++rest) :
    id = Vector.ofFn fun i : Fin 16 => bytes.getD (o+i) 0 := by
  ext i hi
  have hget : (bytes.drop o)[i]? = some id[i] := by
    rw [h,List.getElem?_append_left (by simpa using hi)]
    simp [hi]
  rw [List.getElem?_drop] at hget
  simp [List.getD_eq_getElem?_getD,hget]

theorem drop_field (o : Nat) {field rest : List UInt8} {k : Nat} (h : bytes.drop o = field++rest)
    (hk : field.length = k) : bytes.drop (o+k) = rest := by
  rw [← List.drop_drop,h,List.drop_left' hk]

/-- The fields of a record that stands in the buffer. -/
theorem RawRecord.recordAt {r : RawRecord} {next : Nat} {rest : List UInt8}
    (hmax : bytes.length ≤ directoryBufferBytes) (hnext : next < 2^32)
    (h : bytes.drop o = r.bytes next++rest) :
    RecordAt bytes o r.entry next (2*r.units.length) ∧
      bytes.drop (o+r.size) = rest ∧ bytes.length = o+r.size+rest.length := by
  have hmax' : bytes.length ≤ 65536 := hmax
  have hrest := drop_field o h (r.bytes_length next)
  have hlen : bytes.length = o+r.size+rest.length := by
    have hl := congrArg List.length h
    rw [List.length_drop,List.length_append,r.bytes_length] at hl
    have hpos : 0 < r.size := by rw [RawRecord.size,headerSize]; omega
    omega
  have hsize : r.size = 88+2*r.units.length := rfl
  have hword : UInt32.size = 2^32 := rfl
  simp only [RawRecord.bytes,List.append_assoc] at h
  have h4 : bytes.drop (o+4) = _ := drop_field o h (store32_length _)
  have h56 : bytes.drop (o+56) = _ := drop_field (o+4) h4 r.times_length
  have h60 : bytes.drop (o+60) = _ := drop_field (o+56) h56 (store32_length _)
  have h64 : bytes.drop (o+64) = _ := drop_field (o+60) h60 (store32_length _)
  have h68 : bytes.drop (o+68) = _ := drop_field (o+64) h64 r.ea_length
  have h72 : bytes.drop (o+72) = _ := drop_field (o+68) h68 (store32_length _)
  have h88 : bytes.drop (o+headerSize) = _ := drop_field (o+72) h72 r.entry.fileId.size_toArray
  refine ⟨⟨?_,?_,?_,?_,?_,?_,?_,r.no_device,?_⟩,hrest,hlen⟩
  · rw [headerSize]
    omega
  · rw [h60,load32_store32,UInt32.toNat_ofNat_of_lt' (by omega)]
  · have hpos := List.length_pos_iff.mpr r.named
    rw [headerSize]
    omega
  · rw [h88,List.take_left' (store_units_length _),loadUnits_store]
    exact r.name
  · exact fileId_ofFn h72
  · rw [h56,load32_store32]
  · rw [h68,load32_store32]
  · rw [h,load32_store32,UInt32.toNat_ofNat_of_lt' hnext]

theorem split_field (bytes : List UInt8) (o k : Nat) :
    bytes.drop o = (bytes.drop o).take k++bytes.drop (o+k) := by
  rw [← List.drop_drop,List.take_append_drop]

/-- The bytes of a word are its little-endian form. -/
theorem stored_field (h : o+4 ≤ bytes.length) :
    (bytes.drop o).take 4 = store32 (load32 (bytes.drop o)) := by
  rw [store32_load32]
  rw [List.length_drop]
  omega

/-- A record that is read from the buffer stands there. -/
theorem RecordAt.raw {entry : NativeEntry} {next nameBytes : Nat}
    (h : RecordAt bytes o entry next nameBytes) : ∃ r : RawRecord,
      r.entry = entry ∧ 2*r.units.length = nameBytes ∧
        bytes.drop o = r.bytes next++bytes.drop (o+headerSize+nameBytes) := by
  have hheader : o+88 ≤ bytes.length := h.header
  obtain ⟨hpos,heven,hinside⟩ := h.name_inside
  have hin : o+88+nameBytes ≤ bytes.length := hinside
  have hname : ((bytes.drop (o+88)).take nameBytes).length = nameBytes := by
    rw [List.length_take,List.length_drop]
    omega
  have hunits : 2*(loadUnits ((bytes.drop (o+88)).take nameBytes)).length = nameBytes := by
    rw [loadUnits_length,hname]
    omega
  have hnamed : loadUnits ((bytes.drop (o+88)).take nameBytes) ≠ [] := by
    intro hnil
    rw [hnil] at hunits
    simp at hunits
    omega
  refine ⟨{ times := (bytes.drop (o+4)).take 52, eaSize := (bytes.drop (o+64)).take 4
            units := loadUnits ((bytes.drop (o+88)).take nameBytes), entry := entry
            times_length := by rw [List.length_take,List.length_drop]; omega
            ea_length := by rw [List.length_take,List.length_drop]; omega
            named := hnamed, name := h.name, no_device := h.no_device },rfl,hunits,?_⟩
  -- The fields, from the last one on.
  have t88 : bytes.drop (o+88) = _ := split_field bytes (o+88) nameBytes
  have t72 : bytes.drop (o+72) = _ := (split_field bytes (o+72) 16).trans (congrArg (_++·) t88)
  have t68 : bytes.drop (o+68) = _ := (split_field bytes (o+68) 4).trans (congrArg (_++·) t72)
  have t64 : bytes.drop (o+64) = _ := (split_field bytes (o+64) 4).trans (congrArg (_++·) t68)
  have t60 : bytes.drop (o+60) = _ := (split_field bytes (o+60) 4).trans (congrArg (_++·) t64)
  have t56 : bytes.drop (o+56) = _ := (split_field bytes (o+56) 4).trans (congrArg (_++·) t60)
  have t4 : bytes.drop (o+4) = _ := (split_field bytes (o+4) 52).trans (congrArg (_++·) t56)
  have t0 := (split_field bytes o 4).trans (congrArg (_++·) t4)
  have hid : entry.fileId.toList = (bytes.drop (o+72)).take 16 := by
    rw [h.file_id]
    exact fileId_toList (by omega)
  have hstored : (loadUnits ((bytes.drop (o+88)).take nameBytes)).flatMap store16 =
      (bytes.drop (o+88)).take nameBytes := store_loadUnits (by rw [hname,heven])
  simp only [RawRecord.bytes,hunits,h.next_offset,h.attributes,h.reparse_tag,hid,hstored,
    UInt32.ofNat_toNat]
  rw [h.name_length,UInt32.ofNat_toNat,← stored_field (by omega),← stored_field (by omega),
    ← stored_field (by omega),← stored_field (by omega)]
  simp only [List.append_assoc]
  rw [h.name_length] at t0
  exact t0

/-- The byte at `i` belongs to a record of the chain from offset `o` on. -/
inductive Linked (bytes : List UInt8) : Nat → Nat → Prop where
  | here {o i : Nat} (h : o ≤ i)
      (hi : i < o+headerSize+(load32 (bytes.drop (o+60))).toNat) : Linked bytes o i
  | later {o i : Nat} (hnext : (load32 (bytes.drop o)).toNat ≠ 0)
      (t : Linked bytes (o+(load32 (bytes.drop o)).toNat) i) : Linked bytes o i

theorem Linked.le {i : Nat} (h : Linked bytes o i) : o ≤ i := by
  induction h with
  | here h _ => exact h
  | later _ _ ih => exact (Nat.le_add_right _ _).trans ih

/-- Of the bytes from a record on, those before the next record are linked if they belong to
it. -/
theorem RecordAt.linked_iff {entry : NativeEntry} {next nameBytes i : Nat}
    (h : RecordAt bytes o entry next nameBytes) (hi : o ≤ i) : Linked bytes o i ↔
      i < o+headerSize+nameBytes ∨ next ≠ 0 ∧ Linked bytes (o+next) i := by
  constructor
  · intro hl
    cases hl with
    | here _ hi =>
      rw [← h.name_length] at hi
      exact .inl hi
    | later hnext t =>
      rw [← h.next_offset] at hnext t
      exact .inr ⟨hnext,t⟩
  · intro hcase
    rcases hcase with hin | ⟨hnext,t⟩
    · rw [h.name_length] at hin
      exact .here hi hin
    · rw [h.next_offset] at hnext t
      exact .later hnext t

/-- A byte behind an offset, where a stretch of bytes stands. -/
theorem byte_of_stretch {stretch rest : List UInt8} {k : Nat}
    (h : bytes.drop k = stretch++rest) {i : Nat} (hk : k ≤ i) (hi : i < k+stretch.length) :
    ∃ b ∈ stretch,bytes.getD i 0 = b := by
  have hget : (bytes.drop k)[i-k]? = stretch[i-k]? := by
    rw [h,List.getElem?_append_left (by omega)]
  rw [List.getElem?_drop,show k+(i-k) = i by omega] at hget
  have hin : i-k < stretch.length := by omega
  rw [List.getElem?_eq_getElem hin] at hget
  exact ⟨stretch[i-k],List.getElem_mem hin,by simp [List.getD_eq_getElem?_getD,hget]⟩

theorem stretch_byte {stretch rest : List UInt8} {k : Nat} {b : UInt8}
    (h : bytes.drop k = stretch++rest) (hb : b ∈ stretch) :
    ∃ i,k ≤ i ∧ i < k+stretch.length ∧ i < bytes.length ∧ bytes.getD i 0 = b := by
  obtain ⟨j,hj,rfl⟩ := List.getElem_of_mem hb
  have hget : (bytes.drop k)[j]? = some stretch[j] := by
    rw [h,List.getElem?_append_left hj,List.getElem?_eq_getElem hj]
  rw [List.getElem?_drop] at hget
  have hin : k+j < bytes.length := by
    by_contra hout
    rw [List.getElem?_eq_none (by omega)] at hget
    cases hget
  exact ⟨k+j,by omega,by omega,hin,by simp [List.getD_eq_getElem?_getD,hget]⟩

/-- The bytes behind a record belong to no record before the next one, or at all. -/
def Slack (bytes : List UInt8) (o : Nat) (b : UInt8) : Prop :=
  ∃ i,o ≤ i ∧ i < bytes.length ∧ ¬ Linked bytes o i ∧ bytes.getD i 0 = b

/-- A well-formed chain is a layout of its records, and what stands between them is slack. -/
theorem RecordChain.layout {entries : List NativeEntry} (h : RecordChain bytes o entries) :
    ∃ rs,rs ≠ [] ∧ Aligned rs ∧ written rs = bytes.drop o ∧
      rs.map (fun q => q.1.entry) = entries ∧ ∀ q ∈ rs,∀ b ∈ q.2,Slack bytes o b := by
  induction h with
  | @last o nameBytes entry h =>
    obtain ⟨r,rfl,hunits,hbytes⟩ := h.raw
    refine ⟨[(r,bytes.drop (o+headerSize+nameBytes))],by simp,trivial,hbytes.symm,rfl,?_⟩
    intro q hq b hb
    obtain rfl := List.mem_singleton.mp hq
    have hrest : bytes.drop (o+headerSize+nameBytes) =
        bytes.drop (o+headerSize+nameBytes)++[] := (List.append_nil _).symm
    obtain ⟨i,hi,-,hin,hbyte⟩ := stretch_byte hrest hb
    refine ⟨i,by omega,hin,?_,hbyte⟩
    rw [h.linked_iff (by omega)]
    omega
  | @link o next nameBytes entry entries h hnext haligned hbehind hinside t ih =>
    obtain ⟨r,rfl,hunits,hbytes⟩ := h.raw
    obtain ⟨rs,hne,hrs,hwritten,hmap,hslack⟩ := ih
    obtain ⟨gap,hgap⟩ : ∃ gap,gap = (bytes.drop (o+headerSize+nameBytes)).take
        (next-(headerSize+nameBytes)) := ⟨_,rfl⟩
    have hlen : gap.length = next-(headerSize+nameBytes) := by
      rw [hgap,List.length_take,List.length_drop]
      omega
    have hsize : r.size+gap.length = next := by
      rw [RawRecord.size]
      omega
    have hrest : bytes.drop (o+headerSize+nameBytes) = gap++bytes.drop (o+next) := by
      have hsplit := split_field bytes (o+headerSize+nameBytes) (next-(headerSize+nameBytes))
      rw [← hgap,show o+headerSize+nameBytes+(next-(headerSize+nameBytes)) = o+next by omega]
        at hsplit
      exact hsplit
    obtain ⟨q,qs,rfl⟩ := List.exists_cons_of_ne_nil hne
    refine ⟨(r,gap)::q::qs,by simp,⟨by rw [hsize]; exact haligned,hrs⟩,?_,?_,?_⟩
    · rw [written,hsize,hwritten,← hrest,← hbytes]
    · rw [List.map_cons,hmap]
    · intro p hp b hb
      rcases List.mem_cons.mp hp with rfl | hp
      · obtain ⟨i,hi,hin,hlength,hbyte⟩ := stretch_byte hrest hb
        refine ⟨i,by omega,hlength,?_,hbyte⟩
        rw [h.linked_iff (by omega)]
        intro hcase
        rcases hcase with hrecord | ⟨-,hlater⟩
        · omega
        · have := hlater.le
          omega
      · obtain ⟨i,hi,hin,hunlinked,hbyte⟩ := hslack p hp b hb
        refine ⟨i,by omega,hin,?_,hbyte⟩
        rw [h.linked_iff (by omega)]
        intro hcase
        rcases hcase with hrecord | ⟨-,hlater⟩
        · omega
        · exact hunlinked hlater

/-- The first record of a layout, and where the rest stands. -/
theorem written_cons {r : RawRecord} {gap : List UInt8} {q : RawRecord × List UInt8}
    {qs : List (RawRecord × List UInt8)} (hmax : bytes.length ≤ directoryBufferBytes)
    (h : bytes.drop o = written ((r,gap)::q::qs)) :
    RecordAt bytes o r.entry (r.size+gap.length) (2*r.units.length) ∧
      bytes.drop (o+r.size) = gap++written (q::qs) ∧
      bytes.drop (o+(r.size+gap.length)) = written (q::qs) ∧
      o+(r.size+gap.length) ≤ bytes.length := by
  have hmax' : bytes.length ≤ 65536 := hmax
  rw [written] at h
  have hlength := congrArg List.length h
  simp only [List.length_drop,List.length_append,r.bytes_length] at hlength
  have hpos : 0 < r.size := by rw [RawRecord.size,headerSize]; omega
  obtain ⟨hrecord,hrest,-⟩ := r.recordAt hmax (by omega) h
  refine ⟨hrecord,hrest,?_,by omega⟩
  rw [← Nat.add_assoc]
  exact drop_field _ hrest rfl

/-- A layout is a well-formed chain of its records. -/
theorem written_chain (hmax : bytes.length ≤ directoryBufferBytes)
    {rs : List (RawRecord × List UInt8)} (hne : rs ≠ []) (hrs : Aligned rs)
    (h : bytes.drop o = written rs) :
    RecordChain bytes o (rs.map fun q => q.1.entry) := by
  fun_induction written rs generalizing o with
  | case1 => exact absurd rfl hne
  | case2 r tail =>
    obtain ⟨hrecord,-⟩ := r.recordAt hmax (by decide) h
    exact .last hrecord
  | case3 r gap q qs ih =>
    obtain ⟨haligned,hrs⟩ := hrs
    obtain ⟨hrecord,-,hnext,hinside⟩ := written_cons hmax h
    have hsize : r.size = headerSize+2*r.units.length := rfl
    have hpos : 0 < headerSize := by decide
    exact .link hrecord (by omega) haligned (by omega) hinside (ih (by simp) hrs hnext)

def ZeroFilled (rs : List (RawRecord × List UInt8)) : Prop := ∀ q ∈ rs,∀ b ∈ q.2,b = 0

/-- In a layout that is filled with zeros every byte that belongs to no record is zero. -/
theorem ZeroFilled.silent (hmax : bytes.length ≤ directoryBufferBytes)
    {rs : List (RawRecord × List UInt8)} (hzero : ZeroFilled rs) (hne : rs ≠ [])
    (h : bytes.drop o = written rs) {i : Nat} (ho : o ≤ i) (hi : i < bytes.length)
    (hunlinked : ¬ Linked bytes o i) : bytes.getD i 0 = 0 := by
  fun_induction written rs generalizing o with
  | case1 => exact absurd rfl hne
  | case2 r tail =>
    obtain ⟨hrecord,hrest,hlength⟩ := r.recordAt hmax (by decide) h
    rw [hrecord.linked_iff ho,not_or] at hunlinked
    have hsize : r.size = headerSize+2*r.units.length := rfl
    have htail : bytes.drop (o+r.size) = tail++[] := by rw [hrest,List.append_nil]
    obtain ⟨b,hb,hbyte⟩ := byte_of_stretch htail (i := i) (by omega) (by omega)
    rw [hbyte]
    exact hzero _ (List.mem_singleton_self _) b hb
  | case3 r gap q qs ih =>
    obtain ⟨hrecord,hrest,hnext,hinside⟩ := written_cons hmax h
    rw [hrecord.linked_iff ho,not_or] at hunlinked
    have hsize : r.size = headerSize+2*r.units.length := rfl
    have hpos : 0 < headerSize := by decide
    by_cases hgap : i < o+(r.size+gap.length)
    · obtain ⟨b,hb,hbyte⟩ := byte_of_stretch hrest (i := i) (by omega) (by omega)
      rw [hbyte]
      exact hzero _ List.mem_cons_self b hb
    · apply ih (fun p hp => hzero p (List.mem_cons_of_mem _ hp)) (by simp) hnext (by omega)
      intro hlater
      exact hunlinked.2 ⟨by omega,hlater⟩

/-- The buffer has the size of a page and its chain of records is well formed. -/
structure WellFormed (bytes : List UInt8) (entries : List NativeEntry) : Prop where
  header : headerSize ≤ bytes.length
  bounded : bytes.length ≤ directoryBufferBytes
  chain : RecordChain bytes 0 entries

theorem parse_wellFormed {page : DirectoryPage} :
    parseFileIdExtdDirectoryBuffer (some bytes) bytes.length = .ok page ↔
      page.atEnd = false ∧ WellFormed bytes page.entries := by
  rw [parse_ok]
  constructor
  · intro h
    obtain ⟨hmin,hmax,entries,hchain,rfl⟩ := h
    exact ⟨rfl,hmin,hmax,hchain⟩
  · intro h
    obtain ⟨hend,hmin,hmax,hchain⟩ := h
    refine ⟨hmin,hmax,page.entries,hchain,?_⟩
    cases page
    simp_all

theorem RecordChain.header {entries : List NativeEntry} (h : RecordChain bytes o entries) :
    o+headerSize ≤ bytes.length := by
  cases h with
  | last h => exact h.header
  | link h => exact h.header

theorem PageLayout.wellFormed (l : PageLayout) : WellFormed (written l.records) l.entries := by
  obtain ⟨rs,hne,hrs,hfits⟩ := l
  have hchain := written_chain (o := 0) hfits hne hrs rfl
  have hheader := hchain.header
  rw [Nat.zero_add] at hheader
  exact ⟨hheader,hfits,hchain⟩

/-- The parser returns the records of a well-formed buffer and nothing else, whatever the bytes;
it stays inside the buffer and comes to an end; and it reads back what was laid out. -/
theorem parser_exact :
    (∀ bytes,(∀ page,parseFileIdExtdDirectoryBuffer (some bytes) bytes.length = .ok page ↔
        page.atEnd = false ∧ WellFormed bytes page.entries) ∧
      OnlyFails (parseFileIdExtdDirectoryBuffer (some bytes) bytes.length)) ∧
    ∀ l : PageLayout,
      parseFileIdExtdDirectoryBuffer (some (written l.records)) (written l.records).length =
        .ok ⟨false,l.entries⟩ := by
  constructor
  · intro bytes
    refine ⟨fun page => parse_wellFormed,?_⟩
    apply parse_onlyFails
    intro b hb
    rw [Option.some.inj hb]
  · intro l
    exact parse_wellFormed.mpr ⟨rfl,l.wellFormed⟩

/-- In a buffer that is accepted no byte outside the records is set. -/
def NoneSkipped (bytes : List UInt8) : Prop :=
  ∀ page,parseFileIdExtdDirectoryBuffer (some bytes) bytes.length = .ok page →
    ∀ i < bytes.length,¬ Linked bytes 0 i → bytes.getD i 0 = 0

/-- The parser does not look at the bytes between and behind the records, so nothing is skipped
exactly if the buffer is refused anyway or is what records come to that are written into zeroed
memory. -/
theorem noneSkipped_iff : NoneSkipped bytes ↔
    (¬ ∃ entries,WellFormed bytes entries) ∨ ∃ rs,ZeroFilled rs ∧ written rs = bytes := by
  constructor
  · intro h
    by_cases hformed : ∃ entries,WellFormed bytes entries
    · right
      obtain ⟨entries,hformed⟩ := hformed
      obtain ⟨rs,-,-,hwritten,-,hslack⟩ := hformed.chain.layout
      have hpage := parse_wellFormed.mpr ⟨(rfl : (DirectoryPage.mk false entries).atEnd = false),
        hformed⟩
      refine ⟨rs,?_,hwritten⟩
      intro q hq b hb
      obtain ⟨i,-,hi,hunlinked,hbyte⟩ := hslack q hq b hb
      rw [← hbyte]
      exact h _ hpage i hi hunlinked
    · exact .inl hformed
  · intro hcase page hpage i hi hunlinked
    rcases hcase with hformed | ⟨rs,hzero,hwritten⟩
    · exact absurd ⟨page.entries,(parse_wellFormed.mp hpage).2⟩ hformed
    · have hmax := (parse_wellFormed.mp hpage).2.bounded
      have hne : rs ≠ [] := by
        intro heq
        subst heq
        rw [← hwritten] at hi
        exact absurd hi (by simp [written])
      have hstart : bytes.drop 0 = written rs := hwritten.symm
      exact hzero.silent hmax hne hstart (Nat.zero_le i) hi hunlinked

/-- A record of a file with a name of one letter. -/
def plainRecord (letter : UInt16) (name : Str) (id : UInt8)
    (h : wideCharToMultiByte [letter] = some name) : RawRecord :=
  { times := List.replicate 52 0, eaSize := List.replicate 4 0, units := [letter]
    entry := ⟨name,Vector.replicate 16 id,0x80,0⟩
    times_length := rfl, ea_length := rfl, named := by simp, name := h
    no_device := by
      show (0x80 : UInt32) &&& fileAttributeDevice = 0
      decide }

/-- A page of one record, with a second record in its tail. -/
def hiddenRecord : List (RawRecord × List UInt8) :=
  [(plainRecord 0x61 "a" 5 (by decide),(plainRecord 0x62 "b" 6 (by decide)).bytes 0)]

theorem hiddenRecord_skipped : ¬ ∀ bytes,NoneSkipped bytes := by
  intro h
  have hpage := (PageLayout.mk hiddenRecord (by decide) trivial (by decide +kernel)).wellFormed
  have hpage := parse_wellFormed.mpr
    ⟨(rfl : (DirectoryPage.mk false _).atEnd = false),hpage⟩
  have hzero := h (written hiddenRecord) _ hpage 146 (by decide +kernel)
  have hset : (written hiddenRecord).getD 146 0 = 0x80 := by decide +kernel
  rw [hset] at hzero
  apply absurd (hzero ?_) (by decide)
  intro hlinked
  cases hlinked with
  | here _ hi => exact absurd hi (by decide +kernel)
  | later hnext _ => exact hnext (by decide +kernel)

end SoftwareFactory.StageA.Windows
