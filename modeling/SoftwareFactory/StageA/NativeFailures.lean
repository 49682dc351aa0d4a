import SoftwareFactory.Lib.Raises
import SoftwareFactory.StageA.NativeReading

namespace SoftwareFactory.StageA.Windows

open Effect Eff

/-- A failure is a sharing conflict exactly if a code it carries says so. -/
def Classified (f : ObservationFailure) : Prop :=
  f.kind = .sharingConflict ↔
    (f.hasWin32Error ∧ f.win32Error = errorSharingViolation) ∨
    (f.hasNtstatus ∧ f.ntstatus = statusSharingViolation)

/-- The exceptions of a call on one object. -/
def Names (object : Str) (profile : String) (t : Thrown) : Prop :=
  ∃ f,t = .observation f ∧ Classified f ∧ f.object = object ∧ f.profile = profile

/-- The buffer that the parser is given for an answer of the system. -/
def pageBuffer (bytes : List UInt8) : List UInt8 :=
  ByteBuffer.copyTo (List.replicate directoryBufferBytes 0) 0 (bytes.take directoryBufferBytes)

/-- The parser comes to offset `o`: the records before it are whole and none is a device. -/
inductive ReachesRecord (bytes : List UInt8) : Nat → Prop where
  | first : ReachesRecord bytes 0
  | link {o next nameBytes : Nat} {entry : NativeEntry} (t : ReachesRecord bytes o)
      (h : RecordAt bytes o entry next nameBytes) (hnext : next ≠ 0) (haligned : next % 8 = 0)
      (hbehind : headerSize+nameBytes ≤ next) (hinside : o+next ≤ bytes.length) :
      ReachesRecord bytes (o+next)

/-- The record at offset `o` has this name and is marked as a device. -/
structure DeviceAt (bytes : List UInt8) (o nameBytes : Nat) (name : Str) : Prop where
  name_length : nameBytes = (ByteBuffer.load32 (bytes.drop (o+60))).toNat
  name_inside : 0 < nameBytes ∧ nameBytes % 2 = 0 ∧ o+headerSize+nameBytes ≤ bytes.length
  name : wideCharToMultiByte
    (ByteBuffer.loadUnits ((bytes.drop (o+headerSize)).take nameBytes)) = some name
  device : ByteBuffer.load32 (bytes.drop (o+56)) &&& fileAttributeDevice ≠ 0

/-- The failure for a device among the records: it has the name and the profile of the child. -/
def OfChild (buffer : List UInt8) (f : ObservationFailure) : Prop :=
  f.kind = .identityDrift ∧ f.profile = childProfile ∧
    ∃ o nameBytes,ReachesRecord buffer o ∧ DeviceAt buffer o nameBytes f.object

/-- The failures of the parser: about the directory, or about a child in it. -/
def OfPage (buffer : List UInt8) (f : ObservationFailure) : Prop :=
  Classified f ∧ ((f.object = "state/".toList ∧ f.profile = directoryProfile) ∨ OfChild buffer f)

/-- The exceptions of an enumeration: about the directory, or about a child of the page that the
system has answered. -/
def NamesPage (answer : Except UInt32 (List UInt8)) (t : Thrown) : Prop :=
  ∃ f,t = .observation f ∧ Classified f ∧
    ((f.object = "state/".toList ∧ f.profile = directoryProfile) ∨
      ∃ bytes,answer = .ok bytes ∧ OfChild (pageBuffer bytes) f)

section calls

variable {ν α : Type} {object : Str} {profile : String}

theorem classified_plain {kind : ErrorKind} (hkind : kind ≠ .sharingConflict)
    {step message : String} :
    Classified
      { kind := kind, object := object, profile := profile, step := step, message := message } := by
  simp [Classified,hkind]

theorem classified_win32 {fallback : ErrorKind} (h : fallback ≠ .sharingConflict) (step : String)
    (error : UInt32) : Classified (win32Failure fallback object profile step error) := by
  unfold Classified win32Failure
  dsimp only
  split_ifs with herror
  · simp [herror]
  · simp [h,herror]

theorem classified_nt {fallback : ErrorKind} (h : fallback ≠ .sharingConflict) (step : String)
    (status : Int) (mapped : UInt32) (hasMapped : Bool) :
    Classified (ntFailure fallback object profile step status mapped hasMapped) := by
  unfold Classified ntFailure
  dsimp only
  split_ifs with hcode
  · simp only [true_iff]
    cases hcode with
    | inl hstatus => exact .inr ⟨trivial,hstatus⟩
    | inr hmapped => exact .inl hmapped
  · rw [not_or] at hcode
    simp only [h,false_iff,not_or]
    exact ⟨hcode.2,fun hstatus => hcode.1 hstatus.2⟩

theorem raises_orThrow {fallback : ErrorKind} (h : fallback ≠ .sharingConflict)
    (op : Eff ν UInt32 α) (step : String) :
    Raises (Names object profile) (orThrow op fallback object profile step) := by
  intro w t w' hrun
  rw [orThrow] at hrun
  cases hop : op w with
  | mk r w1 =>
    rw [hop] at hrun
    cases r with
    | ok a => cases hrun
    | error e =>
      obtain ⟨ht,_⟩ := Prod.mk.inj hrun
      exact ⟨_,(Except.error.inj ht).symm,classified_win32 h step e,rfl,rfl⟩

theorem raises_fail {kind : ErrorKind} (h : kind ≠ .sharingConflict) (step message : String) :
    Raises (Names object profile) (fail kind object profile step message : Eff ν Thrown α) :=
  .raise ⟨_,rfl,classified_plain h,rfl,rfl⟩

theorem raises_failIf {kind : ErrorKind} (h : kind ≠ .sharingConflict) (p : Prop) [Decidable p]
    (step message : String) :
    Raises (Names object profile) (failIf p kind object profile step message : Eff ν Thrown Unit) :=
  .ite (fun _ => raises_fail h step message) (fun _ => .pure ())

variable (win : Win32 ν)

theorem openRoot_raises (path : WStr) (spec : RootOpenSpec) :
    Raises (Names "volume-root" generalIdentityProfile) (win.openRoot path spec) :=
  raises_orThrow (by decide) _ _

theorem openRelative_raises (parent : Handle) (component : WStr) (spec : OpenSpec) :
    Raises (Names object profile) (win.openRelative parent component spec object profile) := by
  rw [Win32.openRelative]
  apply Raises.bind (raises_failIf (by decide) _ _ _)
  intro _
  refine Raises.bind (.step (win.ntCreateFile parent component spec)) ?_
  intro answer
  obtain ⟨status,handle⟩ := answer
  dsimp only
  apply Raises.ite
  · intro _
    exact .raise ⟨_,rfl,classified_nt (by decide) _ _ _ _,rfl,rfl⟩
  · intro hstatus
    apply Raises.ite
    · intro _
      refine .raise ⟨_,rfl,?_,rfl,rfl⟩
      have hother : status ≠ statusSharingViolation := by
        rw [statusSharingViolation]
        omega
      simp [Classified,hother]
    · intro _
      exact .pure _

theorem finalPathOf_raises (handle : Handle) (step : String) :
    Raises (Names object profile) (win.finalPathOf handle object profile step) := by
  rw [Win32.finalPathOf]
  apply Raises.bind (raises_orThrow (by decide) _ _)
  intro needed
  apply Raises.bind (raises_failIf (by decide) _ _ _)
  intro _
  apply Raises.bind (raises_orThrow (by decide) _ _)
  intro answer
  apply Raises.bind (raises_failIf (by decide) _ _ _)
  intro _
  exact .pure _

theorem inspect_raises (handle : Handle) (step : String) :
    Raises (Names object profile) (win.inspect handle object profile step) := by
  rw [Win32.inspect]
  apply Raises.bind (raises_orThrow (by decide) _ _)
  intro id
  apply Raises.bind (raises_orThrow (by decide) _ _)
  intro tag
  apply Raises.bind (raises_failIf (by decide) _ _ _)
  intro _
  apply Raises.bind (raises_orThrow (by decide) _ _)
  intro standard
  apply Raises.bind (finalPathOf_raises win handle step)
  intro path
  cases Win32.volumeGuidPath path with
  | error message => exact raises_fail (by decide) _ _
  | ok volume =>
    apply Raises.bind (raises_orThrow (by decide) _ _)
    intro descriptor
    apply Raises.bind (raises_orThrow (by decide) _ _)
    intro control
    apply Raises.bind (raises_orThrow (by decide) _ _)
    intro sddl
    exact .pure _

theorem readFrom_raises (file : Handle) (chunk : Nat)
    (refuse : Nat → FileRead.Answer Char → Bool) (step message finalStep : String)
    (initial : FileStandardInfo) : Raises (Names object profile)
      (win.readFrom file object profile chunk refuse step message finalStep initial) := by
  rw [Win32.readFrom]
  apply Raises.bind (raises_orThrow (by decide) _ _)
  intro _
  apply Raises.bind (.fill (fun _ => raises_orThrow (by decide) _ _)
    (fun _ _ => raises_failIf (by decide) _ _ _) _ _ _)
  intro result
  apply Raises.bind (raises_orThrow (by decide) _ _)
  intro extra
  apply Raises.bind (raises_failIf (by decide) _ _ _)
  intro _
  apply Raises.bind (raises_orThrow (by decide) _ _)
  intro final
  apply Raises.bind (raises_failIf (by decide) _ _ _)
  intro _
  exact .pure _

theorem readAll_raises (file : Handle) (maxBytes : Nat) :
    Raises (Names object childProfile) (win.readAll file maxBytes object) := by
  rw [Win32.readAll]
  apply Raises.bind (raises_orThrow (by decide) _ _)
  intro initial
  apply Raises.bind (raises_failIf (by decide) _ _ _)
  intro _
  exact readFrom_raises win file _ _ _ _ _ initial

theorem readContent_raises (chunk : Nat) (sizeText oversizedText : String) (handle : Handle)
    (maxBytes : Nat) : Raises (Names object profile)
      (win.readContent object profile chunk sizeText oversizedText handle maxBytes) := by
  rw [Win32.readContent]
  apply Raises.bind (raises_orThrow (by decide) _ _)
  intro info
  apply Raises.bind (raises_failIf (by decide) _ _ _)
  intro _
  apply Raises.bind (raises_failIf (by decide) _ _ _)
  intro _
  exact readFrom_raises win handle _ _ _ _ _ info

end calls

section page

variable {α β : Type}

/-- Every failure that a decoder stops with has the property. -/
def StopsWith (P : ObservationFailure → Prop) (m : Except ParseStop α) : Prop :=
  ∀ f,m = .error (.failure f) → P f

variable {P : ObservationFailure → Prop}

theorem StopsWith.fail {kind : ErrorKind} {object : Str} {profile step message : String}
    (h : P
      { kind := kind, object := object, profile := profile, step := step, message := message }) :
    StopsWith P (parseFail kind object profile step message : Except ParseStop α) := by
  intro f hf
  rwa [← ParseStop.failure.inj (Except.error.inj hf)]

theorem StopsWith.ok (a : α) : StopsWith P (.ok a : Except ParseStop α) := by
  intro f hf
  cases hf

theorem StopsWith.failIf {p : Prop} [Decidable p] {kind : ErrorKind} {object : Str}
    {profile step message : String}
    (h : StopsWith P (parseFail kind object profile step message : Except ParseStop Unit)) :
    StopsWith P (parseFailIf p kind object profile step message) := by
  rw [parseFailIf]
  split_ifs
  · exact h
  · exact .ok ()

theorem StopsWith.bind {m : Except ParseStop α} {f : α → Except ParseStop β} (hm : StopsWith P m)
    (hf : ∀ a,m = .ok a → StopsWith P (f a)) : StopsWith P (m >>= f) := by
  cases hres : m with
  | ok a => exact hf a hres
  | error stop =>
    intro failure hrun
    rw [hres] at hm
    exact hm failure (congrArg Except.error (Except.error.inj hrun))

theorem copyOut_stopsWith (bytes : List UInt8) (k n : Nat) : StopsWith P (copyOut bytes k n) := by
  rw [copyOut]
  split_ifs
  · exact .ok _
  · intro f hf
    cases hf

variable {buffer : List UInt8} {o : Nat}

theorem ofPage_directory {kind : ErrorKind} (h : kind ≠ .sharingConflict) (step message : String) :
    OfPage buffer
      { kind := kind, object := "state/", profile := directoryProfile, step := step
        message := message } :=
  ⟨classified_plain h,.inl ⟨rfl,rfl⟩⟩

theorem ofPage_child {nameBytes : Nat} {name : Str} (ho : ReachesRecord buffer o)
    (h : DeviceAt buffer o nameBytes name) (step message : String) :
    OfPage buffer
      { kind := .identityDrift, object := name, profile := childProfile, step := step
        message := message } :=
  ⟨classified_plain (by decide),.inr ⟨rfl,rfl,o,nameBytes,ho,h⟩⟩

/-- A record fails with its own name only if it is marked as a device. -/
theorem parseRecord_stopsWith (hmin : headerSize ≤ buffer.length)
    (hmax : buffer.length ≤ directoryBufferBytes) (ho : ReachesRecord buffer o) :
    StopsWith (OfPage buffer) (parseRecord buffer buffer.length o) := by
  have hmax' : buffer.length ≤ 65536 := hmax
  have hsub : sizeSub buffer.length headerSize = buffer.length-headerSize :=
    sizeSub_of_le hmin (by omega)
  rw [parseRecord,hsub]
  refine StopsWith.bind (.failIf (.fail (ofPage_directory (by decide) _ _))) fun _ h1 => ?_
  have hin : o+headerSize ≤ buffer.length := by
    have := parseFailIf_ok.mp h1
    omega
  obtain ⟨hroom,hadd⟩ := room_eq hmax hin
  refine StopsWith.bind (copyOut_stopsWith _ _ _) fun header hheader => ?_
  obtain ⟨-,rfl⟩ := copyOut_ok.mp hheader
  dsimp only
  rw [hroom,hadd,header_load32 (by decide)]
  refine StopsWith.bind (.failIf (.fail (ofPage_directory (by decide) _ _))) fun _ h2 => ?_
  have hname := parseFailIf_ok.mp h2
  refine StopsWith.bind (copyOut_stopsWith _ _ _) fun wide hwide => ?_
  obtain ⟨hroomName,rfl⟩ := copyOut_ok.mp hwide
  cases htext : utf8 (ByteBuffer.loadUnits ((buffer.drop (o+headerSize)).take
      (ByteBuffer.load32 (buffer.drop (o+60))).toNat)) with
  | error failure => exact .fail (ofPage_directory (by decide) _ _)
  | ok name =>
    refine StopsWith.bind ?_ fun _ _ => .ok _
    rw [header_load32 (by decide),parseFailIf]
    split_ifs with hdevice
    · have hunits : (ByteBuffer.loadUnits ((buffer.drop (o+headerSize)).take
          (ByteBuffer.load32 (buffer.drop (o+60))).toNat)).length ≤ 2147483647 := by
        rw [ByteBuffer.loadUnits_length,List.length_take]
        omega
      have hrecord : DeviceAt buffer o _ name :=
        ⟨rfl,by omega,(utf8_ok hunits).mp htext,hdevice⟩
      exact .fail (ofPage_child ho hrecord _ _)
    · exact .ok ()

/-- A run of the loop from an offset that it has come to. -/
theorem parseFrom_stopsWith (hmin : headerSize ≤ buffer.length)
    (hmax : buffer.length ≤ directoryBufferBytes) (rounds : Nat) (entries : List NativeEntry)
    (ho : ReachesRecord buffer o) :
    StopsWith (OfPage buffer) (parseFrom buffer buffer.length rounds o entries) := by
  induction rounds generalizing o entries with
  | zero =>
    intro f hf
    cases hf
  | succ rounds ih =>
    rw [parseFrom]
    refine StopsWith.bind (parseRecord_stopsWith hmin hmax ho) fun record hr => ?_
    obtain ⟨result,next,nameBytes⟩ := record
    have hrecord := (parseRecord_ok hmin hmax).mp hr
    dsimp only
    split_ifs with hnext
    · exact StopsWith.bind (.failIf (.fail (ofPage_directory (by decide) _ _))) fun _ _ => .ok _
    · refine StopsWith.bind (.failIf (.fail (ofPage_directory (by decide) _ _))) fun _ hguard => ?_
      rw [parseFailIf_ok,nextOffset_iff hmax hrecord.name_inside.2.2] at hguard
      obtain ⟨haligned,hbehind,hinside⟩ := hguard
      have hpos := hrecord.name_inside.1
      rw [offset_step hmax hinside]
      exact ih _ (.link ho hrecord (by omega) haligned hbehind hinside)

theorem parse_stopsWith : StopsWith (OfPage buffer)
    (parseFileIdExtdDirectoryBuffer (some buffer) buffer.length) := by
  refine StopsWith.bind (.failIf (.fail (ofPage_directory (by decide) _ _))) fun _ _ => ?_
  refine StopsWith.bind (.failIf (.fail (ofPage_directory (by decide) _ _))) fun _ h => ?_
  have hsize := parseFailIf_ok.mp h
  exact parseFrom_stopsWith (by omega) (by omega) _ _ .first

variable {ν : Type} (win : Win32 ν)

/-- A buffer of the system has the length the parser is told, so nothing but a failure of the
parser is thrown. -/
theorem parsed_raises (buffer : List UInt8) :
    Raises (fun t => ∃ f,t = .observation f ∧ OfPage buffer f)
      (Win32.parsed (parseFileIdExtdDirectoryBuffer (some buffer) buffer.length) :
        Eff ν Thrown DirectoryPage) := by
  cases hr : parseFileIdExtdDirectoryBuffer (some buffer) buffer.length with
  | ok page => exact .pure page
  | error stop =>
    have honly : OnlyFails (parseFileIdExtdDirectoryBuffer (some buffer) buffer.length) := by
      apply parse_onlyFails
      intro b hb
      rw [Option.some.inj hb]
    obtain ⟨f,rfl⟩ := honly stop hr
    exact .raise ⟨f,rfl,parse_stopsWith f hr⟩

theorem nextPage_raises {directory : Handle} {restart : Bool} {w w' : ν} {t : Thrown}
    (hrun : win.nextPage directory restart w = (.error t,w')) :
    NamesPage (win.directoryInfo directory restart w).1 t := by
  rw [Win32.nextPage] at hrun
  cases hpage : win.directoryInfo directory restart w with
  | mk r w1 =>
    rw [hpage] at hrun
    cases r with
    | ok bytes =>
      obtain ⟨f,ht,hclassified,hf⟩ := parsed_raises (pageBuffer bytes) w1 t w' hrun
      cases hf with
      | inl hdirectory => exact ⟨f,ht,hclassified,.inl hdirectory⟩
      | inr hchild => exact ⟨f,ht,hclassified,.inr ⟨bytes,rfl,hchild⟩⟩
    | error error =>
      dsimp only at hrun
      split_ifs at hrun with hend hkind
      · cases hrun
      · obtain ⟨ht,_⟩ := Prod.mk.inj hrun
        exact ⟨_,(Except.error.inj ht).symm,classified_win32 (by decide) _ _,.inl ⟨rfl,rfl⟩⟩
      · obtain ⟨ht,_⟩ := Prod.mk.inj hrun
        exact ⟨_,(Except.error.inj ht).symm,classified_win32 (by decide) _ _,.inl ⟨rfl,rfl⟩⟩

theorem raises_beside {κ : Type} {P : Thrown → Prop} {op : Eff ν Thrown α} (h : Raises P op) :
    Raises P (Win32.beside op : Eff (ν × κ) Thrown α) := by
  intro s t s' hrun
  rw [Win32.beside] at hrun
  obtain ⟨ht,_⟩ := Prod.mk.inj hrun
  exact h s.1 t (op s.1).2 (Prod.ext ht rfl)

/-- Every exception of the three system backends is an observation about the object it was asked
for, or about a device among the children of the directory, and a sharing conflict exactly if a
code of Windows that it carries says so. -/
theorem system_failures (κ : Type) (object : Str) (profile step : String) (handle : Handle)
    (maxBytes : Nat) :
    ((∀ path spec,Raises (Names "volume-root".toList generalIdentityProfile)
        (win.systemNativeCalls.openRoot path spec)) ∧
      (∀ component spec,Raises (Names object profile)
        (win.systemNativeCalls.openRelative handle component spec object profile)) ∧
      Raises (Names object profile) (win.systemNativeCalls.inspect handle object profile step) ∧
      (∀ restart w t w',win.systemNativeCalls.nextPage handle restart w = (.error t,w') →
        NamesPage (win.directoryInfo handle restart w).1 t) ∧
      Raises (Names object childProfile) (win.systemNativeCalls.readAll handle maxBytes object)) ∧
    ((∀ path spec,Raises (Names "volume-root".toList generalIdentityProfile)
        ((win.systemP10Calls : P10Calls ν κ).openRoot path spec)) ∧
      (∀ component spec,Raises (Names object p10ReadProfile)
        ((win.systemP10Calls : P10Calls ν κ).openRelative handle component spec object)) ∧
      Raises (Names object p10ReadProfile)
        ((win.systemP10Calls : P10Calls ν κ).inspect handle object step) ∧
      Raises (Names "P10".toList p10ReadProfile)
        ((win.systemP10Calls : P10Calls ν κ).readContent handle maxBytes)) ∧
    (∀ path spec,Raises (Names "volume-root".toList generalIdentityProfile)
        ((win.systemP11Calls : P11CustodyCalls ν κ).openRoot path spec)) ∧
      (∀ component spec,Raises (Names object p11CustodyProfile)
        ((win.systemP11Calls : P11CustodyCalls ν κ).openRelative handle component spec object)) ∧
      Raises (Names object p11CustodyProfile)
        ((win.systemP11Calls : P11CustodyCalls ν κ).inspect handle object step) ∧
      Raises (Names "P11".toList p11CustodyProfile)
        ((win.systemP11Calls : P11CustodyCalls ν κ).readContent handle maxBytes) := by
  have hroot : ∀ path spec,Raises (Names "volume-root".toList generalIdentityProfile)
      (win.openRoot path spec) := openRoot_raises win
  refine ⟨⟨hroot,?_,?_,?_,?_⟩,⟨?_,?_,?_,?_⟩,?_,?_,?_,?_⟩
  · exact fun component spec => openRelative_raises win handle component spec
  · exact inspect_raises win handle step
  · exact fun restart w t w' => nextPage_raises win
  · exact readAll_raises win handle maxBytes
  · exact fun path spec => raises_beside (hroot path spec)
  · exact fun component spec => raises_beside (openRelative_raises win handle component spec)
  · exact raises_beside (inspect_raises win handle step)
  · exact raises_beside (readContent_raises win _ _ _ handle maxBytes)
  · exact fun path spec => raises_beside (hroot path spec)
  · exact fun component spec => raises_beside (openRelative_raises win handle component spec)
  · exact raises_beside (inspect_raises win handle step)
  · exact raises_beside (readContent_raises win _ _ _ handle maxBytes)

end page

section path

variable {path volume : WStr}

theorem volumeGuidPath_shape {guid rest : WStr} (hguid : 0x7d ∉ guid) :
    Win32.volumeGuidPath (wide "\\\\?\\Volume\x7b"++guid++[0x7d,0x5c]++rest) =
      .ok (wide "\\\\?\\Volume\x7b"++guid++[0x7d,0x5c]) := by
  generalize hlead : wide "\\\\?\\Volume\x7b" = lead
  have hassoc : lead++guid++[0x7d,0x5c]++rest = lead++(guid++0x7d::0x5c::rest) := by simp
  have hclose : (guid++0x7d::0x5c::rest).idxOf 0x7d = guid.length := by
    rw [List.idxOf_append_of_notMem hguid,List.idxOf_cons_self,Nat.add_zero]
  have hnext : (lead++(guid++0x7d::0x5c::rest))[lead.length+guid.length+1]? = some 0x5c := by
    rw [List.getElem?_append_right (by omega),List.getElem?_append_right (by omega)]
    have hone : lead.length+guid.length+1-lead.length-guid.length = 1 := by omega
    rw [hone]
    rfl
  have hroom : ¬lead.length+guid.length+1 ≥ (lead++(guid++0x7d::0x5c::rest)).length := by
    simp only [List.length_append,List.length_cons]
    omega
  have htake : (lead++guid++[0x7d,0x5c]++rest).take (lead.length+guid.length+2) =
      lead++guid++[0x7d,0x5c] := by
    apply List.take_left'
    simp only [List.length_append,List.length_cons,List.length_nil]
  rw [Win32.volumeGuidPath,hlead]
  dsimp only
  rw [if_neg (not_not.mpr ⟨guid++0x7d::0x5c::rest,hassoc.symm⟩)]
  rw [hassoc,List.drop_left,hclose,if_neg (not_or.mpr ⟨hroom,not_not.mpr hnext⟩),← hassoc,htake]

theorem split_at_first {tail : WStr} {a b : UInt16} (h : tail[tail.idxOf a+1]? = some b) :
    ∃ before behind,a ∉ before ∧ tail = before++a::b::behind := by
  obtain ⟨hlt,hb⟩ := List.getElem?_eq_some_iff.mp h
  have hin : tail.idxOf a < tail.length := by omega
  refine ⟨tail.take (tail.idxOf a),tail.drop (tail.idxOf a+2),?_,?_⟩
  · intro hmem
    have hless := (List.mem_take_iff_idxOf_lt (List.idxOf_lt_length_iff.mp hin)).mp hmem
    omega
  · have hparts : tail.drop (tail.idxOf a) = a::b::tail.drop (tail.idxOf a+2) := by
      rw [List.drop_eq_getElem_cons hin,List.getElem_idxOf hin,List.drop_eq_getElem_cons hlt,hb]
    rw [← hparts,List.take_append_drop]

theorem volumeGuidPath_ok : Win32.volumeGuidPath path = .ok volume ↔
    ∃ guid rest,0x7d ∉ guid ∧ volume = wide "\\\\?\\Volume\x7b"++guid++[0x7d,0x5c] ∧
      path = volume++rest := by
  constructor
  · intro h
    have hrun := h
    rw [Win32.volumeGuidPath] at h
    dsimp only at h
    split_ifs at h with hlead hclose
    obtain ⟨tail,rfl⟩ := hlead
    rw [List.drop_left,not_or,not_not,List.getElem?_append_right (by omega)] at hclose
    have hback : (wide "\\\\?\\Volume\x7b").length+tail.idxOf 0x7d+1-
        (wide "\\\\?\\Volume\x7b").length = tail.idxOf 0x7d+1 := by omega
    rw [hback] at hclose
    obtain ⟨guid,rest,hguid,htail⟩ := split_at_first hclose.2
    have hpath : wide "\\\\?\\Volume\x7b"++tail =
        wide "\\\\?\\Volume\x7b"++guid++[0x7d,0x5c]++rest := by
      rw [htail]
      simp
    rw [hpath,volumeGuidPath_shape hguid] at hrun
    obtain rfl := Except.ok.inj hrun
    exact ⟨guid,rest,hguid,rfl,hpath⟩
  · intro h
    obtain ⟨guid,rest,hguid,rfl,rfl⟩ := h
    exact volumeGuidPath_shape hguid

/-- What comes behind the volume's part does not change it. -/
theorem volumeGuidPath_append (h : Win32.volumeGuidPath path = .ok volume) (more : WStr) :
    Win32.volumeGuidPath (path++more) = .ok volume := by
  obtain ⟨guid,rest,hguid,hvolume,rfl⟩ := volumeGuidPath_ok.mp h
  exact volumeGuidPath_ok.mpr ⟨guid,rest++more,hguid,hvolume,List.append_assoc ..⟩

variable {ν : Type} {win : Win32 ν} {handle : Handle} {object : Str} {profile step : String}
  {w w' : ν}

theorem finalPathOf_length (h : win.finalPathOf handle object profile step w = (.ok path,w')) :
    path.length ≤ 32767 := by
  rw [Win32.finalPathOf] at h
  obtain ⟨needed,w1,_,h⟩ := bind_ok.mp h
  obtain ⟨_,w2,hneeded,h⟩ := bind_ok.mp h
  obtain ⟨⟨written,text⟩,w3,_,h⟩ := bind_ok.mp h
  obtain ⟨_,w4,hwritten,h⟩ := bind_ok.mp h
  have hbound := (failIf_ok.mp hneeded).1
  have hless := (failIf_ok.mp hwritten).1
  obtain ⟨hpath,_⟩ := Prod.mk.inj h
  rw [← Except.ok.inj hpath,List.length_take]
  omega

theorem inspect_path {m : Metadata}
    (h : win.inspect handle object profile step w = (.ok m,w')) :
    m.finalPath.length ≤ 32767 ∧ Win32.volumeGuidPath m.finalPath = .ok m.volumeGuidPath := by
  rw [Win32.inspect] at h
  obtain ⟨id,w1,_,h⟩ := bind_ok.mp h
  obtain ⟨tag,w2,_,h⟩ := bind_ok.mp h
  obtain ⟨_,w3,_,h⟩ := bind_ok.mp h
  obtain ⟨standard,w4,_,h⟩ := bind_ok.mp h
  obtain ⟨path,w5,hpath,h⟩ := bind_ok.mp h
  cases hvolume : Win32.volumeGuidPath path with
  | error message =>
    rw [hvolume] at h
    cases h
  | ok volume =>
    rw [hvolume] at h
    obtain ⟨descriptor,w6,_,h⟩ := bind_ok.mp h
    obtain ⟨control,w7,_,h⟩ := bind_ok.mp h
    obtain ⟨sddl,w8,_,h⟩ := bind_ok.mp h
    obtain ⟨hm,_⟩ := Prod.mk.inj h
    obtain rfl := Except.ok.inj hm
    exact ⟨finalPathOf_length hpath,hvolume⟩

/-- The volume of an inspected object is its path up to the separator behind the first closing
brace, so all that is inspected under it at its child's path is on the same volume. -/
theorem inspect_volume {parent child : Metadata} {component : WStr} {childHandle : Handle}
    {childObject : Str} {profile' step' : String} {u u' : ν}
    (hparent : win.inspect handle object profile step w = (.ok parent,w'))
    (hchild : win.inspect childHandle childObject profile' step' u = (.ok child,u'))
    (hbound : child.finalPath = childFinalPath parent.finalPath component) :
    (∃ guid rest,0x7d ∉ guid ∧
      parent.volumeGuidPath = wide "\\\\?\\Volume\x7b"++guid++[0x7d,0x5c] ∧
      parent.finalPath = parent.volumeGuidPath++rest) ∧
    child.volumeGuidPath = parent.volumeGuidPath ∧ child.finalPath.length ≤ 32767 := by
  obtain ⟨_,hvolume⟩ := inspect_path hparent
  obtain ⟨hlen,hchildVolume⟩ := inspect_path hchild
  rw [childFinalPath,List.append_assoc] at hbound
  rw [hbound,volumeGuidPath_append hvolume] at hchildVolume
  exact ⟨volumeGuidPath_ok.mp hvolume,(Except.ok.inj hchildVolume).symm,hlen⟩

/-- Handle 1 is the root of a volume, every other one a file in it. -/
def smallVolume : Win32 Unit where
  createFile _ _ := Eff.raise 5
  ntCreateFile _ _ _ w := ((-1073741790,0),w)
  rtlNtStatusToDosError _ := 5
  fileIdInfo _ := pure ⟨7,Vector.replicate 16 1⟩
  fileAttributeTagInfo _ := pure ⟨0x20,0⟩
  fileStandardInfo handle := pure ⟨0,handle == 1⟩
  finalPathSize handle := pure (if handle = 1 then 15 else 16)
  finalPath handle _ :=
    let root := wide "\\\\?\\Volume\x7b"++[0x31]++[0x7d,0x5c]
    pure (if handle = 1 then (14,root) else (15,root++[0x61]))
  securityDescriptor _ := pure 1
  securityDescriptorControl _ := pure 0
  securityDescriptorString _ := pure [0x44]
  directoryInfo _ _ := Eff.raise 18
  setFilePointer _ := pure ()
  readFile _ _ := pure ⟨0,[]⟩
  closeHandle _ w := w

theorem returns_of_toOption {α : Type} {m : Eff Unit Thrown α} {a : α}
    (h : (m ()).1.toOption = some a) : m () = (.ok a,()) := by
  refine Prod.ext ?_ rfl
  cases hr : (m ()).1 with
  | error t =>
    rw [hr] at h
    cases h
  | ok b =>
    rw [hr] at h
    rw [Option.some.inj h]

theorem inspect_volume_small :
    let volume := wide "\\\\?\\Volume\x7b"++[0x31]++[0x7d,0x5c]
    let parent : Metadata :=
      { volumeGuidPath := volume, finalPath := volume, sddl := [0x44], volumeSerial := 7
        fileId := Vector.replicate 16 1, attributes := 0x20, reparseTag := 0, directory := true
        daclProtected := false }
    let child : Metadata :=
      { parent with finalPath := childFinalPath volume [0x61], directory := false }
    (∃ guid rest,0x7d ∉ guid ∧
      parent.volumeGuidPath = wide "\\\\?\\Volume\x7b"++guid++[0x7d,0x5c] ∧
      parent.finalPath = parent.volumeGuidPath++rest) ∧
    child.volumeGuidPath = parent.volumeGuidPath ∧ child.finalPath.length ≤ 32767 := by
  intro volume parent child
  have hparent : smallVolume.inspect 1 [] directoryProfile "s" () = (.ok parent,()) :=
    returns_of_toOption (by decide +kernel)
  have hchild : smallVolume.inspect 2 [] childProfile "s" () = (.ok child,()) :=
    returns_of_toOption (by decide +kernel)
  exact inspect_volume hparent hchild rfl

end path

end SoftwareFactory.StageA.Windows
