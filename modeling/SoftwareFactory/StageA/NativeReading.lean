import SoftwareFactory.StageA.WindowsNative

namespace SoftwareFactory.StageA.Windows

open Effect FileRead

section throwing

variable {ν α : Type} {op : Eff ν UInt32 α} {fallback : ErrorKind} {object : Str}
  {profile step : String} {w w' : ν}

theorem orThrow_ok {a : α} :
    orThrow op fallback object profile step w = (.ok a,w') ↔ op w = (.ok a,w') := by
  rw [orThrow]
  cases h : op w with
  | mk r w1 =>
    cases r with
    | ok b => simp
    | error e => simp

theorem failIf_pass {p : Prop} [Decidable p] (hp : ¬p) {kind : ErrorKind} {message : String} :
    failIf p kind object profile step message w = (.ok (),w) := failIf_ok.mpr ⟨hp,rfl⟩

end throwing

variable {ν : Type} (win : Win32 ν) (file : Handle) (v : Shared ν Char)

/-- What the calls on a file promise while others may write to it. -/
structure FileCalls : Prop where
  reads : Reads v (win.readFile file)
  size : ∀ {w info w'},win.fileStandardInfo file w = (.ok info,w') →
    ∃ u,v.During w w' u ∧ info.endOfFile = (v.content u).length
  seek : ∀ {w u w'},win.setFilePointer file w = (.ok u,w') → v.position w' = 0 ∧ v.later w w'

/-- The bytes a reader returns: the file had their number at the first moment and at the last,
it did not go beyond them in between, and each byte stood at its offset while they were read. -/
structure Window (w w' : ν) (bytes : Str) : Prop where
  moments : ∃ first full last,v.later w first ∧ v.later first full ∧ v.later full last ∧
    v.later last w' ∧ (v.content first).length = bytes.length ∧
    (v.content full).length ≤ bytes.length ∧ (v.content last).length = bytes.length
  seen : ∀ i < bytes.length,∃ u,v.During w w' u ∧ (v.content u)[i]? = bytes[i]?

variable {win file v} {w w' : ν}

theorem Window.quiet {bytes : Str} (h : Window v w w' bytes) (hquiet : v.Quiet w) :
    bytes = v.content w := by
  obtain ⟨first,_,_,hfirst,_,_,_,hlen,_⟩ := h.moments
  rw [hquiet first hfirst] at hlen
  apply List.ext_getElem?
  intro i
  by_cases hi : i < bytes.length
  · obtain ⟨u,hu,hseen⟩ := h.seen i hi
    rw [← hseen,hquiet u hu.1]
  · rw [List.getElem?_eq_none (by omega),List.getElem?_eq_none (by omega)]

theorem reads_orThrow {read : Nat → Eff ν UInt32 (Answer Char)} (h : Reads v read)
    (fallback : ErrorKind) (object : Str) (profile step : String) :
    Reads v (fun n => orThrow (read n) fallback object profile step) where
  refl := h.refl
  trans := h.trans
  count := fun hr => h.count (orThrow_ok.mp hr)
  moves := fun hr => h.moves (orThrow_ok.mp hr)
  seen := fun hr => h.seen (orThrow_ok.mp hr)
  atEnd := fun hr => h.atEnd (orThrow_ok.mp hr)

theorem readFrom_window (h : FileCalls win file v) {object : Str} {profile : String} {chunk : Nat}
    {refuse : Nat → Answer Char → Bool} {step message finalStep : String}
    {initial : FileStandardInfo} {bytes : Str}
    (hrefuse : ∀ n a,refuse n a = false → a.got ≠ 0) {first w0 : ν} (hfirst : v.During w w0 first)
    (hsize : initial.endOfFile = (v.content first).length)
    (hrun : win.readFrom file object profile chunk refuse step message finalStep initial w0 =
      (.ok bytes,w')) : initial.endOfFile.toNat = bytes.length ∧ Window v w w' bytes := by
  rw [Win32.readFrom] at hrun
  obtain ⟨_,w1,hseek,hrun⟩ := Eff.bind_ok.mp hrun
  obtain ⟨result,w2,hfill,hrun⟩ := Eff.bind_ok.mp hrun
  obtain ⟨extra,w3,hextra,hrun⟩ := Eff.bind_ok.mp hrun
  obtain ⟨_,w4,hgrown,hrun⟩ := Eff.bind_ok.mp hrun
  obtain ⟨final,w5,hfinal,hrun⟩ := Eff.bind_ok.mp hrun
  obtain ⟨_,w6,hdrift,hrun⟩ := Eff.bind_ok.mp hrun
  obtain ⟨hresult,hw6⟩ := Prod.mk.inj hrun
  rw [orThrow_ok] at hseek hextra hfinal
  rw [failIf_ok] at hgrown hdrift
  obtain ⟨hgrown,rfl⟩ := hgrown
  obtain ⟨hdrift,rfl⟩ := hdrift
  subst hw6
  obtain rfl := Except.ok.inj hresult
  obtain ⟨hpos,hseeked⟩ := h.seek hseek
  have hprogress : Progress fun count a =>
      (failIf (refuse count a = true) .incomplete object profile step message :
        Eff ν Thrown Unit) := by
    intro n a u u' hcheck
    obtain ⟨hnot,hu⟩ := failIf_ok.mp hcheck
    exact ⟨hu.symm,hrefuse n a (by simpa using hnot)⟩
  have hexpected : initial.endOfFile.toNat = (v.content first).length := by omega
  have hfilled := fill_filled (reads_orThrow h.reads .incomplete object profile step) hprogress
    hfill hpos
    (Nat.zero_le _) (List.length_replicate ..) (by omega)
  obtain ⟨full,hfull,hend⟩ := h.reads.atEnd hextra Nat.one_pos (by simpa using hgrown)
  obtain ⟨last,hlast,hfinalSize⟩ := h.size hfinal
  have hlen : result.length = (v.content first).length := hfilled.length.trans hexpected
  have hafter : v.later w w1 := h.reads.trans (h.reads.trans hfirst.1 hfirst.2) hseeked
  have hdone : v.later w3 last := hlast.1
  refine ⟨hfilled.length.symm,⟨first,full,last,hfirst.1,?_,?_,hlast.2,hlen.symm,?_,?_⟩,?_⟩
  · exact h.reads.trans (h.reads.trans hfirst.2 hseeked) (h.reads.trans hfilled.later hfull.1)
  · exact h.reads.trans hfull.2 hlast.1
  · rw [hfilled.position] at hend
    omega
  · have hsame : final.endOfFile = initial.endOfFile := by
      by_contra hne
      exact hdrift (.inl hne)
    omega
  · intro i hi
    obtain ⟨u,hu,hseen⟩ := hfilled.seen i (Nat.zero_le i) (by omega)
    have hrest : v.later w2 _ := h.reads.trans (h.reads.trans hfull.1 hfull.2)
      (h.reads.trans hlast.1 hlast.2)
    exact ⟨u,hu.widen h.reads hafter hrest,hseen⟩

theorem readAll_window (h : FileCalls win file v) {maxBytes : Nat} {object bytes : Str}
    (hrun : win.readAll file maxBytes object w = (.ok bytes,w')) :
    bytes.length ≤ maxBytes ∧ Window v w w' bytes := by
  rw [Win32.readAll] at hrun
  obtain ⟨initial,w1,hinitial,hrun⟩ := Eff.bind_ok.mp hrun
  obtain ⟨_,w2,hchecked,hrun⟩ := Eff.bind_ok.mp hrun
  rw [orThrow_ok] at hinitial
  obtain ⟨hsize,rfl⟩ := failIf_ok.mp hchecked
  obtain ⟨first,hfirst,hfirstSize⟩ := h.size hinitial
  have hwindow := readFrom_window h (fun _ _ hr => by simpa using hr) hfirst hfirstSize hrun
  rw [not_or,not_or] at hsize
  exact ⟨by omega,hwindow.2⟩

theorem readContent_window (h : FileCalls win file v) {object bytes : Str} {profile : String}
    {chunk maxBytes : Nat} {sizeText oversizedText : String}
    (hrun : win.readContent object profile chunk sizeText oversizedText file maxBytes w =
      (.ok bytes,w')) : bytes.length ≤ maxBytes ∧ Window v w w' bytes := by
  rw [Win32.readContent] at hrun
  obtain ⟨info,w1,hinfo,hrun⟩ := Eff.bind_ok.mp hrun
  obtain ⟨_,w2,hchecked,hrun⟩ := Eff.bind_ok.mp hrun
  obtain ⟨_,w3,hbounded,hrun⟩ := Eff.bind_ok.mp hrun
  rw [orThrow_ok] at hinfo
  obtain ⟨_,rfl⟩ := failIf_ok.mp hchecked
  obtain ⟨hsize,rfl⟩ := failIf_ok.mp hbounded
  obtain ⟨first,hfirst,hfirstSize⟩ := h.size hinfo
  have hrefuse : ∀ (n : Nat) (a : Answer Char),(a.got == 0 || decide (a.got > n)) = false →
      a.got ≠ 0 := by
    intro n a hr
    rw [Bool.or_eq_false_iff] at hr
    simpa using hr.1
  have hwindow := readFrom_window h hrefuse hfirst hfirstSize hrun
  exact ⟨by omega,hwindow.2⟩

/-- What the three readers of the system return of a file that others write to. -/
theorem reads_window (h : FileCalls win file v) {maxBytes : Nat} {object bytes : Str}
    (hrun : win.readAll file maxBytes object w = (.ok bytes,w') ∨
      win.readContentP10 file maxBytes w = (.ok bytes,w') ∨
      win.readContentP11 file maxBytes w = (.ok bytes,w')) :
    bytes.length ≤ maxBytes ∧ Window v w w' bytes ∧ (v.Quiet w → bytes = v.content w) := by
  have hwindow : bytes.length ≤ maxBytes ∧ Window v w w' bytes := by
    rcases hrun with hrun | hrun | hrun
    · exact readAll_window h hrun
    · exact readContent_window h hrun
    · exact readContent_window h hrun
  exact ⟨hwindow.1,hwindow.2,hwindow.2.quiet⟩

/-- The calls on a plain file that do not fail. -/
structure Answers (win : Win32 ν) (file : Handle) : Prop where
  size : ∀ w,∃ info w',win.fileStandardInfo file w = (.ok info,w') ∧ info.directory = false
  seek : ∀ w,∃ u w',win.setFilePointer file w = (.ok u,w')
  read : ∀ n w,∃ a w',win.readFile file n w = (.ok a,w')

theorem size_quiet (h : FileCalls win file v) (ha : Answers win file) (hquiet : v.Quiet w) {u : ν}
    (hu : v.later w u) (fallback : ErrorKind) (object : Str) (profile step : String) :
    ∃ info u',orThrow (win.fileStandardInfo file) fallback object profile step u = (.ok info,u') ∧
      info.directory = false ∧ info.endOfFile = (v.content w).length ∧ v.later w u' := by
  obtain ⟨info,u',hinfo,hdirectory⟩ := ha.size u
  obtain ⟨x,hx,hsize⟩ := h.size hinfo
  rw [hquiet x (h.reads.trans hu hx.1)] at hsize
  exact ⟨info,u',orThrow_ok.mpr hinfo,hdirectory,hsize,
    h.reads.trans hu (h.reads.trans hx.1 hx.2)⟩

theorem readFrom_quiet (h : FileCalls win file v) (ha : Answers win file) (hquiet : v.Quiet w)
    {object : Str} {profile : String} {chunk : Nat} (hchunk : 0 < chunk)
    {refuse : Nat → Answer Char → Bool} {step message finalStep : String}
    {initial : FileStandardInfo} (hrefuse : ∀ n (a : Answer Char),a.got ≠ 0 → a.got ≤ n →
      refuse n a = false) {u : ν} (hu : v.later w u)
    (hsize : initial.endOfFile = (v.content w).length) :
    (win.readFrom file object profile chunk refuse step message finalStep initial u).1 =
      .ok (v.content w) := by
  obtain ⟨_,w1,hseek⟩ := ha.seek u
  obtain ⟨hpos,hseeked⟩ := h.seek hseek
  have hexpected : initial.endOfFile.toNat = (v.content w).length := by omega
  have hpass : ∀ n (a : Answer Char) x,a.got ≠ 0 → a.got ≤ n →
      (failIf (refuse n a = true) .incomplete object profile step message : Eff ν Thrown Unit) x =
        (.ok (),x) := by
    intro n a x hgot hle
    rw [failIf_ok,hrefuse n a hgot hle]
    exact ⟨Bool.false_ne_true,rfl⟩
  have hread : ∀ n x,∃ a x',orThrow (win.readFile file n) .incomplete object profile step x =
      (.ok a,x') := by
    intro n x
    obtain ⟨a,x',hx⟩ := ha.read n x
    exact ⟨a,x',orThrow_ok.mpr hx⟩
  have hall : (v.content w).length ≤ 0+(v.content w).length := by omega
  have hkept : (List.replicate (v.content w).length (Char.ofNat 0)).take 0 =
      (v.content w).take 0 := rfl
  obtain ⟨w2,hfill,hlater,hend⟩ :=
    fill_quiet (reads_orThrow h.reads .incomplete object profile step)
      hread hpass hchunk hquiet (h.reads.trans hu hseeked) hpos (Nat.zero_le _)
    (List.length_replicate ..) hkept hall
  obtain ⟨extra,w3,hextra⟩ := ha.read 1 w2
  have hnone : extra.got = 0 := by
    by_contra hgot
    obtain ⟨x,hx,hseen⟩ := h.reads.seen hextra 0 (by omega)
    have hcount := h.reads.count hextra
    rw [hquiet x (h.reads.trans hlater hx.1),hend,Nat.add_zero,
      List.getElem?_eq_none (Nat.le_refl _)] at hseen
    have hdata := List.getElem?_eq_none_iff.mp hseen.symm
    omega
  obtain ⟨final,w4,hfinal,hdirectory,hfinalSize,_⟩ := size_quiet h ha hquiet
    (h.reads.trans hlater (h.reads.moves hextra).2) .incomplete object profile finalStep
  have hsame : ¬(final.endOfFile ≠ initial.endOfFile ∨ final.directory = true) := by
    rw [hfinalSize,hsize,hdirectory]
    simp
  rw [Win32.readFrom,Eff.bind_of_ok (orThrow_ok.mpr hseek)]
  rw [hexpected,Eff.bind_of_ok hfill,Eff.bind_of_ok (orThrow_ok.mpr hextra),
    Eff.bind_of_ok (failIf_pass (not_not.mpr hnone)),Eff.bind_of_ok hfinal,
    Eff.bind_of_ok (failIf_pass hsame)]
  rfl

/-- The failure of a reader that finds a file too long. -/
def tooLong (kind : ErrorKind) (object : Str) (profile message : String) : Thrown :=
  .observation
    { kind := kind, object := object, profile := profile, step := "read-size", message := message }

theorem readAll_quiet (h : FileCalls win file v) (ha : Answers win file) (hquiet : v.Quiet w)
    (maxBytes : Nat) (object : Str) : (win.readAll file maxBytes object w).1 =
      if (v.content w).length ≤ maxBytes then .ok (v.content w)
      else .error (tooLong .incomplete object childProfile
        "unexpected type or oversized child") := by
  obtain ⟨initial,w1,hinitial,hdirectory,hsize,hlater⟩ := size_quiet h ha hquiet (h.reads.refl w)
    .incomplete object childProfile "read-size"
  rw [Win32.readAll,Eff.bind_of_ok hinitial]
  split_ifs with hfits
  · have hgood : ¬(initial.directory = true ∨ initial.endOfFile < 0 ∨
        initial.endOfFile.toNat > maxBytes) := by
      rw [hdirectory,hsize]
      simp [hfits]
    rw [Eff.bind_of_ok (failIf_pass hgood)]
    exact readFrom_quiet h ha hquiet (by decide) (fun _ _ hgot _ => by simpa using hgot) hlater
      hsize
  · have hbad : initial.directory = true ∨ initial.endOfFile < 0 ∨
        initial.endOfFile.toNat > maxBytes := by omega
    rw [failIf,if_pos hbad]
    rfl

theorem readContent_quiet (h : FileCalls win file v) (ha : Answers win file)
    (hquiet : v.Quiet w) (object : Str) (profile : String) {chunk : Nat} (hchunk : 0 < chunk)
    (sizeText oversizedText : String) (maxBytes : Nat) :
    (win.readContent object profile chunk sizeText oversizedText file maxBytes w).1 =
      if (v.content w).length ≤ maxBytes then .ok (v.content w)
      else .error (tooLong .oversized object profile oversizedText) := by
  obtain ⟨info,w1,hinfo,hdirectory,hsize,hlater⟩ := size_quiet h ha hquiet (h.reads.refl w)
    .incomplete object profile "read-size"
  have hgood : ¬(info.directory = true ∨ info.endOfFile < 0) := by
    rw [hdirectory,hsize]
    simp
  rw [Win32.readContent,Eff.bind_of_ok hinfo,Eff.bind_of_ok (failIf_pass hgood)]
  split_ifs with hfits
  · have hsmall : ¬info.endOfFile.toNat > maxBytes := by omega
    rw [Eff.bind_of_ok (failIf_pass hsmall)]
    refine readFrom_quiet h ha hquiet hchunk ?_ hlater hsize
    intro n a hgot hle
    simp [hgot,Nat.not_lt.mpr hle]
  · have hlong : info.endOfFile.toNat > maxBytes := by omega
    rw [failIf,if_pos hlong]
    rfl

/-- A file nobody writes to is read exactly, however the system cuts it into pieces, and
refused for its length alone. -/
theorem reads_quiet (h : FileCalls win file v) (ha : Answers win file) (hquiet : v.Quiet w)
    (maxBytes : Nat) (object : Str) :
    ((win.readAll file maxBytes object w).1 =
      if (v.content w).length ≤ maxBytes then .ok (v.content w)
      else .error (tooLong .incomplete object childProfile
        "unexpected type or oversized child")) ∧
    ((win.readContentP10 file maxBytes w).1 =
      if (v.content w).length ≤ maxBytes then .ok (v.content w)
      else .error (tooLong .oversized "P10" p10ReadProfile "P10 exceeds approved byte count")) ∧
    (win.readContentP11 file maxBytes w).1 =
      if (v.content w).length ≤ maxBytes then .ok (v.content w)
      else .error (tooLong .oversized "P11" p11CustodyProfile "P11 exceeds sealed byte count") :=
  ⟨readAll_quiet h ha hquiet maxBytes object,
    readContent_quiet h ha hquiet _ _ (by decide) _ _ maxBytes,
    readContent_quiet h ha hquiet _ _ (by decide) _ _ maxBytes⟩

/-- An answer that claims more than was left. `read_all` has no check of the count and takes it
for the end of the loop; the protected readers throw it out. -/
theorem fill_overreported {read : Nat → Eff ν Thrown (Answer Char)}
    {refuse : Nat → Answer Char → Bool} {object : Str} {profile step message : String}
    {chunk expected fuel done : Nat} {buffer : Str} {a : Answer Char} (hlt : done < expected)
    (hread : read (min (expected-done) chunk) w = (.ok a,w')) (hover : expected-done ≤ a.got) :
    fill read (fun n a => failIf (refuse n a = true) .incomplete object profile step message) chunk
        expected (fuel+1) done buffer w =
      if refuse (min (expected-done) chunk) a then
        (.error (.observation { kind := .incomplete, object := object, profile := profile
                                step := step, message := message }),w')
      else (.ok (ByteBuffer.copyTo buffer done (a.data.take (min (expected-done) chunk))),w') := by
  rw [fill,if_pos hlt,Eff.bind_of_ok hread]
  split_ifs with hrefused
  · rw [failIf,if_pos hrefused]
    rfl
  · rw [Eff.bind_of_ok (failIf_pass hrefused)]
    cases fuel with
    | zero => rfl
    | succ fuel =>
      rw [fill,if_neg (by omega)]
      rfl

section schedule

/-- The pointer of a handle, and how many calls there have been on the file. -/
structure Pointer where
  clock : Nat
  position : Nat
  deriving DecidableEq

/-- One file whose content changes with every call and whose reads are cut short at will. -/
def scheduledFile (content : Nat → Str) (grant : Nat → Nat) : Win32 Pointer where
  createFile _ _ := Eff.raise 5
  ntCreateFile _ _ _ w := ((-1073741790,0),w)
  rtlNtStatusToDosError _ := 5
  fileIdInfo _ := Eff.raise 5
  fileAttributeTagInfo _ := Eff.raise 5
  fileStandardInfo _ w := (.ok ⟨(content w.clock).length,false⟩,{ w with clock := w.clock+1 })
  finalPathSize _ := Eff.raise 5
  finalPath _ _ := Eff.raise 5
  securityDescriptor _ := Eff.raise 5
  securityDescriptorControl _ := Eff.raise 5
  securityDescriptorString _ := Eff.raise 5
  directoryInfo _ _ := Eff.raise 5
  setFilePointer _ w := (.ok (),⟨w.clock+1,0⟩)
  readFile _ n w :=
    let data := ((content w.clock).drop w.position).take (min n (grant w.clock+1))
    (.ok ⟨data.length,data⟩,⟨w.clock+1,w.position+data.length⟩)
  closeHandle _ w := w

def scheduledView (content : Nat → Str) : Shared Pointer Char where
  content w := content w.clock
  position w := w.position
  later w w' := w.clock ≤ w'.clock

variable (content : Nat → Str) (grant : Nat → Nat) (file : Handle)

theorem scheduledFile_calls :
    FileCalls (scheduledFile content grant) file (scheduledView content) where
  reads :=
    { refl := fun w => Nat.le_refl w.clock
      trans := fun h h' => Nat.le_trans h h'
      count := by
        intro n w a w' h
        obtain ⟨ha,_⟩ := Prod.mk.inj h
        obtain rfl := Except.ok.inj ha
        refine ⟨rfl,?_⟩
        simp only [List.length_take]
        omega
      moves := by
        intro n w a w' h
        obtain ⟨ha,rfl⟩ := Prod.mk.inj h
        obtain rfl := Except.ok.inj ha
        exact ⟨rfl,Nat.le_succ w.clock⟩
      seen := by
        intro n w a w' h i hi
        obtain ⟨ha,rfl⟩ := Prod.mk.inj h
        obtain rfl := Except.ok.inj ha
        refine ⟨w,⟨Nat.le_refl _,Nat.le_succ _⟩,?_⟩
        simp only [List.length_take] at hi
        rw [List.getElem?_take_of_lt (by omega),List.getElem?_drop]
        rfl
      atEnd := by
        intro n w a w' h hn hzero
        obtain ⟨ha,rfl⟩ := Prod.mk.inj h
        obtain rfl := Except.ok.inj ha
        refine ⟨w,⟨Nat.le_refl _,Nat.le_succ _⟩,?_⟩
        simp only [List.length_take,List.length_drop] at hzero
        change (content w.clock).length ≤ w.position
        omega }
  size := by
    intro w info w' h
    obtain ⟨hi,rfl⟩ := Prod.mk.inj h
    obtain rfl := Except.ok.inj hi
    exact ⟨w,⟨Nat.le_refl _,Nat.le_succ _⟩,rfl⟩
  seek := by
    intro w u w' h
    obtain ⟨_,rfl⟩ := Prod.mk.inj h
    exact ⟨rfl,Nat.le_succ w.clock⟩

theorem scheduledFile_answers : Answers (scheduledFile content grant) file where
  size := fun _ => ⟨_,_,rfl,rfl⟩
  seek := fun _ => ⟨_,_,rfl⟩
  read := fun _ _ => ⟨_,_,rfl⟩

/-- The file is rewritten between two calls of `ReadFile`: no moment has all that is read. -/
theorem reads_window_rewritten :
    let content := fun t => if t < 3 then ['a','b'] else ['x','y']
    (2 ≤ 2 ∧ Window (scheduledView content) ⟨0,0⟩ ⟨6,2⟩ ['a','y'] ∧
      ((scheduledView content).Quiet ⟨0,0⟩ → ['a','y'] = content 0)) := by
  intro content
  have hrun : (scheduledFile content fun _ => 0).readAll 7 2 [] ⟨0,0⟩ = (.ok ['a','y'],⟨6,2⟩) := by
    refine Prod.ext ?_ (by decide +kernel)
    have hread : ((scheduledFile content fun _ => 0).readAll 7 2 [] ⟨0,0⟩).1.toOption =
        some ['a','y'] := by decide +kernel
    cases hres : ((scheduledFile content fun _ => 0).readAll 7 2 [] ⟨0,0⟩).1 with
    | error t =>
      rw [hres] at hread
      exact absurd hread (by simp [Except.toOption])
    | ok bytes =>
      rw [hres] at hread
      rw [Option.some.inj hread]
  exact reads_window (scheduledFile_calls content (fun _ => 0) 7) (.inl hrun)

theorem reads_quiet_still :
    let win := scheduledFile (fun _ => ("abc" : String).toList) (fun t => t%2)
    ((win.readAll 7 3 [] ⟨0,0⟩).1 = .ok "abc".toList) ∧
    ((win.readContentP10 7 3 ⟨0,0⟩).1 = .ok "abc".toList) ∧
    (win.readContentP11 7 3 ⟨0,0⟩).1 = .ok "abc".toList := by
  intro win
  exact reads_quiet (scheduledFile_calls _ (fun t => t%2) 7) (scheduledFile_answers _ _ 7)
    (fun _ _ => rfl) 3 []

end schedule

end SoftwareFactory.StageA.Windows
