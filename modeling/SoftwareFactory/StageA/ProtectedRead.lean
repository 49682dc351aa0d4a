import SoftwareFactory.StageA.SnapshotRules
import SoftwareFactory.StageA.WindowsP10Reader

namespace SoftwareFactory.StageA.Windows

open Effect

/-- What the two readers of protected objects read, and what they say of it. -/
structure ProtectedObject extends ReaderLabels where
  directoryObject : Str
  directoryName : WStr
  fileName : WStr
  fileSpec : OpenSpec
  root : Metadata
  p1 : Metadata
  directory : Metadata
  file : Metadata
  content : Str
  digest : Str
  contentText : String
  digestText : String
  changedText : String

variable {ω κ α β : Type}

/-- A handle that `HeldHandles` takes. -/
def heldHandle (h : Handle) : List Handle := if h = 0 ∨ h = invalidHandleValue then [] else [h]

/-- The handles that calls of the P10 reader opened, in their order. -/
def opened : List PortEvent → List Handle
  | [] => []
  | .openRoot _ _ (.ok h)::log | .openRelative _ _ _ _ (.ok h)::log => heldHandle h++opened log
  | _::log => opened log

/-- A call of the P10 reader that closes nothing. -/
def PortEvent.isWork : PortEvent → Bool
  | .openRoot .. | .openRelative .. | .inspect .. | .readContent .. => true
  | _ => false

theorem opened_append (l l' : List PortEvent) : opened (l++l') = opened l++opened l' := by
  fun_induction opened l with
  | case1 => rfl
  | case2 p spec h log ih => rw [List.cons_append,opened,ih,List.append_assoc]
  | case3 h c spec o h' log ih => rw [List.cons_append,opened,ih,List.append_assoc]
  | case4 e log h1 h2 ih => rw [List.cons_append,opened,ih] <;> assumption

/-- Code that calls for the P10 reader and keeps what it opens. -/
def Working (m : Eff (Custody ω × κ) Thrown α) : Prop :=
  ∀ s,∃ work,(m s).2.1.log = s.1.log++work ∧ work.all PortEvent.isWork = true ∧
    (m s).2.1.held = s.1.held++opened work

/-- Code that calls no port and holds no handle. -/
def Calm (m : Eff (Custody ω × κ) Thrown α) : Prop :=
  ∀ s,(m s).2.1.log = s.1.log ∧ (m s).2.1.held = s.1.held

theorem Calm.fail (kind : ErrorKind) (object : Str) (profile step message : String) :
    Calm (fail kind object profile step message : Eff (Custody ω × κ) Thrown α) :=
  fun _ => ⟨rfl,rfl⟩

theorem Calm.failIf (p : Prop) [Decidable p] (kind : ErrorKind) (object : Str)
    (profile step message : String) :
    Calm (failIf p kind object profile step message : Eff (Custody ω × κ) Thrown Unit) := by
  rw [StageA.failIf]
  split_ifs
  · exact .fail _ _ _ _ _
  · exact fun _ => ⟨rfl,rfl⟩

theorem Calm.catching {m : Eff (Custody ω × κ) Thrown α}
    {handler : Thrown → Eff (Custody ω × κ) Thrown α} (hm : Calm m)
    (hh : ∀ t,Calm (handler t)) : Calm (Eff.catching m handler) := by
  intro s
  obtain ⟨hlog,hheld⟩ := hm s
  rcases h : m s with ⟨t | a,s'⟩ <;> rw [h] at hlog hheld
  · rw [Eff.catching_error h,← hlog,← hheld]
    exact hh t s'
  · rw [Eff.catching_ok h]
    exact ⟨hlog,hheld⟩

theorem Working.calm {m : Eff (Custody ω × κ) Thrown α} (h : Calm m) : Working m := by
  intro s
  exact ⟨[],by rw [(h s).1,List.append_nil],rfl,by rw [(h s).2,opened,List.append_nil]⟩

theorem Working.pure (a : α) : Working (pure a : Eff (Custody ω × κ) Thrown α) :=
  .calm fun _ => ⟨rfl,rfl⟩

theorem Working.bind {m : Eff (Custody ω × κ) Thrown α} {f : α → Eff (Custody ω × κ) Thrown β}
    (hm : Working m) (hf : ∀ a,Working (f a)) : Working (m >>= f) := by
  intro s
  obtain ⟨work,hlog,hall,hheld⟩ := hm s
  rcases h : m s with ⟨t | a,s'⟩ <;> rw [h] at hlog hheld
  · rw [Eff.bind_of_error h]
    exact ⟨work,hlog,hall,hheld⟩
  · rw [Eff.bind_of_ok h]
    obtain ⟨work',hlog',hall',hheld'⟩ := hf a s'
    refine ⟨work++work',?_,?_,?_⟩
    · rw [hlog',hlog,List.append_assoc]
    · rw [List.all_append,hall,hall',Bool.and_self]
    · rw [hheld',hheld,opened_append,List.append_assoc]

theorem Working.failIf (p : Prop) [Decidable p] (kind : ErrorKind) (object : Str)
    (profile step message : String) :
    Working (failIf p kind object profile step message : Eff (Custody ω × κ) Thrown Unit) :=
  .calm (.failIf _ _ _ _ _ _)

/-- A call that opens nothing. -/
theorem Working.port {op : Eff (ω × κ) Thrown α} {event : Except Thrown α → PortEvent}
    (hwork : ∀ r,(event r).isWork = true) (hopen : ∀ r,opened [event r] = []) :
    Working (port op event) := by
  intro s
  exact ⟨[event (op (s.1.world,s.2)).1],rfl,by simp [hwork],by rw [hopen,List.append_nil]; rfl⟩

theorem port_eq {op : Eff (ω × κ) Thrown α} {event : Except Thrown α → PortEvent}
    {s : Custody ω × κ} {r : Except Thrown α} {w : ω} {k : κ}
    (h : op (s.1.world,s.2) = (r,w,k)) :
    port op event s = (r,{ s.1 with world := w, log := s.1.log++[event r] },k) := by
  rw [port,h]

theorem ReaderLabels.checkedHash_calm (p : ReaderLabels) (b : BCrypt κ) (bytes : Str)
    (step : String) : Calm (p.checkedHash b bytes step : Eff (Custody ω × κ) Thrown Str) :=
  .catching (fun _ => ⟨rfl,rfl⟩) fun _ => .fail _ _ _ _ _

namespace ProtectedObject

/-- The four nodes that are held, each as it was first seen. -/
structure Nodes where
  root : Handle × Metadata
  p1 : Handle × Metadata
  directory : Handle × Metadata
  file : Handle × Metadata

variable (b : BCrypt κ) (calls : P10Calls ω κ) (p : ProtectedObject)

def openNode (parent : Handle) (component : WStr) (spec : OpenSpec) (object : Str) :
    Eff (Custody ω × κ) Thrown Handle :=
  p.hold (calls.openRelative parent component spec object)
    (.openRelative parent component spec object)

def readContent (file : Handle) : Eff (Custody ω × κ) Thrown Str :=
  port (calls.readContent file p.content.length) (.readContent file p.content.length)

def openNodes : Eff (Custody ω × κ) Thrown Nodes := do
  let root ← p.hold (calls.openRoot volumeRoot rootIdentitySpec)
    (.openRoot volumeRoot rootIdentitySpec)
  let rootMeta ← inspectNode calls root "volume-root" "initial-identity"
  p.checkNode rootMeta p.root none true false "volume-root" "initial-identity"
  let p1 ← p.openNode calls root p1Name ancestorIdentitySpec "P1"
  let p1Meta ← inspectNode calls p1 "P1" "initial-identity"
  p.checkNode p1Meta p.p1 (some (rootMeta,p1Name)) true true "P1" "initial-identity"
  let directory ← p.openNode calls p1 p.directoryName ancestorIdentitySpec p.directoryObject
  let directoryMeta ← inspectNode calls directory p.directoryObject "initial-identity"
  p.checkNode directoryMeta p.directory (some (p1Meta,p.directoryName)) true true
    p.directoryObject "initial-identity"
  let file ← p.openNode calls directory p.fileName p.fileSpec p.object
  let fileMeta ← inspectNode calls file p.object "initial-identity"
  p.checkNode fileMeta p.file (some (directoryMeta,p.fileName)) false true p.object
    "initial-identity"
  return ⟨(root,rootMeta),(p1,p1Meta),(directory,directoryMeta),(file,fileMeta)⟩

def readTwice (file : Handle) : Eff (Custody ω × κ) Thrown Str := do
  let bytes ← p.readContent calls file
  failIf (bytes ≠ p.content) .bindingFailure p.object p.profile "canonical-bytes" p.contentText
  let hash ← p.checkedHash b bytes "content-sha256"
  failIf (hash ≠ p.digest) .hashFailure p.object p.profile "content-sha256" p.digestText
  let again ← p.readContent calls file
  failIf (again ≠ bytes) .identityDrift p.object p.profile "final-content" p.changedText
  return bytes

def lookAgain (n : Nodes) : Eff (Custody ω × κ) Thrown Unit := do
  let root ← inspectNode calls n.root.1 "volume-root" "final-identity"
  p.checkNode root n.root.2 none true false "volume-root" "final-identity"
  let p1 ← inspectNode calls n.p1.1 "P1" "final-identity"
  p.checkNode p1 n.p1.2 (some (n.root.2,p1Name)) true true "P1" "final-identity"
  let directory ← inspectNode calls n.directory.1 p.directoryObject "final-identity"
  p.checkNode directory n.directory.2 (some (n.p1.2,p.directoryName)) true true
    p.directoryObject "final-identity"
  let file ← inspectNode calls n.file.1 p.object "final-identity"
  p.checkNode file n.file.2 (some (n.directory.2,p.fileName)) false true p.object
    "final-identity"

/-- The part of a reader in which handles are held. -/
def read : Eff (Custody ω × κ) Thrown Str := do
  let nodes ← p.openNodes calls
  let bytes ← p.readTwice b calls nodes.file.1
  p.lookAgain calls nodes
  return bytes

variable {b calls p}

/-- A node of the kind it should be, with an identity, under its parent. -/
structure Sound (m : Metadata) (parent : Option (Metadata × WStr))
    (directory protectedDacl : Bool) : Prop where
  no_reparse : isReparse m = false ∧ m.reparseTag = 0
  kind : m.directory = directory ∧ (m.attributes &&& fileAttributeDirectory != 0) = directory
  no_device : m.attributes &&& fileAttributeDevice = 0
  identified : nonzeroId m.fileId = true ∧ m.volumeGuidPath ≠ [] ∧ m.finalPath ≠ [] ∧ m.sddl ≠ []
  guarded : protectedDacl = true → m.daclProtected = true
  chained : ∀ q ∈ parent,m.volumeGuidPath = q.1.volumeGuidPath ∧
    m.volumeSerial = q.1.volumeSerial ∧ m.finalPath = childFinalPath q.1.finalPath q.2

/-- The four nodes of the configuration are sound. -/
structure SoundNodes (p : ProtectedObject) : Prop where
  root : Sound p.root none true false
  p1 : Sound p.p1 (some (p.root,p1Name)) true true
  directory : Sound p.directory (some (p.p1,p.directoryName)) true true
  file : Sound p.file (some (p.directory,p.fileName)) false true

/-- The calls with which the nodes are opened and seen to be the configured ones. -/
def opening (p : ProtectedObject) (root p1 directory file : Handle) : List PortEvent :=
  [.openRoot volumeRoot rootIdentitySpec (.ok root),
    .inspect root "volume-root" "initial-identity" (.ok p.root),
    .openRelative root p1Name ancestorIdentitySpec "P1" (.ok p1),
    .inspect p1 "P1" "initial-identity" (.ok p.p1),
    .openRelative p1 p.directoryName ancestorIdentitySpec p.directoryObject (.ok directory),
    .inspect directory p.directoryObject "initial-identity" (.ok p.directory),
    .openRelative directory p.fileName p.fileSpec p.object (.ok file),
    .inspect file p.object "initial-identity" (.ok p.file)]

def reading (p : ProtectedObject) (file : Handle) : List PortEvent :=
  [.readContent file p.content.length (.ok p.content),
    .readContent file p.content.length (.ok p.content)]

def looking (p : ProtectedObject) (root p1 directory file : Handle) : List PortEvent :=
  [.inspect root "volume-root" "final-identity" (.ok p.root),
    .inspect p1 "P1" "final-identity" (.ok p.p1),
    .inspect directory p.directoryObject "final-identity" (.ok p.directory),
    .inspect file p.object "final-identity" (.ok p.file)]

/-- What has happened when the content is returned. -/
structure Verified (b : BCrypt κ) (p : ProtectedObject) (bytes : Str) (work : List PortEvent) :
    Prop where
  content : bytes = p.content
  digest : ∃ k k',sha256 b bytes k = (.ok p.digest,k')
  sound : p.SoundNodes
  calls : ∃ root p1 directory file,
    (∀ h ∈ [root,p1,directory,file],h ≠ 0 ∧ h ≠ invalidHandleValue) ∧
      work = p.opening root p1 directory file++p.reading file++p.looking root p1 directory file

variable {s s' : Custody ω × κ}

theorem port_ok {op : Eff (ω × κ) Thrown α} {event : Except Thrown α → PortEvent} {a : α}
    (h : port op event s = (.ok a,s')) : s'.1.log = s.1.log++[event (.ok a)] := by
  rcases hop : op (s.1.world,s.2) with ⟨r,w,k⟩
  rw [port_eq hop] at h
  obtain ⟨rfl,rfl⟩ := Prod.mk.inj h
  rfl

theorem hold_ok {op : Eff (ω × κ) Thrown Handle} {event : Except Thrown Handle → PortEvent}
    {handle : Handle} (h : p.hold op event s = (.ok handle,s')) :
    s'.1.log = s.1.log++[event (.ok handle)] ∧ handle ≠ 0 ∧ handle ≠ invalidHandleValue := by
  rw [ReaderLabels.hold] at h
  obtain ⟨a,s1,h1,h⟩ := Eff.bind_ok.mp h
  obtain ⟨u,s2,h2,h⟩ := Eff.bind_ok.mp h
  obtain ⟨hvalid,rfl⟩ := failIf_ok.mp h2
  have hlog := port_ok h1
  obtain ⟨ha,rfl⟩ := Prod.mk.inj h
  obtain rfl := Except.ok.inj ha
  rw [not_or] at hvalid
  exact ⟨hlog,hvalid⟩

theorem checkNode_ok {actual expected : Metadata} {parent : Option (Metadata × WStr)}
    {directory protectedDacl : Bool} {object : Str} {step : String} {u : Unit}
    (h : p.checkNode actual expected parent directory protectedDacl object step s =
      (.ok u,s')) :
    s' = s ∧ actual = expected ∧ Sound actual parent directory protectedDacl := by
  rw [ReaderLabels.checkNode] at h
  obtain ⟨u1,s1,h1,h⟩ := Eff.bind_ok.mp h
  obtain ⟨hreparse,rfl⟩ := failIf_ok.mp h1
  obtain ⟨u2,s2,h2,h⟩ := Eff.bind_ok.mp h
  obtain ⟨hkind,rfl⟩ := failIf_ok.mp h2
  obtain ⟨u3,s3,h3,h⟩ := Eff.bind_ok.mp h
  obtain ⟨hfields,rfl⟩ := failIf_ok.mp h3
  obtain ⟨u4,s4,h4,h⟩ := Eff.bind_ok.mp h
  obtain ⟨hparent,rfl⟩ := failIf_ok.mp h4
  obtain ⟨hsame,rfl⟩ := failIf_ok.mp h
  simp only [not_or,not_not,not_and,not_exists] at hreparse hkind hfields hparent hsame
  refine ⟨rfl,?_,?_⟩
  · obtain ⟨h1,h2,h3,h4,h5,h6,h7,h8,h9⟩ := hsame
    cases actual
    cases expected
    simp_all
  · obtain ⟨hid,hvolume,hpath,hsddl,hdacl⟩ := hfields
    refine ⟨⟨by simpa using hreparse.1,hreparse.2⟩,⟨hkind.1,hkind.2.1⟩,hkind.2.2,
      ⟨by simpa using hid,hvolume,hpath,hsddl⟩,by simpa using hdacl,?_⟩
    intro q hq
    exact hparent q hq

theorem checkedHash_ok {bytes hash : Str} {step : String}
    (h : p.checkedHash b bytes step s = (.ok hash,s')) :
    s'.1.log = s.1.log ∧ ∃ k k',sha256 b bytes k = (.ok hash,k') := by
  rw [ReaderLabels.checkedHash] at h
  rcases hm : onCrypto (standardOnly (sha256 b bytes)) s with ⟨t | a,s1⟩
  · rw [Eff.catching_error hm] at h
    exact absurd h fail_ok.mp
  · rw [Eff.catching_ok hm] at h
    obtain ⟨ha,rfl⟩ := Prod.mk.inj h
    obtain rfl := Except.ok.inj ha
    rcases hk : standardOnly (sha256 b bytes) s.2 with ⟨r,k⟩
    rw [onCrypto,hk] at hm
    obtain ⟨rfl,rfl⟩ := Prod.mk.inj hm
    exact ⟨rfl,s.2,k,standardOnly_ok.mp hk⟩

/-- One node: it is seen once and is the configured one. -/
theorem inspected_ok {handle : Handle} {object : Str} {step : String} {expected m : Metadata}
    {parent : Option (Metadata × WStr)} {directory protectedDacl : Bool} {s1 : Custody ω × κ}
    {u : Unit} (h1 : inspectNode calls handle object step s = (.ok m,s1))
    (h2 : p.checkNode m expected parent directory protectedDacl object step s1 = (.ok u,s')) :
    m = expected ∧ Sound expected parent directory protectedDacl ∧
      s'.1.log = s.1.log++[.inspect handle object step (.ok expected)] := by
  obtain ⟨rfl,rfl,hsound⟩ := checkNode_ok h2
  exact ⟨rfl,hsound,port_ok h1⟩

theorem openNodes_ok {n : Nodes} (h : p.openNodes calls s = (.ok n,s')) :
    ∃ root p1 directory file,
      n = ⟨(root,p.root),(p1,p.p1),(directory,p.directory),(file,p.file)⟩ ∧
      (∀ h ∈ [root,p1,directory,file],h ≠ 0 ∧ h ≠ invalidHandleValue) ∧ p.SoundNodes ∧
      s'.1.log = s.1.log++p.opening root p1 directory file := by
  rw [openNodes] at h
  obtain ⟨root,s1,h1,h⟩ := Eff.bind_ok.mp h
  obtain ⟨m0,s2,h2,h⟩ := Eff.bind_ok.mp h
  obtain ⟨u0,s3,h3,h⟩ := Eff.bind_ok.mp h
  obtain ⟨hlog1,hroot⟩ := hold_ok h1
  obtain ⟨rfl,sound0,hlog3⟩ := inspected_ok h2 h3
  obtain ⟨p1,s4,h4,h⟩ := Eff.bind_ok.mp h
  obtain ⟨m1,s5,h5,h⟩ := Eff.bind_ok.mp h
  obtain ⟨u1,s6,h6,h⟩ := Eff.bind_ok.mp h
  obtain ⟨hlog4,hp1⟩ := hold_ok h4
  obtain ⟨rfl,sound1,hlog6⟩ := inspected_ok h5 h6
  obtain ⟨directory,s7,h7,h⟩ := Eff.bind_ok.mp h
  obtain ⟨m2,s8,h8,h⟩ := Eff.bind_ok.mp h
  obtain ⟨u2,s9,h9,h⟩ := Eff.bind_ok.mp h
  obtain ⟨hlog7,hdirectory⟩ := hold_ok h7
  obtain ⟨rfl,sound2,hlog9⟩ := inspected_ok h8 h9
  obtain ⟨file,s10,h10,h⟩ := Eff.bind_ok.mp h
  obtain ⟨m3,s11,h11,h⟩ := Eff.bind_ok.mp h
  obtain ⟨u3,s12,h12,h⟩ := Eff.bind_ok.mp h
  obtain ⟨hlog10,hfile⟩ := hold_ok h10
  obtain ⟨rfl,sound3,hlog12⟩ := inspected_ok h11 h12
  obtain ⟨hn,rfl⟩ := Prod.mk.inj h
  obtain rfl := Except.ok.inj hn
  refine ⟨root,p1,directory,file,rfl,?_,⟨sound0,sound1,sound2,sound3⟩,?_⟩
  · simp [hroot,hp1,hdirectory,hfile]
  · rw [hlog12,hlog10,hlog9,hlog7,hlog6,hlog4,hlog3,hlog1]
    simp only [opening,List.append_assoc]
    rfl

theorem readTwice_ok {file : Handle} {bytes : Str}
    (h : p.readTwice b calls file s = (.ok bytes,s')) :
    bytes = p.content ∧ (∃ k k',sha256 b bytes k = (.ok p.digest,k')) ∧
      s'.1.log = s.1.log++p.reading file := by
  rw [readTwice] at h
  obtain ⟨first,s1,h1,h⟩ := Eff.bind_ok.mp h
  obtain ⟨u1,s2,h2,h⟩ := Eff.bind_ok.mp h
  obtain ⟨hcontent,rfl⟩ := failIf_ok.mp h2
  obtain ⟨hash,s3,h3,h⟩ := Eff.bind_ok.mp h
  obtain ⟨u2,s4,h4,h⟩ := Eff.bind_ok.mp h
  obtain ⟨hdigest,rfl⟩ := failIf_ok.mp h4
  obtain ⟨again,s5,h5,h⟩ := Eff.bind_ok.mp h
  obtain ⟨u3,s6,h6,h⟩ := Eff.bind_ok.mp h
  obtain ⟨hagain,rfl⟩ := failIf_ok.mp h6
  obtain ⟨hb,rfl⟩ := Prod.mk.inj h
  obtain rfl := Except.ok.inj hb
  rw [not_not] at hcontent hdigest hagain
  obtain ⟨hlog3,hsha⟩ := checkedHash_ok h3
  have hlog1 := port_ok h1
  have hlog5 := port_ok h5
  rw [hdigest] at hsha
  refine ⟨hcontent,hsha,?_⟩
  rw [hlog5,hlog3,hlog1,hagain,hcontent,List.append_assoc]
  rfl

theorem lookAgain_ok {root p1 directory file : Handle} {u : Unit}
    (h : p.lookAgain calls ⟨(root,p.root),(p1,p.p1),(directory,p.directory),(file,p.file)⟩ s =
      (.ok u,s')) : s'.1.log = s.1.log++p.looking root p1 directory file := by
  rw [lookAgain] at h
  obtain ⟨m0,s1,h1,h⟩ := Eff.bind_ok.mp h
  obtain ⟨u0,s2,h2,h⟩ := Eff.bind_ok.mp h
  obtain ⟨-,-,hlog2⟩ := inspected_ok h1 h2
  obtain ⟨m1,s3,h3,h⟩ := Eff.bind_ok.mp h
  obtain ⟨u1,s4,h4,h⟩ := Eff.bind_ok.mp h
  obtain ⟨-,-,hlog4⟩ := inspected_ok h3 h4
  obtain ⟨m2,s5,h5,h⟩ := Eff.bind_ok.mp h
  obtain ⟨u2,s6,h6,h⟩ := Eff.bind_ok.mp h
  obtain ⟨-,-,hlog6⟩ := inspected_ok h5 h6
  obtain ⟨m3,s7,h7,h⟩ := Eff.bind_ok.mp h
  obtain ⟨-,-,hlog8⟩ := inspected_ok h7 h
  rw [hlog8,hlog6,hlog4,hlog2]
  simp only [looking,List.append_assoc]
  rfl

theorem read_ok {bytes : Str} (h : p.read b calls s = (.ok bytes,s')) :
    ∃ work,s'.1.log = s.1.log++work ∧ Verified b p bytes work := by
  rw [read] at h
  obtain ⟨n,s1,h1,h⟩ := Eff.bind_ok.mp h
  obtain ⟨first,s2,h2,h⟩ := Eff.bind_ok.mp h
  obtain ⟨u,s3,h3,h⟩ := Eff.bind_ok.mp h
  obtain ⟨hb,rfl⟩ := Prod.mk.inj h
  obtain rfl := Except.ok.inj hb
  obtain ⟨root,p1,directory,file,rfl,hvalid,hsound,hlog1⟩ := openNodes_ok h1
  obtain ⟨hcontent,hsha,hlog2⟩ := readTwice_ok h2
  have hlog3 := lookAgain_ok h3
  refine ⟨_,?_,hcontent,hsha,hsound,root,p1,directory,file,hvalid,rfl⟩
  rw [hlog3,hlog2,hlog1,List.append_assoc,List.append_assoc,List.append_assoc]

section custody

variable (b calls p)

theorem hold_working {op : Eff (ω × κ) Thrown Handle}
    {event : Except Thrown Handle → PortEvent} (hwork : ∀ r,(event r).isWork = true)
    (hopen : ∀ h,opened [event (.ok h)] = heldHandle h)
    (herr : ∀ t,opened [event (.error t)] = []) : Working (p.hold op event) := by
  intro s
  rcases h : op (s.1.world,s.2) with ⟨t | a,w,k⟩
  · rw [ReaderLabels.hold,Eff.bind_of_error (port_eq h)]
    exact ⟨[event (.error t)],rfl,by simp [hwork],by rw [herr,List.append_nil]⟩
  · refine ⟨[event (.ok a)],?_⟩
    rw [ReaderLabels.hold,Eff.bind_of_ok (port_eq h),hopen,heldHandle,StageA.failIf]
    split_ifs
    · exact ⟨rfl,by simp [hwork],(List.append_nil _).symm⟩
    · exact ⟨rfl,by simp [hwork],rfl⟩

theorem checkNode_working (actual expected : Metadata) (parent : Option (Metadata × WStr))
    (directory protectedDacl : Bool) (object : Str) (step : String) :
    Working (p.checkNode actual expected parent directory protectedDacl object step :
      Eff (Custody ω × κ) Thrown Unit) := by
  refine (Working.failIf _ _ _ _ _ _).bind fun _ => (Working.failIf _ _ _ _ _ _).bind fun _ => ?_
  refine (Working.failIf _ _ _ _ _ _).bind fun _ => (Working.failIf _ _ _ _ _ _).bind fun _ => ?_
  exact .failIf _ _ _ _ _ _

/-- A node is looked at and checked before the reader goes on. -/
theorem inspected_working (handle : Handle) (object : Str) (step : String) (expected : Metadata)
    (parent : Option (Metadata × WStr)) (directory protectedDacl : Bool)
    {f : Metadata → Eff (Custody ω × κ) Thrown α} (hf : ∀ m,Working (f m)) :
    Working (inspectNode calls handle object step >>= fun m =>
      p.checkNode m expected parent directory protectedDacl object step >>= fun _ => f m) := by
  have hinspect : Working (inspectNode calls handle object step) :=
    .port (fun _ => rfl) fun _ => rfl
  exact hinspect.bind fun m => (p.checkNode_working _ _ _ _ _ _ _).bind fun _ => hf m

theorem openNode_working (parent : Handle) (component : WStr) (spec : OpenSpec) (object : Str) :
    Working (p.openNode calls parent component spec object) :=
  p.hold_working (fun _ => rfl) (fun _ => List.append_nil _) fun _ => rfl

theorem openNodes_working : Working (p.openNodes calls) := by
  refine (p.hold_working (fun _ => rfl) (fun _ => List.append_nil _) fun _ => rfl).bind
    fun root => p.inspected_working calls _ _ _ _ _ _ _ fun rootMeta => ?_
  refine (p.openNode_working calls _ _ _ _).bind
    fun p1 => p.inspected_working calls _ _ _ _ _ _ _ fun p1Meta => ?_
  refine (p.openNode_working calls _ _ _ _).bind
    fun directory => p.inspected_working calls _ _ _ _ _ _ _ fun directoryMeta => ?_
  refine (p.openNode_working calls _ _ _ _).bind
    fun file => p.inspected_working calls _ _ _ _ _ _ _ fun fileMeta => ?_
  exact .pure _

theorem readTwice_working (file : Handle) : Working (p.readTwice b calls file) := by
  have hread : Working (p.readContent calls file) := .port (fun _ => rfl) fun _ => rfl
  refine hread.bind fun bytes => (Working.failIf _ _ _ _ _ _).bind fun _ => ?_
  refine (Working.calm (p.checkedHash_calm b _ _)).bind fun hash => ?_
  refine (Working.failIf _ _ _ _ _ _).bind fun _ => hread.bind fun again => ?_
  exact (Working.failIf _ _ _ _ _ _).bind fun _ => .pure _

theorem lookAgain_working (n : Nodes) : Working (p.lookAgain calls n) := by
  refine p.inspected_working calls _ _ _ _ _ _ _ fun _ => ?_
  refine p.inspected_working calls _ _ _ _ _ _ _ fun _ => ?_
  refine p.inspected_working calls _ _ _ _ _ _ _ fun _ => ?_
  have hinspect : Working (inspectNode calls n.file.1 p.object "final-identity") :=
    .port (fun _ => rfl) fun _ => rfl
  exact hinspect.bind fun _ => p.checkNode_working _ _ _ _ _ _ _

theorem read_working : Working (p.read b calls) := by
  refine (p.openNodes_working calls).bind fun nodes => ?_
  refine (p.readTwice_working b calls _).bind fun bytes => ?_
  exact (p.lookAgain_working calls nodes).bind fun _ => .pure _

end custody

end ProtectedObject

def p10Object (config : P10ReaderConfig) : ProtectedObject :=
  { toReaderLabels := p10Labels
    directoryObject := "P3", directoryName := p3Name
    fileName := p10Name, fileSpec := p10FileReadSpec
    root := config.root, p1 := config.p1, directory := config.p3, file := config.p10
    content := config.canonicalBytes, digest := config.sha256
    contentText := "P10 bytes differ from G2 seal"
    digestText := "P10 digest differs from G2 seal"
    changedText := "P10 content changed during read window" }

theorem readHeld_eq (b : BCrypt κ) (calls : P10Calls ω κ) (config : P10ReaderConfig) :
    readHeld b calls config = (p10Object config).read b calls := by
  simp only [ProtectedObject.read,ProtectedObject.openNodes,ProtectedObject.readTwice,
    ProtectedObject.lookAgain,bind_assoc,pure_bind]
  rfl

theorem closeAll_log (calls : P10Calls ω κ) (hs : List Handle) (s : Custody ω × κ) :
    (closeAll calls hs s).1.log = s.1.log++hs.map PortEvent.close := by
  induction hs generalizing s with
  | nil => exact (List.append_nil _).symm
  | cons h hs ih =>
    rw [closeAll,ih,List.map_cons,List.append_assoc]
    rfl

/-- A run of a reader: its calls, then the closing of what they opened, the last one first;
and if it returns, the calls were as promised. -/
def Kept (promised : Str → List PortEvent → Prop) (s : Custody ω × κ)
    (r : Except Thrown Str × Custody ω × κ) : Prop :=
  ∃ work,r.2.1.log = s.1.log++(work++(opened work).reverse.map PortEvent.close) ∧
    work.all PortEvent.isWork = true ∧ ∀ bytes,r.1 = .ok bytes → promised bytes work

variable {promised : Str → List PortEvent → Prop}

/-- Code of a reader before it holds a handle. -/
theorem Calm.bind_kept {m : Eff (Custody ω × κ) Thrown α}
    {f : α → Eff (Custody ω × κ) Thrown Str} {s : Custody ω × κ} (hm : Calm m)
    (hf : ∀ a s',m s = (.ok a,s') → Kept promised s' (f a s')) :
    Kept promised s ((m >>= f) s) := by
  have hlog := (hm s).1
  rcases h : m s with ⟨t | a,s'⟩ <;> rw [h] at hlog
  · rw [Eff.bind_of_error h]
    exact ⟨[],by rw [hlog]; exact (List.append_nil _).symm,rfl,by simp⟩
  · rw [Eff.bind_of_ok h]
    obtain ⟨work,hwork,hall,hkept⟩ := hf a s' h
    exact ⟨work,by rw [hwork,hlog],hall,hkept⟩

theorem Calm.fail_kept (kind : ErrorKind) (object : Str) (profile step message : String)
    (s : Custody ω × κ) : Kept promised s (StageA.fail kind object profile step message s) :=
  ⟨[],(List.append_nil _).symm,rfl,by simp [StageA.fail]⟩

/-- The handles are closed in the destructor, whether the content was verified or not. -/
theorem ProtectedObject.owning_kept (b : BCrypt κ) (calls : P10Calls ω κ)
    (p : ProtectedObject) (s : Custody ω × κ) (hs : s.1.held = []) :
    Kept (p.Verified b) s (Eff.owning (release calls) (p.read b calls) s) := by
  obtain ⟨work,hlog,hall,hheld⟩ := p.read_working b calls s
  rw [hs,List.nil_append] at hheld
  rw [Eff.owning_apply]
  refine ⟨work,?_,hall,?_⟩
  · rw [release]
    change (closeAll calls _ _).1.log = _
    rw [closeAll_log,hlog,hheld,List.append_assoc]
  · intro bytes hbytes
    rcases h : p.read b calls s with ⟨r,s'⟩
    rw [h] at hbytes hlog
    obtain rfl : r = .ok bytes := hbytes
    obtain ⟨work',hlog',hverified⟩ := read_ok h
    obtain rfl : work' = work := List.append_cancel_left (hlog'.symm.trans hlog)
    exact hverified

theorem catching_kept {m : Eff (Custody ω × κ) Thrown Str} {g : Thrown → Thrown}
    {s : Custody ω × κ} (h : Kept promised s (m s)) :
    Kept promised s (Eff.catching m (fun t => Eff.raise (g t)) s) := by
  obtain ⟨work,hlog,hall,hkept⟩ := h
  rcases hm : m s with ⟨t | a,s'⟩ <;> rw [hm] at hlog hkept
  · rw [Eff.catching_error hm]
    exact ⟨work,hlog,hall,by simp⟩
  · rw [Eff.catching_ok hm]
    exact ⟨work,hlog,hall,hkept⟩

theorem readBody_kept (b : BCrypt κ) (calls : P10Calls ω κ) (config : P10ReaderConfig)
    (s : Custody ω × κ) :
    Kept ((p10Object config).Verified b) s (readBody b calls config s) := by
  rw [readBody,readHeld_eq]
  refine (Calm.failIf _ _ _ _ _ _).bind_kept fun _ s1 _ => ?_
  refine (p10Labels.checkedHash_calm b _ _).bind_kept fun hash s2 _ => ?_
  refine (Calm.failIf _ _ _ _ _ _).bind_kept fun _ s3 _ => ?_
  exact (p10Object config).owning_kept b calls ({ s3.1 with held := [] },s3.2) rfl

theorem readVerifiedP10_kept (b : BCrypt κ) (config : P10ReaderConfig)
    (calls : Option (P10Calls ω κ)) (s : Custody ω × κ) :
    Kept ((p10Object config).Verified b) s (readVerifiedP10 b config calls s) := by
  cases calls with
  | none => exact catching_kept (Calm.fail_kept _ _ _ _ _ s)
  | some calls => exact catching_kept (readBody_kept b calls config s)

end SoftwareFactory.StageA.Windows
