import SoftwareFactory.StageA.Contracts
import Mathlib.Data.List.Sort

namespace SoftwareFactory.StageA

open Effect

def directoryProfile : String := "NtCreateFile:FILE_LIST_DIRECTORY|FILE_READ_ATTRIBUTES|READ_CONTROL|SYNCHRONIZE;FILE_SHARE_READ;FILE_OPEN;FILE_DIRECTORY_FILE|FILE_OPEN_REPARSE_POINT|FILE_OPEN_FOR_BACKUP_INTENT|FILE_SYNCHRONOUS_IO_NONALERT;OBJ_CASE_INSENSITIVE|OBJ_DONT_REPARSE"
def childProfile : String := "NtCreateFile:FILE_READ_DATA|FILE_READ_ATTRIBUTES|READ_CONTROL|SYNCHRONIZE;FILE_SHARE_READ;FILE_OPEN;FILE_NON_DIRECTORY_FILE|FILE_OPEN_REPARSE_POINT|FILE_SYNCHRONOUS_IO_NONALERT;OBJ_CASE_INSENSITIVE|OBJ_DONT_REPARSE"

structure Entry where
  name : Str
  type : Str
  fileId : Str
  parentId : Str
  reparse : Bool
  deriving DecidableEq, Repr

structure ObservationFailure where
  kind : ErrorKind
  object : Str
  profile : String
  step : String
  message : String
  ntstatus : Int := 0
  hasNtstatus : Bool := false
  win32Error : UInt32 := 0
  hasWin32Error : Bool := false
  deriving DecidableEq, Repr

/-- What a C++ call can throw. The first two are `std::exception`s. -/
inductive Thrown where
  | observation (f : ObservationFailure)
  | standard (e : StdException)
  | nonstandard
  deriving DecidableEq, Repr

/-- `what()`; a value outside `std::exception` has no text. -/
def Thrown.what : Thrown → String
  | .observation f => f.message
  | .standard e => e.what
  | .nonstandard => ""

/-- A session may keep any state and answer every call as it likes. -/
structure SnapshotSession (σ : Type) where
  directoryIdentity : Eff σ Thrown Str
  inventory : Eff σ Thrown (List Entry)
  holdChild : Str → Eff σ Thrown Unit
  heldIdentity : Str → Eff σ Thrown Str
  readChild : Str → Eff σ Thrown Str
  destroy : σ → σ

/-- `none` is the null pointer. -/
structure SnapshotSource (σ : Type) where
  openSession : String → Eff σ Thrown (Option (SnapshotSession σ))

structure SnapshotHashProvider (κ : Type) where
  hashP11 : Str → Eff κ Thrown Str
  digestMutableSet : FileMap → Eff κ Thrown Str

/-- One call of the source, the session or the hash provider, with its outcome. -/
inductive Observation where
  | hashP11 (r : Except Thrown Str)
  | opened (r : Except Thrown Bool)
  | directoryIdentity (r : Except Thrown Str)
  | inventory (r : Except Thrown (List Entry))
  | holdChild (name : Str) (r : Except Thrown Unit)
  | heldIdentity (name : Str) (r : Except Thrown Str)
  | readChild (name : Str) (r : Except Thrown Str)
  | digestMutableSet (files : FileMap) (r : Except Thrown Str)

/-- The comparison while it runs: the outside, the calls made so far, the evidence. -/
structure Run (σ κ : Type) where
  world : σ
  crypto : κ
  log : List Observation
  evidence : Evidence

def Run.start {σ κ : Type} (w : σ) (k : κ) : Run σ κ := ⟨w,k,[],{}⟩

variable {σ κ α : Type}

/-- A call into the source or the session. -/
def observe (op : Eff σ Thrown α) (o : Except Thrown α → Observation) :
    Eff (Run σ κ) Thrown α := fun r =>
  let (a,w) := op r.world
  (a,{ r with world := w, log := r.log++[o a] })

/-- A call of the hash provider. -/
def hashing (op : Eff κ Thrown α) (o : Except Thrown α → Observation) :
    Eff (Run σ κ) Thrown α := fun r =>
  let (a,k) := op r.crypto
  (a,{ r with crypto := k, log := r.log++[o a] })

/-- A call of a function that throws nothing but standard exceptions. -/
def standardOnly {τ : Type} (op : Eff τ StdException α) : Eff τ Thrown α := fun s =>
  match op s with
  | (.ok a,s') => (.ok a,s')
  | (.error e,s') => (.error (.standard e),s')

/-- Such a call that is no call of the provider. -/
def unlogged (op : Eff κ Thrown α) : Eff (Run σ κ) Thrown α := fun r =>
  let (a,k) := op r.crypto
  (a,{ r with crypto := k })

def record (f : Evidence → Evidence) : Eff (Run σ κ) Thrown Unit :=
  Eff.modify fun r => { r with evidence := f r.evidence }

def fail {τ : Type} (kind : ErrorKind) (object : Str) (profile step message : String) : Eff τ Thrown α :=
  Eff.raise (.observation
    { kind := kind, object := object, profile := profile, step := step, message := message })

/-- `if (p) throw ObservationFailure(...)`. -/
def failIf {τ : Type} (p : Prop) [Decidable p] (kind : ErrorKind)
    (object : Str) (profile step message : String) : Eff τ Thrown Unit :=
  if p then fail kind object profile step message else pure ()

/-- `catch (const std::exception& failure)`, given `failure.what()`. -/
def catchStandard {τ : Type} (m : Eff τ Thrown α) (handler : String → Eff τ Thrown α) :
    Eff τ Thrown α :=
  Eff.catching m fun
    | .nonstandard => Eff.raise .nonstandard
    | t => handler t.what

/-- `m.at(key)`. -/
def mapAt {τ : Type} (m : FileMap) (key : Str) : Eff τ Thrown Str :=
  match m.lookup key with
  | some v => pure v
  | none => Eff.raise (.standard ⟨.outOfRange,"map::at"⟩)

def isDots (name : Str) : Bool := name == "." || name == ".."

/-- The entries the comparison looks at. -/
def listed (entries : List Entry) : List Entry := entries.filter fun e => !isDots e.name

def names (entries : List Entry) : List Str :=
  ((listed entries).map Entry.name).insertionSort (· ≤ ·)

/-- The checks on the entries from one of them on; `seen` holds the names before it. -/
def checkEntriesFrom {τ : Type} (f : FixtureCase) (dirId : Str) (step : String) (seen : List Str) :
    List Entry → Eff τ Thrown Unit
  | [] => pure ()
  | e::entries => do
    if isDots e.name then
      checkEntriesFrom f dirId step seen entries
    else if e.name = [] ∨ e.name.any (· ∈ nameBreaks) ∨ e.name ∈ seen then
      fail .malformed e.name directoryProfile step "malformed or duplicate entry"
    else if e.reparse then
      fail .reparse e.name childProfile step "reparse entry"
    else if e.type ≠ "regular" ∨ e.fileId = [] ∨ e.parentId ≠ dirId then
      fail .identityDrift e.name childProfile step "type or parent identity mismatch"
    else if !f.latestFiles.contains e.name then
      fail .unexpectedEntry e.name directoryProfile step "unlisted state child"
    else
      checkEntriesFrom f dirId step (e.name::seen) entries

def checkEntries {τ : Type} (entries : List Entry) (f : FixtureCase) (dirId : Str) (step : String) :
    Eff τ Thrown Unit :=
  checkEntriesFrom f dirId step [] entries

/-- The first loop: every child is held and its identity compared with the enumeration. -/
def holdEntries (session : SnapshotSession σ) (ids : FileMap) :
    List Entry → Eff (Run σ κ) Thrown FileMap
  | [] => pure ids
  | entry::entries => do
    if isDots entry.name then
      holdEntries session ids entries
    else
      observe (session.holdChild entry.name) (.holdChild entry.name)
      let id ← observe (session.heldIdentity entry.name) (.heldIdentity entry.name)
      failIf (id ≠ entry.fileId) .identityDrift entry.name childProfile "hold-identity"
        "opened child differs from enumeration"
      holdEntries session (ids.emplace entry.name id) entries

/-- The second loop, over the held identities: every child is read once. -/
def readEntries (b : BCrypt κ) (session : SnapshotSession σ) (bytes : FileMap) :
    List (Str × Str) → Eff (Run σ κ) Thrown FileMap
  | [] => pure bytes
  | (name,id)::ids => do
    let text ← observe (session.readChild name) (.readChild name)
    let bytes := bytes.emplace name text
    record fun e => { e with heldFileIds := e.heldFileIds.assign name id }
    let content ← mapAt bytes name
    let hash ← catchStandard (unlogged (standardOnly (sha256 b content)))
      (fail .hashFailure name "BCrypt-SHA256/state-child" "child-hash")
    record fun e => { e with contentSha256 := e.contentSha256.assign name hash }
    readEntries b session bytes ids

/-- The body of the third loop: identity and content are observed a second time. -/
def recheckEntry (session : SnapshotSession σ) (ids bytes : FileMap) (entry : Entry) :
    Eff (Run σ κ) Thrown Unit := do
  if isDots entry.name then
    pure ()
  else
    let id ← mapAt ids entry.name
    failIf (id ≠ entry.fileId) .identityDrift entry.name childProfile "final-child-identity"
      "child identity changed"
    let held ← observe (session.heldIdentity entry.name) (.heldIdentity entry.name)
    let id ← mapAt ids entry.name
    failIf (held ≠ id) .identityDrift entry.name childProfile "final-child-identity"
      "child identity changed"
    let text ← observe (session.readChild entry.name) (.readChild entry.name)
    let content ← mapAt bytes entry.name
    failIf (text ≠ content) .identityDrift entry.name childProfile "final-content"
      "held content changed"

/-- The verdict on a complete snapshot. -/
def conclude (fixture : FixtureCase) (bytes : FileMap) (e : Evidence) : Evidence :=
  let e := { e with snapshotComplete := true }
  if bytes.entries.isEmpty then
    { e with verdict := .rejectDeleted, detail := "complete empty state set" }
  else if e.observedDigest = fixture.latestDigest ∧ bytes = fixture.latestFiles then
    { e with verdict := .acceptCurrent, detail := "exact latest set" }
  else if e.observedDigest = fixture.oldDigest ∧ bytes = fixture.oldFiles then
    { e with verdict := .rejectRestoredOld, detail := "complete old set" }
  else
    { e with verdict := .rejectMismatch, detail := "complete observed noncurrent set" }

/-- The comparison once a session is open. -/
def compareSession (b : BCrypt κ) (provider : SnapshotHashProvider κ) (fixture : FixtureCase)
    (expectedDirectoryId : Str) (session : SnapshotSession σ) :
    Eff (Run σ κ) Thrown Unit := do
  let dirId ← observe session.directoryIdentity .directoryIdentity
  failIf (dirId = [] ∨ dirId ≠ expectedDirectoryId) .identityDrift "state/" directoryProfile
    "directory-identity" "directory differs from G2 record"
  let before ← observe session.inventory .inventory
  record fun e => { e with beforeInventory := names before }
  checkEntries before fixture dirId "initial-inventory"
  let ids ← holdEntries session .empty before
  let bytes ← readEntries b session .empty ids.entries
  let after ← observe session.inventory .inventory
  record fun e => { e with afterInventory := names after }
  checkEntries after fixture dirId "final-inventory"
  failIf (names before ≠ names after) .identityDrift "state/" directoryProfile "final-inventory"
    "directory inventory changed"
  let final ← observe session.directoryIdentity .directoryIdentity
  failIf (final ≠ dirId) .identityDrift "state/" directoryProfile "final-directory-identity"
    "directory identity changed"
  Eff.forEach (recheckEntry session ids bytes) after
  let digest ← catchStandard (hashing (provider.digestMutableSet bytes) (.digestMutableSet bytes))
    (fail .hashFailure "state/" "BCrypt-SHA256/mutable-set-v1" "final-mutable-digest")
  record fun e => { e with observedDigest := digest }
  record (conclude fixture bytes)

/-- The P11 bytes against the head that the fixture and the P10 digest render. -/
def headBinding {τ : Type} (fixture : FixtureCase) (p11 p10 : Str) : Eff τ Thrown Unit :=
  match renderP11 fixture p10 with
  | .error e => fail .bindingFailure "P11" "protected-marker-v1" "head-binding" e.what
  | .ok head =>
    failIf (p11 ≠ head) .bindingFailure "P11" "protected-marker-v1" "head-binding"
      "protected marker/head mismatch"

/-- The outer `try` block. The session is destroyed when the block is left. -/
def compareBody (b : BCrypt κ) (provider : SnapshotHashProvider κ) (source : SnapshotSource σ)
    (fixture : FixtureCase) (expectedDirectoryId p11 p10 : Str) :
    Eff (Run σ κ) Thrown Unit := do
  let hash ← catchStandard (hashing (provider.hashP11 p11) .hashP11)
    (fail .hashFailure "P11" "BCrypt-SHA256/P11" "p11-hash")
  record fun e => { e with p11Sha256 := hash }
  headBinding fixture p11 p10
  match ← observe (source.openSession directoryProfile)
      (fun r => .opened (r.map Option.isSome)) with
  | none => fail .incomplete "state/" directoryProfile "open" "null session"
  | some session =>
    Eff.owning (fun r => { r with world := session.destroy r.world })
      (compareSession b provider fixture expectedDirectoryId session)

/-- The two handlers of `compare_impl`; nothing else is caught there. -/
def stopInconclusive : Thrown → Eff (Run σ κ) Thrown Unit
  | .observation f => record fun e =>
      { e with
        verdict := .stopInconclusive, snapshotComplete := false, error := f.kind
        object := f.object, profile := f.profile, step := f.step, detail := f.message
        ntstatus := f.ntstatus, hasNtstatus := f.hasNtstatus
        win32Error := f.win32Error, hasWin32Error := f.hasWin32Error }
  | .standard f => record fun e =>
      { e with
        verdict := .stopInconclusive, snapshotComplete := false, error := .incomplete
        object := "state/", profile := directoryProfile, step := "unclassified-observation"
        detail := f.what }
  | .nonstandard => Eff.raise .nonstandard

def compareImpl (b : BCrypt κ) (provider : SnapshotHashProvider κ) (source : SnapshotSource σ)
    (fixture : FixtureCase) (expectedDirectoryId p11 p10 : Str)
    (processReached brokerReadReached : Bool) : Eff (Run σ κ) Thrown Evidence := do
  record fun e =>
    { e with
      caseId := fixture.id, processReached := processReached
      brokerReadReached := brokerReadReached, expectedDigest := fixture.latestDigest }
  if !processReached || !brokerReadReached then
    record fun e =>
      { e with
        error := .bindingFailure, step := "reach"
        detail := "fresh A2 process and authenticated A3 read required" }
  else
    Eff.catching (compareBody b provider source fixture expectedDirectoryId p11 p10)
      stopInconclusive
  let r ← Eff.get
  return r.evidence

def bcryptSnapshotHashProvider (b : BCrypt κ) : SnapshotHashProvider κ where
  hashP11 bytes := standardOnly (sha256 b bytes)
  digestMutableSet files := standardOnly (mutableDigest b files)

def compareFreshController (b : BCrypt κ) (source : SnapshotSource σ) (fixture : FixtureCase)
    (expectedDirectoryId p11 p10 : Str) (processReached brokerReadReached : Bool) :
    Eff (Run σ κ) Thrown Evidence :=
  compareImpl b (bcryptSnapshotHashProvider b) source fixture expectedDirectoryId p11 p10
    processReached brokerReadReached

def compareWithHashProvider (b : BCrypt κ) (source : SnapshotSource σ) (fixture : FixtureCase)
    (expectedDirectoryId p11 p10 : Str) (processReached brokerReadReached : Bool)
    (provider : SnapshotHashProvider κ) : Eff (Run σ κ) Thrown Evidence :=
  compareImpl b provider source fixture expectedDirectoryId p11 p10 processReached
    brokerReadReached

end SoftwareFactory.StageA
