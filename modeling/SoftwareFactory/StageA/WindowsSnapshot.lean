import SoftwareFactory.StageA.Snapshot

namespace SoftwareFactory.StageA.Windows

open Effect

/-- A `std::wstring`, by its UTF-16 units. -/
abbrev WStr := List UInt16

abbrev Handle := Nat

/-- A wide literal. -/
def wide (s : String) : WStr := s.toList.map fun c => c.toNat.toUInt16

def maxChildBytes : Nat := 1048576
def maxPages : Nat := 16
def maxEntries : Nat := 32

def generalIdentityProfile : String := "protected-object identity/read: operation-specific access;default FILE_SHARE_READ|FILE_SHARE_WRITE without FILE_SHARE_DELETE;never a mutable snapshot profile"

def fileAttributeDirectory : UInt32 := 0x10
def fileAttributeDevice : UInt32 := 0x40
def fileAttributeReparsePoint : UInt32 := 0x400

structure OpenSpec where
  access : UInt32
  share : UInt32
  disposition : UInt32
  options : UInt32
  objectAttributes : UInt32
  deriving DecidableEq, Repr

structure RootOpenSpec where
  access : UInt32
  share : UInt32
  disposition : UInt32
  flags : UInt32
  deriving DecidableEq, Repr

/-- `FILE_READ_ATTRIBUTES | READ_CONTROL`, shared for reading and writing. -/
def rootIdentitySpec : RootOpenSpec := ⟨0x20080,0x3,3,0x2200000⟩

def ancestorIdentitySpec : OpenSpec := ⟨0x120080,0x3,1,0x204021,0x1040⟩

def snapshotDirectorySpec : OpenSpec := ⟨0x120081,0x1,1,0x204021,0x1040⟩

def snapshotChildSpec : OpenSpec := ⟨0x120081,0x1,1,0x200060,0x1040⟩

structure Metadata where
  volumeGuidPath : WStr
  finalPath : WStr
  sddl : WStr
  volumeSerial : UInt64
  fileId : Vector UInt8 16
  attributes : UInt32
  reparseTag : UInt32
  directory : Bool
  daclProtected : Bool
  deriving DecidableEq

structure ExpectedNode where
  component : WStr
  identity : Metadata

structure SnapshotConfig where
  volumeRootPath : WStr
  rootIdentity : Metadata
  ancestors : List ExpectedNode
  stateDirectory : ExpectedNode
  childSddl : OrderedMap Str WStr

structure NativeEntry where
  name : Str
  fileId : Vector UInt8 16
  attributes : UInt32
  reparseTag : UInt32
  deriving DecidableEq

structure DirectoryPage where
  atEnd : Bool
  entries : List NativeEntry

structure IdentityObservation where
  object : Str
  profile : String
  step : String
  parentId : Str
  observed : Metadata

structure InventoryObservation where
  phase : String
  entries : List NativeEntry := []
  pages : Nat := 0
  explicitEnd : Bool := false

structure SnapshotAudit where
  identities : List IdentityObservation := []
  inventories : List InventoryObservation := []

/-- The native backend may keep any state and answer every call as it likes. -/
structure NativeCalls (ν : Type) where
  openRoot : WStr → RootOpenSpec → Eff ν Thrown Handle
  openRelative : Handle → WStr → OpenSpec → Str → String → Eff ν Thrown Handle
  inspect : Handle → Str → String → String → Eff ν Thrown Metadata
  nextPage : Handle → Bool → Eff ν Thrown DirectoryPage
  readAll : Handle → Nat → Str → Eff ν Thrown Str
  close : Handle → ν → ν

/-- One call of the backend, with its outcome. -/
inductive NativeEvent where
  | openRoot (path : WStr) (spec : RootOpenSpec) (r : Except Thrown Handle)
  | openRelative (parent : Handle) (component : WStr) (spec : OpenSpec) (object : Str)
      (profile : String) (r : Except Thrown Handle)
  | inspect (handle : Handle) (object : Str) (profile step : String) (r : Except Thrown Metadata)
  | nextPage (directory : Handle) (restart : Bool) (r : Except Thrown DirectoryPage)
  | readAll (file : Handle) (maxBytes : Nat) (object : Str) (r : Except Thrown Str)
  | close (handle : Handle)

structure Verified where
  handle : Handle
  expected : Metadata
  object : Str
  profile : String
  parentId : Str

structure Child where
  handle : Handle
  component : WStr
  initial : Metadata

/-- The members of a `WindowsSession` that change. -/
structure SessionState where
  handles : List Handle := []
  verified : List Verified := []
  directory : Handle := 0
  initialInventorySet : Bool := false
  initialInventory : OrderedMap Str NativeEntry := .empty
  children : OrderedMap Str Child := .empty

/-- The backend, the calls made to it, the audit record and the session under way. -/
structure World (ν : Type) where
  native : ν
  calls : List NativeEvent := []
  audit : SnapshotAudit := {}
  session : SessionState := {}

/-- UTF-8 bytes of a code point. -/
def utf8Bytes (n : Nat) : List Nat :=
  if n < 0x80 then [n]
  else if n < 0x800 then [0xc0+n/64,0x80+n%64]
  else if n < 0x10000 then [0xe0+n/4096,0x80+n/64%64,0x80+n%64]
  else [0xf0+n/262144,0x80+n/4096%64,0x80+n/64%64,0x80+n%64]

/-- `WideCharToMultiByte(CP_UTF8, WC_ERR_INVALID_CHARS, ..)`: an unpaired surrogate fails. -/
def wideCharToMultiByte : WStr → Option Str
  | [] => some []
  | u::us =>
    if u < 0xd800 ∨ 0xe000 ≤ u then
      (wideCharToMultiByte us).map ((utf8Bytes u.toNat).map Char.ofNat ++ ·)
    else match us with
      | [] => none
      | v::vs =>
        if u < 0xdc00 ∧ 0xdc00 ≤ v ∧ v < 0xe000 then
          let n := 0x10000+(u.toNat-0xd800)*0x400+(v.toNat-0xdc00)
          (wideCharToMultiByte vs).map ((utf8Bytes n).map Char.ofNat ++ ·)
        else none

def isContinuation (c : Char) : Bool := decide (0x80 ≤ c.toNat) && decide (c.toNat < 0xc0)

/-- `MultiByteToWideChar(CP_UTF8, MB_ERR_INVALID_CHARS, ..)`: only the shortest form of a
code point that is no surrogate is accepted. -/
def multiByteToWideChar : Str → Option WStr
  | [] => some []
  | a::as =>
    if a.toNat < 0x80 then (multiByteToWideChar as).map (a.toNat.toUInt16 :: ·)
    else match as with
      | [] => none
      | b::bs =>
        if !isContinuation b then none
        else if 0xc2 ≤ a.toNat ∧ a.toNat < 0xe0 then
          (multiByteToWideChar bs).map
            (((a.toNat-0xc0)*64+(b.toNat-0x80)).toUInt16 :: ·)
        else match bs with
          | [] => none
          | c::cs =>
            if !isContinuation c then none
            else if 0xe0 ≤ a.toNat ∧ a.toNat < 0xf0 then
              let n := (a.toNat-0xe0)*4096+(b.toNat-0x80)*64+(c.toNat-0x80)
              if n < 0x800 ∨ (0xd800 ≤ n ∧ n < 0xe000) then none
              else (multiByteToWideChar cs).map (n.toUInt16 :: ·)
            else match cs with
              | [] => none
              | d::ds =>
                let n := (a.toNat-0xf0)*262144+(b.toNat-0x80)*4096+(c.toNat-0x80)*64+
                  (d.toNat-0x80)
                if !isContinuation d ∨ a.toNat < 0xf0 ∨ 0xf5 ≤ a.toNat ∨ n < 0x10000 ∨
                    0x110000 ≤ n then none
                else (multiByteToWideChar ds).map fun ws =>
                  (0xd800+(n-0x10000)/0x400).toUInt16 ::
                    (0xdc00+(n-0x10000)%0x400).toUInt16::ws

def utf8 (w : WStr) : Except StdException Str :=
  if w.length > 2147483647 then .error ⟨.lengthError,"UTF-16 name too long"⟩
  else match wideCharToMultiByte w with
    | none => .error ⟨.runtimeError,"invalid UTF-16 from Windows"⟩
    | some s => .ok s

def isComponentChar (c : UInt16) : Bool :=
  (decide (0x61 ≤ c) && decide (c ≤ 0x7a)) || (decide (0x41 ≤ c) && decide (c ≤ 0x5a)) ||
    (decide (0x30 ≤ c) && decide (c ≤ 0x39)) || c == 0x5f || c == 0x2d || c == 0x2e

def validComponent (w : WStr) : Bool :=
  !(w.isEmpty || decide (w.length > 255) || w == wide "." || w == wide ".." ||
    w.getLast? == some 0x2e || w.getLast? == some 0x20) && w.all isComponentChar

def wideComponent (name : Str) : Except StdException WStr :=
  if name = [] ∨ name.length > 255 then .error ⟨.invalidArgument,"invalid child length"⟩
  else match multiByteToWideChar name with
    | none => .error ⟨.invalidArgument,"invalid child UTF-8"⟩
    | some w =>
      if !validComponent w then .error ⟨.invalidArgument,"invalid child component"⟩ else .ok w

def nonzeroId (id : Vector UInt8 16) : Bool := id.toList.any (· != 0)

def isReparse (m : Metadata) : Bool := m.attributes &&& fileAttributeReparsePoint != 0

def sameIdentity (a b : Metadata) : Bool :=
  a.volumeGuidPath == b.volumeGuidPath && a.finalPath == b.finalPath && a.sddl == b.sddl &&
    a.volumeSerial == b.volumeSerial && a.fileId == b.fileId && a.directory == b.directory &&
    a.daclProtected == b.daclProtected && isReparse a == isReparse b &&
    a.reparseTag == b.reparseTag

variable {τ ν α : Type}

def requireIdentity (actual expected : Metadata) (object : Str) (profile step : String) :
    Eff τ Thrown Unit :=
  failIf (!sameIdentity actual expected ∨ actual.finalPath = [] ∨ actual.volumeGuidPath = [] ∨
      actual.sddl = [] ∨ !nonzeroId actual.fileId ∨ isReparse actual ∨ actual.reparseTag ≠ 0)
    .identityDrift object profile step "held identity, descriptor or reparse state differs"

def childFinalPath (parent component : WStr) : WStr :=
  parent++(if parent = [] ∨ parent.getLast? = some 0x5c then [] else wide "\\")++component

def requireChild (actual parent : Metadata) (component expectedSddl : WStr) (object : Str)
    (step : String) : Eff τ Thrown Unit :=
  failIf (actual.directory ∨
      actual.attributes &&& (fileAttributeDirectory ||| fileAttributeDevice) ≠ 0 ∨
      !actual.daclProtected ∨ actual.sddl = [] ∨ isReparse actual ∨ actual.reparseTag ≠ 0 ∨
      actual.volumeGuidPath ≠ parent.volumeGuidPath ∨ actual.volumeSerial ≠ parent.volumeSerial ∨
      actual.finalPath ≠ childFinalPath parent.finalPath component ∨
      !nonzeroId actual.fileId ∨ actual.sddl ≠ expectedSddl)
    .identityDrift object childProfile step
    "child type, parent binding, descriptor or reparse state differs"

def fileIdHex (id : Vector UInt8 16) : Str := hexText id.toList

def identityKey (identity : Metadata) : Except StdException Str := do
  let path ← utf8 identity.finalPath
  return decimal identity.volumeSerial.toNat++":"++fileIdHex identity.fileId++":"++path

def ofExcept (r : Except StdException α) : Eff τ Thrown α :=
  match r with
  | .ok a => pure a
  | .error e => Eff.raise (.standard e)

/-- A call of the backend. -/
def native (op : Eff ν Thrown α) (event : Except Thrown α → NativeEvent) :
    Eff (World ν) Thrown α := fun w =>
  let (a,n) := op w.native
  (a,{ w with native := n, calls := w.calls++[event a] })

def session : Eff (World ν) Thrown SessionState := fun w => (.ok w.session,w)

def updateSession (f : SessionState → SessionState) : Eff (World ν) Thrown Unit :=
  Eff.modify fun w => { w with session := f w.session }

def updateAudit (f : SnapshotAudit → SnapshotAudit) : Eff (World ν) Thrown Unit :=
  Eff.modify fun w => { w with audit := f w.audit }

def pushIdentity (o : IdentityObservation) : Eff (World ν) Thrown Unit :=
  updateAudit fun a => { a with identities := a.identities++[o] }

/-- A change of `audit_->inventories.back()`. -/
def updateInventory (f : InventoryObservation → InventoryObservation) :
    Eff (World ν) Thrown Unit :=
  updateAudit fun a =>
    { a with inventories := a.inventories.dropLast++(a.inventories.getLast?.map f).toList }

variable (calls : NativeCalls ν) (config : SnapshotConfig)

def inspect (handle : Handle) (object : Str) (profile step : String) :
    Eff (World ν) Thrown Metadata :=
  native (calls.inspect handle object profile step) (.inspect handle object profile step)

def verifyNode (step : String) (node : Verified) : Eff (World ν) Thrown Unit := do
  let actual ← inspect calls node.handle node.object node.profile step
  pushIdentity ⟨node.object,node.profile,step,node.parentId,actual⟩
  requireIdentity actual node.expected node.object node.profile step
  failIf (!actual.directory) .identityDrift node.object node.profile step
    "expected held directory"

def requireParentBinding (actual parent : Metadata) (component : WStr) (object : Str)
    (profile : String) : Eff τ Thrown Unit :=
  failIf (actual.volumeGuidPath ≠ parent.volumeGuidPath ∨
      actual.volumeSerial ≠ parent.volumeSerial ∨
      actual.finalPath ≠ childFinalPath parent.finalPath component)
    .identityDrift object profile "parent-binding" "held node does not bind to held parent"

def pushHandle (handle : Handle) : Eff (World ν) Thrown Unit :=
  updateSession fun s => { s with handles := s.handles++[handle] }

def pushVerified (node : Verified) : Eff (World ν) Thrown Unit :=
  updateSession fun s => { s with verified := s.verified++[node] }

/-- The loop of `initialize` over the ancestors; it returns the innermost handle and the
identity the next node is bound to. -/
def openAncestors (current : Handle) (parent : Metadata) :
    List ExpectedNode → Eff (World ν) Thrown (Handle × Metadata)
  | [] => pure (current,parent)
  | ancestor::ancestors => do
    let object ← ofExcept (utf8 ancestor.component)
    let handle ← native
      (calls.openRelative current ancestor.component ancestorIdentitySpec object
        generalIdentityProfile)
      (.openRelative current ancestor.component ancestorIdentitySpec object
        generalIdentityProfile)
    pushHandle handle
    let parentId ← ofExcept (identityKey parent)
    let node : Verified := ⟨handle,ancestor.identity,object,generalIdentityProfile,parentId⟩
    pushVerified node
    verifyNode calls "ancestor-identity" node
    requireParentBinding ancestor.identity parent ancestor.component object
      generalIdentityProfile
    openAncestors handle ancestor.identity ancestors

def initializeSession : Eff (World ν) Thrown Unit := do
  let root ← native (calls.openRoot config.volumeRootPath rootIdentitySpec)
    (.openRoot config.volumeRootPath rootIdentitySpec)
  pushHandle root
  let node : Verified := ⟨root,config.rootIdentity,"volume-root",generalIdentityProfile,[]⟩
  pushVerified node
  verifyNode calls "root-identity" node
  let (current,parent) ← openAncestors calls root config.rootIdentity config.ancestors
  let handle ← native
    (calls.openRelative current config.stateDirectory.component snapshotDirectorySpec "state/"
      directoryProfile)
    (.openRelative current config.stateDirectory.component snapshotDirectorySpec "state/"
      directoryProfile)
  pushHandle handle
  updateSession fun s => { s with directory := handle }
  let parentId ← ofExcept (identityKey parent)
  let node : Verified :=
    ⟨handle,config.stateDirectory.identity,"state/",directoryProfile,parentId⟩
  pushVerified node
  verifyNode calls "state-directory-identity" node
  requireParentBinding config.stateDirectory.identity parent config.stateDirectory.component
    "state/" directoryProfile

def directoryIdentity : Eff (World ν) Thrown Str := do
  let s ← session
  Eff.forEach (verifyNode calls "held-identity") s.verified
  ofExcept (identityKey config.stateDirectory.identity)

/-- The two accumulators of `inventory`. -/
structure Collected where
  result : List Entry := []
  observed : OrderedMap Str NativeEntry := .empty

/-- The entries of a page from one of them on. -/
def collectEntries (acc : Collected) : List NativeEntry → Eff (World ν) Thrown Collected
  | [] => pure acc
  | entry::entries => do
    if isDots entry.name then
      collectEntries acc entries
    else
      updateInventory fun i => { i with entries := i.entries++[entry] }
      failIf (entry.attributes &&& fileAttributeDevice ≠ 0) .identityDrift entry.name childProfile
        "enumeration-type" "device-marked state child is not a regular file"
      failIf (maxEntries ≤ acc.result.length) .incomplete "state/" directoryProfile
        "enumeration-limit" "state entry limit exceeded"
      failIf (entry.name = [] ∨ acc.observed.contains entry.name) .malformed entry.name
        directoryProfile "enumeration-entry" "empty or duplicate name"
      let reparse := entry.attributes &&& fileAttributeReparsePoint != 0 || entry.reparseTag != 0
      let directory := entry.attributes &&& fileAttributeDirectory != 0
      let parentId ← ofExcept (identityKey config.stateDirectory.identity)
      collectEntries
        ⟨acc.result++[⟨entry.name,if directory then "directory" else "regular",
            fileIdHex entry.fileId,parentId,reparse⟩],
          acc.observed.emplace entry.name entry⟩ entries

/-- The pages that are left; the first of all restarts the scan. `none` means that no
explicit end came. -/
def collectPages (acc : Collected) (pageNumber : Nat) :
    Nat → Eff (World ν) Thrown (Option Collected)
  | 0 => pure none
  | left+1 => do
    let s ← session
    let page ← native (calls.nextPage s.directory (pageNumber == 0))
      (.nextPage s.directory (pageNumber == 0))
    if page.atEnd then
      pure (some acc)
    else
      updateInventory fun i => { i with pages := i.pages+1 }
      failIf (page.entries = []) .incomplete "state/" directoryProfile "enumeration-page"
        "empty data page"
      let acc ← collectEntries config acc page.entries
      collectPages acc (pageNumber+1) left

def inventory : Eff (World ν) Thrown (List Entry) := do
  let _ ← directoryIdentity calls config
  let s ← session
  updateAudit fun a =>
    { a with
      inventories := a.inventories++
        [{ phase := if s.initialInventorySet then "final" else "initial" }] }
  match ← collectPages calls config {} 0 maxPages with
  | none =>
    fail .incomplete "state/" directoryProfile "enumeration-limit" "no explicit enumeration end"
  | some acc =>
    updateInventory fun i => { i with explicitEnd := true }
    updateSession fun s =>
      if s.initialInventorySet then s
      else { s with initialInventory := acc.observed, initialInventorySet := true }
    return acc.result

def holdChild (name : Str) : Eff (World ν) Thrown Unit := do
  let s ← session
  match s.initialInventory.lookup name with
  | none =>
    fail .incomplete name childProfile "hold-child"
      "child absent from initial inventory or already held"
  | some entry =>
    failIf (!s.initialInventorySet ∨ s.children.contains name) .incomplete name childProfile
      "hold-child" "child absent from initial inventory or already held"
    match config.childSddl.lookup name with
    | none =>
      fail .unexpectedEntry name childProfile "hold-child"
        "child absent from exact descriptor manifest"
    | some sddl =>
      match wideComponent name with
      | .error e => fail .malformed name childProfile "hold-child-name" e.what
      | .ok component =>
        let handle ← native
          (calls.openRelative s.directory component snapshotChildSpec name childProfile)
          (.openRelative s.directory component snapshotChildSpec name childProfile)
        pushHandle handle
        let actual ← inspect calls handle name childProfile "hold-child-identity"
        let parentId ← ofExcept (identityKey config.stateDirectory.identity)
        pushIdentity ⟨name,childProfile,"hold-child-identity",parentId,actual⟩
        requireChild actual config.stateDirectory.identity component sddl name
          "hold-child-identity"
        failIf (fileIdHex actual.fileId ≠ fileIdHex entry.fileId) .identityDrift name childProfile
          "hold-child-identity" "opened child differs from directory entry"
        updateSession fun s =>
          { s with children := s.children.emplace name ⟨handle,component,actual⟩ }

def findChild (name : Str) : Eff (World ν) Thrown Child := do
  let s ← session
  match s.children.lookup name with
  | none => fail .incomplete name childProfile "held-child" "child handle is not held"
  | some child => pure child

def heldIdentity (name : Str) : Eff (World ν) Thrown Str := do
  let child ← findChild name
  let actual ← inspect calls child.handle name childProfile "held-child-identity"
  let parentId ← ofExcept (identityKey config.stateDirectory.identity)
  pushIdentity ⟨name,childProfile,"held-child-identity",parentId,actual⟩
  match config.childSddl.lookup name with
  | none => Eff.raise (.standard ⟨.outOfRange,"map::at"⟩)
  | some sddl =>
    requireChild actual config.stateDirectory.identity child.component sddl name
      "held-child-identity"
    requireIdentity actual child.initial name childProfile "held-child-identity"
    return fileIdHex actual.fileId

def readChild (name : Str) : Eff (World ν) Thrown Str := do
  let child ← findChild name
  native (calls.readAll child.handle maxChildBytes name)
    (.readAll child.handle maxChildBytes name)

/-- `~WindowsSession`: the handles are closed in reverse order. -/
def destroySession (w : World ν) : World ν :=
  { w with
    native := w.session.handles.reverse.foldl (fun n h => calls.close h n) w.native
    calls := w.calls++w.session.handles.reverse.map .close }

def windowsSession : SnapshotSession (World ν) where
  directoryIdentity := directoryIdentity calls config
  inventory := inventory calls config
  holdChild := holdChild calls config
  heldIdentity := heldIdentity calls config
  readChild := readChild calls
  destroy := destroySession calls

/-- What the constructor of `WindowsSnapshotSource` asks of its configuration. -/
def SnapshotConfig.Reviewed (config : SnapshotConfig) : Prop :=
  (config.volumeRootPath.length = 3 ∧ config.volumeRootPath[1]? = some 0x3a ∧
    config.volumeRootPath[2]? = some 0x5c ∧ config.ancestors.length = 2 ∧
    (∀ a ∈ config.ancestors,validComponent a.component) ∧
    validComponent config.stateDirectory.component ∧ config.rootIdentity.finalPath ≠ [] ∧
    config.stateDirectory.identity.finalPath ≠ []) ∧
  config.childSddl.entries.length = 3 ∧
    ∀ name ∈ ["lock.bin","state.json","witness.txt"],
      (config.childSddl.lookup name).any (· ≠ [])

instance (config : SnapshotConfig) : Decidable config.Reviewed :=
  inferInstanceAs (Decidable (_ ∧ _))

/-- A source exists only for a configuration that the constructor has accepted. -/
structure WindowsSnapshotSource where
  config : SnapshotConfig
  reviewed : config.Reviewed

namespace WindowsSnapshotSource

variable {calls}

def openSession (calls : NativeCalls ν) (source : WindowsSnapshotSource) (profile : String) :
    Eff (World ν) Thrown (Option (SnapshotSession (World ν))) := do
  failIf (profile ≠ directoryProfile) .bindingFailure "state/" profile "snapshot-profile"
    "unsupported snapshot profile"
  updateAudit fun _ => {}
  updateSession fun _ => {}
  Eff.unwinding (destroySession calls) (initializeSession calls source.config)
  return some (windowsSession calls source.config)

def snapshotSource (calls : NativeCalls ν) (source : WindowsSnapshotSource) :
    SnapshotSource (World ν) :=
  ⟨source.openSession calls⟩

def expectedDirectoryId (source : WindowsSnapshotSource) : Except StdException Str :=
  identityKey source.config.stateDirectory.identity

end WindowsSnapshotSource

end SoftwareFactory.StageA.Windows
