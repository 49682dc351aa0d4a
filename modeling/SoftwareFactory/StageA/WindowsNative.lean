import SoftwareFactory.Lib.FileRead
import SoftwareFactory.StageA.DirectoryParser
import SoftwareFactory.StageA.WindowsP11Custody

namespace SoftwareFactory.StageA.Windows

open Effect

/-- `FILE_STANDARD_INFO`, as far as it is read. -/
structure FileStandardInfo where
  endOfFile : Int
  directory : Bool

/-- `FILE_ID_INFO`. -/
structure FileIdInfo where
  volumeSerialNumber : UInt64
  fileId : Vector UInt8 16

/-- `FILE_ATTRIBUTE_TAG_INFO`. -/
structure FileAttributeTagInfo where
  fileAttributes : UInt32
  reparseTag : UInt32

/-- The functions of Windows that the backend calls. One that reports failure raises what
`GetLastError` says after it. -/
structure Win32 (ν : Type) where
  createFile : WStr → RootOpenSpec → Eff ν UInt32 Handle
  /-- The status and the handle, which may be missing all the same. -/
  ntCreateFile : Handle → WStr → OpenSpec → ν → (Int × Handle) × ν
  rtlNtStatusToDosError : Int → UInt32
  fileIdInfo : Handle → Eff ν UInt32 FileIdInfo
  fileAttributeTagInfo : Handle → Eff ν UInt32 FileAttributeTagInfo
  fileStandardInfo : Handle → Eff ν UInt32 FileStandardInfo
  finalPathSize : Handle → Eff ν UInt32 Nat
  /-- The count that is returned and what is written to a buffer of the given size. -/
  finalPath : Handle → Nat → Eff ν UInt32 (Nat × WStr)
  securityDescriptor : Handle → Eff ν UInt32 Nat
  securityDescriptorControl : Nat → Eff ν UInt32 UInt16
  securityDescriptorString : Nat → Eff ν UInt32 WStr
  /-- One page of a directory, from the start or from where the last one ended. -/
  directoryInfo : Handle → Bool → Eff ν UInt32 (List UInt8)
  setFilePointer : Handle → Eff ν UInt32 Unit
  readFile : Handle → Nat → Eff ν UInt32 (FileRead.Answer Char)
  closeHandle : Handle → ν → ν

def statusSharingViolation : Int := -1073741757
def errorFileNotFound : UInt32 := 2
def errorNoMoreFiles : UInt32 := 18
def errorSharingViolation : UInt32 := 32
def errorInsufficientBuffer : UInt32 := 122
def errorMoreData : UInt32 := 234
def errorMrMidNotFound : UInt32 := 317
def seDaclProtected : UInt16 := 0x1000

def enumerationEndError (win32Error : UInt32) (restart : Bool) : Bool :=
  win32Error == errorNoMoreFiles || (restart && win32Error == errorFileNotFound)

def ntFailure (fallback : ErrorKind) (object : Str) (profile step : String) (status : Int)
    (mappedWin32 : UInt32) (hasMappedWin32 : Bool) : ObservationFailure where
  kind := if status = statusSharingViolation ∨
      (hasMappedWin32 ∧ mappedWin32 = errorSharingViolation) then .sharingConflict else fallback
  object := object
  profile := profile
  step := step
  message := "NtCreateFile failed"
  ntstatus := status
  hasNtstatus := true
  win32Error := mappedWin32
  hasWin32Error := hasMappedWin32

def win32Failure (fallback : ErrorKind) (object : Str) (profile step : String)
    (error : UInt32) : ObservationFailure where
  kind := if error = errorSharingViolation then .sharingConflict else fallback
  object := object
  profile := profile
  step := step
  message := "Windows handle operation failed"
  win32Error := error
  hasWin32Error := true

variable {ν κ α : Type}

/-- A call whose failure is thrown as a `win32_failure`. -/
def orThrow (op : Eff ν UInt32 α) (fallback : ErrorKind) (object : Str) (profile step : String) :
    Eff ν Thrown α := fun w =>
  match op w with
  | (.ok a,w') => (.ok a,w')
  | (.error e,w') => (.error (.observation (win32Failure fallback object profile step e)),w')

namespace Win32

variable (win : Win32 ν)

def openRoot (path : WStr) (spec : RootOpenSpec) : Eff ν Thrown Handle :=
  orThrow (win.createFile path spec) .nativeFailure "volume-root" generalIdentityProfile
    "open-root"

def openRelative (parent : Handle) (component : WStr) (spec : OpenSpec) (object : Str)
    (profile : String) : Eff ν Thrown Handle := do
  failIf (!validComponent component ∨ component.length > 32767) .malformed object profile
    "relative-component" "component is not one reviewed name"
  let (status,handle) ← Eff.step (win.ntCreateFile parent component spec)
  if status < 0 then
    let mapped := win.rtlNtStatusToDosError status
    Eff.raise (.observation (ntFailure .nativeFailure object profile "relative-open" status mapped
      (mapped != errorMrMidNotFound)))
  else if handle = 0 ∨ handle = invalidHandleValue then
    Eff.raise (.observation
      { kind := .incomplete, object := object, profile := profile, step := "relative-open"
        message := "successful status without a valid handle"
        ntstatus := status, hasNtstatus := true })
  else pure handle

/-- The volume's part of a final path: up to the separator behind the first closing brace. -/
def volumeGuidPath (path : WStr) : Except String WStr :=
  let lead := wide "\\\\?\\Volume\x7b"
  if ¬lead <+: path then .error "final path is not a volume GUID path"
  else
    let close := lead.length+(path.drop lead.length).idxOf 0x7d
    if close+1 ≥ path.length ∨ path[close+1]? ≠ some 0x5c then .error "malformed volume GUID path"
    else .ok (path.take (close+2))

/-- The two calls for the final path. -/
def finalPathOf (handle : Handle) (object : Str) (profile step : String) : Eff ν Thrown WStr := do
  let needed ← orThrow (win.finalPathSize handle) .nativeFailure object profile
    (step++"/final-path-size")
  failIf (needed > 32767) .incomplete object profile (step++"/final-path-size")
    "final path exceeds reviewed bound"
  let (written,text) ← orThrow (win.finalPath handle (needed+1)) .nativeFailure object profile
    (step++"/final-path")
  failIf (written ≥ needed+1) .incomplete object profile (step++"/final-path")
    "final path changed or exceeded buffer"
  return (ByteBuffer.copyTo (List.replicate (needed+1) 0) 0 (text.take (needed+1))).take written

def inspect (handle : Handle) (object : Str) (profile step : String) : Eff ν Thrown Metadata := do
  let id ← orThrow (win.fileIdInfo handle) .nativeFailure object profile (step++"/FileIdInfo")
  let tag ← orThrow (win.fileAttributeTagInfo handle) .nativeFailure object profile
    (step++"/FileAttributeTagInfo")
  failIf (profile = childProfile ∧ tag.fileAttributes &&& fileAttributeDevice ≠ 0) .identityDrift
    object profile (step++"/FileAttributeTagInfo")
    "device-marked held child is not a regular file"
  let standard ← orThrow (win.fileStandardInfo handle) .nativeFailure object profile
    (step++"/FileStandardInfo")
  let path ← win.finalPathOf handle object profile step
  match volumeGuidPath path with
  | .error message => fail .identityDrift object profile (step++"/volume-guid") message
  | .ok volume =>
    let descriptor ← orThrow (win.securityDescriptor handle) .nativeFailure object profile
      (step++"/security")
    let control ← orThrow (win.securityDescriptorControl descriptor) .nativeFailure object profile
      (step++"/sddl")
    let sddl ← orThrow (win.securityDescriptorString descriptor) .nativeFailure object profile
      (step++"/sddl")
    return {
      volumeGuidPath := volume
      finalPath := path
      sddl := sddl
      volumeSerial := id.volumeSerialNumber
      fileId := id.fileId
      attributes := tag.fileAttributes
      reparseTag := tag.reparseTag
      directory := standard.directory
      daclProtected := control &&& seDaclProtected != 0 }

/-- What the parser makes of a buffer, as an exception or a value. -/
def parsed (r : Except ParseStop α) : Eff ν Thrown α :=
  match r with
  | .ok a => pure a
  | .error (.failure f) => Eff.raise (.observation f)
  | .error _ => Eff.raise .nonstandard

def nextPage (directory : Handle) (restart : Bool) : Eff ν Thrown DirectoryPage := fun w =>
  match win.directoryInfo directory restart w with
  | (.error error,w') =>
    if enumerationEndError error restart then (.ok ⟨true,[]⟩,w')
    else
      let kind : ErrorKind := if error = errorMoreData ∨ error = errorInsufficientBuffer
        then .incomplete else .nativeFailure
      (.error (.observation
        (win32Failure kind "state/" directoryProfile "enumeration-page" error)),w')
  | (.ok bytes,w') =>
    let buffer := ByteBuffer.copyTo (List.replicate directoryBufferBytes 0) 0
      (bytes.take directoryBufferBytes)
    parsed (parseFileIdExtdDirectoryBuffer (some buffer) buffer.length) w'

/-- `read_all` and the two `read_content` from the seek on. `refuse` says which answers of
`ReadFile` are thrown out. -/
def readFrom (file : Handle) (object : Str) (profile : String) (chunk : Nat)
    (refuse : Nat → FileRead.Answer Char → Bool) (step message finalStep : String)
    (initial : FileStandardInfo) : Eff ν Thrown Str := do
  orThrow (win.setFilePointer file) .incomplete object profile "read-seek"
  let expected := initial.endOfFile.toNat
  let result ← FileRead.fill
    (fun count => orThrow (win.readFile file count) .incomplete object profile step)
    (fun count a => failIf (refuse count a) .incomplete object profile step message)
    chunk expected expected 0 (List.replicate expected (Char.ofNat 0))
  let extra ← orThrow (win.readFile file 1) .incomplete object profile "read-eof"
  failIf (extra.got ≠ 0) .identityDrift object profile "read-eof" "content grew during read"
  let final ← orThrow (win.fileStandardInfo file) .incomplete object profile finalStep
  failIf (final.endOfFile ≠ initial.endOfFile ∨ final.directory) .identityDrift object profile
    finalStep "content size drift"
  return result

def readAll (file : Handle) (maxBytes : Nat) (object : Str) : Eff ν Thrown Str := do
  let initial ← orThrow (win.fileStandardInfo file) .incomplete object childProfile "read-size"
  failIf (initial.directory ∨ initial.endOfFile < 0 ∨ initial.endOfFile.toNat > maxBytes)
    .incomplete object childProfile "read-size" "unexpected type or oversized child"
  win.readFrom file object childProfile 65536 (fun _ a => a.got == 0) "read-child" "early EOF"
    "final-read-size" initial

/-- The `read_content` of the two protected readers. -/
def readContent (object : Str) (profile : String) (chunk : Nat) (sizeText oversizedText : String)
    (handle : Handle) (maxBytes : Nat) : Eff ν Thrown Str := do
  let info ← orThrow (win.fileStandardInfo handle) .incomplete object profile "read-size"
  failIf (info.directory ∨ info.endOfFile < 0) .incomplete object profile "read-size" sizeText
  failIf (info.endOfFile.toNat > maxBytes) .oversized object profile "read-size" oversizedText
  win.readFrom handle object profile chunk (fun count a => a.got == 0 || decide (a.got > count))
    "read-content" "incomplete read" "read-final-size" info

def readContentP10 : Handle → Nat → Eff ν Thrown Str :=
  win.readContent "P10" p10ReadProfile 16384 "invalid file size or directory"
    "P10 exceeds approved byte count"

def readContentP11 : Handle → Nat → Eff ν Thrown Str :=
  win.readContent "P11" p11CustodyProfile 4096 "invalid file size or type"
    "P11 exceeds sealed byte count"

def close (handle : Handle) (w : ν) : ν :=
  if handle ≠ 0 ∧ handle ≠ invalidHandleValue then win.closeHandle handle w else w

/-- `SystemNativeCalls`. -/
def systemNativeCalls : NativeCalls ν where
  openRoot := win.openRoot
  openRelative := win.openRelative
  inspect := win.inspect
  nextPage := win.nextPage
  readAll := win.readAll
  close := win.close

/-- A call that leaves another part of the state, such as the provider of hashes, alone. -/
def beside {χ : Type} (op : Eff ν χ α) : Eff (ν × κ) χ α := fun s =>
  let (a,w) := op s.1
  (a,w,s.2)

/-- `SystemP10Calls`. -/
def systemP10Calls : P10Calls ν κ where
  openRoot path spec := beside (win.openRoot path spec)
  openRelative parent component spec object :=
    beside (win.openRelative parent component spec object p10ReadProfile)
  inspect handle object step := beside (win.inspect handle object p10ReadProfile step)
  readContent handle maxBytes := beside (win.readContentP10 handle maxBytes)
  close handle s := (win.close handle s.1,s.2)

/-- `SystemP11Calls`. -/
def systemP11Calls : P11CustodyCalls ν κ where
  openRoot path spec := beside (win.openRoot path spec)
  openRelative parent component spec object :=
    beside (win.openRelative parent component spec object p11CustodyProfile)
  inspect handle object step := beside (win.inspect handle object p11CustodyProfile step)
  readContent handle maxBytes := beside (win.readContentP11 handle maxBytes)
  close handle s := (win.close handle s.1,s.2)

end Win32

end SoftwareFactory.StageA.Windows
