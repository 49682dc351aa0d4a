import SoftwareFactory.StageA.ControllerComposition
import SoftwareFactory.StageA.WindowsNative

namespace SoftwareFactory.StageA.Windows

open ByteBuffer Effect

def tokenQuery : UInt32 := 0x0008

/-- `sizeof(TOKEN_USER)`. -/
def tokenUserBytes : Nat := 16

def minSidBytes : Nat := 8

/-- `TOKEN_USER_MAX_SIZE`. -/
def maxTokenUserBytes : Nat := 84

def sidRevision : UInt8 := 1
def sidMaxSubAuthorities : UInt8 := 15

/-- `SECURITY_MAX_SID_STRING_CHARACTERS`. -/
def maxSidCharacters : Nat := 187

/-- What one query brings: its success, the bytes and the length that are written, the error. -/
structure TokenUserAnswer where
  success : Bool
  bytes : List UInt8
  returnedLength : Nat
  win32Error : UInt32

/-- The calls of the port. A query names the address of its buffer, if it has one, and its
capacity. -/
structure TokenSidNativeCalls (ν : Type) where
  /-- The token, which may be missing, and the error. -/
  openCurrentProcessToken : UInt32 → Eff ν Thrown (Handle × UInt32)
  queryTokenUser : Handle → Option Nat → Nat → Eff ν Thrown TokenUserAnswer
  close : Handle → ν → ν

/-- What else the reader calls: the allocator, and functions of Windows on the memory behind the
address of a SID. -/
structure SidFunctions (ν : Type) where
  /-- The address of a new block. -/
  allocate : Nat → Eff ν StdException Nat
  isValidSid : List UInt8 → Bool
  getLengthSid : List UInt8 → Nat
  /-- The text up to its terminator, or a null pointer; raises what `GetLastError` says. -/
  convertSidToStringSid : List UInt8 → Eff ν UInt32 (Option WStr)
  localFree : WStr → ν → ν

/-- The functions of Windows that the system's backend calls. -/
structure TokenWin32 (ν : Type) where
  openProcessToken : UInt32 → Eff ν UInt32 Handle
  /-- The error if it fails, what is written to the buffer, and the length. -/
  getTokenInformation : Handle → Option Nat → Nat →
    ν → (Option UInt32 × List UInt8 × Nat) × ν
  closeHandle : Handle → ν → ν

variable {ν : Type}

/-- `SystemTokenSidCalls`. -/
def TokenWin32.systemTokenSidCalls (win : TokenWin32 ν) : TokenSidNativeCalls ν where
  openCurrentProcessToken access := Eff.step fun w =>
    match win.openProcessToken access w with
    | (.ok token,w') => ((token,0),w')
    | (.error error,w') => ((0,error),w')
  queryTokenUser token buffer capacity := do
    let (error,bytes,length) ← Eff.step (win.getTokenInformation token buffer capacity)
    return ⟨error.isNone,bytes,length,error.getD 0⟩
  close := win.closeHandle

def tokenFailure (kind : ErrorKind) (step message : String) (error : UInt32) (hasError : Bool) :
    ObservationFailure where
  kind := kind
  object := "A2-token"
  profile := tokenProfile
  step := step
  message := message
  win32Error := error
  hasWin32Error := hasError

/-- A pointer in memory. -/
def loadPointer (bytes : List UInt8) : Nat :=
  (load32 bytes).toNat+2^32*(load32 (bytes.drop 4)).toNat

def storePointer (a : Nat) : List UInt8 :=
  store32 (UInt32.ofNat (a%2^32))++store32 (UInt32.ofNat (a/2^32))

/-- The length of a SID with so many subauthorities. -/
def sidLength (count : UInt8) : Nat := minSidBytes+count.toNat*4

namespace SidFunctions

variable (sys : SidFunctions ν)

/-- `decode_token_user_sid` up to the conversion: the memory from the SID on. -/
def sidMemory (base : Nat) (buffer : List UInt8) (returned : Nat) :
    Except ParseStop (List UInt8) := do
  parseFailIf (returned < tokenUserBytes+minSidBytes ∨ returned > maxTokenUserBytes) .incomplete
    "A2-token" tokenProfile "TokenUser/length"
    "TokenUser result length is incomplete or out of bounds"
  let user ← copyOut buffer 0 tokenUserBytes
  let address := loadPointer user
  parseFailIf (address = 0 ∨ address < base ∨ sizeSub address base < tokenUserBytes ∨
      sizeSub address base > sizeSub returned minSidBytes)
    .malformed "A2-token" tokenProfile "TokenUser/SidPointer"
    "SID pointer is outside the returned TokenUser buffer"
  let offset := sizeSub address base
  let available := sizeSub returned offset
  let header ← copyOut buffer offset 2
  let count := header.getD 1 0
  parseFailIf (header.getD 0 0 ≠ sidRevision ∨ count > sidMaxSubAuthorities) .malformed "A2-token"
    tokenProfile "TokenUser/SidHeader" "SID revision or subauthority count is invalid"
  parseFailIf (sidLength count > available) .incomplete "A2-token" tokenProfile
    "TokenUser/SidLength" "SID extends beyond returned TokenUser bytes"
  let memory := buffer.drop offset
  parseFailIf (!sys.isValidSid memory ∨ sys.getLengthSid memory ≠ sidLength count) .malformed
    "A2-token" tokenProfile "TokenUser/SidValidation" "SID failed Windows validation"
  return memory

end SidFunctions

/-- The loop over the converted text. -/
def sidCharacters : WStr → Except ParseStop Str
  | [] => .ok []
  | c::cs => do
    parseFailIf (¬((0x30 ≤ c ∧ c ≤ 0x39) ∨ c = 0x53 ∨ c = 0x2d)) .malformed "A2-token"
      tokenProfile "ConvertSidToStringSidW/text" "SID text contains an invalid character"
    let rest ← sidCharacters cs
    return Char.ofNat c.toNat::rest

/-- The checks of the converted text. -/
def sidResult (text : WStr) : Except ParseStop Str := do
  -- `wcsnlen_s`
  let length := min text.length (maxSidCharacters+1)
  parseFailIf (length < 5 ∨ length > maxSidCharacters ∨ text[0]? ≠ some 0x53 ∨
      text[1]? ≠ some 0x2d)
    .malformed "A2-token" tokenProfile "ConvertSidToStringSidW/text" "noncanonical SID text"
  sidCharacters (text.take length)

namespace SidFunctions

variable (sys : SidFunctions ν)

/-- `decode_token_user_sid` from the conversion on. -/
def convertSid (memory : List UInt8) : Eff ν Thrown Str := fun w =>
  match sys.convertSidToStringSid memory w with
  | (.error error,w') =>
    (.error (.observation (tokenFailure .nativeFailure "ConvertSidToStringSidW"
      "SID conversion failed" error true)),w')
  | (.ok none,w') =>
    (.error (.observation (tokenFailure .incomplete "ConvertSidToStringSidW"
      "conversion succeeded without text" 0 false)),w')
  | (.ok (some text),w') =>
    Eff.owning (sys.localFree text) (Win32.parsed (sidResult text)) w'

def decodeTokenUserSid (base : Nat) (buffer : List UInt8) (returned : Nat) :
    Eff ν Thrown Str := do
  let memory ← Win32.parsed (sys.sidMemory base buffer returned)
  sys.convertSid memory

/-- `new std::byte[required]{}`. -/
def newBuffer (required : Nat) : Eff ν Thrown Nat := fun w =>
  match sys.allocate required w with
  | (.ok base,w') => (.ok base,w')
  | (.error e,w') => (.error (.standard e),w')

/-- What is done with an open token. -/
def readToken (calls : TokenSidNativeCalls ν) (token : Handle) : Eff ν Thrown Str := do
  let sizing ← calls.queryTokenUser token none 0
  if sizing.success ∨ sizing.win32Error ≠ errorInsufficientBuffer then
    Eff.raise (.observation (tokenFailure (if sizing.success then .incomplete else .nativeFailure)
      "TokenUser/size-query" "TokenUser sizing query did not return the required bound"
      sizing.win32Error (!sizing.success)))
  else
    let required := sizing.returnedLength
    failIf (required < tokenUserBytes+minSidBytes) .incomplete "A2-token" tokenProfile
      "TokenUser/size-query" "TokenUser required length is too small"
    failIf (required > maxTokenUserBytes) .oversized "A2-token" tokenProfile
      "TokenUser/size-query" "TokenUser required length exceeds SDK SID bound"
    let base ← sys.newBuffer required
    let answer ← calls.queryTokenUser token (some base) required
    if !answer.success then
      Eff.raise (.observation (tokenFailure
        (if answer.win32Error = errorInsufficientBuffer then .incomplete else .nativeFailure)
        "TokenUser/read" "TokenUser read failed without retry" answer.win32Error true))
    else
      failIf (answer.returnedLength > required) .incomplete "A2-token" tokenProfile
        "TokenUser/length" "TokenUser returned length exceeds allocated buffer"
      sys.decodeTokenUserSid base
        (copyTo (List.replicate required 0) 0 (answer.bytes.take required)) answer.returnedLength

/-- The `try` block of `read_current_process_sid`; `none` is a null pointer. -/
def readBody (calls : Option (TokenSidNativeCalls ν)) : Eff ν Thrown Str :=
  match calls with
  | none =>
    fail .incomplete "A2-token" tokenProfile "token-backend" "token backend is absent"
  | some calls => do
    let (token,error) ← calls.openCurrentProcessToken tokenQuery
    if token = 0 ∨ token = invalidHandleValue then
      Eff.raise (.observation (tokenFailure (if error = 0 then .incomplete else .nativeFailure)
        "OpenProcessToken" "current process token open failed" error (error ≠ 0)))
    else Eff.owning (calls.close token) (sys.readToken calls token)

def readCurrentProcessSid (calls : Option (TokenSidNativeCalls ν)) : Eff ν Thrown Str :=
  Eff.catching (sys.readBody calls) fun t =>
    Eff.raise (.observation (asObservation "A2-token" tokenProfile "token-reader-exception"
      "non-standard C++ token-reader exception" t))

/-- `WindowsControllerSidPort`, which leaves the provider of hashes alone. -/
def controllerSidPort {κ : Type} (calls : Option (TokenSidNativeCalls ν)) :
    ControllerSidPort ν κ where
  readCurrentProcessSid := Win32.beside (sys.readCurrentProcessSid calls)

end SidFunctions

end SoftwareFactory.StageA.Windows
