import SoftwareFactory.Lib.Effect
import SoftwareFactory.Lib.OrderedMap
import Mathlib.Data.Char
import Mathlib.Data.List.Lex

namespace SoftwareFactory.StageA

open Effect

/-- A `std::string` the code computes with; its characters stand for the bytes. Fixed texts
that are only passed on are Lean strings. -/
abbrev Str := List Char

instance : Coe String Str := ⟨String.toList⟩

abbrev FileMap := OrderedMap Str Str

inductive Verdict where
  | acceptCurrent
  | rejectRestoredOld
  | rejectDeleted
  | rejectMismatch
  | stopInconclusive
  deriving DecidableEq, Repr

inductive ErrorKind where
  | none
  | malformed
  | oversized
  | incomplete
  | sharingConflict
  | reparse
  | identityDrift
  | unexpectedEntry
  | nativeFailure
  | bindingFailure
  | hashFailure
  deriving DecidableEq, Repr

structure Evidence where
  verdict : Verdict := .stopInconclusive
  error : ErrorKind := .none
  caseId : Str := []
  object : Str := []
  profile : String := ""
  step : String := ""
  detail : String := ""
  ntstatus : Int := 0
  win32Error : UInt32 := 0
  hasNtstatus : Bool := false
  hasWin32Error : Bool := false
  processReached : Bool := false
  brokerReadReached : Bool := false
  snapshotComplete : Bool := false
  beforeInventory : List Str := []
  afterInventory : List Str := []
  heldFileIds : FileMap := .empty
  contentSha256 : FileMap := .empty
  expectedDigest : Str := []
  observedDigest : Str := []
  p11Sha256 : Str := []
  deriving DecidableEq

structure SidSet where
  writer : Str
  controller : Str
  broker : Str
  deriving DecidableEq

structure P10BuildHashes where
  broker : Str
  controller : Str
  writer : Str
  capture : Str
  deriving DecidableEq

structure FixtureCase where
  id : Str
  state : Str
  status : Str
  generation : UInt32
  workerRuns : UInt32
  oldFiles : FileMap
  latestFiles : FileMap
  oldDigest : Str
  latestDigest : Str

/-- A braced initialiser list. -/
def fileMap (files : List (Str × Str)) : FileMap :=
  files.foldl (fun m p => m.emplace p.1 p.2) .empty

/-- The classes derived from `std::exception` that this code throws or lets through. -/
inductive StdKind where
  | lengthError
  | invalidArgument
  | logicError
  | outOfRange
  | runtimeError
  deriving DecidableEq, Repr

structure StdException where
  kind : StdKind
  what : String
  deriving DecidableEq, Repr

/-- The cryptographic provider of the host: it may fail at every call. -/
structure BCrypt (κ : Type) where
  openAlgorithmProvider : κ → Bool × κ
  hashData : Str → κ → Option (Vector UInt8 32) × κ

def hexAlphabet : List Char := "0123456789abcdef".toList

/-- `alphabet[b >> 4]` and `alphabet[b & 15]` for every byte. -/
def hexText (bytes : List UInt8) : Str :=
  bytes.flatMap fun (b : UInt8) =>
    [hexAlphabet.getD (b >>> 4).toNat ' ',hexAlphabet.getD (b &&& 15).toNat ' ']

def isHexDigit (c : Char) : Bool :=
  (decide ('0' ≤ c) && decide (c ≤ '9')) || (decide ('a' ≤ c) && decide (c ≤ 'f'))

def hex64 (s : Str) : Bool := decide (s.length = 64) && s.all isHexDigit

/-- The loop over the text behind the `S-1-` of a SID. -/
def sidGroups (digit : Bool) : Str → Bool
  | [] => digit
  | c::cs =>
    if c = '-' then digit && sidGroups false cs
    else if '0' ≤ c ∧ c ≤ '9' then sidGroups true cs
    else false

def sid (s : Str) : Bool :=
  decide (5 ≤ s.length) && s.take 4 == "S-1-".toList && s.getLast? != some '-' &&
    sidGroups false (s.drop 4)

variable {κ : Type}

def sha256 (b : BCrypt κ) (bytes : Str) : Eff κ StdException Str := do
  if bytes.length > 4294967295 then
    Eff.raise ⟨.lengthError,"SHA-256 input too large"⟩
  else
    let opened ← Eff.step b.openAlgorithmProvider
    if !opened then
      Eff.raise ⟨.runtimeError,"BCryptOpenAlgorithmProvider"⟩
    else
      match ← Eff.step (b.hashData bytes) with
      | none => Eff.raise ⟨.runtimeError,"BCrypt SHA-256"⟩
      | some d => pure (hexText d.toList)

def decimal (n : Nat) : Str := Nat.toDigits 10 n

def nameBreaks : List Char := ['/','\\','\r','\n','\t']

/-- The manifest of the files from one of them on, `manifest` being what stands already. -/
def manifestFrom (b : BCrypt κ) (manifest : Str) :
    List (Str × Str) → Eff κ StdException Str
  | [] => pure manifest
  | (name,bytes)::files => do
    if name = [] ∨ name = "." ∨ name = ".." ∨ name.any (· ∈ nameBreaks) then
      Eff.raise ⟨.invalidArgument,"invalid child name"⟩
    else
      let digest ← sha256 b bytes
      manifestFrom b (manifest++name++"\tregular\t"++decimal bytes.length++"\t"++digest++"\n")
        files

def mutableDigest (b : BCrypt κ) (files : FileMap) : Eff κ StdException Str := do
  let manifest ← manifestFrom b "S1PF-MUTABLE-SET-V1\n" files.entries
  sha256 b manifest

/-- The two cases of `fixture_cases` before their digests are filled in. -/
def frozenCases : List FixtureCase :=
  [{ id := "spent-budget-active", state := "INIT", status := "ACTIVE"
     generation := 1, workerRuns := 1
     oldFiles := fileMap [("lock.bin","S1PF-LOCK-V1\n"),
       ("state.json","\x7b\"generation\":0,\"worker_runs\":0,\"terminal\":false\x7d\n"),
       ("witness.txt","S1PF-WITNESS-V1:0:0:ACTIVE\n")]
     latestFiles := fileMap [("lock.bin","S1PF-LOCK-V1\n"),
       ("state.json","\x7b\"generation\":1,\"worker_runs\":1,\"terminal\":false\x7d\n"),
       ("witness.txt","S1PF-WITNESS-V1:1:1:ACTIVE\n")]
     oldDigest := "", latestDigest := "" },
   { id := "spent-budget-terminal", state := "HALT_HUMAN", status := "FAILED"
     generation := 2, workerRuns := 1
     oldFiles := fileMap [("lock.bin","S1PF-LOCK-V1\n"),
       ("state.json","\x7b\"generation\":0,\"worker_runs\":0,\"terminal\":false\x7d\n"),
       ("witness.txt","S1PF-WITNESS-V1:0:0:ACTIVE\n")]
     latestFiles := fileMap [("lock.bin","S1PF-LOCK-V1\n"),
       ("state.json","\x7b\"generation\":2,\"worker_runs\":1,\"terminal\":true\x7d\n"),
       ("witness.txt","S1PF-WITNESS-V1:2:1:FAILED\n")]
     oldDigest := "", latestDigest := "" }]

def withDigests (b : BCrypt κ) (c : FixtureCase) : Eff κ StdException FixtureCase := do
  let old ← mutableDigest b c.oldFiles
  let latest ← mutableDigest b c.latestFiles
  return { c with oldDigest := old, latestDigest := latest }

def fixtureCases (b : BCrypt κ) : Eff κ StdException (List FixtureCase) :=
  frozenCases.mapM (withDigests b)

/-- A JSON string; a control character is refused. -/
def quoted (s : Str) : Except StdException Str :=
  if s.any fun c => decide (c.toNat < 0x20) then
    .error ⟨.invalidArgument,"control character"⟩
  else
    .ok ("\""++s.flatMap (fun c => if c = '"' ∨ c = '\\' then ['\\',c] else [c])++"\"")

/-- One operand `fixture_cases()[i].digest` of the template. -/
def caseDigest (b : BCrypt κ) (i : Nat) (digest : FixtureCase → Str) :
    Eff κ StdException Str := do
  let cases ← fixtureCases b
  return (cases[i]?.map digest).getD []

/-- The operands are evaluated from left to right; C++ leaves their order open. -/
def p10Template (b : BCrypt κ) : Eff κ StdException Str := do
  let activeOld ← caseDigest b 0 FixtureCase.oldDigest
  let activeLatest ← caseDigest b 0 FixtureCase.latestDigest
  let terminalOld ← caseDigest b 1 FixtureCase.oldDigest
  let terminalLatest ← caseDigest b 1 FixtureCase.latestDigest
  return "\x7b\"schema_version\":1,\"run_id\":\"260926_A\","++
    "\"namespace_id\":\"s1pf-260926-a\","++
    "\"repository_id\":\"s1pf-repo-260926-a\","++
    "\"task_id\":\"s1pf-task-260926-a-01\","++
    "\"broker_path\":\"C:\\\\S1PF_260926_A\\\\bin\\\\broker.exe\","++
    "\"controller_path\":\"C:\\\\S1PF_260926_A\\\\bin\\\\controller.exe\","++
    "\"writer_path\":\"C:\\\\S1PF_260926_A\\\\bin\\\\writer.exe\","++
    "\"capture_path\":\"C:\\\\S1PF_260926_A\\\\bin\\\\native_capture.exe\","++
    "\"pipe\":\"\\\\\\\\.\\\\pipe\\\\S1PF-broker-260926-A\","++
    "\"broker_service\":\"S1PF_Broker_260926_A\","++
    "\"controller_service\":\"S1PF_Controller_260926_A\","++
    "\"marker\":\"S1PF-260926-A-STAGE-A-V1\","++
    "\"a1_sid\":\"<PENDING_G2_A1_SID>\",\"a2_sid\":\"<PENDING_G2_A2_SID>\","++
    "\"a3_sid\":\"<PENDING_G2_A3_SID>\","++
    "\"broker_sha256\":\"<PENDING_G1_BROKER_SHA256>\","++
    "\"controller_sha256\":\"<PENDING_G1_CONTROLLER_SHA256>\","++
    "\"writer_sha256\":\"<PENDING_G1_WRITER_SHA256>\","++
    "\"capture_sha256\":\"<PENDING_G1_CAPTURE_SHA256>\","++
    "\"active_old_digest\":\""++activeOld++"\",\"active_latest_digest\":\""++activeLatest++
    "\",\"terminal_old_digest\":\""++terminalOld++"\",\"terminal_latest_digest\":\""++
    terminalLatest++"\"\x7d"

/-- The text before the first occurrence of the key and the text behind it. -/
def cutAt (key : Str) : Str → Option (Str × Str)
  | [] => if key = [] then some ([],[]) else none
  | c::cs =>
    if key <+: c::cs then some ([],(c::cs).drop key.length)
    else (cutAt key cs).map fun p => (c::p.1,p.2)

/-- The slot has to be there, and only once. -/
def replaceOne (key value out : Str) : Except StdException Str :=
  match cutAt key out with
  | none => .error ⟨.logicError,"template slot"⟩
  | some (before,after) =>
    if (cutAt key after).isSome then .error ⟨.logicError,"template slot"⟩
    else .ok (before++value++after)

def renderP10Slots (sids : SidSet) (hashes : P10BuildHashes) (template : Str) :
    Except StdException Str := do
  let out ← replaceOne "<PENDING_G2_A1_SID>" sids.writer template
  let out ← replaceOne "<PENDING_G2_A2_SID>" sids.controller out
  let out ← replaceOne "<PENDING_G2_A3_SID>" sids.broker out
  let out ← replaceOne "<PENDING_G1_BROKER_SHA256>" hashes.broker out
  let out ← replaceOne "<PENDING_G1_CONTROLLER_SHA256>" hashes.controller out
  let out ← replaceOne "<PENDING_G1_WRITER_SHA256>" hashes.writer out
  replaceOne "<PENDING_G1_CAPTURE_SHA256>" hashes.capture out

def renderP10 (b : BCrypt κ) (sids : SidSet) (hashes : P10BuildHashes) :
    Eff κ StdException Str := do
  if !sid sids.writer || !sid sids.controller || !sid sids.broker ||
      sids.writer == sids.controller || sids.writer == sids.broker ||
      sids.controller == sids.broker then
    Eff.raise ⟨.invalidArgument,"distinct created SIDs required"⟩
  else if !hex64 hashes.broker || !hex64 hashes.controller || !hex64 hashes.writer ||
      !hex64 hashes.capture then
    Eff.raise ⟨.invalidArgument,"reviewed executable hashes required"⟩
  else
    let template ← p10Template b
    match renderP10Slots sids hashes template with
    | .error e => Eff.raise e
    | .ok out => pure out

def renderP11 (fixture : FixtureCase) (renderedP10Sha256 : Str) :
    Except StdException Str := do
  if !hex64 renderedP10Sha256 then
    throw ⟨.invalidArgument,"rendered P10 hash required"⟩
  let p10 ← quoted renderedP10Sha256
  let caseId ← quoted fixture.id
  let latest ← quoted fixture.latestDigest
  return "\x7b\"schema_version\":1,\"marker\":\"S1PF-260926-A-STAGE-A-V1\",\"p10_sha256\":"++
    p10++",\"case_id\":"++caseId++",\"latest_digest\":"++latest++
    ",\"generation\":"++decimal fixture.generation.toNat++
    ",\"worker_runs\":"++decimal fixture.workerRuns.toNat++
    ",\"terminal\":"++(if fixture.status = "FAILED" then "true" else "false")++"\x7d"

end SoftwareFactory.StageA
