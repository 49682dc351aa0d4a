import SoftwareFactory.Lib.Bytes

namespace SoftwareFactory.StageA.ReadFixtureHead

open ByteBuffer

abbrev Bytes := List UInt8
abbrev Nonce := Vector UInt8 16
abbrev P10Digest := Vector UInt8 32

def requestBytes : Nat := 64
def errorResponseBytes : Nat := 66
def activeP11Bytes : Nat := 299
def terminalP11Bytes : Nat := 300
def maximumResponseBytes : Nat := 366

inductive Failure where
  | none
  | malformed
  | correlationMismatch
  | readIncomplete
  | invalidTrustedInput
  | internalFailure
  deriving DecidableEq, Repr

structure RequestValidation where
  failure : Failure
  nonce : Option Nonce
  deriving DecidableEq

structure ResponseValidation where
  failure : Failure
  verifiedP11 : Bytes
  deriving DecidableEq

structure SuccessEncoding where
  failure : Failure
  bytes : Bytes
  deriving DecidableEq

def magic : Bytes := [0x53,0x31,0x52,0x48]
def version : UInt16 := 1
def requestKind : UInt16 := 0x0001
def successKind : UInt16 := 0x8001
def errorKind : UInt16 := 0x8002
def operation : UInt16 := 0x0001
def headBytes : Nat := 66

/-- `put16(out + k, value)`. -/
def put16 (out : Bytes) (k : Nat) (value : UInt16) : Bytes :=
  (out.set k value.toUInt8).set (k+1) (value >>> 8).toUInt8

def put32 (out : Bytes) (k : Nat) (value : UInt32) : Bytes :=
  (((out.set k value.toUInt8).set (k+1) (value >>> 8).toUInt8).set (k+2)
    (value >>> 16).toUInt8).set (k+3) (value >>> 24).toUInt8

/-- `get16(in)`; no caller reads past the end of its input. -/
def get16 : Bytes → UInt16
  | b0::b1::_ => b0.toUInt16 ||| b1.toUInt16 <<< 8
  | _ => 0

def get32 : Bytes → UInt32
  | b0::b1::b2::b3::_ =>
    b0.toUInt32 ||| b1.toUInt32 <<< 8 ||| b2.toUInt32 <<< 16 ||| b3.toUInt32 <<< 24
  | _ => 0

def fixedHeader (wire : Bytes) : Bool :=
  decide (12 ≤ wire.length) && wire.take 4 == magic && get16 (wire.drop 4) == version

def writeHeader (out : Bytes) (kind : UInt16) (total : UInt32) : Bytes :=
  let out := copyTo out 0 magic
  let out := put16 out 4 version
  let out := put16 out 6 kind
  put32 out 8 total

def writeCommonResponse (out : Bytes) (kind : UInt16) (total : UInt32) (status : UInt16)
    (nonce : Nonce) (p10 : P10Digest) (payloadSize : UInt16) : Bytes :=
  let out := writeHeader out kind total
  let out := put16 out 12 operation
  let out := put16 out 14 status
  let out := copyTo out 16 nonce.toList
  let out := copyTo out 32 p10.toList
  put16 out 64 payloadSize

def encodeRequest (nonce : Nonce) (trustedP10 : P10Digest) : Bytes :=
  let out := List.replicate requestBytes 0
  let out := writeHeader out requestKind requestBytes.toUInt32
  let out := put16 out 12 operation
  let out := put16 out 14 0
  let out := copyTo out 16 nonce.toList
  copyTo out 32 trustedP10.toList

/-- `std::copy_n(in, nonce.size(), nonce.begin())`. -/
def copyNonce (input : Bytes) : Nonce := Vector.ofFn fun i => input.getD i 0

def validateRequest (wire : Bytes) (trustedP10 : P10Digest) : RequestValidation :=
  if wire.length ≠ requestBytes ∨ ¬ fixedHeader wire ∨
      get16 (wire.drop 6) ≠ requestKind ∨
      (get32 (wire.drop 8)).toNat ≠ requestBytes ∨
      get16 (wire.drop 12) ≠ operation ∨ get16 (wire.drop 14) ≠ 0 then
    ⟨.malformed,none⟩
  else if (wire.drop 32).take 32 ≠ trustedP10.toList then
    ⟨.correlationMismatch,none⟩
  else
    ⟨.none,some (copyNonce (wire.drop 16))⟩

def encodeVerifiedSuccessResponse (nonce : Nonce) (trustedP10 : P10Digest)
    (verifiedCanonicalP11 : Bytes) : SuccessEncoding :=
  if verifiedCanonicalP11.length ≠ activeP11Bytes ∧
      verifiedCanonicalP11.length ≠ terminalP11Bytes then
    ⟨.invalidTrustedInput,[]⟩
  else
    let out := List.replicate (headBytes+verifiedCanonicalP11.length) 0
    let out := writeCommonResponse out successKind out.length.toUInt32 0 nonce trustedP10
      verifiedCanonicalP11.length.toUInt16
    ⟨.none,copyTo out headBytes verifiedCanonicalP11⟩

def encodeGenericErrorResponse (nonce : Nonce) (trustedP10 : P10Digest) : Bytes :=
  writeCommonResponse (List.replicate errorResponseBytes 0) errorKind
    errorResponseBytes.toUInt32 1 nonce trustedP10 0

def validateResponse (wire : Bytes) (invocationNonce : Nonce) (trustedP10 : P10Digest)
    (selectedCanonicalP11 : Bytes) (selectedExpectedLength : Nat) : ResponseValidation :=
  if (selectedExpectedLength ≠ activeP11Bytes ∧ selectedExpectedLength ≠ terminalP11Bytes) ∨
      selectedCanonicalP11.length ≠ selectedExpectedLength then
    ⟨.invalidTrustedInput,[]⟩
  else if wire.length < headBytes ∨ wire.length > maximumResponseBytes ∨
      ¬ fixedHeader wire ∨ (get32 (wire.drop 8)).toNat ≠ wire.length ∨
      get16 (wire.drop 12) ≠ operation then
    ⟨.malformed,[]⟩
  else
    let kind := get16 (wire.drop 6)
    let status := get16 (wire.drop 14)
    let payloadLength := (get16 (wire.drop 64)).toNat
    let isError := kind = errorKind ∧ status = 1 ∧ wire.length = errorResponseBytes ∧
      payloadLength = 0
    let isSuccess := kind = successKind ∧ status = 0 ∧
      (payloadLength = activeP11Bytes ∨ payloadLength = terminalP11Bytes) ∧
      wire.length = headBytes+payloadLength
    if ¬ isError ∧ ¬ isSuccess then
      ⟨.malformed,[]⟩
    else if (wire.drop 16).take 16 ≠ invocationNonce.toList ∨
        (wire.drop 32).take 32 ≠ trustedP10.toList then
      ⟨.correlationMismatch,[]⟩
    else if isError then
      ⟨.readIncomplete,[]⟩
    else if payloadLength ≠ selectedExpectedLength ∨
        (wire.drop headBytes).take selectedCanonicalP11.length ≠ selectedCanonicalP11 then
      ⟨.correlationMismatch,[]⟩
    else
      ⟨.none,(wire.drop headBytes).take selectedExpectedLength⟩

end SoftwareFactory.StageA.ReadFixtureHead
