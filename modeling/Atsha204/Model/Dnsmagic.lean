import Atsha204.Model.Api

/-!
# `dnsmagic.c`: the slot that the key server announces

The number of the key in use is published in a TXT record; the number of the slot is that
number less the origin of the key set in the device. The resolver is a parameter, as its
result (`Resolution`), and so is whether `char` is signed on the platform (`charSigned`):
the length byte of a record is read through a `char *`.

The automatic operations of `api.c` ask for the slot and go on with the operation on it.
-/

set_option autoImplicit false

namespace Atsha204.Model

open Atsha204.Library

variable {σ : Type} (env : Env σ) (charSigned : Bool)

/-! ## The resolver -/

/-- SOURCE: api.h:67 -/
def dnsErrConst : UInt8 := 255

/-- SOURCE: configuration.h:52 -/
def defaultUseSnInDigest : Bool := true

/-- The data of a TXT record: a length byte and at least as many bytes. -/
structure TxtRdata where
  length : UInt8
  text : List UInt8
  fits : length.toNat ≤ text.length

/-- What libunbound gives for the name of the record. The texts are the ones that are formed
from its status. -/
inductive Resolution where
  | noContext
  | badConfiguration (text : String)
  | failed (text : String)
  | noData
  | record (rdata : TxtRdata)

/-- A `char` as the integer it is converted to. -/
def charValue (c : UInt8) : Int :=
  if charSigned ∧ 128 ≤ c.toNat then (c.toNat : Int) - 256 else c.toNat

/-- A negative length becomes a huge one.
SOURCE: dnsmagic.c:50-61 -/
def numberFromString (len : Int) (str : Block) : Option UInt32 := do
  let bytes ← if len < 0 then none else copyOut str len.toNat
  return bytes.foldl (fun res c => res * 10 + (c - 0x30).toUInt32) 0

/-- The number is narrowed to `unsigned char`; `none` is `false`.
SOURCE: dnsmagic.c:66-112 -/
def resolveKey (dns : Resolution) : Prog σ (Option UInt32) := do
  match dns with
  | .noContext =>
    logMessage "dnsmagic: libunbound: create context error"
    return none
  | .badConfiguration text =>
    logMessage "dnsmagic: libunbound: reset configuration error"
    logMessage text
    return none
  | .failed text =>
    logMessage "dnsmagic: libunbound: resolve error"
    logMessage text
    return none
  | .noData =>
    logMessage "dnsmagic: libunbound: no data in answer"
    return none
  | .record rdata =>
    let number ← access (numberFromString (charValue charSigned rdata.length) rdata.text)
    return some number.toUInt8.toUInt32

/-- SOURCE: dnsmagic.c:114-137 -/
def atshaFindSlotNumber (dns : Resolution) : Prog σ UInt8 := do
  let handle ← getHandle
  if handle.isSrvEmulation then
    return handle.slotId
  match ← resolveKey charSigned dns with
  | none => return dnsErrConst
  | some offset =>
    if handle.keyOriginCached then
      return (offset - handle.keyOrigin).toUInt8
    let (status, number) ← atshaRawOtpRead env atsha204OtpMemoryMapOriginKeySet
      (env.uninitBigInt .findSlotNumber)
    if status ≠ .ok then
      logMessage "dnsmagic: find_slot_number: read key origin from OTP memory"
      return dnsErrConst
    let keyOrigin ← access (uint32From4Bytes number.data.val)
    modifyHandle fun h => { h with keyOrigin := keyOrigin, keyOriginCached := true }
    return (offset - keyOrigin).toUInt8

/-! ## The automatic operations -/

/-- Find the slot and go on with it.
SOURCE: api.c:387-392 and the same lines in the three operations below it -/
def withSlotNumber {α : Type} (dns : Resolution) (out : α)
    (operation : UInt8 → Prog σ (AtshaErr × α)) : Prog σ (AtshaErr × α) := do
  let slotNumber ← atshaFindSlotNumber env charSigned dns
  if slotNumber = dnsErrConst then
    return (.dnsGetKey, out)
  operation slotNumber

/-- SOURCE: api.c:387-392 -/
def atshaSlotRead (dns : Resolution) (number : AtshaBigInt) : Prog σ (AtshaErr × AtshaBigInt) :=
  withSlotNumber env charSigned dns number fun slotNumber => atshaRawSlotRead env slotNumber number

/-- SOURCE: api.c:437-442 -/
def atshaSlotWrite (dns : Resolution) (number : AtshaBigInt) : Prog σ (AtshaErr × Unit) :=
  withSlotNumber env charSigned dns () fun slotNumber => atshaRawSlotWrite env slotNumber number

/-- SOURCE: api.c:485-490 -/
def atshaChallengeResponse (dns : Resolution) (challenge response : AtshaBigInt) :
    Prog σ (AtshaErr × AtshaBigInt) :=
  withSlotNumber env charSigned dns response fun slotNumber =>
    atshaLowChallengeResponse env slotNumber challenge response defaultUseSnInDigest

/-- SOURCE: api.c:563-568 -/
def atshaChallengeResponseMac (dns : Resolution) (challenge response : AtshaBigInt) :
    Prog σ (AtshaErr × AtshaBigInt) :=
  withSlotNumber env charSigned dns response fun slotNumber =>
    atshaLowChallengeResponseMac env slotNumber challenge response defaultUseSnInDigest

end Atsha204.Model
