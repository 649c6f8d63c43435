import Atsha204.Model.Api

/-!
# `chiptools/init.c`: provisioning a chip

`init` reads 16 keys and 16 OTP words from the configuration file, prepares and locks the
configuration zone, writes the keys and the OTP words, and locks the data zones. Each of
its steps returns `false` as soon as something fails; here a step that hands a buffer on
returns it, and `none` for `false`.

The text says first what is done before each of the two lock commands (`prepareConfig`,
`writeData`) and then the lock.
-/

set_option autoImplicit false

namespace Atsha204.Model

open Atsha204.Library

variable {σ : Type} (env : Env σ)

/-- SOURCE: init.c:32-40 -/
def bytesizeKey : ℕ := 32
def bytesizeOtp : ℕ := 4
def bytesizeCnf : ℕ := 4
def slotCnt : ℕ := 16
def configCnt : ℕ := 22
def slotConfigRead : UInt8 := 0x80
def slotConfigWrite : UInt8 := 0x80

/-! ## The configuration file -/

/-- SOURCE: init.c:42-70 -/
def readConfig (data : Block) (lineCnt : ℕ) : FileProg (Option Block) := do
  let result ← foldWhile (fun item (acc : Line × Block) => do
      match ← fgets acc.1 with
      | none => return none
      | some line =>
        match ← orFault .outOfBounds
          (parseHexLoop id lineCnt (lineCnt * item) line.val (strlen line) 0 acc.2) with
        | none => return none
        | some data => return some (line, data))
    (List.range slotCnt) (env.uninitBuffer .readConfigLine buffsizeLine, data)
  return result.map Prod.snd

/-- A read of a file that is not the one of the handle. -/
def withLocalFile {α : Type} (file : File) (x : FileProg α) : Prog σ (α × File) :=
  match x.run file with
  | .ok a file => pure (a, file)
  | .error e _ => throw e

/-! ## The configuration zone -/

/-- Assign one byte of a number. -/
def AtshaBigInt.setByte (number : AtshaBigInt) (i : ℕ) (b : UInt8) : AtshaBigInt :=
  { number with data := ⟨number.data.val.set i b, by
      rw [List.length_set, number.data.property]⟩ }

/-- SOURCE: init.c:106-116 -/
def readConfigZone : Prog σ (Option Block) := do
  let result ← foldWhile (fun item (acc : Block × AtshaBigInt) => do
      let (status, record) ← atshaRawConfRead env (UInt8.ofNat item) acc.2
      if status ≠ .ok then
        return none
      let bytes ← access (copyOut record.data.val record.bytes)
      let config ← access (pokeAll acc.1 (item * bytesizeCnf) bytes)
      return some (config, record))
    (List.range configCnt)
    ((env.uninitBuffer .configImage (configCnt * bytesizeCnf)).val,
      { env.uninitBigInt .configRecord with bytes := bytesizeCnf })
  return result.map Prod.fst

/-- SOURCE: init.c:72-84 -/
def setOtpMode (config : Block) : Prog σ (Option Block) := do
  let (status, record) ← atshaRawConfRead env 0x04 (env.uninitBigInt .setOtpModeRecord)
  if status ≠ .ok then
    return none
  let (status, _) ← atshaRawConfWrite env 0x04 (record.setByte 2 atsha204ConfigOtpmodeReadonly)
  if status ≠ .ok then
    return none
  let config ← access (poke config (0x04 * bytesizeCnf + 2) atsha204ConfigOtpmodeReadonly)
  return some config

/-- The four bytes that the slot configuration words get. -/
def slotConfigWord : List UInt8 :=
  [slotConfigRead, slotConfigWrite, slotConfigRead, slotConfigWrite]

/-- SOURCE: init.c:86-103 -/
def setSlotConfig (config : Block) : Prog σ (Option Block) := do
  let result ← foldWhile (fun addr (acc : Block × AtshaBigInt) => do
      let (status, record) ← atshaRawConfRead env (UInt8.ofNat addr) acc.2
      if status ≠ .ok then
        return none
      let data ← access (overwrite record.data slotConfigWord)
      let record : AtshaBigInt := { record with data := data }
      let (status, _) ← atshaRawConfWrite env (UInt8.ofNat addr) record
      if status ≠ .ok then
        return none
      let config ← access (pokeAll acc.1 (addr * bytesizeCnf) slotConfigWord)
      return some (config, record))
    (List.range' 0x05 8) (config, env.uninitBigInt .setSlotConfigRecord)
  return result.map Prod.fst

/-- What `create_and_lock_config` does before it locks: the image of the configuration zone.
SOURCE: init.c:106-119 -/
def prepareConfig : Prog σ (Option Block) := do
  match ← readConfigZone env with
  | none => return none
  | some config =>
    match ← setOtpMode env config with
    | none => return none
    | some config => setSlotConfig env config

/-- SOURCE: init.c:105-125 -/
def createAndLockConfig : Prog σ Bool := do
  match ← prepareConfig env with
  | none => return false
  | some config =>
    let crc ← access (calculateCrc (UInt16.ofNat (configCnt * bytesizeCnf)) config)
    let (status, _) ← atshaLockConfig env crc
    return status = .ok

/-! ## The data zones -/

/-- SOURCE: init.c:128-135 -/
def writeKeys (data : Block) : Prog σ (Option AtshaBigInt) :=
  foldWhile (fun item (number : AtshaBigInt) => do
      let bytes ← access (copyOut (data.drop (item * bytesizeKey)) number.bytes)
      let buffer ← access (overwrite number.data bytes)
      let number : AtshaBigInt := { number with data := buffer }
      let (status, _) ← atshaRawSlotWrite env (UInt8.ofNat item) number
      if status ≠ .ok then
        return none
      return some number)
    (List.range slotCnt) { env.uninitBigInt .writeDataNumber with bytes := bytesizeKey }

/-- SOURCE: init.c:137-145 -/
def writeOtp (otp : Block) (number : AtshaBigInt) : Prog σ (Option AtshaBigInt) :=
  foldWhile (fun base (number : AtshaBigInt) => do
      let bytes ← access (copyOut (otp.drop base) 32)
      let buffer ← access (overwrite number.data bytes)
      let number : AtshaBigInt := { number with data := buffer }
      let (status, _) ← atshaRawOtp32Write env (UInt8.ofNat (base / 4)) number
      if status ≠ .ok then
        return none
      return some number)
    [0, 32] { number with bytes := bytesizeKey }

/-- What `write_and_lock_data` does before it locks. -/
def writeData (data otp : Block) : Prog σ Bool := do
  match ← writeKeys env data with
  | none => return false
  | some number => return (← writeOtp env otp number).isSome

/-- SOURCE: init.c:127-157 -/
def writeAndLockData (data otp : Block) : Prog σ Bool := do
  if !(← writeData env data otp) then
    return false
  let keys ← access (copyOut data (slotCnt * bytesizeKey))
  let words ← access (copyOut otp (slotCnt * bytesizeOtp))
  let both := keys ++ words
  let crc ← access (calculateCrc
    (UInt16.ofNat (slotCnt * bytesizeKey + slotCnt * bytesizeOtp)) both)
  let (status, _) ← atshaLockData env crc
  return status = .ok

/-! ## The command -/

/-- The file is its content, or `none` where it cannot be opened.
SOURCE: init.c:159-201 -/
def init (file : Option (List UInt8)) : Prog σ Bool := do
  match file with
  | none =>
    emit (.printed "Couldn't open config file")
    return false
  | some content =>
    let (data, conf) ← withLocalFile ⟨content, content⟩
      (readConfig env (env.uninitBuffer .initData (slotCnt * bytesizeKey)).val bytesizeKey)
    match data with
    | none =>
      emit (.printed "Couldn't read config data (keys).")
      return false
    | some data =>
      let (otp, _) ← withLocalFile conf
        (readConfig env (env.uninitBuffer .initOtp (slotCnt * bytesizeOtp)).val bytesizeOtp)
      match otp with
      | none =>
        emit (.printed "Couldn't read config data (OTP).")
        return false
      | some otp =>
        if !(← createAndLockConfig env) then
          emit (.printed "Configuration is NOT locked")
          return false
        emit (.printed "Configuration is locked")
        if !(← writeAndLockData env data otp) then
          emit (.printed "Data and OTP zones are NOT locked")
          return false
        emit (.printed "Data and OTP zones are locked")
        return true

end Atsha204.Model
