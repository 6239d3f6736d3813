/-
**A firmware update in progress: its context, and what the device is asked to trust.**

An update arrives as `ota_data` messages carrying compressed data.  The decompressor turns them
into chunks of the new firmware (or, in a delta update, into a patch that is applied to the running
one), and each chunk is written to the update partition.  Before the update may finish, the header
at the beginning of the firmware is checked against the device and its version is confirmed by the
user.

Status codes are plain integers here, as in the source: return values of the decompressor are
stored where a status is expected.  What happens outside the device is an argument of the function
that meets it: the user's answer, whether a flash operation succeeds, what the decompressor
returns.  The log records what was written, taken in, confirmed and switched.

Main definitions:

* `Jade.Ota.Platform` — the constants and primitives of the device;
* `Jade.Ota.OtaCtx`, `Jade.Ota.OtaEvent` — the context of `ota_util.h`, and the log;
* `Jade.Ota.otaInit`, `Jade.Ota.otaUserValidate`, `Jade.Ota.handleInBinData`,
  `Jade.Ota.otaFinalize` — the functions of `ota_util.c`.
-/

import Jade.Lib.Bytes
import Jade.Lib.Exec

set_option relaxedAutoImplicit false
set_option autoImplicit false

namespace Jade.Ota

open Exec Bytes

/-! ### Status codes -/

def OTA_SUCCESS : Int := 0
def OTA_ERR_SETUP : Int := 1
def OTA_ERR_INIT : Int := 2
def OTA_ERR_DECOMPRESS : Int := 4
def OTA_ERR_WRITE : Int := 5
def OTA_ERR_FINISH : Int := 6
def OTA_ERR_SETPARTITION : Int := 7
def OTA_ERR_BADDATA : Int := 8
def OTA_ERR_NODOWNGRADE : Int := 9
def OTA_ERR_INVALIDFW : Int := 10
def OTA_ERR_USERDECLINED : Int := 11
def OTA_ERR_BADHASH : Int := 12
def OTA_ERR_PATCH : Int := 13
def OTA_ERR_PROTOCOL : Int := 14

/-- The size of the buffer for the data of one message. -/
def JADE_OTA_BUF_SIZE : ℕ := 4096

/-- Image header, segment header, application description and custom description. -/
def CUSTOM_HEADER_MIN_WRITE : ℕ := 24 + 8 + 256 + 97

/-! ### The device -/

/-- What the running firmware knows about its hardware, and the primitives it uses. -/
structure Platform where
  /-- `CONFIG_IDF_FIRMWARE_CHIP_ID`. -/
  chipId : ℕ
  /-- `JADE_OTA_BOARD_TYPE`. -/
  boardType : Bytes
  /-- `JADE_OTA_FEATURES`. -/
  features : Bytes
  /-- The two names fit, with their terminators, the 32-byte fields they are compared with. -/
  names_fit : boardType.length < 32 ∧ features.length < 32
  /-- `esp_efuse_check_secure_version`. -/
  checkSecureVersion : ℕ → Bool
  sha256 : Bytes → Bytes
  /-- The size of the update partition, in a flash with 32-bit addresses. -/
  partitionSize : ℕ
  partitionSize_lt : partitionSize < 2 ^ 32
  /-- `DEFLATE_ERROR`, the return value that stops the decompressor; `DEFLATE_OK` is zero. -/
  DEFLATE_ERROR : Int
  deflateError_ne : DEFLATE_ERROR ≠ 0

/-- `hash_type_t`. -/
inductive HashType
  | filedata
  | fullfwdata
  deriving DecidableEq, Repr

/-- What the log records. -/
inductive OtaEvent
  /-- A chunk was written to the update partition. -/
  | wrote (chunk : Bytes)
  /-- The data of a message was taken in. -/
  | uploaded (data : Bytes)
  /-- Decompressed bytes were used up. -/
  | inflated (n : ℕ)
  /-- The user confirmed a version, read off `buffer`, and a hash of the given type. -/
  | confirmed (buffer version hash : Bytes) (hashType : HashType)
  /-- An error status was set. -/
  | failed (status : Int)
  /-- The boot partition was switched to the update partition. -/
  | switched
  deriving DecidableEq, Repr

/-- `jade_ota_ctx_t`.  The hash context is the bytes it was fed, and `written` is the content of
the update partition. -/
structure OtaCtx where
  hashed : Bytes
  hashType : HashType
  id : Bytes
  expectedHash : Bytes
  otaReturnStatus : Int
  expectedSource : UInt8
  compressedsize : UInt32
  remainingCompressed : UInt32
  uncompressedsize : UInt32
  remainingUncompressed : UInt32
  firmwaresize : UInt32
  fwwritten : UInt32
  validatedConfirmed : Bool
  written : Bytes
  log : List OtaEvent

/-- A failed assertion restarts the device, which ends the update. -/
inductive Abort
  | assert
  deriving DecidableEq, Repr

abbrev OtaM (α : Type) : Type := EStateM Abort OtaCtx α

def assert (c : Bool) : OtaM Unit := check c Abort.assert

def note (e : OtaEvent) : OtaM PUnit := modify fun s => { s with log := s.log ++ [e] }

/-- Set `ota_return_status` to an error. -/
def setStatus (status : Int) : OtaM PUnit :=
  modify fun s => { s with otaReturnStatus := status, log := s.log ++ [.failed status] }

/-- `esp_ota_write`: a write past the end of the partition fails. -/
def espOtaWrite (P : Platform) (chunk : Bytes) (ok : Bool) : OtaM Bool := do
  let s ← get
  if ok && s.written.length + chunk.length ≤ P.partitionSize then
    modify fun s => { s with written := s.written ++ chunk, log := s.log ++ [.wrote chunk] }
    return true
  else
    return false

/-- Feed the hash when it is of the given type: `mbedtls_sha256_update` under its guard. -/
def hashIf (hashType : HashType) (bytes : Bytes) : OtaM PUnit :=
  modify fun s => if s.hashType = hashType then { s with hashed := s.hashed ++ bytes } else s

/-! ### Starting -/

/-- The parameters of an `ota` or `ota_delta` message.  A size that is missing or does not fit is
`none`; `fwhash` is the hash of the whole firmware, `cmphash` of the uploaded file. -/
structure OtaRequest where
  fwsize : Option UInt32
  cmpsize : Option UInt32
  patchsize : Option UInt32
  fwhash : Option Bytes
  cmphash : Option Bytes
  source : UInt8
  /-- The partitions are found and differ, and `esp_ota_begin` succeeds. -/
  begun : Bool

/-- The context of a new update. -/
def OtaCtx.fresh (expectedHash : Bytes) (hashType : HashType) (source : UInt8)
    (firmwaresize compressedsize uncompressedsize : UInt32) : OtaCtx where
  hashed := []
  hashType := hashType
  id := []
  expectedHash := expectedHash
  otaReturnStatus := OTA_ERR_SETUP
  expectedSource := source
  compressedsize := compressedsize
  remainingCompressed := compressedsize
  uncompressedsize := uncompressedsize
  remainingUncompressed := uncompressedsize
  firmwaresize := firmwaresize
  fwwritten := 0
  validatedConfirmed := false
  written := []
  log := []

/-- The expected hash, preferably of the whole firmware. -/
def OtaRequest.hash (r : OtaRequest) : Option (Bytes × HashType) :=
  match r.fwhash, r.cmphash with
  | some h, _ => some (h, .fullfwdata)
  | none, some h => some (h, .filedata)
  | none, none => none

/-- `ota_init`: the context of a new update, or the message the request is rejected with. -/
def otaInit (isDelta : Bool) (r : OtaRequest) : Except String OtaCtx :=
  match r.fwsize, r.cmpsize with
  | some firmwaresize, some compressedsize =>
    if firmwaresize ≤ compressedsize then
      .error "Bad filesize parameters"
    else if isDelta && r.patchsize.all (· ≤ compressedsize) then
      .error "Bad delta filesize parameters"
    else
      match r.hash with
      | some (expectedHash, hashType) =>
        if r.begun then
          .ok (OtaCtx.fresh expectedHash hashType r.source firmwaresize compressedsize
            (if isDelta then r.patchsize.getD 0 else firmwaresize))
        else
          .error "Failed to begin ota"
      | none => .error "Cannot extract valid fw hash value"
  | _, _ => .error "Bad filesize parameters"

theorem otaInit_eq_fresh {isDelta : Bool} {r : OtaRequest} {ctx : OtaCtx}
    (h : otaInit isDelta r = .ok ctx) :
    ∃ hash hashType firmwaresize compressedsize uncompressedsize, ctx =
      OtaCtx.fresh hash hashType r.source firmwaresize compressedsize uncompressedsize := by
  unfold otaInit at h
  split at h
  · split at h
    · cases h
    split at h
    · cases h
    split at h
    · split at h
      · cases h
        exact ⟨_, _, _, _, _, rfl⟩
      · cases h
    · cases h
  · cases h

/-! ### The header of the new firmware -/

/-- `esp_image_header_t.chip_id`. -/
def imageChipId (image : Bytes) : ℕ := toNatLE (field 12 2 image)

/-- `esp_app_desc_t.secure_version`. -/
def imageSecureVersion (image : Bytes) : ℕ := toNatLE (field 36 4 image)

/-- Whether the string at an offset is `name`, as `strcmp` decides it. -/
def hasName (off : ℕ) (name image : Bytes) : Bool := field off (name.length + 1) image = name ++ [0]

/-- The offset of `esp_custom_app_desc_t.board_type`. -/
def BOARD_TYPE_OFFSET : ℕ := 24 + 8 + 256 + 1

/-- The offset of `esp_custom_app_desc_t.features`. -/
def FEATURES_OFFSET : ℕ := BOARD_TYPE_OFFSET + 32

/-- The version and the configuration of the new firmware, as they are shown to the user. -/
def imageVersion (image : Bytes) : Bytes :=
  cstr (image.drop 48) ++ [0x20] ++ (cstr (image.drop (FEATURES_OFFSET + 32))).map fun c =>
    if 0x41 ≤ c ∧ c ≤ 0x5a then c + 0x20 else c

/-- `ota_user_validate`: check the header in `buffer`, then ask the user. -/
def otaUserValidate (P : Platform) (buffer : Bytes) (userOk : Bool) : OtaM PUnit := do
  let s ← get
  assert (s.otaReturnStatus = OTA_SUCCESS)
  if imageChipId buffer ≠ P.chipId then
    setStatus OTA_ERR_INVALIDFW
  else if !P.checkSecureVersion (imageSecureVersion buffer) then
    setStatus OTA_ERR_NODOWNGRADE
  else if !hasName BOARD_TYPE_OFFSET P.boardType buffer then
    setStatus OTA_ERR_INVALIDFW
  else if !hasName FEATURES_OFFSET P.features buffer then
    setStatus OTA_ERR_INVALIDFW
  else if !userOk then
    setStatus OTA_ERR_USERDECLINED
  else
    note (.confirmed buffer (imageVersion buffer) s.expectedHash s.hashType)
    modify fun s => { s with validatedConfirmed := true }

/-! ### Receiving -/

/-- A message from the host, after the checks of the message loop. -/
structure OtaMsg where
  source : UInt8
  id : Bytes
  isOtaData : Bool
  params : Bytes

/-- `handle_in_bin_data`: hand the data of a message to the decompressor, whose write routine is
`writeCompressed`. -/
def handleInBinData (m : OtaMsg) (writeCompressed : Bytes → OtaM Int) : OtaM PUnit := do
  let s ← get
  assert (s.id = [])
  assert (m.id ≠ [])
  modify fun s => { s with id := m.id }
  if s.otaReturnStatus ≠ OTA_SUCCESS then
    -- the error is returned with this id
    return
  else if !m.isOtaData then
    setStatus OTA_ERR_BADDATA
  else if m.params = [] || m.source ≠ s.expectedSource || m.params.length > JADE_OTA_BUF_SIZE then
    setStatus OTA_ERR_BADDATA
  else if m.params.length > s.remainingCompressed.toNat then
    setStatus OTA_ERR_BADDATA
  else
    let ret ← writeCompressed m.params
    if ret ≠ 0 then
      setStatus (if ret < 0 then OTA_ERR_DECOMPRESS else ret)
    else
      hashIf .filedata m.params
      note (.uploaded m.params)
      modify fun s => { s with
        remainingCompressed := s.remainingCompressed - UInt32.ofNat m.params.length
        id := [] }

/-! ### Finishing -/

/-- What happens after the last chunk: the message that follows, and the outcomes of
`esp_ota_end` and `esp_ota_set_boot_partition`. -/
structure Finish where
  isOtaComplete : Bool
  endOk : Bool
  setBootOk : Bool

/-- `ota_finalize`: the last checks, and the switch of the boot partition. -/
def otaFinalize (P : Platform) (isDelta : Bool) (f : Finish) : OtaM PUnit := do
  let s ← get
  if s.otaReturnStatus ≠ OTA_SUCCESS then
    return
  assert s.validatedConfirmed
  if !f.isOtaComplete then
    setStatus OTA_ERR_PROTOCOL
  else if s.fwwritten ≠ s.firmwaresize then
    setStatus (if isDelta then OTA_ERR_PATCH else OTA_ERR_DECOMPRESS)
  else if s.remainingCompressed ≠ 0 || s.remainingUncompressed ≠ 0 || s.compressedsize = 0 ||
      s.uncompressedsize = 0 then
    setStatus OTA_ERR_INIT
  else if s.expectedHash ≠ P.sha256 s.hashed then
    setStatus OTA_ERR_BADHASH
  else if !f.endOk then
    setStatus OTA_ERR_FINISH
  else if !f.setBootOk then
    setStatus OTA_ERR_SETPARTITION
  else
    note .switched

end Jade.Ota
