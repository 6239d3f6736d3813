/-
**The two update protocols: whole images and patches.**

In a full update the decompressor *pushes*: each message is handed to it, and it calls
`uncompressed_stream_writer` with chunks of the new firmware.  In a delta update the patcher
*pulls*: it reads patch data and the running firmware through callbacks, which wait for messages
when the decompressor runs dry, and calls `ota_stream_writer` with chunks of the new firmware.

Neither library is part of the repository.  The decompressor is any strategy for calling the writer
that may look at what the writer returns (`Jade.Ota.Deflate`); what the code relies on is that it
stops at the first error (`Jade.Ota.Deflate.StopsOnError`).  The patcher is any sequence of
callbacks whatsoever (`Jade.Ota.PatchCall`).

Main definitions:

* `Jade.Ota.uncompressedStreamWriter`, `Jade.Ota.otaProcess` — `ota.c`;
* `Jade.Ota.otaStreamWriter`, `Jade.Ota.patchStreamReader`, `Jade.Ota.baseFirmwareStreamReader`,
  `Jade.Ota.otaDeltaProcess` — `ota_delta.c`.
-/

import Jade.Ota.Util

set_option relaxedAutoImplicit false
set_option autoImplicit false

namespace Jade.Ota

open Exec Bytes

/-! ### Full updates -/

/-- What the world decides when a chunk is written: whether the flash takes it, and what the user
answers if asked. -/
structure Env where
  writeOk : Bool
  userOk : Bool

/-- Count a chunk that was written. -/
def countWritten (length : ℕ) : OtaM PUnit :=
  modify fun s => { s with fwwritten := s.fwwritten + UInt32.ofNat length }

/-- Count decompressed bytes that were used up. -/
def countInflated (length : ℕ) : OtaM PUnit :=
  modify fun s => { s with
    remainingUncompressed := s.remainingUncompressed - UInt32.ofNat length
    log := s.log ++ [.inflated length] }

/-- The header has not been checked, and the chunk is long enough to hold it. -/
def wantsHeader (chunk : Bytes) (s : OtaCtx) : Bool :=
  !s.validatedConfirmed && CUSTOM_HEADER_MIN_WRITE ≤ chunk.length

/-- More than a header has been written, and none was checked. -/
def missedHeader (s : OtaCtx) : Bool :=
  CUSTOM_HEADER_MIN_WRITE < s.fwwritten.toNat && !s.validatedConfirmed

/-- The part of `uncompressed_stream_writer` after the header check. -/
def writeUncompressed (P : Platform) (env : Env) (uncompressed : Bytes) : OtaM Int := do
  if !(← espOtaWrite P uncompressed env.writeOk) then
    setStatus OTA_ERR_WRITE
    return P.DEFLATE_ERROR
  hashIf .fullfwdata uncompressed
  countInflated uncompressed.length
  countWritten uncompressed.length
  let s ← get
  assert (s.uncompressedsize - s.remainingUncompressed = s.fwwritten)
  if missedHeader s then
    setStatus OTA_ERR_DECOMPRESS
    return P.DEFLATE_ERROR
  return 0

/-- `uncompressed_stream_writer`: the header is checked before anything is written. -/
def uncompressedStreamWriter (P : Platform) (env : Env) (uncompressed : Bytes) : OtaM Int := do
  assert (uncompressed ≠ [])
  if wantsHeader uncompressed (← get) then
    otaUserValidate P uncompressed env.userOk
    let status := (← get).otaReturnStatus
    if status ≠ OTA_SUCCESS then
      return status
  writeUncompressed P env uncompressed

/-- A decompressor in the middle of a message: it returns a code, or calls the writer with a chunk
and goes on with the code the writer returns. -/
inductive Deflate
  | ret (code : Int)
  | call (chunk : Bytes) (env : Env) (next : Int → Deflate)

/-- The chunks the decompressor delivers as long as the writer accepts them. -/
def Deflate.chunks : Deflate → List Bytes
  | .ret _ => []
  | .call chunk _ next => chunk :: (next 0).chunks

/-- The decompressor stops at the first error of the writer, and returns an error. -/
def Deflate.StopsOnError : Deflate → Prop
  | .ret _ => True
  | .call _ _ next => (next 0).StopsOnError ∧ ∀ code ≠ 0, ∃ e ≠ 0, next code = .ret e

/-- Run a decompressor against the writer. -/
def Deflate.run (P : Platform) : Deflate → OtaM Int
  | .ret code => return code
  | .call chunk env next => do
    let code ← uncompressedStreamWriter P env chunk
    (next code).run P

/-- The loop of `ota_process`: messages are taken in until all compressed data has arrived or an
error is set.  The result says whether the loop ended; otherwise the device is still waiting. -/
def otaLoop (P : Platform) : List (OtaMsg × Deflate) → OtaM Bool
  | [] => do
    let s ← get
    return s.remainingCompressed = 0 || s.otaReturnStatus ≠ OTA_SUCCESS
  | (m, deflate) :: msgs => do
    let s ← get
    if s.remainingCompressed = 0 || s.otaReturnStatus ≠ OTA_SUCCESS then
      return true
    handleInBinData m fun _ => deflate.run P
    otaLoop P msgs

/-- `ota_process`, from the end of `ota_init`. -/
def otaProcess (P : Platform) (msgs : List (OtaMsg × Deflate)) (f : Finish) : OtaM PUnit := do
  modify fun s => { s with otaReturnStatus := OTA_SUCCESS }
  if ← otaLoop P msgs then
    otaFinalize P false f

/-! ### Delta updates -/

/-- `HANDLE_NEW_ERROR`: the error is returned when there is a message to answer with it. -/
def handleNewError (error : Int) : OtaM Int := do
  setStatus error
  return if (← get).id ≠ [] then error else OTA_SUCCESS

/-- What a callback returns while an error is cached, as `HANDLE_ANY_CACHED_ERROR` does. -/
def cachedError (s : OtaCtx) : Int := if s.id ≠ [] then s.otaReturnStatus else OTA_SUCCESS

/-- `compressed_stream_reader`: wait for a message.  The decompressor takes its data and returns
`code`. -/
def compressedStreamReader (m : OtaMsg) (code : Int) : OtaM PUnit :=
  handleInBinData m fun _ => pure code

/-- Wait for messages, one after the other. -/
def readMessages : List (OtaMsg × Int) → OtaM PUnit
  | [] => return
  | (m, code) :: msgs => do
    compressedStreamReader m code
    readMessages msgs

/-- `patch_stream_reader`: the decompressor reads the messages `msgs` in order to deliver `length`
bytes, and returns `ret`. -/
def patchStreamReader (length : Int) (msgs : List (OtaMsg × Int)) (ret : Int) : OtaM Int := do
  if length ≤ 0 then
    handleNewError OTA_ERR_PATCH
  else
    readMessages msgs
    if ret ≠ 0 then
      handleNewError ret
    else
      countInflated length.toNat
      return OTA_SUCCESS

/-- `base_firmware_stream_reader`; `ok` says whether the read lies in the running partition and
succeeds. -/
def baseFirmwareStreamReader (length : Int) (ok : Bool) : OtaM Int := do
  let s ← get
  if s.otaReturnStatus ≠ OTA_SUCCESS then
    return cachedError s
  else if length ≤ 0 || !ok then
    handleNewError OTA_ERR_PATCH
  else
    return OTA_SUCCESS

/-- The part of `ota_stream_writer` after the header check. -/
def countDelta (buffer : Bytes) : OtaM Int := do
  hashIf .fullfwdata buffer
  countWritten buffer.length
  let s ← get
  assert (s.uncompressedsize - s.remainingUncompressed > s.fwwritten)
  if missedHeader s then
    handleNewError OTA_ERR_PATCH
  else
    return OTA_SUCCESS

/-- `ota_stream_writer`: the chunk is written before the header in it is checked. -/
def otaStreamWriter (P : Platform) (env : Env) (buffer : Bytes) : OtaM Int := do
  let s ← get
  if s.otaReturnStatus ≠ OTA_SUCCESS then
    return cachedError s
  else if buffer = [] then
    handleNewError OTA_ERR_PATCH
  else if !(← espOtaWrite P buffer env.writeOk) then
    handleNewError OTA_ERR_PATCH
  else
    if wantsHeader buffer (← get) then
      otaUserValidate P buffer env.userOk
      let status := (← get).otaReturnStatus
      if status ≠ OTA_SUCCESS then
        return ← handleNewError status
    countDelta buffer

/-- A callback of the patcher, with what the world decides about it. -/
inductive PatchCall
  | readPatch (length : Int) (msgs : List (OtaMsg × Int)) (ret : Int)
  | readBase (length : Int) (ok : Bool)
  | write (buffer : Bytes) (env : Env)

def PatchCall.exec (P : Platform) : PatchCall → OtaM Int
  | .readPatch length msgs ret => patchStreamReader length msgs ret
  | .readBase length ok => baseFirmwareStreamReader length ok
  | .write buffer env => otaStreamWriter P env buffer

/-- The chunks the patcher hands to the writer. -/
def writtenChunks : List PatchCall → List Bytes
  | [] => []
  | .write buffer _ :: calls => buffer :: writtenChunks calls
  | _ :: calls => writtenChunks calls

/-- Run the callbacks of the patcher, whatever they return. -/
def runPatch (P : Platform) : List PatchCall → OtaM PUnit
  | [] => return
  | c :: calls => do
    let _ ← c.exec P
    runPatch P calls

/-- `ota_delta_process`, from the end of `ota_init`.  The patcher makes the callbacks `calls`; it
returns `ret` when it is done, or has not returned yet. -/
def otaDeltaProcess (P : Platform) (calls : List PatchCall) (ret : Option Int) (f : Finish) :
    OtaM PUnit := do
  modify fun s => { s with otaReturnStatus := OTA_SUCCESS }
  runPatch P calls
  match ret with
  | none => return
  | some ret =>
    if ret ≠ OTA_SUCCESS then
      setStatus (if ret < 0 then OTA_ERR_PATCH else ret)
    otaFinalize P true f

end Jade.Ota
