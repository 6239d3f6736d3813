/-
**The record of a registered descriptor (`descriptor.c`, `process/register_descriptor.c`).**

A descriptor is a script with up to fifteen named values to put into it.  Its record is the version,
the kind, the script, the number of values and the values, each text with its length in front, and
then the keyed hash.

The decoder checks the hash first.  It takes the length of the hash off the length of the record
without looking whether there is as much; the smallest record it expects leaves out the hash.  The
checks of the lengths of the texts allow a text as long as its array, which leaves no room for the
terminator, and the number of values is not checked at all; what is left over behind the values is
an assertion.  A record of the wallet's own making meets none of this.

Main definitions:

* `Jade.StringValue`, `Jade.DescriptorRecord` — the value of a record;
* `Jade.getDataValues`, `Jade.registeredDescriptor` — what registration takes from a request;
* `Jade.descriptorToBytes`, `Jade.descriptorFromBytes` — writing and reading a record;
* `Jade.descriptorBody` — the bytes in front of the hash;
* `Jade.TurnedAway` — a check stops the decoder before it leaves the record.

Main results:

* `Jade.reads_readDescriptor`, `Jade.stops_readDescriptor` — what the decoder takes, and where it
  stops;
* `Jade.descriptor_record_exact` — **a registered descriptor is read back, and a record is handled
  exactly when it is long enough and its lengths are those of a descriptor or turned away**.
-/

import Jade.Registration.Record

set_option relaxedAutoImplicit false
set_option autoImplicit false

namespace Jade

open Exec Cursor

/-! ### The record -/

def CURRENT_DESCRIPTOR_RECORD_VERSION : UInt8 := 0
def MAX_DESCRIPTOR_SCRIPT_LEN : ℕ := 512

/-- The smallest valid descriptor record, for sanity checking: no map values, assuming min script
len 4. -/
def MIN_DESCRIPTOR_BYTES_LEN : ℕ := 2 + 2 + 4 + 1 + 0 + 0

def MAX_DESCRIPTOR_BYTES_LEN : ℕ :=
  2 + 2 + MAX_DESCRIPTOR_SCRIPT_LEN + 1 + MAX_ALLOWED_SIGNERS * 2 * 2 +
    MAX_ALLOWED_SIGNERS * (160 + 16) + HMAC_SHA256_LEN

/-- `DESCRIPTOR_TYPE_MIXED`; the field holds whatever byte the record has. -/
def DESCRIPTOR_TYPE_MIXED : UInt8 := 2

/-- `string_value_t` -/
structure StringValue where
  value : CString 160
  key : CString 16
  deriving DecidableEq

/-- `descriptor_data_t`, as persisted. -/
structure DescriptorRecord where
  values : { values : List StringValue // values.length ≤ MAX_ALLOWED_SIGNERS }
  script : CString MAX_DESCRIPTOR_SCRIPT_LEN
  type : UInt8
  deriving DecidableEq

/-! ### Registration -/

/-- A text of the request, copied into an array of `cap` bytes. -/
def textParam (cap : ℕ) (text : Bytes) : Option (CString cap) :=
  if h : text.length < cap then if text.isEmpty then none else some ⟨text, h⟩ else none

/-- `get_data_values`: the entries of the map, the key and the value of each. -/
def getDataValues (entries : List (Bytes × Bytes)) :
    Option { values : List StringValue // values.length ≤ MAX_ALLOWED_SIGNERS } :=
  if entries.isEmpty then none
  else do
    let values ← entries.mapM fun (key, value) => do
      let key ← textParam 16 key
      let value ← textParam 160 value
      some { key, value : StringValue }
    if h : values.length ≤ MAX_ALLOWED_SIGNERS then some ⟨values, h⟩ else none

/-- What `register_descriptor_process` puts together from the fields of a request, as it goes into the
record. -/
def registeredDescriptor (descriptor : Bytes) (datavalues : List (Bytes × Bytes)) :
    Option DescriptorRecord := do
  let script ← textParam MAX_DESCRIPTOR_SCRIPT_LEN descriptor
  let values ← getDataValues datavalues
  some { values, script, type := DESCRIPTOR_TYPE_MIXED }

/-! ### Writing -/

/-- One value in the record: the key, then the value. -/
def stringValueBytes (v : StringValue) : Bytes := textBytes v.key.chars ++ textBytes v.value.chars

/-- The record up to the number of values. -/
def descriptorHead (type : UInt8) (script : Bytes) (numValues : UInt8) : Bytes :=
  [CURRENT_DESCRIPTOR_RECORD_VERSION, type] ++ textBytes script ++ [numValues]

/-- The record in front of the hash. -/
def descriptorBody (d : DescriptorRecord) : Bytes :=
  descriptorHead d.type d.script.chars (UInt8.ofNat d.values.1.length) ++
    d.values.1.flatMap stringValueBytes

/-- `string_values_len` -/
def stringValuesLen (values : List StringValue) : ℕ :=
  (values.map fun v => v.key.chars.length + v.value.chars.length).sum

theorem stringValuesLen_cons (v : StringValue) (values : List StringValue) :
    stringValuesLen (v :: values) =
      v.key.chars.length + v.value.chars.length + stringValuesLen values := by
  simp [stringValuesLen]

/-- `DESCRIPTOR_BYTES_LEN` -/
def descriptorBytesLen (d : DescriptorRecord) : ℕ :=
  2 + 2 + d.script.chars.length + 1 + d.values.1.length * 2 * 2 + stringValuesLen d.values.1 +
    HMAC_SHA256_LEN

/-- `descriptor_to_bytes`, into a buffer of `outputLen` bytes. -/
def descriptorToBytes (key : MasterKey) (d : DescriptorRecord) (outputLen : ℕ) :
    Except Fault (Option Bytes) := do
  jadeVerify (outputLen = descriptorBytesLen d)
  jadeVerify (!d.script.chars.isEmpty)
  let body := descriptorBody d
  jadeVerify (body.length + HMAC_SHA256_LEN = outputLen)
  return (walletHmacWithMasterKey key body).map (body ++ ·)

/-! ### Reading -/

/-- One value of the record. -/
def readStringValue : RecordReader StringValue := do
  let key ← readText 16
  let value ← readText 160
  pure { key, value }

/-- `descriptor_from_bytes`, from the version to the last of the values. -/
def readDescriptor : RecordReader DescriptorRecord := do
  let version ← readByte
  check (version ≤ CURRENT_DESCRIPTOR_RECORD_VERSION) .refused
  let type ← readByte
  let script ← readText MAX_DESCRIPTOR_SCRIPT_LEN
  let numValues ← readByte
  let values ← readSlots (.fault .overflow) (fun _ => readStringValue) MAX_ALLOWED_SIGNERS
    numValues.toNat
  pure { values, script, type }

/-- `descriptor_from_bytes` -/
def descriptorFromBytes (key : MasterKey) (bytes : Bytes) : Except ReadStop DescriptorRecord :=
  if bytes.length < MIN_DESCRIPTOR_BYTES_LEN then .error (.fault .assert)
  -- the length that the hash is computed over wraps around
  else if bytes.length < HMAC_SHA256_LEN then .error (.fault .overflow)
  else if ¬ Authentic key bytes then .error .refused
  else
    match readDescriptor.run bytes with
    | .error e _ => .error e
    | .ok d rest =>
        if rest.length = HMAC_SHA256_LEN then .ok d else .error (.fault .assert)

/-! ### What the decoder takes off the record -/

theorem reads_readStringValue :
    Reads readStringValue (fun v word => word = stringValueBytes v) := by
  refine (reads_bind (reads_readText (by decide)) (fun key =>
    reads_bind (reads_readText (by decide)) (fun value => reads_pure _))).congr ?_
  intro v word
  constructor
  · rintro ⟨key, _, _, rfl, ⟨value, _, _, rfl, ⟨rfl, rfl⟩, rfl⟩, rfl⟩
    rw [List.append_nil, stringValueBytes]
  · rintro rfl
    exact ⟨v.key, _, _, rfl, ⟨v.value, _, [], rfl, ⟨rfl, rfl⟩, (List.append_nil _).symm⟩, rfl⟩

/-- The value is turned away for its key or for its value. -/
def ValueTooLong (bs : Bytes) : Prop :=
  TooLong 16 bs ∨ ∃ (key : CString 16) (rest : Bytes), TooLong 160 rest ∧
    bs = textBytes key.chars ++ rest

theorem stops_readStringValue : Stops readStringValue .refused ValueTooLong := by
  refine (stops_bind (reads_readText (by decide)) (stops_readText 16) (fun key =>
    stops_bind (reads_readText (by decide)) (stops_readText 160) (fun value =>
      stops_pure _))).congr ?_
  intro bs
  constructor
  · rintro (h | ⟨key, _, rest, rfl, h | ⟨_, _, _, -, h, -⟩, rfl⟩)
    · exact .inl h
    · exact .inr ⟨key, rest, h, rfl⟩
    · exact h.elim
  · rintro (h | ⟨key, rest, h, rfl⟩)
    · exact .inl h
    · exact .inr ⟨key, _, rest, rfl, .inl h, rfl⟩

theorem reads_readDescriptor :
    Reads readDescriptor (fun d word => word = descriptorBody d) := by
  refine (reads_bind (reads_next _) (fun version => reads_bind (reads_check _ _) (fun _ =>
    reads_bind (reads_next _) (fun type => reads_bind (reads_readText (by decide)) (fun script =>
      reads_bind (reads_next _) (fun numValues =>
        reads_bind (reads_readSlots _ (fun _ => reads_readStringValue) MAX_ALLOWED_SIGNERS
          numValues.toNat) (fun values => reads_pure _))))))).congr ?_
  intro d word
  constructor
  · rintro ⟨version, _, _, rfl, ⟨_, _, _, ⟨hversion, rfl⟩, ⟨type, _, _, rfl, ⟨script, _, _, rfl,
      ⟨numValues, _, _, rfl, ⟨values, words, _, ⟨hlen, hspell⟩, ⟨rfl, rfl⟩, rfl⟩, rfl⟩, rfl⟩, rfl⟩,
      rfl⟩, rfl⟩
    have hzero : version = CURRENT_DESCRIPTOR_RECORD_VERSION :=
      UInt8.le_antisymm (of_decide_eq_true hversion) (UInt8.zero_le)
    have hnum : UInt8.ofNat values.1.length = numValues := by rw [hlen, UInt8.ofNat_toNat]
    rw [descriptorBody, descriptorHead, hnum, hzero, spells_iff.1 hspell]
    simp
  · rintro rfl
    have hle : d.values.1.length ≤ 15 := d.values.2
    have hnum : (UInt8.ofNat d.values.1.length).toNat = d.values.1.length := by
      rw [UInt8.toNat_ofNat']
      omega
    refine ⟨CURRENT_DESCRIPTOR_RECORD_VERSION, _, _, rfl, ⟨(), [], _, ⟨rfl, rfl⟩, ⟨d.type, _, _, rfl,
      ⟨d.script, _, _, rfl, ⟨UInt8.ofNat d.values.1.length, _, _, rfl, ⟨d.values, _, [],
        ⟨hnum.symm, spells_iff.2 rfl⟩, ⟨rfl, rfl⟩, rfl⟩, rfl⟩, rfl⟩, rfl⟩, rfl⟩, ?_⟩
    simp [descriptorBody, descriptorHead]

/-- A check stops the decoder before it leaves the record: the version, the length of the script, or
the length of a text among the values. -/
inductive TurnedAway : Bytes → Prop
  | version (version : UInt8) (rest : Bytes) :
      CURRENT_DESCRIPTOR_RECORD_VERSION < version → TurnedAway (version :: rest)
  | script (type : UInt8) (rest : Bytes) :
      TooLong MAX_DESCRIPTOR_SCRIPT_LEN rest →
        TurnedAway (CURRENT_DESCRIPTOR_RECORD_VERSION :: type :: rest)
  | value (type : UInt8) (script : CString MAX_DESCRIPTOR_SCRIPT_LEN) (numValues : UInt8)
      (values : List StringValue) (rest : Bytes) :
      values.length < numValues.toNat → values.length < MAX_ALLOWED_SIGNERS → ValueTooLong rest →
        TurnedAway (descriptorHead type script.chars numValues ++
          (values.flatMap stringValueBytes ++ rest))

theorem stops_readDescriptor : Stops readDescriptor .refused TurnedAway := by
  refine (stops_bind (reads_next _) stops_readByte (fun version => stops_bind (reads_check _ _)
    (stops_check _ _) (fun _ => stops_bind (reads_next _) stops_readByte (fun type =>
      stops_bind (reads_readText (by decide)) (stops_readText _) (fun script =>
        stops_bind (reads_next _) stops_readByte (fun numValues =>
          stops_bind (reads_readSlots _ (fun _ => reads_readStringValue) _ _)
            (stops_readSlots _ (fun _ => reads_readStringValue) (fun _ => stops_readStringValue)
              MAX_ALLOWED_SIGNERS numValues.toNat (fun h => by cases h))
            (fun values => stops_pure _))))))).congr ?_
  intro bs
  constructor
  · rintro (h | ⟨version, _, _, rfl, ⟨hversion, -⟩ | ⟨_, _, _, ⟨hversion, rfl⟩, h | ⟨type, _, _, rfl,
      h | ⟨script, _, _, rfl, h | ⟨numValues, _, _, rfl, ⟨values, words, rest, hnum, hslots, hspell,
        hlong, rfl⟩ | ⟨_, _, _, -, h, -⟩, rfl⟩, rfl⟩, rfl⟩, rfl⟩, rfl⟩)
    · exact h.elim
    · exact .version version _ (UInt8.not_le.1 (of_decide_eq_false hversion))
    · exact h.elim
    · have hzero : version = CURRENT_DESCRIPTOR_RECORD_VERSION :=
        UInt8.le_antisymm (of_decide_eq_true hversion) (UInt8.zero_le)
      rw [hzero]
      exact .script type _ h
    · exact h.elim
    · have hzero : version = CURRENT_DESCRIPTOR_RECORD_VERSION :=
        UInt8.le_antisymm (of_decide_eq_true hversion) (UInt8.zero_le)
      have h := TurnedAway.value type script numValues values rest hnum hslots hlong
      rw [hzero, spells_iff.1 hspell]
      simpa [descriptorHead] using h
    · exact h.elim
  · intro h
    cases h with
    | version version rest hversion =>
        exact .inr ⟨version, _, rest, rfl,
          .inl ⟨decide_eq_false (UInt8.not_le.2 hversion), rfl⟩, rfl⟩
    | script type rest hlong =>
        exact .inr ⟨CURRENT_DESCRIPTOR_RECORD_VERSION, _, _, rfl, .inr ⟨(), [], _, ⟨rfl, rfl⟩,
          .inr ⟨type, _, _, rfl, .inl hlong, rfl⟩, rfl⟩, rfl⟩
    | value type script numValues values rest hnum hslots hlong =>
        refine .inr ⟨CURRENT_DESCRIPTOR_RECORD_VERSION, _, _, rfl, .inr ⟨(), [], _, ⟨rfl, rfl⟩,
          .inr ⟨type, _, _, rfl, .inr ⟨script, _, _, rfl, .inr ⟨numValues, _, _, rfl,
            .inl ⟨values, _, rest, hnum, hslots, spells_iff.2 rfl, hlong, rfl⟩, rfl⟩, rfl⟩, rfl⟩,
          rfl⟩, ?_⟩
        simp [descriptorHead]

/-! ### What registration puts into a record -/

theorem textParam_eq_some {cap : ℕ} {text : Bytes} {s : CString cap}
    (h : textParam cap text = some s) : s.chars = text ∧ text ≠ [] := by
  rw [textParam] at h
  split at h
  · split at h
    · cases h
    · case isFalse hne =>
        cases h
        exact ⟨rfl, by simpa using hne⟩
  · cases h

theorem getDataValues_eq_some {entries : List (Bytes × Bytes)}
    {values : { values : List StringValue // values.length ≤ MAX_ALLOWED_SIGNERS }}
    (h : getDataValues entries = some values) :
    values.1.map (fun v => (v.key.chars, v.value.chars)) = entries := by
  have hmap : ∀ (entries : List (Bytes × Bytes)) (vs : List StringValue),
      (entries.mapM fun (key, value) => do
        let key ← textParam 16 key
        let value ← textParam 160 value
        some { key, value : StringValue }) = some vs →
      vs.map (fun v => (v.key.chars, v.value.chars)) = entries := by
    intro entries
    induction entries with
    | nil =>
        intro vs hvs
        cases hvs
        rfl
    | cons entry entries ih =>
        intro vs hvs
        simp only [List.mapM_cons, Option.bind_eq_bind, Option.bind_eq_some_iff] at hvs
        obtain ⟨v, ⟨key, hkey, value, hvalue, hv⟩, vs', hvs', h⟩ := hvs
        cases hv
        cases h
        rw [List.map_cons, ih vs' hvs', (textParam_eq_some hkey).1, (textParam_eq_some hvalue).1]
  rw [getDataValues] at h
  split at h
  · cases h
  · simp only [Option.bind_eq_bind, Option.bind_eq_some_iff] at h
    obtain ⟨vs, hvs, h⟩ := h
    split at h
    · cases h
      exact hmap entries vs hvs
    · cases h

/-- Registration takes the texts of the request as they are. -/
theorem registeredDescriptor_eq_some {descriptor : Bytes} {datavalues : List (Bytes × Bytes)}
    {d : DescriptorRecord} (h : registeredDescriptor descriptor datavalues = some d) :
    d.script.chars = descriptor ∧ d.script.chars ≠ [] ∧
      d.values.1.map (fun v => (v.key.chars, v.value.chars)) = datavalues := by
  simp only [registeredDescriptor, Option.bind_eq_bind, Option.bind_eq_some_iff] at h
  obtain ⟨script, hscript, values, hvalues, h⟩ := h
  cases h
  obtain ⟨hchars, hne⟩ := textParam_eq_some hscript
  exact ⟨hchars, by rwa [hchars], getDataValues_eq_some hvalues⟩

/-! ### Round trip -/

/-- The macro counts the bytes that are written. -/
theorem length_descriptorBody (d : DescriptorRecord) :
    (descriptorBody d).length + HMAC_SHA256_LEN = descriptorBytesLen d := by
  have hvalues : ∀ values : List StringValue,
      (values.flatMap stringValueBytes).length = values.length * 2 * 2 + stringValuesLen values := by
    intro values
    induction values with
    | nil => rfl
    | cons v values ih =>
        rw [List.flatMap_cons, List.length_append, ih, stringValueBytes, List.length_append,
          length_textBytes, length_textBytes, List.length_cons, stringValuesLen_cons]
        omega
  rw [descriptorBody, descriptorHead, descriptorBytesLen]
  simp only [List.length_append, List.length_cons, List.length_nil, length_textBytes, hvalues]
  omega

/-- The largest buffer is large enough for every record. -/
theorem descriptorBytesLen_le (d : DescriptorRecord) :
    descriptorBytesLen d ≤ MAX_DESCRIPTOR_BYTES_LEN := by
  have hvalues : ∀ values : List StringValue,
      stringValuesLen values ≤ values.length * (160 + 16) := by
    intro values
    induction values with
    | nil => exact Nat.zero_le _
    | cons v values ih =>
        have hkey := v.key.fits
        have hvalue := v.value.fits
        rw [stringValuesLen_cons, List.length_cons]
        omega
  have hscript := d.script.fits
  have hnum := d.values.2
  have hlen := hvalues d.values.1
  simp only [descriptorBytesLen, MAX_DESCRIPTOR_BYTES_LEN, MAX_DESCRIPTOR_SCRIPT_LEN,
    MAX_ALLOWED_SIGNERS] at *
  omega

/-- The lengths in the record are those of a descriptor, and the hash is all that is left. -/
def IsDescriptor (d : DescriptorRecord) (bytes : Bytes) : Prop :=
  ∃ mac : Bytes, mac.length = HMAC_SHA256_LEN ∧ bytes = descriptorBody d ++ mac

/-- On an authentic record, `descriptor_from_bytes` returns what the record is of. -/
theorem descriptorFromBytes_eq_ok_iff {key : MasterKey} {bytes : Bytes} {d : DescriptorRecord}
    (hlen : HMAC_SHA256_LEN ≤ bytes.length) (hauth : Authentic key bytes) :
    descriptorFromBytes key bytes = .ok d ↔ IsDescriptor d bytes := by
  have hmin : ¬ bytes.length < MIN_DESCRIPTOR_BYTES_LEN := by
    rw [MIN_DESCRIPTOR_BYTES_LEN]
    rw [HMAC_SHA256_LEN] at hlen
    omega
  rw [descriptorFromBytes, if_neg hmin, if_neg (Nat.not_lt.2 hlen), if_neg (not_not.2 hauth)]
  constructor
  · intro h
    cases hrun : readDescriptor.run bytes with
    | error e rest =>
        rw [hrun] at h
        cases h
    | ok d' rest =>
        rw [hrun] at h
        dsimp only at h
        split at h
        · case isTrue hrest =>
            cases h
            obtain ⟨word, rfl, rfl⟩ := (reads_readDescriptor _ _ _).1 hrun
            exact ⟨rest, hrest, rfl⟩
        · cases h
  · rintro ⟨mac, hmac, rfl⟩
    have hrun : readDescriptor.run (descriptorBody d ++ mac) = .ok d mac :=
      (reads_readDescriptor _ _ _).2 ⟨_, rfl, rfl⟩
    rw [hrun]
    exact if_pos hmac

/-- A record that is long enough is turned away by its hash or by one of the checks behind. -/
theorem descriptorFromBytes_refused_iff {key : MasterKey} {bytes : Bytes}
    (hlen : HMAC_SHA256_LEN ≤ bytes.length) :
    descriptorFromBytes key bytes = .error .refused ↔ (Authentic key bytes → TurnedAway bytes) := by
  have hmin : ¬ bytes.length < MIN_DESCRIPTOR_BYTES_LEN := by
    rw [MIN_DESCRIPTOR_BYTES_LEN]
    rw [HMAC_SHA256_LEN] at hlen
    omega
  rw [descriptorFromBytes, if_neg hmin, if_neg (Nat.not_lt.2 hlen)]
  by_cases hauth : Authentic key bytes
  · rw [if_neg (not_not.2 hauth), ← stops_readDescriptor bytes]
    cases readDescriptor.run bytes with
    | error e rest => simp [hauth]
    | ok d rest =>
        dsimp only
        split <;> simp [hauth]
  · simp [hauth]

/-! ### Exactly which records are handled -/

/-- The record is decoded, its hash and its lengths being right, or it is rejected; nothing is read
or written elsewhere and no assertion fails. -/
def WellHandled (key : MasterKey) (bytes : Bytes) : Prop :=
  descriptorFromBytes key bytes = .error .refused ∨
    ∃ d, descriptorFromBytes key bytes = .ok d ∧ Authentic key bytes ∧ IsDescriptor d bytes

/-- The record is as long as a hash at least, and where its hash is right, its lengths are those of
a descriptor or a check turns it away. -/
def AdmissibleRecord (key : MasterKey) (bytes : Bytes) : Prop :=
  HMAC_SHA256_LEN ≤ bytes.length ∧
    (Authentic key bytes → (∃ d, IsDescriptor d bytes) ∨ TurnedAway bytes)

theorem wellHandled_iff (key : MasterKey) {bytes : Bytes}
    (hmin : MIN_DESCRIPTOR_BYTES_LEN ≤ bytes.length) :
    WellHandled key bytes ↔ AdmissibleRecord key bytes := by
  by_cases hlen : HMAC_SHA256_LEN ≤ bytes.length
  · constructor
    · rintro (h | ⟨d, -, -, hd⟩)
      · exact ⟨hlen, fun hauth => .inr ((descriptorFromBytes_refused_iff hlen).1 h hauth)⟩
      · exact ⟨hlen, fun _ => .inl ⟨d, hd⟩⟩
    · rintro ⟨-, h⟩
      by_cases hauth : Authentic key bytes
      · rcases h hauth with ⟨d, hd⟩ | haway
        · exact .inr ⟨d, (descriptorFromBytes_eq_ok_iff hlen hauth).2 hd, hauth, hd⟩
        · exact .inl ((descriptorFromBytes_refused_iff hlen).2 fun _ => haway)
      · exact .inl ((descriptorFromBytes_refused_iff hlen).2 fun ha => absurd ha hauth)
  · -- the length of the hash exceeds that of the record
    have hrun : descriptorFromBytes key bytes = .error (.fault .overflow) := by
      rw [descriptorFromBytes, if_neg (Nat.not_lt.2 hmin), if_pos (Nat.not_le.1 hlen)]
    constructor
    · rintro (h | ⟨d, h, -⟩)
      · rw [hrun] at h
        cases h
      · rw [hrun] at h
        cases h
    · rintro ⟨h, -⟩
      exact absurd h hlen

/-- What registration puts into the flash is read back. -/
theorem descriptorFromBytes_descriptorToBytes (key : MasterKey) (d : DescriptorRecord)
    (hscript : d.script.chars ≠ []) :
    ∃ bytes, descriptorToBytes key d (descriptorBytesLen d) = .ok (some bytes) ∧
      bytes.length = descriptorBytesLen d ∧ descriptorFromBytes key bytes = .ok d := by
  have hbody : descriptorBody d ≠ [] := by simp [descriptorBody, descriptorHead]
  have hauth := authentic_append key hbody
  have hlen : (descriptorBody d ++ key.hmacSha256 (descriptorBody d)).length =
      descriptorBytesLen d := by
    rw [List.length_append, key.length_hmacSha256, length_descriptorBody]
  refine ⟨descriptorBody d ++ key.hmacSha256 (descriptorBody d), ?_, hlen, ?_⟩
  · simp [descriptorToBytes, jadeVerify, length_descriptorBody, walletHmacWithMasterKey, hscript,
      hbody, bind, Except.bind, pure, Except.pure]
  · refine (descriptorFromBytes_eq_ok_iff ?_ hauth).2 ⟨_, key.length_hmacSha256 _, rfl⟩
    rw [hlen, ← length_descriptorBody]
    omega

/-- **A descriptor that registration accepts is read back from its record, and a record is decoded or
rejected as it should be exactly when it is as long as a hash, and, its hash being right, has the
lengths of a descriptor or is turned away by a check before the decoder leaves it.** -/
theorem descriptor_record_exact (key : MasterKey) :
    (∀ descriptor datavalues d, registeredDescriptor descriptor datavalues = some d →
      d.script.chars = descriptor ∧
        d.values.1.map (fun v => (v.key.chars, v.value.chars)) = datavalues ∧
        descriptorBytesLen d ≤ MAX_DESCRIPTOR_BYTES_LEN ∧
        ∃ bytes, descriptorToBytes key d (descriptorBytesLen d) = .ok (some bytes) ∧
          bytes.length = descriptorBytesLen d ∧ descriptorFromBytes key bytes = .ok d) ∧
      ∀ bytes : Bytes, MIN_DESCRIPTOR_BYTES_LEN ≤ bytes.length →
        (WellHandled key bytes ↔ AdmissibleRecord key bytes) := by
  constructor
  · intro descriptor datavalues d h
    obtain ⟨hscript, hne, hvalues⟩ := registeredDescriptor_eq_some h
    exact ⟨hscript, hvalues, descriptorBytesLen_le d,
      descriptorFromBytes_descriptorToBytes key d hne⟩
  · intro bytes hmin
    exact wellHandled_iff key hmin

/-- One script, with one value. -/
def singleDescriptor : DescriptorRecord where
  values := ⟨[{ value := ⟨[120], by decide⟩, key := ⟨[64], by decide⟩ }], by decide⟩
  script := ⟨[64], by decide⟩
  type := DESCRIPTOR_TYPE_MIXED

/-- The hash of that record under a key that is one in every byte. -/
def singleDescriptorHmac : Bytes := [
  205, 68, 253, 114, 110, 89, 140, 188, 203, 51, 30, 77, 81, 53, 75, 34, 94, 195, 53,
  96, 44, 126, 57, 217, 167, 118, 158, 161, 27, 111, 111, 219]

/-- A keyed hash that gives the hash of that record. -/
def singleMasterKey : MasterKey where
  hmacSha256 _ := singleDescriptorHmac
  length_hmacSha256 _ := rfl

theorem descriptor_record_exact_single :
    (∃ bytes, descriptorToBytes singleMasterKey singleDescriptor
        (descriptorBytesLen singleDescriptor) = .ok (some bytes) ∧
      descriptorFromBytes singleMasterKey bytes = .ok singleDescriptor) ∧
    (WellHandled singleMasterKey (descriptorBody singleDescriptor ++ singleDescriptorHmac) ↔
      AdmissibleRecord singleMasterKey (descriptorBody singleDescriptor ++ singleDescriptorHmac)) := by
  obtain ⟨-, -, -, bytes, hbytes, -, hread⟩ :=
    (descriptor_record_exact singleMasterKey).1 [64] [([64], [120])] singleDescriptor (by decide)
  exact ⟨⟨bytes, hbytes, hread⟩, (descriptor_record_exact singleMasterKey).2 _ (by decide)⟩

/-- A record of nine bytes passes the check of the smallest record, whatever the key. -/
theorem descriptor_record_short :
    MIN_DESCRIPTOR_BYTES_LEN ≤ (List.replicate 9 (0 : UInt8)).length ∧
      ∀ key, descriptorFromBytes key (List.replicate 9 0) = .error (.fault .overflow) ∧
        ¬ WellHandled key (List.replicate 9 0) := by
  refine ⟨by decide, fun key => ⟨rfl, ?_⟩⟩
  rintro (h | ⟨d, h, -⟩)
  · cases h
  · cases h

end Jade
