/-
**Stealth addresses (`mweb_keychain.c`).**

The address with index `i` is a pair of points: the spend key shifted by a scalar that only the scan
key gives, and that point once more, multiplied by the scan key.  The two compressed points, 66
bytes, are the payload of a bech32 string.

Main definitions:

* `Jade.Mweb.addressPayload` — the two points of an address;
* `Jade.Mweb.mwebConvertBits`, `Jade.Mweb.mwebBech32Encode`, `Jade.Mweb.mwebBech32EncodePayload` —
  the text of an address;
* `Jade.Mweb.mwebDeriveAddress` — the address with an index.

Main results:

* `Jade.Mweb.mwebDeriveAddress_eq_some` — the text encodes the payload;
* `Jade.Mweb.AddressKeys.of_payload` — the points behind the bytes of the payload.
-/

import Jade.Mweb.PrimeOrder
import Jade.Utils.Network

set_option relaxedAutoImplicit false
set_option autoImplicit false

namespace Jade.Mweb

/-! ### Bech32 -/

/-- `MWEB_BECH32_CHARSET` -/
def MWEB_BECH32_CHARSET : String := "qpzry9x8gf2tvdw0s3jn54khce6mua7l"

/-- A generator of the checksum, when the bit is set. -/
def polymodTerm (b : UInt32) (i : UInt32) (generator : UInt32) : UInt32 :=
  if (b >>> i) &&& 1 = 1 then generator else 0

/-- `mweb_bech32_polymod_step` -/
def mwebBech32PolymodStep (pre : UInt32) : UInt32 :=
  let b := (pre >>> 25) &&& 0xff
  ((pre &&& 0x1FFFFFF) <<< 5) ^^^ polymodTerm b 0 0x3b6a57b2 ^^^ polymodTerm b 1 0x26508e6d ^^^
    polymodTerm b 2 0x1ea119fa ^^^ polymodTerm b 3 0x3d4233dd ^^^ polymodTerm b 4 0x2a1462b3

/-- The inner loop of `mweb_convert_bits`: the groups that are complete, and the bits left. -/
def convertEmit (outbits : ℕ) (val : UInt32) : ℕ → ℕ → Bytes × ℕ
  | 0, bits => ([], bits)
  | fuel + 1, bits =>
      if outbits ≤ bits then
        let group := (val >>> UInt32.ofNat (bits - outbits)).toNat % 2 ^ outbits
        let r := convertEmit outbits val fuel (bits - outbits)
        (UInt8.ofNat group :: r.1, r.2)
      else ([], bits)

/-- The loop of `mweb_convert_bits` over the input: the groups, and the value and the number of the
bits left. -/
def convertLoop (outbits inbits : ℕ) : UInt32 → ℕ → Bytes → Bytes × UInt32 × ℕ
  | val, bits, [] => ([], val, bits)
  | val, bits, b :: input =>
      let val := (val <<< UInt32.ofNat inbits) ||| UInt32.ofNat b.toNat
      let emitted := convertEmit outbits val (bits + inbits) (bits + inbits)
      let r := convertLoop outbits inbits val emitted.2 input
      (emitted.1 ++ r.1, r.2)

/-- `mweb_convert_bits` -/
def mwebConvertBits (outbits : ℕ) (input : Bytes) (inbits : ℕ) (pad : Bool) : Option Bytes :=
  let (groups, val, bits) := convertLoop outbits inbits 0 0 input
  let last := (val <<< UInt32.ofNat (outbits - bits)).toNat % 2 ^ outbits
  if pad then
    if bits ≠ 0 then some (groups ++ [UInt8.ofNat last]) else some groups
  else if last ≠ 0 ∨ inbits ≤ bits then none
  else some groups

/-- A character of the alphabet. -/
def bech32Char (v : ℕ) : Char := (MWEB_BECH32_CHARSET.toList)[v]?.getD 'q'

/-- The characters a prefix may have. -/
def hrpCharValid (ch : Char) : Bool :=
  !(decide (ch.toNat < 33) || decide (126 < ch.toNat) ||
    (decide ('A' ≤ ch) && decide (ch ≤ 'Z')))

/-- `mweb_bech32_encode` -/
def mwebBech32Encode (hrp : List Char) (data : Bytes) : Option (List Char) :=
  if !hrp.all hrpCharValid then none
  else if data.any (fun d => d >>> 5 ≠ 0) then none
  else
    let chk := hrp.foldl (fun chk ch =>
      mwebBech32PolymodStep chk ^^^ UInt32.ofNat (ch.toNat >>> 5)) 1
    let chk := mwebBech32PolymodStep chk
    let chk := hrp.foldl (fun chk ch =>
      mwebBech32PolymodStep chk ^^^ UInt32.ofNat (ch.toNat % 32)) chk
    let chk := data.foldl (fun chk d => mwebBech32PolymodStep chk ^^^ UInt32.ofNat d.toNat) chk
    let chk := (List.range 6).foldl (fun chk _ => mwebBech32PolymodStep chk) chk ^^^ 1
    let checksum := (List.range 6).map fun i =>
      bech32Char ((chk >>> UInt32.ofNat ((5 - i) * 5)).toNat % 32)
    some (hrp ++ ['1'] ++ data.map (fun d => bech32Char d.toNat) ++ checksum)

/-- `mweb_network_hrp` -/
def mwebNetworkHrp : Network → Option (List Char)
  | .litecoin => some "ltcmweb".toList
  | .litecoinTestnet | .litecoinRegtest => some "tmweb".toList
  | _ => none

/-- `mweb_bech32_encode_payload`: witness version 0, and the payload in groups of five bits. -/
def mwebBech32EncodePayload (payload : Bytes) (hrp : List Char) : Option (List Char) :=
  if payload.length ≠ 66 then none
  else
    match mwebConvertBits 5 payload 8 true with
    | none => none
    | some converted => mwebBech32Encode hrp (0 :: converted)

/-! ### Addresses -/

section Model

variable {P : Type} (S : Secp P)

/-- The scalar of an index. -/
def addressScalar (scanKey : Bytes) (index : UInt32) : Bytes :=
  mwebHashed S MWEB_TAG_ADDRESS (Bytes.ofNatLE 4 index.toNat ++ scanKey)

/-- `B_i`, the spend key shifted by the scalar of the index. -/
def addressPoint (scanKey spendKey : Bytes) (index : UInt32) : Option P := do
  let spendPub ← S.wallyEcPublicKeyFromPrivateKey spendKey
  let miPub ← S.wallyEcPublicKeyFromPrivateKey (addressScalar S scanKey index)
  let spendPk ← S.ecPubkeyParse spendPub
  let miPk ← S.ecPubkeyParse miPub
  S.ecPubkeyCombine spendPk miPk

/-- The stealth address `A_i || B_i` of `mweb_derive_address`. -/
def addressPayload (scanKey spendKey : Bytes) (index : UInt32) : Option Bytes := do
  let BiPk ← addressPoint S scanKey spendKey index
  let AiPk ← S.ecPubkeyTweakMul BiPk scanKey
  pure (S.ecPubkeySerialize AiPk ++ S.ecPubkeySerialize BiPk)

/-- `mweb_derive_address` -/
def mwebDeriveAddress (scanKey spendKey : Bytes) (index : UInt32) (network : Network) :
    Option (List Char) := do
  let hrp ← mwebNetworkHrp network
  let payload ← addressPayload S scanKey spendKey index
  let data ← mwebConvertBits 5 payload 8 true
  mwebBech32Encode hrp (0 :: data)

variable {S}

theorem mwebDeriveAddress_eq_some {scanKey spendKey : Bytes} {index : UInt32} {network : Network}
    {address : List Char}
    (h : mwebDeriveAddress S scanKey spendKey index network = some address) :
    ∃ hrp payload, mwebNetworkHrp network = some hrp ∧
      addressPayload S scanKey spendKey index = some payload ∧
        (payload.length = 66 → mwebBech32EncodePayload payload hrp = some address) := by
  simp only [mwebDeriveAddress, Option.bind_eq_bind, Option.bind_eq_some_iff] at h
  obtain ⟨hrp, hhrp, payload, hpayload, data, hdata, hencode⟩ := h
  refine ⟨hrp, payload, hhrp, hpayload, ?_⟩
  intro hlen
  rw [mwebBech32EncodePayload, if_neg (not_not.2 hlen), hdata]
  exact hencode

end Model

/-! ### The points of an address -/

section Keys

variable {P : Type} [AddCommGroup P] [Module (ZMod order) P] {S : Secp P} (C : PrimeCurve S)

/-- The points behind an address: `B` is the spend key shifted by the scalar of the index, and `A` is
`B` multiplied by the scan key.  The keys and the scalar are scalars, and `B` is not zero. -/
structure AddressKeys (scanKey spendKey : Bytes) (index : UInt32) (payload : Bytes) : Prop where
  scan : IsScalar scanKey
  spend : IsScalar spendKey
  shift : IsScalar (addressScalar S scanKey index)
  point : ∃ B : P, addressPoint S scanKey spendKey index = some B ∧ B ≠ 0 ∧
    B = (scalar spendKey + scalar (addressScalar S scanKey index)) • C.G ∧
      S.ecPubkeyParse (payload.drop 33) = some B ∧
        S.ecPubkeyParse (payload.take 33) = some (scalar scanKey • B)
  length : payload.length = 66

theorem AddressKeys.of_payload {scanKey spendKey payload : Bytes} {index : UInt32}
    (h : addressPayload S scanKey spendKey index = some payload) :
    AddressKeys C scanKey spendKey index payload := by
  simp only [addressPayload, Option.bind_eq_bind, Option.bind_eq_some_iff, Option.pure_def,
    Option.some.injEq] at h
  obtain ⟨B, hB, A, hA, rfl⟩ := h
  have hpoint := hB
  simp only [addressPoint, Option.bind_eq_bind, Option.bind_eq_some_iff] at hB
  obtain ⟨spendPub, hspend, miPub, hmi, spendPk, hspendPk, miPk, hmiPk, hcombine⟩ := hB
  obtain rfl := Option.some.inj ((C.fromPrivateKey hspend).symm.trans hspendPk)
  obtain rfl := Option.some.inj ((C.fromPrivateKey hmi).symm.trans hmiPk)
  obtain ⟨hsum, hne⟩ := C.combine hcombine
  obtain ⟨hmul, hAne⟩ := C.tweakMul hA
  have hlenA := C.length_serialize A
  exact {
    scan := (C.tweakMul_isSome hne).1 (by rw [hA]; rfl)
    spend := C.fromPrivateKey_isSome.1 (by rw [hspend]; rfl)
    shift := C.fromPrivateKey_isSome.1 (by rw [hmi]; rfl)
    point := by
      refine ⟨B, hpoint, hne, by rw [hsum, add_smul], ?_, ?_⟩
      · rw [List.drop_left' hlenA]
        exact C.parse_serialize hne
      · rw [List.take_left' hlenA, ← hmul]
        exact C.parse_serialize hAne
    length := by rw [List.length_append, hlenA, C.length_serialize] }

end Keys

end Jade.Mweb
