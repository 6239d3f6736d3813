/-
**The scripts the wallet builds (`wallet.c`, `utils/util.c`, `utils/network.c`).**

A wallet is the extended private key of the keychain with the path of its Green service, together
with the functions of `libwally` that derive keys and assemble scripts.  Everything `wallet.c`
computes from these is written out: the paths it expects, the key of the Green service, and the
singlesig, multisig and Green scripts.

A failed assertion ends the request, and so does an access outside an array; both are faults.

Main definitions:

* `Jade.Fault`, `Jade.jadeVerify`, `Jade.wallyVerify`, `Jade.put` — how a computation is cut short;
* `Jade.isPotentialGreenUserPath`, … — the path patterns of Green;
* `Jade.ScriptVariant`, `Jade.scriptLengthForVariant` — the kinds of scripts;
* `Jade.Wallet` — the keychain and the functions called;
* `Jade.walletGetGaservicePath`, `Jade.walletBuildGaScriptEx`, `Jade.walletBuildSinglesigScript`,
  `Jade.walletBuildMultisigScript` — the scripts;
* `Jade.walletIsExpectedSinglesigPath`, `Jade.walletIsExpectedMultisigPath`,
  `Jade.walletBip32PathAsStr` — paths shown in warnings.
-/

import Jade.Psbt.Psbt

set_option relaxedAutoImplicit false
set_option autoImplicit false

namespace Jade

/-! ### Assertions -/

/-- What cuts a computation short: an assertion that fails, or an access outside an array. -/
inductive Fault
  | assert
  | overflow
  deriving DecidableEq, Repr

/-- `JADE_ASSERT` -/
def jadeVerify (c : Bool) : Except Fault Unit := if c then .ok () else .error .assert

/-- `JADE_WALLY_VERIFY` of a call with a result. -/
def wallyVerify {α : Type} : Option α → Except Fault α
  | some a => .ok a
  | none => .error .assert

/-- An assertion that holds does nothing. -/
theorem jadeVerify_bind {c : Bool} (h : c = true) {α : Type} (f : Unit → Except Fault α) :
    jadeVerify c >>= f = f () := by
  rw [jadeVerify, if_pos h]
  rfl

theorem jadeVerify_eq_ok {c : Bool} {u : Unit} : jadeVerify c = .ok u ↔ c = true := by
  cases c <;> simp [jadeVerify]

/-- A call that succeeds gives its result. -/
@[simp] theorem wallyVerify_some {α : Type} (a : α) : wallyVerify (some a) = .ok a := rfl

theorem wallyVerify_eq_ok {α : Type} {x : Option α} {a : α} : wallyVerify x = .ok a ↔ x = some a := by
  cases x with
  | none => exact ⟨fun h => (by cases h), fun h => (by cases h)⟩
  | some b => exact ⟨fun h => congrArg some (Except.ok.inj h), fun h => congrArg _ (Option.some.inj h)⟩

/-! ### Buffers -/

/-- Write behind what has been written to a buffer. -/
def put (bufLen : ℕ) (out bytes : Bytes) : Except Fault Bytes :=
  if out.length + bytes.length ≤ bufLen then .ok (out ++ bytes) else .error .overflow

theorem put_eq_ok {bufLen : ℕ} {out bytes : Bytes} (h : out.length + bytes.length ≤ bufLen) :
    put bufLen out bytes = .ok (out ++ bytes) := if_pos h

/-! ### Paths -/

/-- `ishardened` -/
def isHardened (n : UInt32) : Bool := n &&& 0x80000000 != 0

/-- `harden` -/
def harden (n : UInt32) : UInt32 := n ||| 0x80000000

/-- `unharden` -/
def unharden (n : UInt32) : UInt32 := n &&& 0x7fffffff

def MAX_PATH_LEN : ℕ := 16
def GASERVICE_ROOT_PATH_LEN : ℕ := 33
def MAX_GASERVICE_PATH_LEN : ℕ := 35
def GA_USER_PATH_MAX_LEN : ℕ := 4
def GA_RECOVERY_PATH_LEN : ℕ := 2

/-- `path_get_unhardened_tail_index` -/
def pathGetUnhardenedTailIndex (path : List UInt32) : ℕ :=
  path.zipIdx.foldl (fun start (n, i) => if isHardened n then i + 1 else start) 0

/-- `is_potential_green_recovery_path` -/
def isPotentialGreenRecoveryPath : List UInt32 → Bool
  | [branch, pointer] => branch == 1 && !isHardened pointer
  | _ => false

/-- `is_potential_green_user_path`, with the subaccount. -/
def isPotentialGreenUserPath : List UInt32 → Option UInt32
  | [root, subaccount, branch, pointer] =>
      if root == harden 3 && isHardened subaccount && branch == 1 && pointer != 0 &&
          !isHardened pointer then some (unharden subaccount)
      else none
  | path => if isPotentialGreenRecoveryPath path then some 0 else none

/-- `is_potential_green_server_path`, with the subaccount. -/
def isPotentialGreenServerPath : List UInt32 → Option UInt32
  | [] => none
  | first :: rest =>
      let len := rest.length + 1
      let isSubaccount := len == MAX_GASERVICE_PATH_LEN && first == 3
      if !isSubaccount && !(len == MAX_GASERVICE_PATH_LEN - 1 && first == 1) then none
      else
        let tailLen := if isSubaccount then 2 else 1
        let service := rest.take (rest.length - tailLen)
        if service.any (fun n => n > 0xffff || isHardened n) ||
            (rest.drop (rest.length - tailLen)).any isHardened then none
        else some (if isSubaccount then (rest[rest.length - 2]?).getD 0 else 0)

/-! ### Script variants -/

/-- The answers of `wally_scriptpubkey_get_type` that the code tells apart. -/
inductive ScriptType
  | p2pkh
  | p2sh
  | p2wpkh
  | p2wsh
  | p2tr
  | multisig
  | other
  deriving Repr, DecidableEq

/-- `script_variant_t` -/
inductive ScriptVariant
  | green
  | p2pkh
  | p2wpkh
  | p2wpkhP2sh
  | multiP2wsh
  | multiP2sh
  | multiP2wshP2sh
  | p2tr
  deriving Repr, DecidableEq

def WALLY_SCRIPTPUBKEY_P2PKH_LEN : ℕ := 25
def WALLY_SCRIPTPUBKEY_P2SH_LEN : ℕ := 23
def WALLY_SCRIPTPUBKEY_P2WPKH_LEN : ℕ := 22
def WALLY_SCRIPTPUBKEY_P2WSH_LEN : ℕ := 34
def WALLY_SCRIPTPUBKEY_P2TR_LEN : ℕ := 34
def EC_PUBLIC_KEY_LEN : ℕ := 33
def MAX_ALLOWED_SIGNERS : ℕ := 15

/-- `script_length_for_variant` -/
def scriptLengthForVariant : ScriptVariant → ℕ
  | .p2pkh => WALLY_SCRIPTPUBKEY_P2PKH_LEN
  | .p2wpkh => WALLY_SCRIPTPUBKEY_P2WPKH_LEN
  | .p2tr => WALLY_SCRIPTPUBKEY_P2TR_LEN
  | .green | .p2wpkhP2sh | .multiP2sh | .multiP2wshP2sh => WALLY_SCRIPTPUBKEY_P2SH_LEN
  | .multiP2wsh => WALLY_SCRIPTPUBKEY_P2WSH_LEN

/-- `is_singlesig` -/
def isSinglesig : ScriptVariant → Bool
  | .p2pkh | .p2wpkh | .p2wpkhP2sh | .p2tr => true
  | _ => false

/-- `is_multisig` -/
def isMultisig : ScriptVariant → Bool
  | .multiP2sh | .multiP2wsh | .multiP2wshP2sh => true
  | _ => false

/-- `get_singlesig_variant_from_script_type` -/
def getSinglesigVariantFromScriptType : ScriptType → Option ScriptVariant
  | .p2wpkh => some .p2wpkh
  | .p2pkh => some .p2pkh
  | .p2sh => some .p2wpkhP2sh
  | .p2tr => some .p2tr
  | _ => none

/-- `get_script_variant`; Green is the default. -/
def getScriptVariant (variant : Bytes) : Option ScriptVariant :=
  if variant.isEmpty then some .green
  else if variant.cstr = ascii "pkh(k)" then some .p2pkh
  else if variant.cstr = ascii "wpkh(k)" then some .p2wpkh
  else if variant.cstr = ascii "sh(wpkh(k))" then some .p2wpkhP2sh
  else if variant.cstr = ascii "tr(k)" then some .p2tr
  else if variant.cstr = ascii "sh(multi(k))" then some .multiP2sh
  else if variant.cstr = ascii "wsh(multi(k))" then some .multiP2wsh
  else if variant.cstr = ascii "sh(wsh(multi(k)))" then some .multiP2wshP2sh
  else none

/-- `get_script_variant_purpose`; there is none for a Green script. -/
def getScriptVariantPurpose : ScriptVariant → Option UInt32
  | .p2pkh => some (harden 44)
  | .p2wpkh => some (harden 84)
  | .p2wpkhP2sh => some (harden 49)
  | .p2tr => some (harden 86)
  | .multiP2sh => some (harden 45)
  | .multiP2wsh | .multiP2wshP2sh => some (harden 48)
  | .green => none

/-! ### Networks -/

/-- `network_to_csv_blocks` -/
def networkToCsvBlocks : Network → List ℕ
  | .bitcoin => [25920, 51840, 65535]
  | .liquid => [65535]
  | .bitcoinTestnet | .bitcoinRegtest => [144, 4320, 51840]
  | .liquidTestnet | .liquidRegtest => [1440, 65535]
  | .litecoin => [65535]
  | .litecoinTestnet | .litecoinRegtest => [576, 17280, 65535]

/-- `network_is_known_csv_blocks` -/
def networkIsKnownCsvBlocks (network : Network) (csvBlocks : ℕ) : Bool :=
  (networkToCsvBlocks network).contains csvBlocks

/-- `network_is_allowable_csv_blocks` -/
def networkIsAllowableCsvBlocks (network : Network) (csvBlocks : ℕ) : Bool :=
  decide ((networkToCsvBlocks network).headD 0 ≤ csvBlocks)

/-- `get_bip44_coin_type` -/
def getBip44CoinType : Network → UInt32
  | .bitcoin => harden 0
  | .litecoin => harden 2
  | .liquid => harden 1776
  | _ => harden 1

/-- The service keys of Green. -/
inductive GaService
  | mainnet
  | testnet
  | liquid
  | testnetLiquid
  deriving Repr, DecidableEq

/-- `network_to_ga_service` -/
def networkToGaService : Network → Option GaService
  | .bitcoin => some .mainnet
  | .liquid => some .liquid
  | .bitcoinTestnet | .bitcoinRegtest | .liquidRegtest => some .testnet
  | .liquidTestnet => some .testnetLiquid
  | .litecoin | .litecoinTestnet | .litecoinRegtest => none

/-! ### The wallet -/

/-- The two hashes a script can be wrapped with. -/
inductive ScriptHash
  | hash160
  | sha256
  deriving Repr, DecidableEq

/-- The keychain, and what `libwally` is called for.  `K` is the type of extended keys; a call that
returns an error code returns `none`. -/
structure Wallet (K : Type) where
  /-- `keychain_get()->xpriv` -/
  xpriv : K
  /-- `keychain_get()->gaservice_path` -/
  gaservicePath : List UInt32
  /-- `MAINNET_SERVICE`, … -/
  service : GaService → K
  /-- the members `pub_key` and `hash160` of a key -/
  pubKey : K → Bytes
  hash160 : K → Bytes
  /-- `bip32_key_from_parent_path`, with the key material asked for -/
  bip32PrivateKeyFromParentPath : K → List UInt32 → Option K
  bip32PublicKeyFromParentPath : K → List UInt32 → Option K
  /-- `bip32_key_unserialize` -/
  bip32KeyUnserialize : Bytes → Option K
  /-- one turn of `wally_map_keypath_get_bip32_key_from` and of
  `wally_map_keypath_get_bip32_public_key_from`: whether an entry belongs to a key, and the key
  derived for it if it does -/
  keypathBip32Key : K → Keypath → Option (Option K)
  keypathBip32PublicKey : K → Keypath → Option (Option K)
  /-- `wally_scriptpubkey_get_type` -/
  scriptpubkeyGetType : Bytes → UInt64 → Option ScriptType
  /-- `wally_witness_program_from_bytes` -/
  witnessProgramFromBytes : ScriptHash → Bytes → Option Bytes
  /-- `wally_scriptpubkey_p2sh_from_bytes` and `wally_scriptpubkey_p2pkh_from_bytes` -/
  scriptpubkeyP2shFromBytes : Bytes → Option Bytes
  scriptpubkeyP2pkhFromBytes : Bytes → Option Bytes
  /-- `wally_scriptpubkey_p2tr_from_bytes`, with the tweak of Liquid or of Bitcoin -/
  scriptpubkeyP2trFromBytes : Bool → Bytes → Option Bytes
  /-- `wally_scriptpubkey_multisig_from_bytes`: sorted, threshold, public keys -/
  scriptpubkeyMultisigFromBytes : Bool → ℕ → Bytes → Option Bytes
  /-- `wally_scriptpubkey_csv_2of2_then_1_from_bytes` and its optimised form -/
  scriptpubkeyCsv2of2Then1FromBytes : Bytes → ℕ → Option Bytes
  scriptpubkeyCsv2of2Then1FromBytesOpt : Bytes → ℕ → Option Bytes
  /-- `wally_scriptpubkey_csv_blocks_from_csv_2of2_then_1` -/
  csvBlocksFromCsv2of2Then1 : Bytes → Option ℕ

/-- The type of a whole script. -/
def Wallet.scriptType {K : Type} (W : Wallet K) (script : Bytes) : Option ScriptType :=
  W.scriptpubkeyGetType script (UInt64.ofNat script.length)

section Model

variable {K : Type} (W : Wallet K)

/-- `wallet_get_fingerprint` -/
def walletGetFingerprint : Bytes := (W.hash160 W.xpriv).take 4

/-- `wallet_derive_pubkey` -/
def walletDerivePubkey (serialisedKey : Bytes) (path : List UInt32) : Except Fault (Option K) :=
  match W.bip32KeyUnserialize serialisedKey with
  | none => .ok none
  | some root =>
      if path.isEmpty then .ok (some root)
      else do
        let hdkey ← wallyVerify (W.bip32PublicKeyFromParentPath root path)
        pure (some hdkey)

/-! ### The Green service -/

/-- `wallet_get_gaservice_fingerprint` -/
def walletGetGaserviceFingerprint (network : Network) : Option Bytes :=
  (networkToGaService network).map fun service => (W.hash160 (W.service service)).take 4

/-- `wallet_get_gaservice_path_root` -/
def walletGetGaservicePathRoot (subaccountRoot : Bool) : List UInt32 :=
  (if subaccountRoot then 3 else 1) :: W.gaservicePath

/-- `wallet_get_gaservice_path_tail`: the tail, and whether the path is that of a subaccount. -/
def walletGetGaservicePathTail : List UInt32 → Option (List UInt32 × Bool)
  | [branch, pointer] =>
      if branch == 1 && pointer < 10000 then some ([pointer], false) else none
  | [root, subaccount, branch, pointer] =>
      if root == harden 3 && subaccount > harden 0 && subaccount < harden 16384 && branch == 1 &&
          pointer < 10000 then some ([unharden subaccount, pointer], true)
      else none
  | _ => none

/-- `wallet_get_gaservice_path` -/
def walletGetGaservicePath (path : List UInt32) : Option (List UInt32) :=
  (walletGetGaservicePathTail path).map fun (tail, isSubaccount) =>
    walletGetGaservicePathRoot W isSubaccount ++ tail

/-- `wallet_get_gaservice_key`, the cached root key derived afresh. -/
def walletGetGaserviceKey (network : Network) (path : List UInt32) : Except Fault (Option K) :=
  match networkToGaService network, walletGetGaservicePathTail path with
  | some service, some (tail, isSubaccount) => do
      let root ← wallyVerify (W.bip32PublicKeyFromParentPath (W.service service)
        (walletGetGaservicePathRoot W isSubaccount))
      let gakey ← wallyVerify (W.bip32PublicKeyFromParentPath root tail)
      pure (some gakey)
  | _, _ => .ok none

/-! ### Scripts -/

/-- `wallet_p2sh_p2wsh_scriptpubkey_for_bytes` -/
def walletP2shP2wshScriptpubkeyForBytes (bytes : Bytes) (hash : ScriptHash) :
    Except Fault Bytes := do
  let redeemScript ← wallyVerify (W.witnessProgramFromBytes hash bytes)
  jadeVerify (redeemScript.length == match hash with
    | .sha256 => WALLY_SCRIPTPUBKEY_P2WSH_LEN
    | .hash160 => WALLY_SCRIPTPUBKEY_P2WPKH_LEN)
  let script ← wallyVerify (W.scriptpubkeyP2shFromBytes redeemScript)
  jadeVerify (script.length == WALLY_SCRIPTPUBKEY_P2SH_LEN)
  pure script

/-- `MULTISIG_SCRIPT_LEN` -/
def multisigScriptLen (n : ℕ) : ℕ := 3 + n * (EC_PUBLIC_KEY_LEN + 1)

/-- `wallet_build_multisig`, into a buffer for `maxKeys` keys. -/
def walletBuildMultisig (sorted : Bool) (threshold : ℕ) (pubkeys : Bytes) (maxKeys : ℕ) :
    Except Fault Bytes := do
  let numPubkeys := pubkeys.length / EC_PUBLIC_KEY_LEN
  jadeVerify (numPubkeys * EC_PUBLIC_KEY_LEN == pubkeys.length)
  jadeVerify (decide (0 < threshold))
  jadeVerify (decide (threshold ≤ numPubkeys))
  jadeVerify (decide (multisigScriptLen numPubkeys ≤ multisigScriptLen maxKeys))
  let script ← wallyVerify (W.scriptpubkeyMultisigFromBytes sorted threshold pubkeys)
  jadeVerify (script.length == multisigScriptLen numPubkeys)
  pure script

/-- `wallet_build_csv`: the optimised script everywhere but on Liquid. -/
def walletBuildCsv (network : Network) (pubkeys : Bytes) (blocks : ℕ) : Except Fault Bytes := do
  jadeVerify (pubkeys.length == 2 * EC_PUBLIC_KEY_LEN)
  jadeVerify (decide (0 < blocks))
  jadeVerify (decide (blocks ≤ 65535))
  let keysLen := 2 * (EC_PUBLIC_KEY_LEN + 1)
  if networkIsLiquid network then do
    let script ← wallyVerify (W.scriptpubkeyCsv2of2Then1FromBytes pubkeys blocks)
    jadeVerify (decide (9 + keysLen + 2 ≤ script.length ∧ script.length ≤ 9 + keysLen + 4))
    pure script
  else do
    let script ← wallyVerify (W.scriptpubkeyCsv2of2Then1FromBytesOpt pubkeys blocks)
    jadeVerify (decide (6 + keysLen + 2 ≤ script.length ∧ script.length ≤ 6 + keysLen + 4))
    pure script

/-- `wallet_build_ga_script_ex` for a given user key. -/
def walletBuildGaScriptEx (network : Network) (userPubkey : Bytes) (recoveryPubkey : Option Bytes)
    (csvBlocks : ℕ) (path : List UInt32) : Except Fault (Option Bytes) :=
  if csvBlocks > 65535 || path.isEmpty then .ok none
  else if csvBlocks ≠ 0 && recoveryPubkey.isSome then .ok none
  else if csvBlocks ≠ 0 && !networkIsAllowableCsvBlocks network csvBlocks then .ok none
  else do
    match ← walletGetGaserviceKey W network path with
    | none => pure none
    | some gakey => do
        let pubkeys := W.pubKey gakey ++ userPubkey ++ recoveryPubkey.getD []
        let script ←
          if csvBlocks ≠ 0 then walletBuildCsv W network pubkeys csvBlocks
          else walletBuildMultisig W false 2 pubkeys 3
        let wrapped ← walletP2shP2wshScriptpubkeyForBytes W script .sha256
        pure (some wrapped)

/-- `wallet_build_singlesig_script` -/
def walletBuildSinglesigScript (network : Network) (variant : ScriptVariant) (pubkey : Bytes) :
    Except Fault (Option Bytes) :=
  if !isSinglesig variant then .ok none
  else do
    let script ← match variant with
      | .p2wpkhP2sh => walletP2shP2wshScriptpubkeyForBytes W pubkey .hash160
      | .p2wpkh => wallyVerify (W.witnessProgramFromBytes .hash160 pubkey)
      | .p2pkh => wallyVerify (W.scriptpubkeyP2pkhFromBytes pubkey)
      | _ => wallyVerify (W.scriptpubkeyP2trFromBytes (networkIsLiquid network) pubkey)
    jadeVerify (script.length == scriptLengthForVariant variant)
    pure (some script)

/-- `wallet_build_multisig_script` -/
def walletBuildMultisigScript (variant : ScriptVariant) (sorted : Bool) (threshold : ℕ)
    (pubkeys : Bytes) : Except Fault (Option Bytes) :=
  if !isMultisig variant || threshold == 0 || pubkeys.isEmpty then .ok none
  else do
    let multisig ← walletBuildMultisig W sorted threshold pubkeys MAX_ALLOWED_SIGNERS
    let script ← match variant with
      | .multiP2wshP2sh => walletP2shP2wshScriptpubkeyForBytes W multisig .sha256
      | .multiP2wsh => wallyVerify (W.witnessProgramFromBytes .sha256 multisig)
      | _ => wallyVerify (W.scriptpubkeyP2shFromBytes multisig)
    jadeVerify (script.length == scriptLengthForVariant variant)
    pure (some script)

end Model

/-! ### Expected paths -/

/-- `wallet_is_expected_singlesig_path` -/
def walletIsExpectedSinglesigPath (network : Network) (variant : ScriptVariant) (isChange : Bool) :
    List UInt32 → Bool
  | [purpose, coinType, account, change, pointer] =>
      some purpose == getScriptVariantPurpose variant && coinType == getBip44CoinType network &&
        decide (harden 0 ≤ account) && decide (account < harden 16384) &&
        change == (if isChange then 1 else 0) && decide (pointer < 10000)
  | _ => false

/-- `wallet_is_expected_multisig_path`: up to three elements, read from the end. -/
def walletIsExpectedMultisigPath (cosignerIndex : ℕ) (isChange : Bool) (path : List UInt32) :
    Bool :=
  match path.reverse with
  | [pointer] => decide (pointer < 10000)
  | [pointer, change] => decide (pointer < 10000) && change == (if isChange then 1 else 0)
  | [pointer, change, cosigner] =>
      decide (pointer < 10000) && change == (if isChange then 1 else 0) &&
        cosigner.toNat == cosignerIndex
  | _ => false

/-- One element of a path as text. -/
def pathElementAsStr (pathOnly : Bool) (n : UInt32) (i : ℕ) : String :=
  (if pathOnly && i == 0 then "" else "/") ++ toString (unharden n).toNat ++
    (if isHardened n then "'" else "")

/-- `wallet_bip32_path_as_str` into a buffer of `outputLen` bytes; the last byte is the
terminator. -/
def walletBip32PathAsStr (parts : List UInt32) (outputLen : ℕ) (pathOnly : Bool) :
    Option String := do
  let text ← parts.zipIdx.foldlM (fun text (n, i) =>
      let element := pathElementAsStr pathOnly n i
      if element.length > outputLen - text.length then none else some (text ++ element))
    (if pathOnly then "" else "m")
  pure (String.ofList (text.toList.take (outputLen - 1)))

end Jade
