/-
**Which keys of a PSBT are the wallet's (`utils/psbt.c`).**

An input or an output lists the public keys it involves, each with the fingerprint of its master
key and the path from there.  The key iterator walks over the entries that belong to the wallet.
When none does, and the list looks like that of a Green 2-of-3 subaccount, the entries are tried once
more with the key the wallet would have there as the recovery key.

Main definitions:

* `Jade.KeySource` — the entries, and whether they are those of a supported taproot script;
* `Jade.KeyIter` — an iterator that is valid;
* `Jade.keyIterNext` — the next key;
* `Jade.keyIterBeginPublic` — the first public key;
* `Jade.keyIterKeys`, `Jade.keyIterPublicKeys` — all keys, private and public.

Main results:

* `Jade.keypathGetFrom_spec` — the search finds the first entry from its start on that belongs to the
  key.
-/

import Jade.Wallet.Script

set_option relaxedAutoImplicit false
set_option autoImplicit false

namespace Jade

/-! ### The search -/

section Search

variable {K : Type} (turn : Keypath → Option (Option K))

/-- The loop over the entries left. -/
def keypathSearch : List Keypath → ℕ → Option (Option (ℕ × K))
  | [], _ => some none
  | keypath :: keypaths, i =>
      match turn keypath with
      | none => none
      | some (some hdkey) => some (some (i, hdkey))
      | some none => keypathSearch keypaths (i + 1)

/-- `wally_map_keypath_get_bip32_key_from`, from an index on. -/
def keypathGetFrom (keypaths : List Keypath) (start : ℕ) : Option (Option (ℕ × K)) :=
  keypathSearch turn (keypaths.drop start) start

theorem keypathSearch_spec {keypaths : List Keypath} {start i : ℕ} {hdkey : K}
    (h : keypathSearch turn keypaths start = some (some (i, hdkey))) :
    start ≤ i ∧ ∃ keypath, keypaths[i - start]? = some keypath ∧ turn keypath = some (some hdkey) := by
  induction keypaths generalizing start with
  | nil => simp [keypathSearch] at h
  | cons keypath keypaths ih =>
      rw [keypathSearch] at h
      split at h
      · simp at h
      · next hdkey' hturn =>
          obtain ⟨rfl, rfl⟩ : start = i ∧ hdkey' = hdkey := by simpa using h
          exact ⟨le_refl _, keypath, by simp, hturn⟩
      · obtain ⟨hle, keypath', hget, hturn⟩ := ih h
        refine ⟨by omega, keypath', ?_, hturn⟩
        rw [show i - start = i - (start + 1) + 1 by omega, List.getElem?_cons_succ]
        exact hget

/-- The search finds the first entry from its start on that belongs to the key. -/
theorem keypathGetFrom_spec {keypaths : List Keypath} {start i : ℕ} {hdkey : K}
    (h : keypathGetFrom turn keypaths start = some (some (i, hdkey))) :
    start ≤ i ∧ ∃ keypath, keypaths[i]? = some keypath ∧ turn keypath = some (some hdkey) := by
  obtain ⟨hle, keypath, hget, hturn⟩ := keypathSearch_spec turn h
  refine ⟨hle, keypath, ?_, hturn⟩
  rw [List.getElem?_drop] at hget
  rwa [show start + (i - start) = i by omega] at hget

end Search

/-! ### The iterator -/

/-- The entries an iterator runs over: `key_iter_get_keypaths`, `is_taproot` and
`key_iter_is_supported_taproot`. -/
structure KeySource where
  keypaths : List Keypath
  isTaproot : Bool
  isSupportedTaproot : Bool

/-- The merkle root of a taproot input, from BIP-174. -/
def PSBT_IN_TAP_MERKLE_ROOT : ℕ := 0x18

/-- The entries of an input. -/
def inputKeySource (input : PsbtInput) : KeySource :=
  let isTaproot := !input.taprootLeafPaths.isEmpty
  let keypaths := if isTaproot then input.taprootLeafPaths else input.keypaths
  { keypaths, isTaproot
    isSupportedTaproot := decide (keypaths.length ≤ 1) &&
      input.taprootLeafScripts.items.isEmpty &&
      (input.psbtFields.find (.int PSBT_IN_TAP_MERKLE_ROOT)).isNone }

/-- The entries of an output. -/
def outputKeySource (output : PsbtOutput) : KeySource :=
  let isTaproot := !output.taprootLeafPaths.isEmpty
  let keypaths := if isTaproot then output.taprootLeafPaths else output.keypaths
  { keypaths, isTaproot
    isSupportedTaproot := decide (keypaths.length ≤ 1) && output.taprootTree.items.isEmpty }

/-- `key_iter`, when it is valid. -/
structure KeyIter (K : Type) where
  keypaths : List Keypath
  keyIndex : ℕ
  hdkey : K
  isGa2of3RecoveryKey : Bool

section Model

variable {K : Type} (W : Wallet K)

/-- `key_iter_get_num_keys` -/
def KeyIter.numKeys (iter : KeyIter K) : ℕ := iter.keypaths.length

/-- `key_iter_get_path_at` into an array of `maxLen` elements. -/
def KeyIter.getPathAt (iter : KeyIter K) (keyIndex maxLen : ℕ) : Option (List UInt32) := do
  let keypath ← iter.keypaths[keyIndex]?
  if keypath.path.length ≤ maxLen then some keypath.path else none

/-- `key_iter_get_path` -/
def KeyIter.getPath (iter : KeyIter K) (maxLen : ℕ) : Option (List UInt32) :=
  iter.getPathAt iter.keyIndex maxLen

/-- `key_iter_contains_pubkey` -/
def KeyIter.containsPubkey (iter : KeyIter K) (pubkey : Bytes) : Bool :=
  iter.keypaths.any fun keypath => keypath.pubkey == pubkey

/-- `wally_map_keypath_get_item_path` into an array of `elements` elements that is passed with its
size in bytes: a path that the call takes to fit may run past the end. -/
def getItemPathSized (path : List UInt32) (elements : ℕ) : Except Fault (List UInt32) :=
  if elements < path.length ∧ path.length ≤ 4 * elements then .error .overflow else .ok path

/-- The loop of `key_iter_get_green_2of3_recovery_key` over the entries after the first. -/
def green2of3RecoveryKey (serverSubaccount : UInt32) : List Keypath → Except Fault (Option K)
  | [] => .ok none
  | keypath :: keypaths => do
      let path ← getItemPathSized keypath.path GA_USER_PATH_MAX_LEN
      if isPotentialGreenUserPath path == some serverSubaccount then
        pure (W.bip32PrivateKeyFromParentPath W.xpriv (path.take 2))
      else green2of3RecoveryKey serverSubaccount keypaths

/-- The key of the wallet as the recovery signer of a Green 2-of-3 subaccount, if the entries look
like those of one. -/
def keyIterRecoveryKey (src : KeySource) : Except Fault (Option K) :=
  match src.keypaths with
  | server :: rest =>
      if src.keypaths.length ≠ 3 then .ok none
      else do
        let path ← getItemPathSized server.path MAX_GASERVICE_PATH_LEN
        match isPotentialGreenServerPath path with
        | none => pure none
        | some serverSubaccount =>
            if serverSubaccount == 0 then pure none
            else green2of3RecoveryKey W serverSubaccount rest
  | [] => .ok none

/-- `key_iter_next`: the first key from the index `start` on.  `recovery` says whether an earlier one
was a recovery key, and `turn` is the private or the public search. -/
def keyIterNext (turn : K → Keypath → Option (Option K)) (src : KeySource) (start : ℕ)
    (recovery : Bool) : Except Fault (Option (KeyIter K)) :=
  if src.isTaproot && start == 0 && !src.isSupportedTaproot then .ok none
  else do
    match ← wallyVerify (keypathGetFrom (turn W.xpriv) src.keypaths start) with
    | some (i, hdkey) =>
        pure (some {
          keypaths := src.keypaths, keyIndex := i, hdkey, isGa2of3RecoveryKey := recovery })
    | none =>
        match ← keyIterRecoveryKey W src with
        | none => pure none
        | some recoveryHdkey =>
            match keypathGetFrom (turn recoveryHdkey) src.keypaths start with
            | some (some (i, hdkey)) =>
                pure (some {
                  keypaths := src.keypaths, keyIndex := i, hdkey, isGa2of3RecoveryKey := true })
            | _ => pure none

/-- `key_iter_input_begin_public` and `key_iter_output_begin_public` -/
def keyIterBeginPublic (src : KeySource) : Except Fault (Option (KeyIter K)) :=
  keyIterNext W W.keypathBip32PublicKey src 0 false

/-- `while (iter.is_valid) { …; key_iter_next(&iter); }` from an index on, with the private or the
public search; the first argument bounds the number of calls. -/
def keyIterKeysFrom (turn : K → Keypath → Option (Option K)) (src : KeySource) :
    ℕ → ℕ → Bool → Except Fault (List (KeyIter K))
  | 0, _, _ => .ok []
  | calls + 1, start, recovery => do
      match ← keyIterNext W turn src start recovery with
      | none => pure []
      | some iter =>
          let rest ← keyIterKeysFrom turn src calls (iter.keyIndex + 1) iter.isGa2of3RecoveryKey
          pure (iter :: rest)

/-- The keys visited by `key_iter_input_begin` and `key_iter_next`.  There is one call for each entry
at most, and one that finds no more. -/
def keyIterKeys (src : KeySource) : Except Fault (List (KeyIter K)) :=
  keyIterKeysFrom W W.keypathBip32Key src (src.keypaths.length + 1) 0 false

/-- The keys visited by `key_iter_input_begin_public` or `key_iter_output_begin_public` and
`key_iter_next`. -/
def keyIterPublicKeys (src : KeySource) : Except Fault (List (KeyIter K)) :=
  keyIterKeysFrom W W.keypathBip32PublicKey src (src.keypaths.length + 1) 0 false

end Model

end Jade
