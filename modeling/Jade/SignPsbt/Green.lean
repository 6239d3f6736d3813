/-
**Recognising the signers of a Green wallet (`sign_psbt.c`).**

The keys of a Green multisig are those of the service, of the user and, for a 2-of-3 subaccount, a
recovery key.  `is_green_multisig_signers` goes through the keys of an input or an output once, tells
them apart by their fingerprints and the form of their paths, and at the end compares the path of the
service with the one the wallet computes for it.

The comparison is the wrong way round: the keys pass when the path of the service differs from the
computed one.  When the wallet holds the recovery key, no path is computed, and what the keys are taken
for depends on their order: a recovery path has the form of a user path too, so that the first of two
foreign keys is taken for the user.

Main definitions:

* `Jade.GreenKeys`, `Jade.IsGreenMultisig` — what the keys of a Green multisig are;
* `Jade.RecoverySet` — the keys that pass when the wallet holds the recovery key;
* `Jade.OrderInvariant` — the answer does not depend on the order of the keys.

Main results:

* `Jade.isGreenMultisigSigners_user_iff`, `Jade.isGreenMultisigSigners_recovery` — which keys pass;
* `Jade.green_recognition_iff` — **exactly when the answer is right**;
* `Jade.green_order_iff` — **exactly when it does not depend on the order**.
-/

import Jade.Lib.Exec
import Jade.SignPsbt.Change
import Mathlib.Data.List.Permutation

set_option relaxedAutoImplicit false
set_option autoImplicit false

namespace Jade

open Exec

variable {K : Type} (W : Wallet K)

/-! ### The roles of the keys -/

/-- A key with the fingerprint of the service. -/
def isServiceKey (gaFingerprint : Bytes) (keypath : Keypath) : Prop :=
  keypath.fingerprint = gaFingerprint

/-- A key with the fingerprint of the wallet. -/
def isOwnKey (gaFingerprint : Bytes) (keypath : Keypath) : Prop :=
  keypath.fingerprint ≠ gaFingerprint ∧ keypath.fingerprint = walletGetFingerprint W

/-- A key that is neither the service's nor the wallet's. -/
def isOtherKey (gaFingerprint : Bytes) (keypath : Keypath) : Prop :=
  keypath.fingerprint ≠ gaFingerprint ∧ keypath.fingerprint ≠ walletGetFingerprint W

/-- Every key has one of the three roles. -/
theorem key_role (gaFingerprint : Bytes) (keypath : Keypath) :
    isServiceKey gaFingerprint keypath ∨ isOwnKey W gaFingerprint keypath ∨
      isOtherKey W gaFingerprint keypath := by
  unfold isServiceKey isOwnKey isOtherKey
  by_cases hga : keypath.fingerprint = gaFingerprint
  · exact .inl hga
  · by_cases hown : keypath.fingerprint = walletGetFingerprint W
    · exact .inr (.inl ⟨hga, hown⟩)
    · exact .inr (.inr ⟨hga, hown⟩)

section Scan

variable {W} {iter : KeyIter K} {gaFingerprint : Bytes} {wantRecovery : Bool} {s s' : GreenScan}
  {keypath : Keypath}

theorem greenScanKey_service (h : isServiceKey gaFingerprint keypath) :
    greenScanKey W iter gaFingerprint wantRecovery s keypath = some s' ↔
      s.gaPath = [] ∧ keypath.path.length ≤ MAX_GASERVICE_PATH_LEN ∧
        { s with gaPath := keypath.path } = s' := by
  unfold greenScanKey
  rw [if_pos (beq_iff_eq.2 h), Option.ite_none_left_eq_some, Option.some.injEq]
  simp [and_assoc]

/-- The own key of a wallet that is the user signer. -/
theorem greenScanKey_own (h : isOwnKey W gaFingerprint keypath)
    (huser : (iter.numKeys == 3 && iter.isGa2of3RecoveryKey) = false) :
    greenScanKey W iter gaFingerprint wantRecovery s keypath = some s' ↔
      s.userPath = [] ∧ keypath.path.length ≤ GA_USER_PATH_MAX_LEN ∧
        { s with userPath := keypath.path } = s' := by
  unfold greenScanKey greenOwnKey
  rw [if_neg (by simpa using h.1), if_pos (beq_iff_eq.2 h.2), huser]
  simp [and_assoc]

theorem length_of_potentialRecovery {path : List UInt32}
    (h : isPotentialGreenRecoveryPath path = true) : path.length = GA_RECOVERY_PATH_LEN := by
  unfold isPotentialGreenRecoveryPath at h
  split at h
  · rfl
  · simp at h

/-- A recovery path has the form of a path of the main account too. -/
theorem potentialUser_of_potentialRecovery {path : List UInt32}
    (h : isPotentialGreenRecoveryPath path = true) :
    (isPotentialGreenUserPath path).isSome = true := by
  unfold isPotentialGreenUserPath
  split
  · have hlen := length_of_potentialRecovery h
    simp [GA_RECOVERY_PATH_LEN] at hlen
  · rw [if_pos h]
    rfl

/-- A key of somebody else that cannot be the user's. -/
theorem greenScanKey_other (h : isOtherKey W gaFingerprint keypath)
    (huser : iter.isGa2of3RecoveryKey = true → s.userPath ≠ []) :
    greenScanKey W iter gaFingerprint wantRecovery s keypath = some s' ↔
      iter.numKeys = 3 ∧ s.recoveryPath = [] ∧ isPotentialGreenRecoveryPath keypath.path = true ∧
        (wantRecovery = true → keypath.pubkey.length = EC_PUBLIC_KEY_LEN) ∧
        { s with
          pathLen := keypath.path.length
          recoveryPath := keypath.path
          recoveryPubkey := keypath.pubkey } = s' := by
  have hflag : (iter.isGa2of3RecoveryKey && s.userPath.isEmpty) = false := by
    cases hr : iter.isGa2of3RecoveryKey with
    | false => rfl
    | true => simpa using huser hr
  unfold greenScanKey greenOtherKey
  rw [if_neg (by simpa using h.1), if_neg (by simpa using h.2), Option.ite_none_left_eq_some]
  simp only [hflag, Bool.false_and, Bool.false_eq_true, if_false, Option.ite_none_right_eq_some,
    Option.ite_none_left_eq_some, Option.some.injEq]
  constructor
  · rintro ⟨hkeys, hform, hpubkey, rfl⟩
    simp only [Bool.or_eq_true, bne_iff_ne, decide_eq_true_eq, not_or, not_not] at hkeys
    simp only [Bool.and_eq_true, List.isEmpty_iff] at hform
    refine ⟨hkeys.1, hform.1, hform.2, fun hwant => ?_, rfl⟩
    simpa [hwant] using hpubkey
  · rintro ⟨hkeys, hempty, hform, hpubkey, rfl⟩
    have hlen := length_of_potentialRecovery hform
    refine ⟨by simp [hkeys, hlen, GA_RECOVERY_PATH_LEN, GA_USER_PATH_MAX_LEN],
      by simp [hempty, hform], ?_, rfl⟩
    simpa using hpubkey

/-- What follows the loop, when the wallet is the user signer. -/
theorem greenScanMatches_user (huser : (iter.numKeys == 3 && iter.isGa2of3RecoveryKey) = false) :
    greenScanMatches W iter s = true ↔
      ∃ pointer expected, s.userPath.getLast? = some pointer ∧ s.gaPath.getLast? = some pointer ∧
        (iter.numKeys = 3 → s.recoveryPath.getLast? = some pointer) ∧
        walletGetGaservicePath W s.userPath = some expected ∧
        s.gaPath.length = expected.length ∧ expected ≠ s.gaPath := by
  unfold greenScanMatches
  rw [huser]
  cases hlast : s.userPath.getLast? with
  | none => simp
  | some userPtr =>
      cases hga : s.gaPath.getLast? with
      | none => simp
      | some gaPtr =>
          cases hexpected : walletGetGaservicePath W s.userPath with
          | none => simp
          | some expected =>
              by_cases hkeys : iter.numKeys = 3
              · cases hrecovery : s.recoveryPath with
                | nil => simp [hkeys]
                | cons n ns => simp [hkeys, and_assoc]
              · simp [hkeys]

/-- What follows the loop, when the wallet holds the recovery key. -/
theorem greenScanMatches_recovery (hkeys : iter.numKeys = 3)
    (hrecovery : iter.isGa2of3RecoveryKey = true) :
    greenScanMatches W iter s = true ↔
      ∃ pointer, s.userPath.getLast? = some pointer ∧ s.gaPath.getLast? = some pointer ∧
        s.recoveryPath.getLast? = some pointer := by
  unfold greenScanMatches
  cases hlast : s.userPath.getLast? with
  | none => simp
  | some userPtr =>
      cases hga : s.gaPath.getLast? with
      | none => simp
      | some gaPtr =>
          cases hpath : s.recoveryPath with
          | nil => simp [hkeys]
          | cons n ns => simp [hkeys, hrecovery]

end Scan

/-! ### When the wallet is the user signer -/

/-- The keys of a Green multisig, in whatever order: one of the service, one of the wallet, and for
three keys one of somebody else with a recovery path.  Their paths end in the same pointer. -/
structure GreenKeys (gaFingerprint : Bytes) (keypaths : List Keypath) (service user : Keypath)
    (recovery : Option Keypath) : Prop where
  perm : keypaths.Perm (service :: user :: recovery.toList)
  serviceKey : isServiceKey gaFingerprint service
  userKey : isOwnKey W gaFingerprint user
  recoveryKey : ∀ r ∈ recovery,
    isOtherKey W gaFingerprint r ∧ isPotentialGreenRecoveryPath r.path = true
  pointer : ∃ pointer, user.path.getLast? = some pointer ∧ service.path.getLast? = some pointer ∧
    ∀ r ∈ recovery, r.path.getLast? = some pointer

/-- What the scan of some keys has found: each path it keeps is that of a key with the role. -/
structure Found (iter : KeyIter K) (gaFingerprint : Bytes) (wantRecovery : Bool)
    (pre : List Keypath) (s : GreenScan) : Prop where
  ga : s.gaPath ≠ [] → ∃ k ∈ pre, isServiceKey gaFingerprint k ∧ k.path = s.gaPath ∧
    k.path.length ≤ MAX_GASERVICE_PATH_LEN
  user : s.userPath ≠ [] → ∃ k ∈ pre, isOwnKey W gaFingerprint k ∧ k.path = s.userPath
  recovery : s.recoveryPath ≠ [] → ∃ k ∈ pre, isOtherKey W gaFingerprint k ∧
    isPotentialGreenRecoveryPath k.path = true ∧ k.path = s.recoveryPath ∧
    k.pubkey = s.recoveryPubkey ∧ (wantRecovery = true → k.pubkey.length = EC_PUBLIC_KEY_LEN)
  two : iter.numKeys ≠ 3 → s.recoveryPath = []
  pubkey : s.recoveryPath = [] → s.recoveryPubkey = []

theorem found_nil (iter : KeyIter K) (gaFingerprint : Bytes) (wantRecovery : Bool) :
    Found W iter gaFingerprint wantRecovery [] {} where
  ga := by simp
  user := by simp
  recovery := by simp
  two := by simp
  pubkey := by simp

theorem Found.step {iter : KeyIter K} {gaFingerprint : Bytes} {wantRecovery : Bool}
    (huser : (iter.numKeys == 3 && iter.isGa2of3RecoveryKey) = false) {pre : List Keypath}
    {k : Keypath} {s s' : GreenScan} (h : Found W iter gaFingerprint wantRecovery pre s)
    (hstep : greenScanKey W iter gaFingerprint wantRecovery s k = some s') :
    Found W iter gaFingerprint wantRecovery (pre ++ [k]) s' := by
  have hmem : k ∈ pre ++ [k] := by simp
  have hold : ∀ {q : Keypath → Prop}, (∃ k' ∈ pre, q k') → ∃ k' ∈ pre ++ [k], q k' := by
    rintro q ⟨k', hk', hq⟩
    exact ⟨k', List.mem_append_left _ hk', hq⟩
  rcases key_role W gaFingerprint k with hrole | hrole | hrole
  · obtain ⟨-, hlen, rfl⟩ := (greenScanKey_service hrole).1 hstep
    exact {
      ga := fun _ => ⟨k, hmem, hrole, rfl, hlen⟩
      user := fun hne => hold (h.user hne)
      recovery := fun hne => hold (h.recovery hne)
      two := h.two
      pubkey := h.pubkey }
  · obtain ⟨-, -, rfl⟩ := (greenScanKey_own hrole huser).1 hstep
    exact {
      ga := fun hne => hold (h.ga hne)
      user := fun _ => ⟨k, hmem, hrole, rfl⟩
      recovery := fun hne => hold (h.recovery hne)
      two := h.two
      pubkey := h.pubkey }
  · have hkeys : iter.numKeys = 3 := by
      by_contra hne
      unfold greenScanKey at hstep
      rw [if_neg (by simpa using hrole.1), if_neg (by simpa using hrole.2), if_pos (by simp [hne])]
        at hstep
      cases hstep
    have hflag : iter.isGa2of3RecoveryKey = false := by simpa [hkeys] using huser
    obtain ⟨-, -, hform, hpubkey, rfl⟩ :=
      (greenScanKey_other hrole (by simp [hflag])).1 hstep
    exact {
      ga := fun hne => hold (h.ga hne)
      user := fun hne => hold (h.user hne)
      recovery := fun _ => ⟨k, hmem, hrole, hform, rfl, rfl, hpubkey⟩
      two := fun hne => absurd hkeys hne
      pubkey := by
        intro hnil
        have hlen := length_of_potentialRecovery hform
        rw [show k.path = [] from hnil] at hlen
        simp [GA_RECOVERY_PATH_LEN] at hlen }

/-- Keys of different roles are different keys. -/
theorem nodup_of_roles {gaFingerprint : Bytes} {service user : Keypath} (recovery : Option Keypath)
    (hservice : isServiceKey gaFingerprint service) (huser : isOwnKey W gaFingerprint user)
    (hrecovery : ∀ r ∈ recovery, isOtherKey W gaFingerprint r) :
    (service :: user :: recovery.toList).Nodup := by
  have hne : service ≠ user := by
    intro h
    exact huser.1 (h ▸ hservice)
  cases recovery with
  | none => simpa using hne
  | some r =>
      have hr := hrecovery r rfl
      have hne₁ : service ≠ r := fun h => hr.1 (h ▸ hservice)
      have hne₂ : user ≠ r := fun h => hr.2 (h ▸ huser.2)
      simp [hne, hne₁, hne₂]

/-- Different keys that are among as many are all of them. -/
theorem perm_of_mem {keys keypaths : List Keypath} (hnodup : keys.Nodup)
    (hmem : ∀ k ∈ keys, k ∈ keypaths) (hlen : keypaths.length ≤ keys.length) :
    keypaths.Perm keys :=
  ((List.subperm_of_subset hnodup hmem).perm_of_length_le hlen).symm

/-- The orders of two and of three keys. -/
theorem perm_pair {l : List Keypath} {a b : Keypath} (h : l.Perm [a, b]) : l = [a, b] ∨ l = [b, a] := by
  have h := List.mem_permutations'.2 h
  simpa [List.permutations'] using h

theorem perm_triple {l : List Keypath} {a b c : Keypath} (h : l.Perm [a, b, c]) :
    l = [a, b, c] ∨ l = [b, a, c] ∨ l = [b, c, a] ∨ l = [a, c, b] ∨ l = [c, a, b] ∨
      l = [c, b, a] := by
  have h := List.mem_permutations'.2 h
  simpa [List.permutations'] using h

/-- A path that the service has a path for is short. -/
theorem length_le_of_gaservicePath {path expected : List UInt32}
    (h : walletGetGaservicePath W path = some expected) : path.length ≤ GA_USER_PATH_MAX_LEN := by
  unfold walletGetGaservicePath walletGetGaservicePathTail at h
  split at h
  · simp [GA_USER_PATH_MAX_LEN]
  · simp [GA_USER_PATH_MAX_LEN]
  · simp at h

/-- What two keys or three pass with, when the wallet is the user signer: they are those of a Green
multisig with the service path that has the right length and is not the computed one. -/
structure PassingKeys (gaFingerprint : Bytes) (keypaths : List Keypath) (wantRecovery : Bool)
    (pubkey : Bytes) (service user : Keypath) (recovery : Option Keypath)
    (expected : List UInt32) : Prop where
  keys : GreenKeys W gaFingerprint keypaths service user recovery
  path : walletGetGaservicePath W user.path = some expected
  maxLen : service.path.length ≤ MAX_GASERVICE_PATH_LEN
  len : service.path.length = expected.length
  ne : expected ≠ service.path
  recoveryLen : ∀ r ∈ recovery, wantRecovery = true → r.pubkey.length = EC_PUBLIC_KEY_LEN
  pubkey_eq : (recovery.map Keypath.pubkey).getD [] = pubkey

section Passing

variable {W} {iter : KeyIter K} {gaFingerprint : Bytes} {wantRecovery : Bool} {network : Network}
  {pubkey : Bytes} {service user : Keypath} {recovery : Option Keypath} {expected : List UInt32}

/-- The keys that a scan has found and that match are of that kind. -/
theorem Found.passingKeys {s : GreenScan}
    (hfound : Found W iter gaFingerprint wantRecovery iter.keypaths s)
    (huser : (iter.numKeys == 3 && iter.isGa2of3RecoveryKey) = false)
    (hcount : ¬ (iter.numKeys != 2 && iter.numKeys != 3) = true)
    (hmatch : greenScanMatches W iter s = true) :
    ∃ service user recovery expected, PassingKeys W gaFingerprint iter.keypaths wantRecovery
      s.recoveryPubkey service user recovery expected := by
  obtain ⟨pointer, expected, hlast, hgaLast, hrecoveryLast, hexpected, hlen, hne⟩ :=
    (greenScanMatches_user huser).1 hmatch
  obtain ⟨service, hserviceMem, hservice, hservicePath, hserviceLen⟩ :=
    hfound.ga (by rintro hnil; simp [hnil] at hgaLast)
  obtain ⟨user, huserMem, huserKey, huserPath⟩ :=
    hfound.user (by rintro hnil; simp [hnil] at hlast)
  rw [← huserPath] at hlast hexpected
  rw [← hservicePath] at hgaLast hlen hne
  -- two keys or three, all of them found
  by_cases hkeys : iter.numKeys = 3
  · obtain ⟨r, hrMem, hr, hform, hrPath, hrPubkey, hwant⟩ :=
      hfound.recovery (by rintro hnil; simp [hkeys, hnil] at hrecoveryLast)
    have hperm : iter.keypaths.Perm (service :: user :: (some r).toList) := by
      refine perm_of_mem (nodup_of_roles W _ hservice huserKey (by simpa using hr)) ?_
        (le_of_eq hkeys)
      simp [hserviceMem, huserMem, hrMem]
    refine ⟨service, user, some r, expected, ⟨hperm, hservice, huserKey,
      by simpa using ⟨hr, hform⟩, pointer, hlast, hgaLast, ?_⟩, hexpected, hserviceLen, hlen, hne,
      by simpa using hwant, by simpa using hrPubkey⟩
    simpa [hrPath] using hrecoveryLast hkeys
  · have htwo : iter.numKeys = 2 := by
      simp only [Bool.and_eq_true, bne_iff_ne, not_and_or, not_not] at hcount
      exact hcount.resolve_right hkeys
    have hperm : iter.keypaths.Perm (service :: user :: (none : Option Keypath).toList) := by
      refine perm_of_mem (nodup_of_roles W none hservice huserKey (by simp)) ?_ (le_of_eq htwo)
      simp [hserviceMem, huserMem]
    exact ⟨service, user, none, expected, ⟨hperm, hservice, huserKey, by simp, pointer, hlast,
      hgaLast, by simp⟩, hexpected, hserviceLen, hlen, hne, by simp,
      (hfound.pubkey (hfound.two hkeys)).symm⟩

/-- The scan of such keys keeps their paths, in whatever order they come. -/
theorem PassingKeys.scan
    (h : PassingKeys W gaFingerprint iter.keypaths wantRecovery pubkey service user recovery expected)
    (huser : (iter.numKeys == 3 && iter.isGa2of3RecoveryKey) = false) :
    ∃ pathLen, iter.keypaths.foldlM (greenScanKey W iter gaFingerprint wantRecovery) {} =
      some {
        pathLen
        gaPath := service.path
        userPath := user.path
        recoveryPath := (recovery.map Keypath.path).getD []
        recoveryPubkey := (recovery.map Keypath.pubkey).getD [] } := by
  have hs : ∀ s : GreenScan, s.gaPath = [] →
      greenScanKey W iter gaFingerprint wantRecovery s service =
        some { s with gaPath := service.path } :=
    fun s hnil => (greenScanKey_service h.keys.serviceKey).2 ⟨hnil, h.maxLen, rfl⟩
  have hu : ∀ s : GreenScan, s.userPath = [] →
      greenScanKey W iter gaFingerprint wantRecovery s user =
        some { s with userPath := user.path } :=
    fun s hnil => (greenScanKey_own h.keys.userKey huser).2
      ⟨hnil, length_le_of_gaservicePath W h.path, rfl⟩
  have hperm := h.keys.perm
  cases recovery with
  | none =>
      rcases perm_pair hperm with horder | horder <;> rw [horder] <;> exact ⟨0, by simp [hs, hu]⟩
  | some r =>
      obtain ⟨hother, hform⟩ := h.keys.recoveryKey r rfl
      have hthree : iter.numKeys = 3 := hperm.length_eq
      have hflag : iter.isGa2of3RecoveryKey = false := by simpa [hthree] using huser
      have hr : ∀ s : GreenScan, s.recoveryPath = [] →
          greenScanKey W iter gaFingerprint wantRecovery s r = some { s with
            pathLen := r.path.length
            recoveryPath := r.path
            recoveryPubkey := r.pubkey } :=
        fun s hnil => (greenScanKey_other hother (by simp [hflag])).2
          ⟨hthree, hnil, hform, h.recoveryLen r rfl, rfl⟩
      rcases perm_triple hperm with horder | horder | horder | horder | horder | horder <;>
        rw [horder] <;> exact ⟨r.path.length, by simp [hs, hu, hr]⟩

/-- Such keys pass. -/
theorem PassingKeys.signers
    (h : PassingKeys W gaFingerprint iter.keypaths wantRecovery pubkey service user recovery expected)
    (huser : (iter.numKeys == 3 && iter.isGa2of3RecoveryKey) = false)
    (hga : walletGetGaserviceFingerprint W network = some gaFingerprint) :
    isGreenMultisigSigners W network iter wantRecovery = some pubkey := by
  obtain ⟨pathLen, hscan⟩ := h.scan huser
  obtain ⟨pointer, hlast, hgaLast, hrecoveryLast⟩ := h.keys.pointer
  have hlength : iter.numKeys = recovery.toList.length + 2 := h.keys.perm.length_eq
  have hcount : (iter.numKeys != 2 && iter.numKeys != 3) = false := by
    cases recovery <;> simp [hlength]
  have hrecovery : iter.numKeys = 3 →
      ((recovery.map Keypath.path).getD []).getLast? = some pointer := by
    intro hthree
    cases recovery with
    | none => simp [hlength] at hthree
    | some r => simpa using hrecoveryLast r rfl
  have hmatch := (greenScanMatches_user (W := W) (s := ⟨pathLen, user.path, service.path,
    (recovery.map Keypath.path).getD [], (recovery.map Keypath.pubkey).getD []⟩) huser).2
    ⟨pointer, expected, hlast, hgaLast, hrecovery, h.path, h.len, h.ne⟩
  rw [← h.pubkey_eq]
  simp only [isGreenMultisigSigners, hcount, Bool.false_eq_true, if_false, hga, hscan, hmatch,
    if_true]

end Passing

/-- **Which keys pass when the wallet is the user signer**: those of a Green multisig whose service path
has the right length and is not the computed one. -/
theorem isGreenMultisigSigners_user_iff {network : Network} {iter : KeyIter K} {wantRecovery : Bool}
    (huser : (iter.numKeys == 3 && iter.isGa2of3RecoveryKey) = false) {pubkey : Bytes} :
    isGreenMultisigSigners W network iter wantRecovery = some pubkey ↔
      ∃ gaFingerprint service user recovery expected,
        walletGetGaserviceFingerprint W network = some gaFingerprint ∧
        GreenKeys W gaFingerprint iter.keypaths service user recovery ∧
        walletGetGaservicePath W user.path = some expected ∧
        service.path.length ≤ MAX_GASERVICE_PATH_LEN ∧
        service.path.length = expected.length ∧ expected ≠ service.path ∧
        (∀ r ∈ recovery, wantRecovery = true → r.pubkey.length = EC_PUBLIC_KEY_LEN) ∧
        (recovery.map Keypath.pubkey).getD [] = pubkey := by
  constructor
  · intro h
    unfold isGreenMultisigSigners at h
    split_ifs at h with hcount
    cases hga : walletGetGaserviceFingerprint W network with
    | none => simp [hga] at h
    | some gaFingerprint =>
        rw [hga] at h
        dsimp only at h
        cases hscan : iter.keypaths.foldlM (greenScanKey W iter gaFingerprint wantRecovery) {} with
        | none => simp [hscan] at h
        | some s =>
            rw [hscan] at h
            dsimp only at h
            split_ifs at h with hmatch
            have hfound : Found W iter gaFingerprint wantRecovery iter.keypaths s :=
              foldlM_eq_some (Found W iter gaFingerprint wantRecovery) iter.keypaths
                (fun _ _ _ _ _ _ hpre hstep => hpre.step W huser hstep) (found_nil W iter _ _) hscan
            obtain rfl := Option.some.inj h
            obtain ⟨service, user, recovery, expected, hpass⟩ :=
              hfound.passingKeys huser hcount hmatch
            exact ⟨gaFingerprint, service, user, recovery, expected, rfl, hpass.keys, hpass.path,
              hpass.maxLen, hpass.len, hpass.ne, hpass.recoveryLen, hpass.pubkey_eq⟩
  · rintro ⟨gaFingerprint, service, user, recovery, expected, hga, hkeys, hexpected, hserviceLen, hlen,
      hne, hwant, hpubkey⟩
    exact PassingKeys.signers
      ⟨hkeys, hexpected, hserviceLen, hlen, hne, hwant, hpubkey⟩ huser hga

/-! ### Whether the answer is right -/

/-- **The keys of a Green multisig in which the wallet is the user**: the path of the service is the
one computed for the path of the user. -/
def IsGreenMultisig (network : Network) (keypaths : List Keypath) : Prop :=
  ∃ gaFingerprint service user recovery,
    walletGetGaserviceFingerprint W network = some gaFingerprint ∧
    GreenKeys W gaFingerprint keypaths service user recovery ∧
    walletGetGaservicePath W user.path = some service.path

/-- The keys are those of a Green multisig up to the path of the service, which has the right length and
is the computed one, or is another one with a recovery key that can be returned. -/
def ServicePathDecides (network : Network) (keypaths : List Keypath) (wantRecovery : Bool) : Prop :=
  ∃ gaFingerprint service user recovery expected,
    walletGetGaserviceFingerprint W network = some gaFingerprint ∧
    GreenKeys W gaFingerprint keypaths service user recovery ∧
    walletGetGaservicePath W user.path = some expected ∧
    service.path.length = expected.length ∧
    (service.path = expected ∨
      ∀ r ∈ recovery, wantRecovery = true → r.pubkey.length = EC_PUBLIC_KEY_LEN)

/-- The key with a role is determined by the keys. -/
theorem GreenKeys.unique {gaFingerprint : Bytes} {keypaths : List Keypath}
    {service user service' user' : Keypath} {recovery recovery' : Option Keypath}
    (h : GreenKeys W gaFingerprint keypaths service user recovery)
    (h' : GreenKeys W gaFingerprint keypaths service' user' recovery') :
    service = service' ∧ user = user' ∧ recovery = recovery' := by
  have hmem : ∀ k, k ∈ service :: user :: recovery.toList ↔ k ∈ service' :: user' :: recovery'.toList :=
    fun k => h.perm.symm.mem_iff.trans h'.perm.mem_iff
  have hservice : service ∈ service' :: user' :: recovery'.toList := (hmem service).1 (by simp)
  have huser : user ∈ service' :: user' :: recovery'.toList := (hmem user).1 (by simp)
  have hser := h.serviceKey
  have hus := h.userKey
  have hser' := h'.serviceKey
  have hus' := h'.userKey
  unfold isServiceKey at hser hser'
  refine ⟨?_, ?_, ?_⟩
  · simp only [List.mem_cons, Option.mem_toList] at hservice
    rcases hservice with rfl | rfl | hr
    · rfl
    · exact absurd hser hus'.1
    · exact absurd hser (h'.recoveryKey _ hr).1.1
  · simp only [List.mem_cons, Option.mem_toList] at huser
    rcases huser with rfl | rfl | hr
    · exact absurd hser' hus.1
    · rfl
    · exact absurd hus.2 (h'.recoveryKey _ hr).1.2
  · have hlen : recovery.toList.length = recovery'.toList.length := by
      have := h.perm.symm.trans h'.perm |>.length_eq
      simpa using this
    cases recovery with
    | none =>
        cases recovery' with
        | none => rfl
        | some r' => simp at hlen
    | some r =>
        have hr := (hmem r).1 (by simp)
        have hrole := (h.recoveryKey r rfl).1
        simp only [List.mem_cons, Option.mem_toList] at hr
        rcases hr with rfl | rfl | hr
        · exact absurd hser' hrole.1
        · exact absurd hus'.2 hrole.2
        · exact hr.symm

/-- A computed service path fits the buffer. -/
theorem length_walletGetGaservicePath (hroot : W.gaservicePath.length + 1 = GASERVICE_ROOT_PATH_LEN)
    {path expected : List UInt32} (h : walletGetGaservicePath W path = some expected) :
    expected.length ≤ MAX_GASERVICE_PATH_LEN := by
  unfold walletGetGaservicePath at h
  obtain ⟨⟨tail, isSubaccount⟩, htail, rfl⟩ := Option.map_eq_some_iff.1 h
  have hlen : tail.length ≤ 2 := by
    unfold walletGetGaservicePathTail at htail
    split at htail
    · split_ifs at htail
      obtain ⟨rfl, -⟩ : _ ∧ _ := by simpa using htail
      simp
    · split_ifs at htail
      obtain ⟨rfl, -⟩ : _ ∧ _ := by simpa using htail
      simp
    · cases htail
  simp only [walletGetGaservicePathRoot, List.length_append, List.length_cons]
  simp only [GASERVICE_ROOT_PATH_LEN, MAX_GASERVICE_PATH_LEN] at hroot ⊢
  omega

/-! ### A wallet -/

/-- Keys that are the service's or the wallet's, with the path from the master key; a public key
spells the end of the path. -/
def greenPubKey (key : Bool × List UInt32) : Bytes :=
  2 :: (if key.1 then 1 else 0) ::
    ((key.2.reverse.map UInt32.toUInt8) ++ List.replicate 31 0).take 31

def greenHash160 (key : Bool × List UInt32) : Bytes :=
  (if key.1 then 1 else 2) :: key.2.length.toUInt8 :: List.replicate 18 0

/-- An entry belongs to a key with its fingerprint that gives the public key along the path. -/
def greenKeypathKey (key : Bool × List UInt32) (keypath : Keypath) :
    Option (Option (Bool × List UInt32)) :=
  let derived := (key.1, key.2 ++ keypath.path)
  some (if keypath.fingerprint == (greenHash160 key).take 4 && greenPubKey derived == keypath.pubkey
    then some derived else none)

/-- Hashes are the ends of what is hashed; the scripts have their real forms, but for a length of two
bytes that every number of blocks has. -/
def greenWallet : Wallet (Bool × List UInt32) where
  xpriv := (false, [])
  gaservicePath := List.replicate 32 7
  service _ := (true, [])
  pubKey := greenPubKey
  hash160 := greenHash160
  bip32PrivateKeyFromParentPath key path := some (key.1, key.2 ++ path)
  bip32PublicKeyFromParentPath key path := some (key.1, key.2 ++ path)
  bip32KeyUnserialize _ := none
  keypathBip32Key := greenKeypathKey
  keypathBip32PublicKey := greenKeypathKey
  scriptpubkeyGetType _ len := some (if len = 23 then .p2sh else .other)
  witnessProgramFromBytes hash bytes :=
    match hash with
    | .sha256 => some (0 :: 32 :: (bytes.reverse ++ List.replicate 32 0).take 32)
    | .hash160 => some (0 :: 20 :: (bytes.reverse ++ List.replicate 20 0).take 20)
  scriptpubkeyP2shFromBytes bytes :=
    some (0xa9 :: 20 :: (bytes.drop 2 ++ List.replicate 20 0).take 20 ++ [0x87])
  scriptpubkeyP2pkhFromBytes _ := none
  scriptpubkeyP2trFromBytes _ _ := none
  scriptpubkeyMultisigFromBytes _ threshold pubkeys :=
    let n := pubkeys.length / EC_PUBLIC_KEY_LEN
    let keys := (List.range n).flatMap fun i => 33 :: (pubkeys.drop (33 * i)).take 33
    some ((0x50 + threshold.toUInt8) :: keys ++ [0x50 + n.toUInt8, 0xae])
  scriptpubkeyCsv2of2Then1FromBytes pubkeys blocks :=
    some (List.replicate 9 0x74 ++ 33 :: pubkeys.take 33 ++ 33 :: pubkeys.drop 33 ++
      [2, blocks.toUInt8, (blocks / 256).toUInt8])
  scriptpubkeyCsv2of2Then1FromBytesOpt pubkeys blocks :=
    some (33 :: pubkeys.take 33 ++ [0xad] ++ 33 :: pubkeys.drop 33 ++ [0xac, 0x73, 0x64] ++
      [2, blocks.toUInt8, (blocks / 256).toUInt8] ++ [0xb2, 0x68])
  csvBlocksFromCsv2of2Then1 script :=
    let blocksAt (i : ℕ) := ((script.drop i).headD 0).toNat + 256 * ((script.drop (i + 1)).headD 0).toNat
    if script.length = 80 then some (blocksAt 78)
    else if script.length = 77 then some (blocksAt 73)
    else none

/-- An entry with the key it belongs to, at a path from a key. -/
def greenKeypath (key : Bool × List UInt32) (path : List UInt32) : Keypath where
  pubkey := greenPubKey (key.1, key.2 ++ path)
  fingerprint := (greenHash160 key).take 4
  path := path

/-- The keys of a 2-of-2 of the main account, the path of the service from a given first element. -/
def greenPair (root : UInt32) : KeySource where
  keypaths := [greenKeypath (true, []) (root :: List.replicate 32 7 ++ [5]),
    greenKeypath (false, []) [1, 5]]
  isTaproot := false
  isSupportedTaproot := false

def greenPairIter (root : UInt32) : KeyIter (Bool × List UInt32) where
  keypaths := (greenPair root).keypaths
  keyIndex := 1
  hdkey := (false, [1, 5])
  isGa2of3RecoveryKey := false

theorem greenPair_keys (root : UInt32) :
    GreenKeys greenWallet [1, 0, 0, 0] (greenPair root).keypaths
      (greenKeypath (true, []) (root :: List.replicate 32 7 ++ [5]))
      (greenKeypath (false, []) [1, 5]) none where
  perm := List.Perm.refl _
  serviceKey := rfl
  userKey := ⟨by decide, by decide⟩
  recoveryKey := by simp
  pointer := ⟨5, rfl, rfl, by simp⟩

/-- The keys of a Green 2-of-2 do not pass. -/
theorem green_pair_rejected :
    keyIterBeginPublic greenWallet (greenPair 1) = .ok (some (greenPairIter 1)) ∧
      ¬ ((isGreenMultisigSigners greenWallet .bitcoin (greenPairIter 1) false).isSome = true ↔
        IsGreenMultisig greenWallet .bitcoin (greenPairIter 1).keypaths) := by
  refine ⟨rfl, ?_⟩
  intro hright
  have hgreen : IsGreenMultisig greenWallet .bitcoin (greenPairIter 1).keypaths :=
    ⟨[1, 0, 0, 0], _, _, none, rfl, greenPair_keys 1, rfl⟩
  have hno : (isGreenMultisigSigners greenWallet .bitcoin (greenPairIter 1) false).isSome = false :=
    by decide +kernel
  rw [hright.2 hgreen] at hno
  cases hno

/-! ### Exactly when the answer is right -/

/-- **Exactly when the answer is right.**  The wallet is the user signer; the keys pass exactly when
they are those of a Green multisig, unless the answer hangs on the path of the service alone: then it
is always the wrong one. -/
theorem green_recognition_iff (hroot : W.gaservicePath.length + 1 = GASERVICE_ROOT_PATH_LEN)
    (network : Network) (iter : KeyIter K) (huser : iter.isGa2of3RecoveryKey = false)
    (wantRecovery : Bool) :
    ((isGreenMultisigSigners W network iter wantRecovery).isSome = true ↔
        IsGreenMultisig W network iter.keypaths) ↔
      ¬ ServicePathDecides W network iter.keypaths wantRecovery := by
  have hflag : (iter.numKeys == 3 && iter.isGa2of3RecoveryKey) = false := by simp [huser]
  constructor
  · rintro hright ⟨gaFingerprint, service, user, recovery, expected, hga, hkeys, hexpected, hlen, hcase⟩
    by_cases heq : service.path = expected
    · -- the right path, which does not pass
      have hgreen : IsGreenMultisig W network iter.keypaths :=
        ⟨gaFingerprint, service, user, recovery, hga, hkeys, by rw [hexpected, heq]⟩
      obtain ⟨pubkey, hpubkey⟩ := Option.isSome_iff_exists.1 (hright.2 hgreen)
      obtain ⟨gaFingerprint', service', user', recovery', expected', hga', hkeys', hexpected', -, -,
        hne, -⟩ := (isGreenMultisigSigners_user_iff W hflag).1 hpubkey
      obtain rfl : gaFingerprint = gaFingerprint' := Option.some.inj (hga.symm.trans hga')
      obtain ⟨rfl, rfl, rfl⟩ := hkeys.unique W hkeys'
      rw [hexpected] at hexpected'
      exact hne ((Option.some.inj hexpected').symm.trans heq.symm)
    · -- another path, which passes
      have hpass : isGreenMultisigSigners W network iter wantRecovery =
          some ((recovery.map Keypath.pubkey).getD []) :=
        (isGreenMultisigSigners_user_iff W hflag).2 ⟨gaFingerprint, service, user, recovery,
          expected, hga, hkeys, hexpected,
          hlen ▸ length_walletGetGaservicePath W hroot hexpected, hlen, fun h => heq h.symm,
          hcase.resolve_left heq, rfl⟩
      obtain ⟨gaFingerprint', service', user', recovery', hga', hkeys', hexpected'⟩ :=
        hright.1 (by simp [hpass])
      obtain rfl : gaFingerprint = gaFingerprint' := Option.some.inj (hga.symm.trans hga')
      obtain ⟨rfl, rfl, rfl⟩ := hkeys.unique W hkeys'
      rw [hexpected] at hexpected'
      exact heq (Option.some.inj hexpected').symm
  · intro hnot
    constructor
    · intro hsome
      obtain ⟨pubkey, hpubkey⟩ := Option.isSome_iff_exists.1 hsome
      obtain ⟨gaFingerprint, service, user, recovery, expected, hga, hkeys, hexpected, -, hlen, -,
        hwant, -⟩ := (isGreenMultisigSigners_user_iff W hflag).1 hpubkey
      exact absurd ⟨gaFingerprint, service, user, recovery, expected, hga, hkeys, hexpected, hlen,
        .inr hwant⟩ hnot
    · rintro ⟨gaFingerprint, service, user, recovery, hga, hkeys, hexpected⟩
      exact absurd ⟨gaFingerprint, service, user, recovery, service.path, hga, hkeys, hexpected, rfl,
        .inl rfl⟩ hnot

/-- Keys with another service path pass. -/
theorem green_recognition_otherPath :
    ¬ ((isGreenMultisigSigners greenWallet .bitcoin (greenPairIter 2) false).isSome = true ↔
      IsGreenMultisig greenWallet .bitcoin (greenPairIter 2).keypaths) := by
  have hiff := green_recognition_iff greenWallet rfl .bitcoin (greenPairIter 2) rfl false
  intro hright
  exact hiff.1 hright
    ⟨[1, 0, 0, 0], _, _, none, 1 :: List.replicate 32 7 ++ [5], rfl, greenPair_keys 2, rfl, rfl,
      .inr (by simp)⟩

/-! ### When the wallet holds the recovery key -/

/-- A key that is taken for the user's when the wallet holds the recovery key. -/
def UserLike (gaFingerprint : Bytes) (keypath : Keypath) : Prop :=
  isOwnKey W gaFingerprint keypath ∧ keypath.path ≠ [] ∧
      keypath.path.length ≤ GA_USER_PATH_MAX_LEN ∨
    isOtherKey W gaFingerprint keypath ∧ (isPotentialGreenUserPath keypath.path).isSome = true

/-- A key that is taken for the recovery key. -/
structure RecoveryLike (gaFingerprint : Bytes) (wantRecovery : Bool) (keypath : Keypath) : Prop where
  other : isOtherKey W gaFingerprint keypath
  form : isPotentialGreenRecoveryPath keypath.path = true
  pubkey : wantRecovery = true → keypath.pubkey.length = EC_PUBLIC_KEY_LEN

/-- A user path has two or four elements. -/
theorem length_of_potentialUser {path : List UInt32}
    (h : (isPotentialGreenUserPath path).isSome = true) :
    path ≠ [] ∧ path.length ≤ GA_USER_PATH_MAX_LEN := by
  unfold isPotentialGreenUserPath at h
  split at h
  · simp [GA_USER_PATH_MAX_LEN]
  · split_ifs at h with hform
    · have hlen := length_of_potentialRecovery hform
      simp only [GA_RECOVERY_PATH_LEN] at hlen
      refine ⟨List.ne_nil_of_length_pos (by omega), ?_⟩
      simp [hlen, GA_USER_PATH_MAX_LEN]
    · simp at h

theorem UserLike.path_ne_nil {gaFingerprint : Bytes} {keypath : Keypath}
    (h : UserLike W gaFingerprint keypath) : keypath.path ≠ [] := by
  rcases h with ⟨-, hne, -⟩ | ⟨-, hform⟩
  · exact hne
  · exact (length_of_potentialUser hform).1

/-- The service's key is not taken for another. -/
theorem not_userLike_of_service {gaFingerprint : Bytes} {keypath : Keypath}
    (h : isServiceKey gaFingerprint keypath) : ¬ UserLike W gaFingerprint keypath := by
  intro huser
  rcases huser with ⟨hown, -⟩ | ⟨hother, -⟩
  · exact hown.1 h
  · exact hother.1 h

/-- What the scan has found when the wallet holds the recovery key: the key taken for the recovery key
comes after the one taken for the user's. -/
structure FoundRecovery (gaFingerprint : Bytes) (wantRecovery : Bool) (pre : List Keypath)
    (s : GreenScan) : Prop where
  ga : s.gaPath ≠ [] → ∃ k ∈ pre, isServiceKey gaFingerprint k ∧ k.path = s.gaPath ∧
    k.path.length ≤ MAX_GASERVICE_PATH_LEN
  pathLen : s.pathLen ≠ 0 → s.userPath ≠ []
  user : s.userPath ≠ [] → ∃ u ∈ pre, UserLike W gaFingerprint u ∧ u.path = s.userPath
  recovery : s.recoveryPath ≠ [] → ∃ u v, [u, v].Sublist pre ∧ UserLike W gaFingerprint u ∧
    u.path = s.userPath ∧ RecoveryLike W gaFingerprint wantRecovery v ∧ v.path = s.recoveryPath ∧
    v.pubkey = s.recoveryPubkey

theorem foundRecovery_nil (gaFingerprint : Bytes) (wantRecovery : Bool) :
    FoundRecovery W gaFingerprint wantRecovery [] {} where
  ga := by simp
  pathLen := by simp
  user := by simp
  recovery := by simp

/-- Without a user there is no recovery key. -/
theorem FoundRecovery.recoveryPath_eq_nil {gaFingerprint : Bytes} {wantRecovery : Bool}
    {pre : List Keypath} {s : GreenScan} (h : FoundRecovery W gaFingerprint wantRecovery pre s)
    (hnil : s.userPath = []) : s.recoveryPath = [] := by
  by_contra hne
  obtain ⟨u, v, -, hu, hpath, -⟩ := h.recovery hne
  exact hu.path_ne_nil W (hpath.trans hnil)

theorem FoundRecovery.step {iter : KeyIter K} {gaFingerprint : Bytes} {wantRecovery : Bool}
    (hkeys : iter.numKeys = 3) (hrecovery : iter.isGa2of3RecoveryKey = true) {pre : List Keypath}
    {k : Keypath} {s s' : GreenScan} (h : FoundRecovery W gaFingerprint wantRecovery pre s)
    (hstep : greenScanKey W iter gaFingerprint wantRecovery s k = some s') :
    FoundRecovery W gaFingerprint wantRecovery (pre ++ [k]) s' := by
  have hold : ∀ {q : Keypath → Prop}, (∃ k' ∈ pre, q k') → ∃ k' ∈ pre ++ [k], q k' := by
    rintro q ⟨k', hk', hq⟩
    exact ⟨k', List.mem_append_left _ hk', hq⟩
  have hmem : k ∈ pre ++ [k] := by simp
  have hsub : pre.Sublist (pre ++ [k]) := List.sublist_append_left _ _
  rcases key_role W gaFingerprint k with hrole | hrole | hrole
  · obtain ⟨-, hlen, rfl⟩ := (greenScanKey_service hrole).1 hstep
    exact {
      ga := fun _ => ⟨k, hmem, hrole, rfl, hlen⟩
      pathLen := h.pathLen
      user := fun hne => hold (h.user hne)
      recovery := by
        intro hne
        obtain ⟨u, v, huv, hrest⟩ := h.recovery hne
        exact ⟨u, v, huv.trans hsub, hrest⟩ }
  · -- the own key is the user's: a foreign key before it would have been
    unfold greenScanKey greenOwnKey at hstep
    rw [if_neg (by simpa using hrole.1), if_pos (beq_iff_eq.2 hrole.2)] at hstep
    by_cases hlen : s.pathLen = GA_RECOVERY_PATH_LEN
    · have huser : s.userPath ≠ [] := h.pathLen (by simp [hlen, GA_RECOVERY_PATH_LEN])
      simp only [hkeys, hrecovery, hlen, beq_self_eq_true, Bool.and_self, if_true,
        Option.bind_eq_bind] at hstep
      split_ifs at hstep
      · cases hstep
      · simp [huser] at hstep
    · have hne : (s.pathLen == GA_RECOVERY_PATH_LEN) = false := by simpa using hlen
      simp only [hne, Bool.and_false, Bool.false_eq_true, if_false, Option.bind_eq_bind,
        Option.bind_some, Option.ite_none_left_eq_some, Option.some.injEq, Bool.or_eq_true,
        decide_eq_true_eq, not_or, Bool.not_eq_true', not_lt] at hstep
      obtain ⟨⟨hempty, hle⟩, rfl⟩ := hstep
      have hnil : s.userPath = [] := by simpa using hempty
      exact {
        ga := fun hne => hold (h.ga hne)
        pathLen := fun hne => absurd hnil (h.pathLen hne)
        user := fun hne => ⟨k, hmem, .inl ⟨hrole, hne, hle⟩, rfl⟩
        recovery := fun hne => absurd (h.recoveryPath_eq_nil W hnil) hne }
  · by_cases huser : s.userPath = []
    · -- the first foreign key is taken for the user's
      unfold greenScanKey greenOtherKey at hstep
      rw [if_neg (by simpa using hrole.1), if_neg (by simpa using hrole.2),
        Option.ite_none_left_eq_some] at hstep
      obtain ⟨-, hstep⟩ := hstep
      by_cases hform : (isPotentialGreenUserPath k.path).isSome = true
      · simp only [hrecovery, huser, List.isEmpty_nil, hform, Bool.and_self, if_true,
          Option.some.injEq] at hstep
        obtain rfl := hstep
        exact {
          ga := fun hne => hold (h.ga hne)
          pathLen := fun _ => (length_of_potentialUser hform).1
          user := fun _ => ⟨k, hmem, .inr ⟨hrole, hform⟩, rfl⟩
          recovery := fun hne => absurd (h.recoveryPath_eq_nil W huser) hne }
      · have hnot : isPotentialGreenRecoveryPath k.path = false := by
          by_contra hyes
          exact hform (potentialUser_of_potentialRecovery (by simpa using hyes))
        simp [hform, hnot] at hstep
    · obtain ⟨-, hnil, hform, hpubkey, rfl⟩ :=
        (greenScanKey_other hrole (fun _ => huser)).1 hstep
      exact {
        ga := fun hne => hold (h.ga hne)
        pathLen := fun _ => huser
        user := fun hne => hold (h.user hne)
        recovery := by
          intro _
          obtain ⟨u, humem, hu, hpath⟩ := h.user huser
          refine ⟨u, k, ?_, hu, hpath, ⟨hrole, hform, hpubkey⟩, rfl, rfl⟩
          exact (List.singleton_sublist.2 humem).append (List.Sublist.refl [k]) }

/-- The keys that pass in some order when the wallet holds the recovery key. -/
structure RecoveryKeys (gaFingerprint : Bytes) (wantRecovery : Bool) (keypaths : List Keypath)
    (service u v : Keypath) : Prop where
  perm : keypaths.Perm [service, u, v]
  serviceKey : isServiceKey gaFingerprint service
  serviceLen : service.path.length ≤ MAX_GASERVICE_PATH_LEN
  userKey : UserLike W gaFingerprint u
  recoveryKey : RecoveryLike W gaFingerprint wantRecovery v
  pointer : ∃ pointer, u.path.getLast? = some pointer ∧ service.path.getLast? = some pointer ∧
    v.path.getLast? = some pointer

/-- **Which keys pass when the wallet holds the recovery key**: one of the service, and a recovery key
after one of a user. -/
theorem isGreenMultisigSigners_recovery {network : Network} (iter : KeyIter K) {wantRecovery : Bool}
    (hkeys : iter.numKeys = 3) (hrecovery : iter.isGa2of3RecoveryKey = true)
    (hnodup : iter.keypaths.Nodup) {pubkey : Bytes}
    (h : isGreenMultisigSigners W network iter wantRecovery = some pubkey) :
    ∃ gaFingerprint service u v, walletGetGaserviceFingerprint W network = some gaFingerprint ∧
      RecoveryKeys W gaFingerprint wantRecovery iter.keypaths service u v ∧
      [u, v].Sublist iter.keypaths ∧ v.pubkey = pubkey := by
  unfold isGreenMultisigSigners at h
  rw [if_neg (by simp [hkeys])] at h
  cases hga : walletGetGaserviceFingerprint W network with
  | none => simp [hga] at h
  | some gaFingerprint =>
      rw [hga] at h
      dsimp only at h
      cases hscan : iter.keypaths.foldlM (greenScanKey W iter gaFingerprint wantRecovery) {} with
      | none => simp [hscan] at h
      | some s =>
          rw [hscan] at h
          dsimp only at h
          split_ifs at h with hmatch
          have hfound : FoundRecovery W gaFingerprint wantRecovery iter.keypaths s :=
            foldlM_eq_some (FoundRecovery W gaFingerprint wantRecovery) iter.keypaths
              (fun _ _ _ _ _ _ hpre hstep => hpre.step W hkeys hrecovery hstep)
              (foundRecovery_nil W _ _) hscan
          obtain ⟨pointer, huser, hgaLast, hlast⟩ :=
            (greenScanMatches_recovery hkeys hrecovery).1 hmatch
          obtain ⟨service, hmem, hservice, hservicePath, hserviceLen⟩ :=
            hfound.ga (by rintro hnil; simp [hnil] at hgaLast)
          obtain ⟨u, v, huv, hu, huPath, hv, hvPath, hvPubkey⟩ :=
            hfound.recovery (by rintro hnil; simp [hnil] at hlast)
          have hneU : service ≠ u := by
            rintro rfl
            exact not_userLike_of_service W hservice hu
          have hneV : service ≠ v := by
            rintro rfl
            exact hv.other.1 hservice
          have hneUV : u ≠ v := by simpa using huv.nodup hnodup
          refine ⟨gaFingerprint, service, u, v, rfl, {
            perm := ?_
            serviceKey := hservice
            serviceLen := hserviceLen
            userKey := hu
            recoveryKey := hv
            pointer := ⟨pointer, huPath ▸ huser, hservicePath ▸ hgaLast, hvPath ▸ hlast⟩ }, huv,
            by simpa [hvPubkey] using h⟩
          refine perm_of_mem (by simp [hneU, hneV, hneUV]) ?_ (le_of_eq hkeys)
          have hmemU : u ∈ iter.keypaths := huv.subset (by simp)
          have hmemV : v ∈ iter.keypaths := huv.subset (by simp)
          simp [hmem, hmemU, hmemV]

/-- In this order the keys pass. -/
theorem isGreenMultisigSigners_of_order {network : Network} (iter : KeyIter K) {wantRecovery : Bool}
    (hrecovery : iter.isGa2of3RecoveryKey = true) {gaFingerprint : Bytes}
    (hga : walletGetGaserviceFingerprint W network = some gaFingerprint) {service u v : Keypath}
    (horder : iter.keypaths = [service, u, v])
    (h : RecoveryKeys W gaFingerprint wantRecovery iter.keypaths service u v) :
    isGreenMultisigSigners W network iter wantRecovery = some v.pubkey := by
  have hkeys : iter.numKeys = 3 := by simp [KeyIter.numKeys, horder]
  obtain ⟨pointer, huLast, hgaLast, hvLast⟩ := h.pointer
  have hs : ∀ s : GreenScan, s.gaPath = [] →
      greenScanKey W iter gaFingerprint wantRecovery s service =
        some { s with gaPath := service.path } :=
    fun s hs => (greenScanKey_service h.serviceKey).2 ⟨hs, h.serviceLen, rfl⟩
  have hu : ∃ pathLen, greenScanKey W iter gaFingerprint wantRecovery
      { gaPath := service.path } u =
        some { pathLen, gaPath := service.path, userPath := u.path } := by
    unfold greenScanKey
    rcases h.userKey with ⟨hown, -, hlen⟩ | ⟨hother, hform⟩
    · refine ⟨0, ?_⟩
      rw [if_neg (by simpa using hown.1), if_pos (beq_iff_eq.2 hown.2)]
      simp [greenOwnKey, hlen, GA_RECOVERY_PATH_LEN]
    · refine ⟨u.path.length, ?_⟩
      have hlen := (length_of_potentialUser hform).2
      rw [if_neg (by simpa using hother.1), if_neg (by simpa using hother.2)]
      simp [greenOtherKey, hkeys, hlen, hrecovery, hform]
  obtain ⟨pathLen, hu⟩ := hu
  have hv := (greenScanKey_other (s := { pathLen, gaPath := service.path, userPath := u.path })
    h.recoveryKey.other (fun _ : iter.isGa2of3RecoveryKey = true => h.userKey.path_ne_nil W)).2
    ⟨hkeys, rfl, h.recoveryKey.form, h.recoveryKey.pubkey, rfl⟩
  have hscan : iter.keypaths.foldlM (greenScanKey W iter gaFingerprint wantRecovery) {} = some {
      pathLen := v.path.length
      gaPath := service.path
      userPath := u.path
      recoveryPath := v.path
      recoveryPubkey := v.pubkey } := by
    rw [horder]
    simp [hs, hu, hv]
  have hmatch := (greenScanMatches_recovery (W := W) (s := {
      pathLen := v.path.length
      gaPath := service.path
      userPath := u.path
      recoveryPath := v.path
      recoveryPubkey := v.pubkey }) hkeys hrecovery).2 ⟨pointer, huLast, hgaLast, hvLast⟩
  have hcount : (iter.numKeys != 2 && iter.numKeys != 3) = false := by simp [hkeys]
  simp only [isGreenMultisigSigners, hcount, Bool.false_eq_true, if_false, hga, hscan, hmatch,
    if_true]

/-- What keys pass does not depend on the order they are listed in. -/
theorem RecoveryKeys.of_perm {gaFingerprint : Bytes} {wantRecovery : Bool}
    {keypaths keypaths' : List Keypath} {service u v : Keypath}
    (h : RecoveryKeys W gaFingerprint wantRecovery keypaths service u v)
    (hperm : keypaths'.Perm keypaths) :
    RecoveryKeys W gaFingerprint wantRecovery keypaths' service u v :=
  { h with perm := hperm.trans h.perm }

theorem GreenKeys.of_perm {gaFingerprint : Bytes} {keypaths keypaths' : List Keypath}
    {service user : Keypath} {recovery : Option Keypath}
    (h : GreenKeys W gaFingerprint keypaths service user recovery)
    (hperm : keypaths'.Perm keypaths) :
    GreenKeys W gaFingerprint keypaths' service user recovery :=
  { h with perm := hperm.trans h.perm }

/-! ### Whether the order matters -/

/-- **The answer, and the recovery public key it comes with, are the same for every order of the
keys.** -/
def OrderInvariant (network : Network) (iter : KeyIter K) (wantRecovery : Bool) : Prop :=
  ∀ iter' : KeyIter K, iter'.keypaths.Perm iter.keypaths →
    iter'.isGa2of3RecoveryKey = iter.isGa2of3RecoveryKey →
    isGreenMultisigSigners W network iter' wantRecovery =
      isGreenMultisigSigners W network iter wantRecovery

/-- The wallet holds the recovery key, and the keys pass in some order. -/
def RecoverySet (network : Network) (iter : KeyIter K) (wantRecovery : Bool) : Prop :=
  iter.isGa2of3RecoveryKey = true ∧
    ∃ gaFingerprint service u v, walletGetGaserviceFingerprint W network = some gaFingerprint ∧
      RecoveryKeys W gaFingerprint wantRecovery iter.keypaths service u v

/-- The user signer's answer does not depend on the order. -/
theorem isGreenMultisigSigners_perm {network : Network} {iter iter' : KeyIter K}
    {wantRecovery : Bool} (huser : (iter.numKeys == 3 && iter.isGa2of3RecoveryKey) = false)
    (hperm : iter'.keypaths.Perm iter.keypaths)
    (hflag : iter'.isGa2of3RecoveryKey = iter.isGa2of3RecoveryKey) :
    isGreenMultisigSigners W network iter' wantRecovery =
      isGreenMultisigSigners W network iter wantRecovery := by
  have huser' : (iter'.numKeys == 3 && iter'.isGa2of3RecoveryKey) = false := by
    rw [hflag, show iter'.numKeys = iter.numKeys from hperm.length_eq]
    exact huser
  ext pubkey
  constructor
  · intro h
    obtain ⟨gaFingerprint, service, user, recovery, expected, hga, hkeys, hrest⟩ :=
      (isGreenMultisigSigners_user_iff W huser').1 h
    exact (isGreenMultisigSigners_user_iff W huser).2
      ⟨gaFingerprint, service, user, recovery, expected, hga, hkeys.of_perm W hperm.symm, hrest⟩
  · intro h
    obtain ⟨gaFingerprint, service, user, recovery, expected, hga, hkeys, hrest⟩ :=
      (isGreenMultisigSigners_user_iff W huser).1 h
    exact (isGreenMultisigSigners_user_iff W huser').2
      ⟨gaFingerprint, service, user, recovery, expected, hga, hkeys.of_perm W hperm, hrest⟩

/-- The answer of a wallet that holds the recovery key is no, unless the keys pass in some order. -/
theorem isGreenMultisigSigners_eq_none {network : Network} {iter : KeyIter K} {wantRecovery : Bool}
    (hkeys : iter.numKeys = 3) (hrecovery : iter.isGa2of3RecoveryKey = true)
    (hnodup : iter.keypaths.Nodup) (hnot : ¬ RecoverySet W network iter wantRecovery) :
    isGreenMultisigSigners W network iter wantRecovery = none := by
  cases hanswer : isGreenMultisigSigners W network iter wantRecovery with
  | none => rfl
  | some pubkey =>
      obtain ⟨gaFingerprint, service, u, v, hga, hset, -⟩ :=
        isGreenMultisigSigners_recovery W _ hkeys hrecovery hnodup hanswer
      exact absurd ⟨hrecovery, gaFingerprint, service, u, v, hga, hset⟩ hnot

/-- When the keys pass in some order, there is another one in which they give another answer. -/
theorem not_orderInvariant {network : Network} {iter : KeyIter K} {wantRecovery : Bool}
    (hmap : (iter.keypaths.map Keypath.pubkey).Nodup)
    (hset : RecoverySet W network iter wantRecovery) :
    ¬ OrderInvariant W network iter wantRecovery := by
  intro hinv
  obtain ⟨hflag, gaFingerprint, service, u, v, hga, hkeys⟩ := hset
  have hswap : [service, v, u].Perm [service, u, v] := (List.Perm.swap u v []).cons service
  let iter₁ : KeyIter K := { iter with keypaths := [service, u, v] }
  let iter₂ : KeyIter K := { iter with keypaths := [service, v, u] }
  have hperm₁ : iter₁.keypaths.Perm iter.keypaths := hkeys.perm.symm
  have hperm₂ : iter₂.keypaths.Perm iter.keypaths := hswap.trans hkeys.perm.symm
  -- in one order the second of the two keys is returned
  have hpass : isGreenMultisigSigners W network iter₁ wantRecovery = some v.pubkey :=
    isGreenMultisigSigners_of_order W iter₁ hflag hga rfl (hkeys.of_perm W hperm₁)
  have hpass₂ : isGreenMultisigSigners W network iter₂ wantRecovery = some v.pubkey := by
    rw [hinv iter₂ hperm₂ rfl, ← hinv iter₁ hperm₁ rfl, hpass]
  -- in the other one it cannot be, since only the service's key comes before it
  have hmap₂ : (iter₂.keypaths.map Keypath.pubkey).Nodup :=
    (hperm₂.map Keypath.pubkey).nodup_iff.2 hmap
  obtain ⟨gaFingerprint', service', u', v', hga', hkeys', hsub, hpubkey⟩ :=
    isGreenMultisigSigners_recovery W iter₂ rfl hflag (List.Nodup.of_map _ hmap₂) hpass₂
  obtain rfl : gaFingerprint = gaFingerprint' := Option.some.inj (hga.symm.trans hga')
  have hv : v' = v :=
    List.inj_on_of_nodup_map hmap₂ (hsub.subset (by simp)) (by simp [iter₂]) hpubkey
  subst hv
  have hnodup : [service, v', u].Nodup := List.Nodup.of_map _ hmap₂
  have hu : u' = service := by
    have hne : v' ≠ u := by
      intro h
      simp [h] at hnodup
    have hsub : [u', v'].Sublist [service, v', u] := hsub
    simp only [List.sublist_cons_iff, List.cons.injEq, List.sublist_nil] at hsub
    simpa [hne] using hsub
  exact not_userLike_of_service W hkeys.serviceKey (hu ▸ hkeys'.userKey)

/-- The keys of a 2-of-3 whose recovery key is the wallet's: those of the service, of the user, who is
somebody else, and of the wallet below the path of the subaccount. -/
def greenServer : Keypath := greenKeypath (true, []) (3 :: List.replicate 32 7 ++ [9, 5])

def greenUser : Keypath where
  pubkey := 3 :: List.replicate 32 8
  fingerprint := [9, 9, 9, 9]
  path := [harden 3, harden 9, 1, 5]

def greenRecovery : Keypath := greenKeypath (false, [harden 3, harden 9]) [1, 5]

def greenTripleIter (keypaths : List Keypath) (keyIndex : ℕ) : KeyIter (Bool × List UInt32) where
  keypaths := keypaths
  keyIndex := keyIndex
  hdkey := (false, [harden 3, harden 9, 1, 5])
  isGa2of3RecoveryKey := true

/-- The iterator is valid for two orders of the keys, which pass in one of them only. -/
theorem green_order_matters :
    keyIterBeginPublic greenWallet ⟨[greenServer, greenUser, greenRecovery], false, false⟩ =
        .ok (some (greenTripleIter [greenServer, greenUser, greenRecovery] 2)) ∧
      keyIterBeginPublic greenWallet ⟨[greenServer, greenRecovery, greenUser], false, false⟩ =
        .ok (some (greenTripleIter [greenServer, greenRecovery, greenUser] 1)) ∧
      ¬ OrderInvariant greenWallet .bitcoin
        (greenTripleIter [greenServer, greenUser, greenRecovery] 2) true := by
  refine ⟨rfl, rfl, ?_⟩
  intro hinv
  have hswap : [greenServer, greenRecovery, greenUser].Perm
      [greenServer, greenUser, greenRecovery] :=
    (List.Perm.swap greenUser greenRecovery []).cons greenServer
  have hsame := hinv (greenTripleIter [greenServer, greenRecovery, greenUser] 1) hswap rfl
  exact absurd hsame (by decide +kernel)

/-- **Exactly when the answer does not depend on the order of the keys**: the public keys are different,
and the answer is the same for every order unless the wallet holds the recovery key and the keys pass in
some order. -/
theorem green_order_iff (network : Network) (iter : KeyIter K) (wantRecovery : Bool)
    (hmap : (iter.keypaths.map Keypath.pubkey).Nodup) :
    OrderInvariant W network iter wantRecovery ↔ ¬ RecoverySet W network iter wantRecovery := by
  constructor
  · intro hinv hset
    exact not_orderInvariant W hmap hset hinv
  · intro hnot iter' hperm hflag
    cases huser : (iter.numKeys == 3 && iter.isGa2of3RecoveryKey) with
    | false => exact isGreenMultisigSigners_perm W huser hperm hflag
    | true =>
        simp only [Bool.and_eq_true, beq_iff_eq] at huser
        obtain ⟨hkeys, hrecovery⟩ := huser
        have hnodup : iter.keypaths.Nodup := List.Nodup.of_map _ hmap
        have hnot' : ¬ RecoverySet W network iter' wantRecovery := by
          rintro ⟨-, gaFingerprint, service, u, v, hga, hset⟩
          exact hnot ⟨hrecovery, gaFingerprint, service, u, v, hga, hset.of_perm W hperm.symm⟩
        rw [isGreenMultisigSigners_eq_none W hkeys hrecovery hnodup hnot]
        exact isGreenMultisigSigners_eq_none W (hperm.length_eq.trans hkeys)
          (hflag.trans hrecovery) (hperm.nodup_iff.2 hnodup) hnot'

/-- The two keys of a user signer give the same answer in both orders. -/
theorem green_order_pair : OrderInvariant greenWallet .bitcoin (greenPairIter 1) false := by
  have hiff := green_order_iff greenWallet .bitcoin (greenPairIter 1) false (by decide +kernel)
  refine hiff.2 ?_
  rintro ⟨hflag, -⟩
  cases hflag

end Jade
