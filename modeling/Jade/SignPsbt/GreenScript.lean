/-
**Which scripts are those of a Green wallet (`sign_psbt.c`, `wallet.c`).**

A Green output pays to the multisig of the service and the user, or for a 2-of-3 subaccount to that of
the service, the user and a recovery key.  An account without a recovery key can also use a csv script,
which lets the user spend alone after a number of blocks that the network fixes.
`verify_ga_script_matches` is to find out which of them a script is, by rebuilding it.

It asks for the number of blocks only when there is a recovery key, and then there is no csv script; and
it asks the wrapped script, which hides the number.  So no csv script is ever recognised.

Main definitions:

* `Jade.IsGreenScript` — the scripts of a Green path;
* `Jade.GreenRecognised` — the answer for a script is whether it is one of them;
* `Jade.LawfulGreenWally` — what the calls of `libwally` do.

Main results:

* `Jade.verifyGaScriptMatches_eq` — what the check compares a script with;
* `Jade.green_script_iff` — **exactly which scripts are answered correctly**.
-/

import Jade.Lib.Exec
import Jade.SignPsbt.Green
import Mathlib.Data.Nat.Bitwise

set_option relaxedAutoImplicit false
set_option autoImplicit false

namespace Jade

open Exec

/-! ### Hardened elements -/

theorem isHardened_unharden (n : UInt32) : isHardened (unharden n) = false := by
  have hmask : (0x7fffffff : UInt32) &&& 0x80000000 = 0 := by decide
  unfold isHardened unharden
  rw [UInt32.and_assoc, hmask, UInt32.and_zero]
  rfl

theorem isHardened_of_lt {n : UInt32} (h : n < 10000) : isHardened n = false := by
  have hlt : n.toNat < 10000 := h
  have hbit : n.toNat.testBit 31 = false := Nat.testBit_lt_two_pow (by omega)
  have hand : n &&& 0x80000000 = 0 := by
    apply UInt32.toNat_inj.1
    rw [UInt32.toNat_and]
    have h := Nat.and_two_pow n.toNat 31
    simpa [hbit] using h
  simp [isHardened, hand]

variable {K : Type} (W : Wallet K)

/-! ### The scripts of a path -/

/-- The numbers of csv blocks a Green account may use: zero stands for the plain multisig, and without a
recovery key there are the numbers of the network. -/
def GreenBlocks (network : Network) (recoveryPubkey : Option Bytes) (csvBlocks : ℕ) : Prop :=
  csvBlocks = 0 ∨ recoveryPubkey = none ∧ networkIsKnownCsvBlocks network csvBlocks = true

/-- **The scripts of a Green path.** -/
def IsGreenScript (network : Network) (userPubkey : Bytes) (recoveryPubkey : Option Bytes)
    (path : List UInt32) (targetScript : Bytes) : Prop :=
  ∃ csvBlocks, GreenBlocks network recoveryPubkey csvBlocks ∧
    walletBuildGaScriptEx W network userPubkey recoveryPubkey csvBlocks path =
      .ok (some targetScript)

/-- **The answer for a script is whether it is one of the path.** -/
def GreenRecognised (network : Network) (userPubkey : Bytes) (recoveryPubkey : Option Bytes)
    (path : List UInt32) (targetScript : Bytes) : Prop :=
  (IsGreenScript W network userPubkey recoveryPubkey path targetScript →
      verifyGaScriptMatches W network userPubkey recoveryPubkey path targetScript = .ok true) ∧
    (¬ IsGreenScript W network userPubkey recoveryPubkey path targetScript →
      verifyGaScriptMatches W network userPubkey recoveryPubkey path targetScript = .ok false)

/-- The script is a csv script of the path, and not also the plain one. -/
def OnlyCsvScript (network : Network) (userPubkey : Bytes) (path : List UInt32)
    (targetScript : Bytes) : Prop :=
  (∃ csvBlocks, networkIsKnownCsvBlocks network csvBlocks = true ∧
      walletBuildGaScriptEx W network userPubkey none csvBlocks path = .ok (some targetScript)) ∧
    walletBuildGaScriptEx W network userPubkey none 0 path ≠ .ok (some targetScript)

/-- No network uses a csv script with no blocks. -/
theorem ne_zero_of_knownCsvBlocks {network : Network} {csvBlocks : ℕ}
    (h : networkIsKnownCsvBlocks network csvBlocks = true) : csvBlocks ≠ 0 := by
  rintro rfl
  cases network <;> cases h

/-! ### What the calls do -/

def MAX_GASERVICE_PATH_TAIL_LEN : ℕ := 2

/-- What the code relies on: the service's path fills its array with unhardened elements and keys can be
derived along it and below, public keys are compressed, the scripts it asks for are built with their
lengths, and a wrapped script is no csv script.  `libwally` takes no empty path and no empty script. -/
structure LawfulGreenWally : Prop where
  rootLen : W.gaservicePath.length + 1 = GASERVICE_ROOT_PATH_LEN
  gaservicePath : ∀ n ∈ W.gaservicePath, isHardened n = false
  derive : ∀ service root tail, root.length = GASERVICE_ROOT_PATH_LEN → tail ≠ [] →
    tail.length ≤ MAX_GASERVICE_PATH_TAIL_LEN → (∀ n ∈ root ++ tail, isHardened n = false) →
    ∃ key child, W.bip32PublicKeyFromParentPath (W.service service) root = some key ∧
      W.bip32PublicKeyFromParentPath key tail = some child
  pubKey : ∀ key, (W.pubKey key).length = EC_PUBLIC_KEY_LEN
  multisig : ∀ sorted threshold n pubkeys, pubkeys.length = n * EC_PUBLIC_KEY_LEN →
    0 < threshold → threshold ≤ n → n ≤ MAX_ALLOWED_SIGNERS →
    ∃ script, W.scriptpubkeyMultisigFromBytes sorted threshold pubkeys = some script ∧
      script.length = multisigScriptLen n
  witnessProgram : ∀ bytes ≠ [], ∃ program, W.witnessProgramFromBytes .sha256 bytes = some program ∧
    program.length = WALLY_SCRIPTPUBKEY_P2WSH_LEN
  p2sh : ∀ bytes ≠ [], ∃ script, W.scriptpubkeyP2shFromBytes bytes = some script ∧
    script.length = WALLY_SCRIPTPUBKEY_P2SH_LEN
  csvBlocks : ∀ script, script.length = WALLY_SCRIPTPUBKEY_P2SH_LEN →
    W.csvBlocksFromCsv2of2Then1 script = none

section Built

variable {W} {network : Network} {userPubkey : Bytes} {recoveryPubkey : Option Bytes}
  {csvBlocks : ℕ} {path : List UInt32}

theorem length_walletP2shP2wsh {bytes script : Bytes} {hash : ScriptHash}
    (h : walletP2shP2wshScriptpubkeyForBytes W bytes hash = .ok script) :
    script.length = WALLY_SCRIPTPUBKEY_P2SH_LEN := by
  unfold walletP2shP2wshScriptpubkeyForBytes at h
  obtain ⟨redeemScript, -, h⟩ := bind_eq_ok.1 h
  obtain ⟨_, -, h⟩ := bind_eq_ok.1 h
  obtain ⟨script', -, h⟩ := bind_eq_ok.1 h
  obtain ⟨_, hlen, h⟩ := bind_eq_ok.1 h
  obtain rfl := pure_eq_ok.1 h
  exact eq_of_beq (jadeVerify_eq_ok.1 hlen)

/-- A script that is built is a wrapped one. -/
theorem length_of_built {script : Bytes}
    (h : walletBuildGaScriptEx W network userPubkey recoveryPubkey csvBlocks path =
      .ok (some script)) :
    script.length = WALLY_SCRIPTPUBKEY_P2SH_LEN := by
  unfold walletBuildGaScriptEx at h
  split_ifs at h
  all_goals first | cases h | skip
  all_goals
    obtain ⟨gakey, -, h⟩ := bind_eq_ok.1 h
    cases gakey with
    | none => cases h
    | some gakey =>
        obtain ⟨inner, -, h⟩ := bind_eq_ok.1 h
        obtain ⟨wrapped, hwrapped, h⟩ := bind_eq_ok.1 h
        obtain rfl := Option.some.inj (pure_eq_ok.1 h)
        exact length_walletP2shP2wsh hwrapped

/-- The end of a service path has one or two elements, and none of them is hardened. -/
theorem walletGetGaservicePathTail_elements {tail : List UInt32} {isSubaccount : Bool}
    (h : walletGetGaservicePathTail path = some (tail, isSubaccount)) :
    tail ≠ [] ∧ tail.length ≤ MAX_GASERVICE_PATH_TAIL_LEN ∧ ∀ n ∈ tail, isHardened n = false := by
  unfold walletGetGaservicePathTail at h
  split at h
  · split_ifs at h with hcond
    simp only [Bool.and_eq_true, decide_eq_true_eq] at hcond
    obtain ⟨rfl, -⟩ : _ ∧ _ := by simpa using h
    refine ⟨List.cons_ne_nil _ _, Nat.le_succ 1, fun n hn => ?_⟩
    obtain rfl := List.mem_singleton.1 hn
    exact isHardened_of_lt hcond.2
  · split_ifs at h with hcond
    simp only [Bool.and_eq_true, decide_eq_true_eq] at hcond
    obtain ⟨rfl, -⟩ : _ ∧ _ := by simpa using h
    refine ⟨List.cons_ne_nil _ _, le_refl _, fun n hn => ?_⟩
    rcases List.mem_cons.1 hn with rfl | hn
    · exact isHardened_unharden _
    · obtain rfl := List.mem_singleton.1 hn
      exact isHardened_of_lt hcond.2
  · cases h

/-- The key of the service can be derived for every path. -/
theorem LawfulGreenWally.gaserviceKey (h : LawfulGreenWally W) (network : Network)
    (path : List UInt32) : ∃ gakey, walletGetGaserviceKey W network path = .ok gakey := by
  unfold walletGetGaserviceKey
  cases hservice : networkToGaService network with
  | none => exact ⟨none, rfl⟩
  | some service =>
      cases htail : walletGetGaservicePathTail path with
      | none => exact ⟨none, rfl⟩
      | some t =>
          obtain ⟨tail, isSubaccount⟩ := t
          have hroot : ∀ n ∈ walletGetGaservicePathRoot W isSubaccount, isHardened n = false := by
            intro n hn
            rcases List.mem_cons.1 hn with rfl | hn
            · cases isSubaccount <;> rfl
            · exact h.gaservicePath n hn
          obtain ⟨hne, hlen, htailElements⟩ := walletGetGaservicePathTail_elements htail
          obtain ⟨root, gakey, hroot, hgakey⟩ := h.derive service
            (walletGetGaservicePathRoot W isSubaccount) tail h.rootLen hne hlen
            fun n hn => (List.mem_append.1 hn).elim (hroot n) (htailElements n)
          refine ⟨some gakey, bind_eq_ok.2 ⟨root, by rw [hroot, wallyVerify_some], ?_⟩⟩
          exact bind_eq_ok.2 ⟨gakey, by rw [hgakey, wallyVerify_some], rfl⟩

/-- The plain script is built, or there is none. -/
theorem LawfulGreenWally.built (h : LawfulGreenWally W)
    (huser : userPubkey.length = EC_PUBLIC_KEY_LEN)
    (hrecovery : ∀ r ∈ recoveryPubkey, r.length = EC_PUBLIC_KEY_LEN) :
    ∃ script, walletBuildGaScriptEx W network userPubkey recoveryPubkey 0 path = .ok script := by
  unfold walletBuildGaScriptEx
  split_ifs
  all_goals first | exact ⟨none, rfl⟩ | skip
  · simp at *
  · obtain ⟨gakey, hgakey⟩ := h.gaserviceKey network path
    rw [hgakey]
    cases gakey with
    | none => exact ⟨none, rfl⟩
    | some gakey =>
        obtain ⟨n, hn, hlen⟩ : ∃ n, (n = 2 ∨ n = 3) ∧
            (W.pubKey gakey ++ userPubkey ++ recoveryPubkey.getD []).length =
              n * EC_PUBLIC_KEY_LEN := by
          have hkey := h.pubKey gakey
          cases recoveryPubkey with
          | none => exact ⟨2, .inl rfl, by simp [hkey, huser]; omega⟩
          | some r => exact ⟨3, .inr rfl, by simp [hkey, huser, hrecovery r rfl]; omega⟩
        have hcount : (n * EC_PUBLIC_KEY_LEN) / EC_PUBLIC_KEY_LEN = n := by
          simp [EC_PUBLIC_KEY_LEN]
        obtain ⟨inner, hinner, hinnerLen⟩ := h.multisig false 2 n _ hlen (by omega) (by omega)
          (by simp only [MAX_ALLOWED_SIGNERS]; omega)
        have hinnerNe : inner ≠ [] := List.ne_nil_of_length_pos (by
          rw [hinnerLen, multisigScriptLen]
          omega)
        obtain ⟨program, hprogram, hprogramLen⟩ := h.witnessProgram inner hinnerNe
        have hprogramNe : program ≠ [] := List.ne_nil_of_length_pos (by rw [hprogramLen]; decide)
        obtain ⟨wrapped, hwrapped, hwrappedLen⟩ := h.p2sh program hprogramNe
        refine ⟨some wrapped, ?_⟩
        have hmultisig : walletBuildMultisig W false 2
            (W.pubKey gakey ++ userPubkey ++ recoveryPubkey.getD []) 3 = .ok inner := by
          have htwo : 2 ≤ n := by omega
          have hmax : multisigScriptLen n ≤ multisigScriptLen 3 := by
            rcases hn with rfl | rfl <;> decide
          unfold walletBuildMultisig
          rw [hlen, hcount, jadeVerify_bind (by simp), jadeVerify_bind (by simp),
            jadeVerify_bind (decide_eq_true htwo), jadeVerify_bind (decide_eq_true hmax), hinner]
          exact bind_eq_ok.2 ⟨inner, rfl, jadeVerify_bind (by simp [hinnerLen]) _⟩
        have hwrap : walletP2shP2wshScriptpubkeyForBytes W inner .sha256 = .ok wrapped := by
          unfold walletP2shP2wshScriptpubkeyForBytes
          refine bind_eq_ok.2 ⟨program, by rw [hprogram, wallyVerify_some], ?_⟩
          rw [jadeVerify_bind (by simp [hprogramLen])]
          refine bind_eq_ok.2 ⟨wrapped, by rw [hwrapped, wallyVerify_some], ?_⟩
          exact jadeVerify_bind (by simp [hwrappedLen]) _
        refine bind_eq_ok.2 ⟨some gakey, rfl, ?_⟩
        refine bind_eq_ok.2 ⟨inner, hmultisig, ?_⟩
        exact bind_eq_ok.2 ⟨wrapped, hwrap, rfl⟩

/-! ### The check -/

/-- What the check does: a script that is not empty is compared with the plain one, whatever number of
blocks it hides. -/
theorem verifyGaScriptMatches_eq (h : LawfulGreenWally W)
    (huser : userPubkey.length = EC_PUBLIC_KEY_LEN)
    (hrecovery : ∀ r ∈ recoveryPubkey, r.length = EC_PUBLIC_KEY_LEN) {targetScript : Bytes}
    (htarget : targetScript ≠ []) :
    ∃ answer, verifyGaScriptMatches W network userPubkey recoveryPubkey path targetScript =
        .ok answer ∧
      (answer = true ↔ walletBuildGaScriptEx W network userPubkey recoveryPubkey 0 path =
        .ok (some targetScript)) := by
  obtain ⟨script, hscript⟩ :
      ∃ script, walletBuildGaScriptEx W network userPubkey recoveryPubkey 0 path = .ok script :=
    h.built huser hrecovery
  -- comparing with the plain script
  have hplain : ∀ compare : Option Bytes → Except Fault Bool, compare none = .ok false →
      (∀ trialScript, compare (some trialScript) = .ok (trialScript == targetScript)) →
      ∃ answer, (walletBuildGaScriptEx W network userPubkey recoveryPubkey 0 path >>= compare) =
          .ok answer ∧
        (answer = true ↔ walletBuildGaScriptEx W network userPubkey recoveryPubkey 0 path =
          .ok (some targetScript)) := by
    intro compare hnone hsome
    rw [hscript]
    cases script with
    | none => exact ⟨false, hnone, by simp⟩
    | some trialScript => exact ⟨trialScript == targetScript, hsome trialScript, by simp⟩
  unfold verifyGaScriptMatches
  rw [jadeVerify_bind (by simpa using htarget)]
  cases recoveryPubkey with
  | none => exact hplain _ rfl fun _ => rfl
  | some recovery =>
      cases hblocks : W.csvBlocksFromCsv2of2Then1 targetScript with
      | none =>
          simp only [Option.isSome_some, if_true]
          exact hplain _ rfl fun _ => rfl
      | some blocks =>
          -- a csv script that is not wrapped, which is never built
          have hnot : walletBuildGaScriptEx W network userPubkey (some recovery) 0 path ≠
              .ok (some targetScript) := by
            intro hbuilt
            rw [h.csvBlocks targetScript (length_of_built hbuilt)] at hblocks
            cases hblocks
          refine ⟨false, ?_, by simp [hnot]⟩
          by_cases hknown : networkIsKnownCsvBlocks network blocks = true
          · have hne := ne_zero_of_knownCsvBlocks hknown
            have hnone : walletBuildGaScriptEx W network userPubkey (some recovery) blocks path =
                .ok none := by
              unfold walletBuildGaScriptEx
              split_ifs <;> simp_all
            simp [hknown, hnone]
            rfl
          · simp [hknown]
            rfl

end Built

/-! ### A csv script -/

theorem length_greenMultisigKeys {pubkeys : Bytes} {n : ℕ} (hlen : pubkeys.length = n * 33) :
    ((List.range n).flatMap fun i => (33 : UInt8) :: (pubkeys.drop (33 * i)).take 33).length =
      n * 34 := by
  have hkey : ∀ i ∈ List.range n,
      ((33 : UInt8) :: (pubkeys.drop (33 * i)).take 33).length = 34 := by
    intro i hi
    have hlt : i < n := List.mem_range.1 hi
    simp only [List.length_cons, List.length_take, List.length_drop]
    omega
  rw [List.length_flatMap, List.map_congr_left hkey]
  simp

theorem greenWallet_lawful : LawfulGreenWally greenWallet where
  rootLen := rfl
  gaservicePath _ hn := (List.mem_replicate.1 hn).2 ▸ (by decide)
  derive _ root tail _ _ _ _ := ⟨(true, root), (true, root ++ tail), rfl, rfl⟩
  pubKey key := by simp [greenWallet, greenPubKey, EC_PUBLIC_KEY_LEN]
  multisig sorted threshold n pubkeys hlen _ _ _ := by
    have hn : pubkeys.length / 33 = n := by
      rw [hlen]
      exact Nat.mul_div_cancel n (by decide)
    refine ⟨_, rfl, ?_⟩
    have hkeys := length_greenMultisigKeys hlen
    simp only [EC_PUBLIC_KEY_LEN, hn, List.length_append, List.length_cons, List.length_nil, hkeys,
      multisigScriptLen]
    omega
  witnessProgram bytes _ := ⟨_, rfl, by simp [WALLY_SCRIPTPUBKEY_P2WSH_LEN]⟩
  p2sh bytes _ := ⟨_, rfl, by simp [WALLY_SCRIPTPUBKEY_P2SH_LEN]⟩
  csvBlocks script hlen := by simp [greenWallet, hlen, WALLY_SCRIPTPUBKEY_P2SH_LEN]

/-- The script of the first pointer of the main account with 25920 blocks. -/
def greenCsvScript : Bytes :=
  [0xa9, 20, 104, 178, 101, 64, 2, 100, 115, 172, 0, 0, 0, 0, 0, 0, 0, 0, 0, 0, 0, 0, 0x87]

theorem greenCsvScript_built :
    walletBuildGaScriptEx greenWallet .bitcoin (greenPubKey (false, [1, 5])) none 25920 [1, 5] =
      .ok (some greenCsvScript) := by
  decide +kernel

/-- The csv script is the wallet's and is refused. -/
theorem green_csv_refused :
    ¬ GreenRecognised greenWallet .bitcoin (greenPubKey (false, [1, 5])) none [1, 5]
      greenCsvScript := by
  intro hright
  have hyes := hright.1 ⟨25920, .inr ⟨rfl, rfl⟩, greenCsvScript_built⟩
  have hno : verifyGaScriptMatches greenWallet .bitcoin (greenPubKey (false, [1, 5])) none [1, 5]
      greenCsvScript = .ok false := by
    decide +kernel
  cases hno.symm.trans hyes

/-! ### Exactly which scripts -/

/-- **Exactly which scripts are answered correctly**: every script that is not empty, apart from the csv
scripts when there is no recovery key. -/
theorem green_script_iff (hwally : LawfulGreenWally W) (network : Network) (userPubkey : Bytes)
    (huser : userPubkey.length = EC_PUBLIC_KEY_LEN) (recoveryPubkey : Option Bytes)
    (hrecovery : ∀ r ∈ recoveryPubkey, r.length = EC_PUBLIC_KEY_LEN) (path : List UInt32)
    (targetScript : Bytes) :
    GreenRecognised W network userPubkey recoveryPubkey path targetScript ↔
      targetScript ≠ [] ∧
        ¬ (recoveryPubkey = none ∧ OnlyCsvScript W network userPubkey path targetScript) := by
  constructor
  · intro hright
    have htarget : targetScript ≠ [] := by
      rintro rfl
      -- no answer at all
      have herror : verifyGaScriptMatches W network userPubkey recoveryPubkey path [] =
          .error .assert := rfl
      by_cases hgreen : IsGreenScript W network userPubkey recoveryPubkey path []
      · cases herror.symm.trans (hright.1 hgreen)
      · cases herror.symm.trans (hright.2 hgreen)
    refine ⟨htarget, ?_⟩
    rintro ⟨rfl, ⟨csvBlocks, hknown, hbuilt⟩, hplain⟩
    obtain ⟨answer, hanswer, hiff⟩ :=
      @verifyGaScriptMatches_eq _ W network _ _ path hwally huser hrecovery _ htarget
    have hyes := hright.1 ⟨csvBlocks, .inr ⟨rfl, hknown⟩, hbuilt⟩
    rw [hanswer, Except.ok.injEq] at hyes
    exact hplain (hiff.1 hyes)
  · rintro ⟨htarget, hnot⟩
    obtain ⟨answer, hanswer, hiff⟩ :=
      @verifyGaScriptMatches_eq _ W network _ _ path hwally huser hrecovery _ htarget
    constructor
    · rintro ⟨csvBlocks, hblocks, hbuilt⟩
      rw [hanswer, Except.ok.injEq]
      apply hiff.2
      by_contra hplain
      rcases hblocks with rfl | ⟨rfl, hknown⟩
      · exact hplain hbuilt
      · exact hnot ⟨rfl, ⟨csvBlocks, hknown, hbuilt⟩, hplain⟩
    · intro hgreen
      rw [hanswer, Except.ok.injEq]
      cases answer with
      | false => rfl
      | true => exact absurd ⟨0, .inl rfl, hiff.1 rfl⟩ hgreen

/-- No answer is given for an empty script; with a recovery key the answer for a csv script is right. -/
theorem green_script_ofThree :
    ¬ GreenRecognised greenWallet .bitcoin (greenPubKey (false, [1, 6])) none [1, 6] [] ∧
      GreenRecognised greenWallet .bitcoin (greenPubKey (false, [1, 5]))
        (some (greenPubKey (false, [7, 1, 5]))) [1, 5] greenCsvScript := by
  have huser : ∀ key, (greenPubKey key).length = EC_PUBLIC_KEY_LEN := greenWallet_lawful.pubKey
  constructor
  · intro hright
    have hiff := green_script_iff greenWallet greenWallet_lawful .bitcoin
      (greenPubKey (false, [1, 6])) (huser _) none (by simp) [1, 6] []
    exact (hiff.1 hright).1 rfl
  · refine (green_script_iff greenWallet greenWallet_lawful .bitcoin _ (huser _) _ ?_ _ _).2 ?_
    · intro r hr
      obtain rfl := Option.some.inj hr
      exact huser _
    · simp [greenCsvScript]

end Jade
