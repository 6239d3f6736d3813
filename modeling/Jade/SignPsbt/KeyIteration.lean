/-
**The keys an iteration visits (`utils/psbt.c`).**

An iterator that is started and advanced to its end visits the entries of the wallet in increasing
order, each once.  They are those derived from the master key and, behind the last of these, those
derived from the recovery parent key of a Green 2-of-3, if the entries look like one: the service's
entry first, the user's among the other two.  Taproot entries with scripts are not visited at all.
The private and the public iteration visit the same entries.

Main definitions:

* `Jade.Owns` — an entry names a key, its fingerprint, path and public key;
* `Jade.greenRecoveryParent` — the recovery parent key the entries give the wallet;
* `Jade.IsWalletKey` — the entries visited;
* `Jade.ReadPathsFit` — no path is read that runs past its array;
* `Jade.Visits` — what a list of visits is.

Main results:

* `Jade.keyIterNext_spec` — one call finds the next entry of the wallet;
* `Jade.keyIterKeysFrom_stable` — the iteration ends;
* `Jade.keyIter_visits` — **the iterations visit exactly these entries**.
-/

import Jade.SignPsbt.Green
import Mathlib.Data.List.Sort

set_option relaxedAutoImplicit false
set_option autoImplicit false

namespace Jade

open Exec

/-! ### The search -/

section Search

variable {K : Type} {turn : Keypath → Option (Option K)}

/-- A search that never fails finds the first entry, or there is none. -/
theorem keypathSearch_total (htotal : ∀ keypath, turn keypath ≠ none) (keypaths : List Keypath)
    (start : ℕ) : ∃ r, keypathSearch turn keypaths start = some r ∧
      (r = none → ∀ keypath ∈ keypaths, turn keypath = some none) ∧
        ∀ i hdkey, r = some (i, hdkey) → ∀ j, j < i - start → ∀ keypath,
          keypaths[j]? = some keypath → turn keypath = some none := by
  induction keypaths generalizing start with
  | nil => exact ⟨none, rfl, by simp, by simp⟩
  | cons keypath keypaths ih =>
      rw [keypathSearch]
      cases hturn : turn keypath with
      | none => exact absurd hturn (htotal keypath)
      | some found =>
          cases found with
          | some hdkey =>
              refine ⟨some (start, hdkey), rfl, by simp, ?_⟩
              intro i hdkey' h j hj
              simp only [Option.some.injEq, Prod.mk.injEq] at h
              omega
          | none =>
              obtain ⟨r, hr, hnone, hsome⟩ := ih (start + 1)
              refine ⟨r, hr, ?_, ?_⟩
              · intro h keypath' hmem
                rcases List.mem_cons.1 hmem with rfl | hmem
                · exact hturn
                · exact hnone h keypath' hmem
              · intro i hdkey h j hj keypath' hget
                cases j with
                | zero =>
                    obtain rfl : keypath = keypath' := by simpa using hget
                    exact hturn
                | succ j => exact hsome i hdkey h j (by omega) keypath' (by simpa using hget)

/-- From its start on, the search leaves no entry out. -/
theorem keypathGetFrom_total (htotal : ∀ keypath, turn keypath ≠ none) (keypaths : List Keypath)
    (start : ℕ) : ∃ r, keypathGetFrom turn keypaths start = some r ∧
      (r = none → ∀ j, start ≤ j → ∀ keypath, keypaths[j]? = some keypath →
        turn keypath = some none) ∧
        ∀ i hdkey, r = some (i, hdkey) → ∀ j, start ≤ j → j < i → ∀ keypath,
          keypaths[j]? = some keypath → turn keypath = some none := by
  obtain ⟨r, hr, hnone, hsome⟩ := keypathSearch_total htotal (keypaths.drop start) start
  have hget : ∀ j, start ≤ j → ∀ keypath, keypaths[j]? = some keypath →
      (keypaths.drop start)[j - start]? = some keypath := by
    intro j hj keypath h
    rw [List.getElem?_drop, show start + (j - start) = j by omega, h]
  refine ⟨r, hr, ?_, ?_⟩
  · intro h j hj keypath hk
    exact hnone h keypath (List.mem_of_getElem? (hget j hj keypath hk))
  · intro i hdkey h j hj hlt keypath hk
    exact hsome i hdkey h (j - start) (by omega) keypath (hget j hj keypath hk)

end Search

section Model

variable {K : Type} (W : Wallet K)

/-! ### The entries of the wallet -/

/-- An entry names a key: the fingerprint is the key's, and the public key is the one derived along
the path. -/
def Owns (key : K) (keypath : Keypath) : Prop :=
  keypath.fingerprint = (W.hash160 key).take 4 ∧
    ∃ hdkey, W.bip32PublicKeyFromParentPath key keypath.path = some hdkey ∧
      W.pubKey hdkey = keypath.pubkey

/-- What is relied on of the searches: they do not fail, and they find the entries that name the
key. -/
structure SearchLaws : Prop where
  private_search : ∀ key keypath, ∃ r, W.keypathBip32Key key keypath = some r ∧
    (r.isSome = true ↔ Owns W key keypath)
  public_search : ∀ key keypath, ∃ r, W.keypathBip32PublicKey key keypath = some r ∧
    (r.isSome = true ↔ Owns W key keypath)

/-- One of the two searches. -/
def IsSearch (turn : K → Keypath → Option (Option K)) : Prop :=
  ∀ key keypath, ∃ r, turn key keypath = some r ∧ (r.isSome = true ↔ Owns W key keypath)

/-- The parent key the wallet has as the recovery signer of a Green 2-of-3 subaccount: the first entry
looks like the service's, and one of the other two like that of the user of the subaccount. -/
def greenRecoveryParent : List Keypath → Option K
  | [server, second, third] =>
      match isPotentialGreenServerPath server.path with
      | none => none
      | some serverSubaccount =>
          if serverSubaccount == 0 then none
          else
            match [second, third].find? fun keypath =>
                isPotentialGreenUserPath keypath.path == some serverSubaccount with
            | none => none
            | some user => W.bip32PrivateKeyFromParentPath W.xpriv (user.path.take 2)
  | _ => none

/-- A path runs past an array of `elements` elements that is passed with its size in bytes. -/
def runsPast (path : List UInt32) (elements : ℕ) : Bool :=
  decide (elements < path.length) && decide (path.length ≤ 4 * elements)

/-- No path is read that runs past its array: the first of three, and the others up to the user's if
the first is the service's. -/
def ReadPathsFit : List Keypath → Prop
  | [server, second, third] =>
      runsPast server.path MAX_GASERVICE_PATH_LEN = false ∧
        ∀ serverSubaccount, isPotentialGreenServerPath server.path = some serverSubaccount →
          serverSubaccount ≠ 0 → runsPast second.path GA_USER_PATH_MAX_LEN = false ∧
            (isPotentialGreenUserPath second.path ≠ some serverSubaccount →
              runsPast third.path GA_USER_PATH_MAX_LEN = false)
  | _ => True

/-- The entries visited: those of the master key, and behind the last of them those of the recovery
parent key. -/
def IsWalletKey (keypaths : List Keypath) (i : ℕ) : Prop :=
  ∃ keypath, keypaths[i]? = some keypath ∧ (Owns W W.xpriv keypath ∨
    ∃ parent, greenRecoveryParent W keypaths = some parent ∧ Owns W parent keypath ∧
      ∀ j later, i ≤ j → keypaths[j]? = some later → ¬ Owns W W.xpriv later)

/-- An iterator at an entry: it is a recovery key exactly when the entry is not one of the master
key. -/
structure Current (keypaths : List Keypath) (iter : KeyIter K) : Prop where
  source : iter.keypaths = keypaths
  visited : IsWalletKey W keypaths iter.keyIndex
  recovery : iter.isGa2of3RecoveryKey = true ↔
    ∀ keypath, keypaths[iter.keyIndex]? = some keypath → ¬ Owns W W.xpriv keypath

/-- The visits of an iteration: in increasing order exactly the entries from an index on. -/
structure Visits (keypaths : List Keypath) (start : ℕ) (iters : List (KeyIter K)) : Prop where
  increasing : (iters.map KeyIter.keyIndex).Pairwise (· < ·)
  current : ∀ iter ∈ iters, start ≤ iter.keyIndex ∧ Current W keypaths iter
  complete : ∀ i, start ≤ i → IsWalletKey W keypaths i → i ∈ iters.map KeyIter.keyIndex

variable {W}

theorem IsSearch.total {turn : K → Keypath → Option (Option K)} (h : IsSearch W turn) (key : K)
    (keypath : Keypath) : turn key keypath ≠ none := by
  obtain ⟨r, hr, -⟩ := h key keypath
  simp [hr]

theorem IsSearch.owns {turn : K → Keypath → Option (Option K)} (h : IsSearch W turn) {key hdkey : K}
    {keypath : Keypath} (hturn : turn key keypath = some (some hdkey)) : Owns W key keypath := by
  obtain ⟨r, hr, hiff⟩ := h key keypath
  obtain rfl := Option.some.inj (hr.symm.trans hturn)
  exact hiff.1 rfl

theorem IsSearch.not_owns {turn : K → Keypath → Option (Option K)} (h : IsSearch W turn) {key : K}
    {keypath : Keypath} (hturn : turn key keypath = some none) : ¬ Owns W key keypath := by
  obtain ⟨r, hr, hiff⟩ := h key keypath
  obtain rfl := Option.some.inj (hr.symm.trans hturn)
  intro howns
  cases hiff.2 howns

/-! ### The recovery parent key -/

theorem getItemPathSized_eq {path : List UInt32} {elements : ℕ}
    (h : runsPast path elements = false) : getItemPathSized path elements = .ok path := by
  rw [getItemPathSized, if_neg]
  rintro ⟨hlt, hle⟩
  simp [runsPast, hlt, hle] at h

/-- Where the paths fit, the recovery parent key is the one the entries give. -/
theorem keyIterRecoveryKey_eq {src : KeySource} (hfit : ReadPathsFit src.keypaths) :
    keyIterRecoveryKey W src = .ok (greenRecoveryParent W src.keypaths) := by
  unfold keyIterRecoveryKey greenRecoveryParent
  match hkeys : src.keypaths with
  | [] => rfl
  | [_] => rfl
  | [_, _] => rfl
  | _ :: _ :: _ :: _ :: _ =>
      simp only [List.length_cons]
      rw [if_pos (by omega)]
  | [server, second, third] =>
      rw [hkeys] at hfit
      obtain ⟨hserver, hothers⟩ := hfit
      simp only [List.length_cons, List.length_nil, Nat.zero_add, Nat.reduceAdd, ne_eq,
        not_true_eq_false, if_false]
      rw [getItemPathSized_eq hserver, ok_bind]
      cases hpath : isPotentialGreenServerPath server.path with
      | none => rfl
      | some serverSubaccount =>
          simp only
          by_cases hzero : serverSubaccount = 0
          · simp [hzero, pure, Except.pure]
          · obtain ⟨hsecond, hthird⟩ := hothers serverSubaccount hpath hzero
            have hne : (serverSubaccount == 0) = false := beq_false_of_ne hzero
            rw [hne]
            simp only [Bool.false_eq_true, if_false]
            rw [green2of3RecoveryKey, getItemPathSized_eq hsecond, ok_bind, List.find?_cons]
            by_cases huser : isPotentialGreenUserPath second.path = some serverSubaccount
            · rw [huser]
              simp [pure, Except.pure]
            · have hnot : (isPotentialGreenUserPath second.path == some serverSubaccount) = false :=
                beq_false_of_ne huser
              rw [hnot]
              simp only [Bool.false_eq_true, if_false]
              rw [green2of3RecoveryKey, getItemPathSized_eq (hthird huser), ok_bind, List.find?_cons]
              by_cases huser' : isPotentialGreenUserPath third.path = some serverSubaccount
              · rw [huser']
                simp [pure, Except.pure]
              · have hnot' : (isPotentialGreenUserPath third.path == some serverSubaccount) = false :=
                  beq_false_of_ne huser'
                rw [hnot']
                rfl

/-! ### One call -/

/-- No entry of the master key from an index on. -/
def NoneFrom (W : Wallet K) (keypaths : List Keypath) (start : ℕ) : Prop :=
  ∀ j later, start ≤ j → keypaths[j]? = some later → ¬ Owns W W.xpriv later

theorem isWalletKey_of_recovery {keypaths : List Keypath} {start i : ℕ} {parent : K}
    {keypath : Keypath} (hnone : NoneFrom W keypaths start)
    (hparent : greenRecoveryParent W keypaths = some parent) (hle : start ≤ i)
    (hget : keypaths[i]? = some keypath) (howns : Owns W parent keypath) :
    IsWalletKey W keypaths i :=
  ⟨keypath, hget, .inr ⟨parent, hparent, howns, fun j later hj => hnone j later (by omega)⟩⟩

/-- Without an entry of the master key, the entries visited are those of the recovery parent key. -/
theorem NoneFrom.recovery {keypaths : List Keypath} {start i : ℕ} (hnone : NoneFrom W keypaths start)
    (hle : start ≤ i) (h : IsWalletKey W keypaths i) :
    ∃ parent keypath, greenRecoveryParent W keypaths = some parent ∧ keypaths[i]? = some keypath ∧
      Owns W parent keypath := by
  obtain ⟨keypath, hget, hmaster | ⟨parent, hparent, howns, -⟩⟩ := h
  · exact absurd hmaster (hnone i keypath hle hget)
  · exact ⟨parent, keypath, hparent, hget, howns⟩

/-- Before the next entry of the master key no entry is visited. -/
theorem not_isWalletKey_of_lt {keypaths : List Keypath} {i next : ℕ} {keypath : Keypath}
    (hget : keypaths[next]? = some keypath) (howns : Owns W W.xpriv keypath) (hlt : i < next)
    (hmaster : ∀ keypath', keypaths[i]? = some keypath' → ¬ Owns W W.xpriv keypath') :
    ¬ IsWalletKey W keypaths i := by
  rintro ⟨keypath', hget', howns' | ⟨-, -, -, hlast⟩⟩
  · exact hmaster keypath' hget' howns'
  · exact hlast next keypath hlt.le hget howns

/-- What one call finds. -/
structure FindsNext (W : Wallet K) (keypaths : List Keypath) (start : ℕ)
    (r : Option (KeyIter K)) : Prop where
  ends : r = none → ∀ i, start ≤ i → ¬ IsWalletKey W keypaths i
  finds : ∀ iter, r = some iter → start ≤ iter.keyIndex ∧ Current W keypaths iter ∧
    (∀ i, start ≤ i → i < iter.keyIndex → ¬ IsWalletKey W keypaths i) ∧
      (iter.isGa2of3RecoveryKey = true → NoneFrom W keypaths iter.keyIndex)

/-- The entry found by the search with the recovery parent key. -/
theorem findsNext_recovery {turn : K → Keypath → Option (Option K)} (hsearch : IsSearch W turn)
    {keypaths : List Keypath} {start : ℕ} (hnone : NoneFrom W keypaths start) {parent : K}
    (hparent : greenRecoveryParent W keypaths = some parent) :
    ∃ r, keypathGetFrom (turn parent) keypaths start = some r ∧
      FindsNext W keypaths start (r.map fun found =>
        { keypaths, keyIndex := found.1, hdkey := found.2, isGa2of3RecoveryKey := true }) := by
  obtain ⟨r, hr, hleft, hfirst⟩ := keypathGetFrom_total (hsearch.total parent) keypaths start
  have hnot : ∀ i, start ≤ i → (∀ keypath, keypaths[i]? = some keypath →
      turn parent keypath = some none) → ¬ IsWalletKey W keypaths i := by
    intro i hi hturn hkey
    obtain ⟨parent', keypath, hparent', hget, howns⟩ := hnone.recovery hi hkey
    obtain rfl : parent = parent' := Option.some.inj (hparent.symm.trans hparent')
    exact hsearch.not_owns (hturn keypath hget) howns
  refine ⟨r, hr, ?_, ?_⟩
  · intro hend i hi
    obtain rfl : r = none := by simpa using hend
    exact hnot i hi (hleft rfl i hi)
  · intro iter hiter
    obtain ⟨found, rfl, rfl⟩ := Option.map_eq_some_iff.1 hiter
    obtain ⟨i, hdkey⟩ := found
    obtain ⟨hle, keypath, hget, hturn⟩ := keypathGetFrom_spec _ hr
    have hlater : NoneFrom W keypaths i := fun j later hj => hnone j later (by omega)
    refine ⟨hle, ⟨rfl, isWalletKey_of_recovery hnone hparent hle hget (hsearch.owns hturn), ?_⟩, ?_,
      fun _ => hlater⟩
    · exact iff_of_true rfl fun keypath' hget' => hnone i keypath' hle hget'
    · intro j hj hlt
      exact hnot j hj (hfirst i hdkey rfl j hj hlt)

/-- One call finds the next entry of the wallet. -/
theorem keyIterNext_spec {turn : K → Keypath → Option (Option K)} (hsearch : IsSearch W turn)
    {src : KeySource} (hfit : ReadPathsFit src.keypaths) {start : ℕ} {recovery : Bool}
    (hsupported : (src.isTaproot && start == 0 && !src.isSupportedTaproot) = false)
    (hrecovery : recovery = true → NoneFrom W src.keypaths start) :
    ∃ r, keyIterNext W turn src start recovery = .ok r ∧ FindsNext W src.keypaths start r := by
  obtain ⟨r, hr, hleft, hfirst⟩ :=
    keypathGetFrom_total (hsearch.total W.xpriv) src.keypaths start
  rw [keyIterNext, hsupported, hr]
  simp only [Bool.false_eq_true, if_false, wallyVerify, ok_bind]
  cases r with
  | some found =>
      obtain ⟨i, hdkey⟩ := found
      obtain ⟨hle, keypath, hget, hturn⟩ := keypathGetFrom_spec _ hr
      have howns := hsearch.owns hturn
      have hflag : recovery = false := by
        cases recovery with
        | false => rfl
        | true => exact absurd howns (hrecovery rfl i keypath hle hget)
      refine ⟨_, rfl, by simp, ?_⟩
      intro iter hiter
      obtain rfl := Option.some.inj hiter
      refine ⟨hle, ⟨rfl, ⟨keypath, hget, .inl howns⟩, ?_⟩, ?_, ?_⟩
      · simp only [hflag, Bool.false_eq_true, false_iff]
        intro hall
        exact hall keypath hget howns
      · intro j hj hlt
        refine not_isWalletKey_of_lt hget howns hlt fun keypath' hget' => ?_
        exact hsearch.not_owns (hfirst i hdkey rfl j hj hlt keypath' hget')
      · simp [hflag]
  | none =>
      have hnone : NoneFrom W src.keypaths start := fun j later hj hget =>
        hsearch.not_owns (hleft rfl j hj later hget)
      simp only
      rw [keyIterRecoveryKey_eq hfit, ok_bind]
      cases hparent : greenRecoveryParent W src.keypaths with
      | none =>
          refine ⟨none, rfl, ?_, by simp⟩
          intro _ i hi hkey
          obtain ⟨parent, -, hparent', -⟩ := hnone.recovery hi hkey
          rw [hparent] at hparent'
          cases hparent'
      | some parent =>
          obtain ⟨found, hfound, hspec⟩ := findsNext_recovery hsearch hnone hparent
          simp only [hfound]
          cases found with
          | none => exact ⟨none, rfl, hspec⟩
          | some found => exact ⟨_, rfl, hspec⟩

/-! ### The iteration -/

theorem IsWalletKey.lt_length {keypaths : List Keypath} {i : ℕ} (h : IsWalletKey W keypaths i) :
    i < keypaths.length := by
  obtain ⟨keypath, hget, -⟩ := h
  exact (List.getElem?_eq_some_iff.1 hget).1

/-- From an entry on that is not beyond the end, enough calls visit what is left. -/
theorem keyIterKeysFrom_visits {turn : K → Keypath → Option (Option K)} (hsearch : IsSearch W turn)
    {src : KeySource} (hfit : ReadPathsFit src.keypaths)
    (hsupported : src.isTaproot = true → src.isSupportedTaproot = true) {calls start : ℕ}
    (recovery : Bool) (hstart : start ≤ src.keypaths.length)
    (hcalls : src.keypaths.length < calls + start)
    (hrecovery : recovery = true → NoneFrom W src.keypaths start) :
    ∃ iters, keyIterKeysFrom W turn src calls start recovery = .ok iters ∧
      Visits W src.keypaths start iters := by
  induction calls generalizing start recovery with
  | zero => omega
  | succ calls ih =>
      have hchecked : (src.isTaproot && start == 0 && !src.isSupportedTaproot) = false := by
        cases htaproot : src.isTaproot with
        | false => rfl
        | true => simp [hsupported htaproot]
      obtain ⟨r, hr, hspec⟩ := keyIterNext_spec hsearch hfit hchecked hrecovery
      rw [keyIterKeysFrom, hr, ok_bind]
      cases r with
      | none =>
          refine ⟨[], rfl, List.Pairwise.nil, by simp, ?_⟩
          intro i hi hkey
          exact absurd hkey (hspec.ends rfl i hi)
      | some iter =>
          obtain ⟨hle, hcurrent, hbetween, hflag⟩ := hspec.finds iter rfl
          have hlt := hcurrent.visited.lt_length
          obtain ⟨rest, hrest, hvisits⟩ := @ih (iter.keyIndex + 1)
            iter.isGa2of3RecoveryKey (by omega) (by omega)
            (fun h j later hj => hflag h j later (by omega))
          simp only
          rw [hrest, ok_bind]
          refine ⟨iter :: rest, rfl, ?_, ?_, ?_⟩
          · rw [List.map_cons, List.pairwise_cons]
            refine ⟨?_, hvisits.increasing⟩
            intro i hi
            obtain ⟨iter', hmem, rfl⟩ := List.mem_map.1 hi
            have hle' := (hvisits.current iter' hmem).1
            omega
          · intro iter' hmem
            rcases List.mem_cons.1 hmem with rfl | hmem
            · exact ⟨hle, hcurrent⟩
            · obtain ⟨hle', hcurrent'⟩ := hvisits.current iter' hmem
              exact ⟨by omega, hcurrent'⟩
          · intro i hi hkey
            rw [List.map_cons, List.mem_cons]
            rcases Nat.lt_trichotomy i iter.keyIndex with h | h | h
            · exact absurd hkey (hbetween i hi h)
            · exact .inl h
            · exact .inr (hvisits.complete i h hkey)

/-- The call finds an entry that exists, not before its start. -/
theorem keyIterNext_bounds {turn : K → Keypath → Option (Option K)} {src : KeySource} {start : ℕ}
    {recovery : Bool} {iter : KeyIter K}
    (h : keyIterNext W turn src start recovery = .ok (some iter)) :
    start ≤ iter.keyIndex ∧ iter.keyIndex < src.keypaths.length := by
  have hbounds : ∀ {key i hdkey},
      keypathGetFrom (turn key) src.keypaths start = some (some (i, hdkey)) →
        start ≤ i ∧ i < src.keypaths.length := by
    intro key i hdkey hget
    obtain ⟨hle, keypath, hk, -⟩ := keypathGetFrom_spec _ hget
    exact ⟨hle, (List.getElem?_eq_some_iff.1 hk).1⟩
  unfold keyIterNext at h
  split_ifs at h
  · cases h
  · obtain ⟨r, hr, h⟩ := bind_eq_ok.1 h
    cases hget : keypathGetFrom (turn W.xpriv) src.keypaths start with
    | none =>
        rw [hget] at hr
        cases hr
    | some found =>
        rw [hget] at hr
        obtain rfl : found = r := Except.ok.inj hr
        cases found with
        | some found =>
            obtain rfl := Option.some.inj (Except.ok.inj h)
            exact hbounds hget
        | none =>
            obtain ⟨parent, -, h⟩ := bind_eq_ok.1 h
            cases parent with
            | none => cases h
            | some parent =>
                simp only at h
                cases hget' : keypathGetFrom (turn parent) src.keypaths start with
                | none =>
                    rw [hget'] at h
                    cases h
                | some found =>
                    rw [hget'] at h
                    cases found with
                    | none => cases h
                    | some found =>
                        obtain rfl := Option.some.inj (Except.ok.inj h)
                        exact hbounds hget'

/-- **The iteration ends**: there are no more calls than entries, and one. -/
theorem keyIterKeysFrom_stable (turn : K → Keypath → Option (Option K)) (src : KeySource)
    {calls calls' start : ℕ} (recovery : Bool) (hstart : start ≤ src.keypaths.length)
    (hcalls : src.keypaths.length < calls + start) (hle : calls ≤ calls') :
    keyIterKeysFrom W turn src calls' start recovery =
      keyIterKeysFrom W turn src calls start recovery := by
  induction calls generalizing calls' start recovery with
  | zero => omega
  | succ calls ih =>
      obtain ⟨calls', rfl⟩ : ∃ n, calls' = n + 1 := ⟨calls' - 1, by omega⟩
      rw [keyIterKeysFrom, keyIterKeysFrom]
      cases hnext : keyIterNext W turn src start recovery with
      | error f => rfl
      | ok r =>
          rw [ok_bind, ok_bind]
          cases r with
          | none => rfl
          | some iter =>
              obtain ⟨hge, hlt⟩ := keyIterNext_bounds hnext
              simp only
              rw [@ih calls' _ iter.isGa2of3RecoveryKey (by omega) (by omega) (by omega)]

/-- Two lists of visits to the same entries agree. -/
theorem Visits.agree {keypaths : List Keypath} {start : ℕ} {iters iters' : List (KeyIter K)}
    (h : Visits W keypaths start iters) (h' : Visits W keypaths start iters') :
    iters.map (fun iter => (iter.keyIndex, iter.isGa2of3RecoveryKey)) =
      iters'.map fun iter => (iter.keyIndex, iter.isGa2of3RecoveryKey) := by
  have hindexes : iters.map KeyIter.keyIndex = iters'.map KeyIter.keyIndex := by
    refine h.increasing.eq_of_mem_iff h'.increasing fun i => ?_
    constructor
    · intro hi
      obtain ⟨iter, hmem, rfl⟩ := List.mem_map.1 hi
      exact h'.complete _ (h.current iter hmem).1 (h.current iter hmem).2.visited
    · intro hi
      obtain ⟨iter, hmem, rfl⟩ := List.mem_map.1 hi
      exact h.complete _ (h'.current iter hmem).1 (h'.current iter hmem).2.visited
  -- the flag is a function of the index
  obtain ⟨flag, hiff⟩ : ∃ flag : ℕ → Bool, ∀ i, flag i = true ↔
      ∀ keypath, keypaths[i]? = some keypath → ¬ Owns W W.xpriv keypath :=
    ⟨fun _ => @decide _ (Classical.propDecidable _), fun _ => @decide_eq_true_iff _ (_)⟩
  have hflag : ∀ {iters : List (KeyIter K)}, Visits W keypaths start iters →
      iters.map (fun iter => (iter.keyIndex, iter.isGa2of3RecoveryKey)) =
        (iters.map KeyIter.keyIndex).map fun i => (i, flag i) := by
    intro iters h
    rw [List.map_map]
    refine List.map_congr_left fun iter hmem => ?_
    simp only [Function.comp, Prod.mk.injEq, true_and]
    rw [Bool.eq_iff_iff, hiff, (h.current iter hmem).2.recovery]
  rw [hflag h, hflag h', hindexes]

/-! ### A wallet -/

/-- The searches of the wallet of the examples find the entries that name the key. -/
theorem greenWallet_searchLaws : SearchLaws greenWallet := by
  have hsearch : IsSearch greenWallet greenKeypathKey := by
    intro key keypath
    refine ⟨_, rfl, ?_⟩
    have hiff : Owns greenWallet key keypath ↔
        keypath.fingerprint = (greenHash160 key).take 4 ∧
          greenPubKey (key.1, key.2 ++ keypath.path) = keypath.pubkey := by
      constructor
      · intro h
        obtain ⟨hfingerprint, hdkey, hderive, hpub⟩ := h
        obtain rfl := Option.some.inj hderive
        exact ⟨hfingerprint, hpub⟩
      · intro h
        exact ⟨h.1, _, rfl, h.2⟩
    rw [hiff]
    split <;> simp_all
  exact ⟨hsearch, hsearch⟩

/-- A taproot input with two keys of the wallet. -/
def taprootPair : PsbtInput where
  taprootLeafPaths := [greenKeypath (false, []) [1, 5], greenKeypath (false, []) [1, 6]]

/-- Both keys are the wallet's and none is visited; and the recovery key is not, where the service's
entry is not the first. -/
theorem wallet_keys_not_visited :
    ((∀ keypath ∈ (inputKeySource taprootPair).keypaths,
        Owns greenWallet greenWallet.xpriv keypath) ∧
      ¬ ∃ iters, keyIterKeys greenWallet (inputKeySource taprootPair) = .ok iters ∧
        ∀ i keypath, (inputKeySource taprootPair).keypaths[i]? = some keypath →
          Owns greenWallet greenWallet.xpriv keypath → i ∈ iters.map KeyIter.keyIndex) ∧
    Owns greenWallet (false, [harden 3, harden 9]) greenRecovery ∧
      keyIterKeys greenWallet ⟨[greenServer, greenUser, greenRecovery], false, false⟩ =
        .ok [greenTripleIter [greenServer, greenUser, greenRecovery] 2] ∧
      keyIterKeys greenWallet ⟨[greenUser, greenServer, greenRecovery], false, false⟩ = .ok [] := by
  have howns : ∀ keypath ∈ (inputKeySource taprootPair).keypaths,
      Owns greenWallet greenWallet.xpriv keypath := by
    intro keypath hmem
    rcases List.mem_cons.1 hmem with rfl | hmem
    · exact ⟨rfl, _, rfl, rfl⟩
    · obtain rfl := List.mem_singleton.1 hmem
      exact ⟨rfl, _, rfl, rfl⟩
  refine ⟨⟨howns, ?_⟩, ⟨rfl, _, rfl, rfl⟩, rfl, rfl⟩
  intro h
  obtain ⟨iters, hiters, hall⟩ := h
  obtain rfl : [] = iters := Except.ok.inj hiters
  have hmem := hall 0 _ rfl (howns _ List.mem_cons_self)
  simp at hmem

/-! ### The result -/

/-- **The iterations visit exactly the entries of the wallet.**  Where no path that is read runs past
its array, the private and the public iteration end, without a failed assertion, and visit the same
entries: in increasing order each of those of the master key and, behind the last of them, of the
recovery parent key, which alone are flagged; and none of a taproot script that is not supported. -/
theorem keyIter_visits (hW : SearchLaws W) (src : KeySource) (hfit : ReadPathsFit src.keypaths) :
    (∃ privates publics, keyIterKeys W src = .ok privates ∧ keyIterPublicKeys W src = .ok publics ∧
      privates.map (fun iter => (iter.keyIndex, iter.isGa2of3RecoveryKey)) =
        publics.map (fun iter => (iter.keyIndex, iter.isGa2of3RecoveryKey)) ∧
      ((src.isTaproot = true → src.isSupportedTaproot = true) →
        Visits W src.keypaths 0 privates ∧ Visits W src.keypaths 0 publics) ∧
      (src.isTaproot = true → src.isSupportedTaproot = false → privates = [] ∧ publics = [])) ∧
    ∀ calls, src.keypaths.length < calls →
      keyIterKeysFrom W W.keypathBip32Key src calls 0 false = keyIterKeys W src ∧
        keyIterKeysFrom W W.keypathBip32PublicKey src calls 0 false = keyIterPublicKeys W src := by
  constructor
  · by_cases hsupported : src.isTaproot = true → src.isSupportedTaproot = true
    · obtain ⟨privates, hprivates, hvisits⟩ := keyIterKeysFrom_visits
        hW.private_search hfit hsupported false (Nat.zero_le _) (Nat.lt_succ_self _) (by simp)
      obtain ⟨publics, hpublics, hvisits'⟩ := keyIterKeysFrom_visits
        hW.public_search hfit hsupported false (Nat.zero_le _) (Nat.lt_succ_self _) (by simp)
      refine ⟨privates, publics, hprivates, hpublics, hvisits.agree hvisits',
        fun _ => ⟨hvisits, hvisits'⟩, ?_⟩
      intro htaproot hno
      rw [hsupported htaproot] at hno
      cases hno
    · obtain ⟨htaproot, hno⟩ : src.isTaproot = true ∧ ¬ src.isSupportedTaproot = true := by
        simpa using hsupported
      have hnone : ∀ turn : K → Keypath → Option (Option K),
          keyIterKeysFrom W turn src (src.keypaths.length + 1) 0 false = .ok [] := by
        intro turn
        rw [keyIterKeysFrom, keyIterNext, if_pos (by simp [htaproot, hno])]
        rfl
      exact ⟨[], [], hnone _, hnone _, rfl, fun h => absurd h hsupported, fun _ _ => ⟨rfl, rfl⟩⟩
  · intro calls hcalls
    exact ⟨keyIterKeysFrom_stable _ src false (Nat.zero_le _) (Nat.lt_succ_self _) hcalls,
      keyIterKeysFrom_stable _ src false (Nat.zero_le _) (Nat.lt_succ_self _) hcalls⟩

/-- The three keys of a Green 2-of-3 whose recovery key is the wallet's. -/
theorem keyIter_visits_green :
    ReadPathsFit [greenServer, greenUser, greenRecovery] ∧
      ∃ privates publics,
        keyIterKeys greenWallet ⟨[greenServer, greenUser, greenRecovery], false, false⟩ =
          .ok privates ∧
        keyIterPublicKeys greenWallet ⟨[greenServer, greenUser, greenRecovery], false, false⟩ =
          .ok publics ∧
        Visits greenWallet [greenServer, greenUser, greenRecovery] 0 privates ∧
        Visits greenWallet [greenServer, greenUser, greenRecovery] 0 publics := by
  have hfit : ReadPathsFit [greenServer, greenUser, greenRecovery] := by
    refine ⟨by decide, ?_⟩
    intro serverSubaccount _ _
    exact ⟨by decide, fun _ => by decide⟩
  obtain ⟨⟨privates, publics, hprivates, hpublics, -, hvisits, -⟩, -⟩ :=
    keyIter_visits greenWallet_searchLaws ⟨[greenServer, greenUser, greenRecovery], false, false⟩ hfit
  exact ⟨hfit, privates, publics, hprivates, hpublics, hvisits (by simp)⟩

end Model

end Jade
