/-
**The settings of the PIN oracle and the stored wallet.**

While a wallet is stored, the public key of the oracle cannot be changed, and the two addresses come
and go together; this holds along every run.  But whenever the addresses are written, or reset, the
private key of the unit is erased with them, and the next use makes a new one: the oracle is then asked
as another unit, and the wallet cannot be decrypted any more.  This happens in particular when only the
addresses change, which the code means to allow.

Main definitions:

* `Jade.WalletStored` — a wallet has been stored with a unit key;
* `Jade.WritesDetails` — a call gets to writing the addresses, or to erasing them;
* `Jade.Unlocks`, `Jade.ErrorKeeps` — what must hold of every state and of every call.

Main results:

* `Jade.sat_updatePinserver` — what one call does;
* `Jade.oracleStep_inv` — **what every step preserves**;
* `Jade.lockout_iff` — **the wallet can be unlocked along a run exactly when no step writes the
  addresses**.
-/

import Jade.Pinserver.Update

set_option relaxedAutoImplicit false
set_option autoImplicit false

namespace Jade

open Exec Flash Run

/-! ### What holds along every run -/

/-- The wallet is in flash, the key of the oracle is `pubkey`, and the addresses are both there or
both not there. -/
structure OracleSound (W : PinOracle) (pubkey : Bytes) (st : Store OracleKey) : Prop where
  counter : 0 < counterOf fun k => st (.wallet k)
  pubkey : effectivePubkey W st = pubkey
  urls : (st .pinsvrurlA).isSome = (st .pinsvrurlB).isSome

/-- The same, and the flag is set. -/
def OracleInv (W : PinOracle) (pubkey : Bytes) (d : OracleDev) : Prop :=
  d.ram = true ∧ OracleSound W pubkey d.store

section Sound

variable {W : PinOracle} {pubkey : Bytes}

/-- The invariant reads five records, and of three of them not much. -/
theorem OracleSound.congr {st st' : Store OracleKey} (h : OracleSound W pubkey st)
    (hwallet : ∀ k, st' (.wallet k) = st (.wallet k))
    (hpubkey : st' .pinsvrpubkey = st .pinsvrpubkey)
    (hA : st' .pinsvrurlA = st .pinsvrurlA) (hB : st' .pinsvrurlB = st .pinsvrurlB) :
    OracleSound W pubkey st' where
  counter := by
    simp only [hwallet]
    exact h.counter
  pubkey := by
    rw [← h.pubkey, effectivePubkey, effectivePubkey, fixedRecord, fixedRecord, hpubkey]
  urls := by
    rw [hA, hB]
    exact h.urls

/-- A certificate is set or erased. -/
theorem OracleSound.put_cert {st : Store OracleKey} (h : OracleSound W pubkey st)
    (v : Option Bytes) : OracleSound W pubkey (Function.update st .pinsvrcert v) :=
  h.congr (fun _ => Function.update_of_ne (by simp) _ _) (Function.update_of_ne (by simp) _ _)
    (Function.update_of_ne (by simp) _ _) (Function.update_of_ne (by simp) _ _)

/-- The addresses are written, with the key that is in effect, or without one. -/
theorem OracleSound.set_details {d : OracleDev} (h : OracleSound W pubkey d.store)
    {newPubkey : Option Bytes} (hnew : ∀ key, newPubkey = some key →
      key = pubkey ∧ key.length = EC_PUBLIC_KEY_LEN) (urlA urlB : Bytes) :
    OracleSound W pubkey (d.putAll ([(.pinsvrurlA, some urlA), (.pinsvrurlB, some urlB),
      (.privatekey, none)] ++ (newPubkey.map fun key => (.pinsvrpubkey, some key)).toList)).store := by
  cases newPubkey with
  | none =>
      refine ⟨?_, ?_, ?_⟩
      · simpa [Dev.putAll, Dev.put, Function.update] using h.counter
      · rw [← h.pubkey]
        simp [effectivePubkey, fixedRecord, Dev.putAll, Dev.put, Function.update]
      · simp [Dev.putAll, Dev.put, Function.update]
  | some key =>
      obtain ⟨hkey, hlen⟩ := hnew key rfl
      refine ⟨?_, ?_, ?_⟩
      · simpa [Dev.putAll, Dev.put, Function.update] using h.counter
      · rw [← hkey]
        simp [effectivePubkey, fixedRecord, Dev.putAll, Dev.put, Function.update, hlen,
          Option.filter]
      · simp [Dev.putAll, Dev.put, Function.update]

/-- The addresses and the key are erased, the key being the default one. -/
theorem OracleSound.erase_details {d : OracleDev} (h : OracleSound W pubkey d.store)
    (hdefault : pubkey = W.serverPublicKey) :
    OracleSound W pubkey (d.putAll [(.pinsvrurlA, none), (.pinsvrurlB, none),
      (.pinsvrpubkey, none), (.privatekey, none)]).store := by
  refine ⟨?_, ?_, ?_⟩
  · simpa [Dev.putAll, Dev.put, Function.update] using h.counter
  · rw [hdefault]
    simp [effectivePubkey, fixedRecord, Dev.putAll, Dev.put, Function.update]
  · simp [Dev.putAll, Dev.put, Function.update]

end Sound

/-! ### One call -/

theorem refuseIf_eq_ok {c : Bool} {code : ℤ} {errmsg : String} {u : Unit} :
    refuseIf c code errmsg = .ok u ↔ c = false := by
  cases c <;> simp [refuseIf]

/-- A call that is approved gets to the records of the addresses, and the first commit takes
effect. -/
def WritesDetails (W : PinOracle) (user : OracleScreen → Bool) (p : PinserverParams)
    (d : OracleDev) : Prop :=
  approve W user d.ram (fixedRecord d.store .pinsvrpubkey EC_PUBLIC_KEY_LEN) p = .ok () ∧
    (p.urlA ≠ [] ∨ p.resetDetails = true) ∧ (d.fate = .done ∨ d.fate = .cutAfter)

/-- What a call leaves of the private key of the unit, and of the settings. -/
def Leaves (writes : Prop) (st st' : Store OracleKey) : Prop :=
  (writes → st' .privatekey = none) ∧
    (¬writes → ∀ k ∈ [OracleKey.privatekey, .pinsvrurlA, .pinsvrurlB, .pinsvrpubkey],
      st' k = st k)

section Call

variable {W : PinOracle} {pubkey : Bytes} {user : OracleScreen → Bool} {p : PinserverParams}

/-- What approval means for the key of the oracle, when a wallet is stored. -/
theorem approve_pubkey {userPubkey : Option Bytes}
    (h : approve W user true userPubkey p = .ok ()) :
    (∀ key, p.pubkey = some key → key = userPubkey.getD W.serverPublicKey ∧
        key.length = EC_PUBLIC_KEY_LEN ∧ p.urlA ≠ []) ∧
      (p.resetDetails = true → userPubkey.getD W.serverPublicKey = W.serverPublicKey) := by
  obtain ⟨u, hdetails, h⟩ := bind_eq_ok.1 h
  obtain ⟨u, hinit, -⟩ := bind_eq_ok.1 h
  rw [checkInitialized, if_pos rfl] at hinit
  obtain ⟨u, hreset, hkey⟩ := bind_eq_ok.1 hinit
  rw [refuseIf_eq_ok] at hreset hkey
  constructor
  · intro key hsome
    obtain ⟨u, -, hdetails⟩ := bind_eq_ok.1 hdetails
    obtain ⟨u, -, hdetails⟩ := bind_eq_ok.1 hdetails
    obtain ⟨u, -, hdetails⟩ := bind_eq_ok.1 hdetails
    obtain ⟨u, -, hdetails⟩ := bind_eq_ok.1 hdetails
    rw [hsome] at hdetails hkey
    obtain ⟨u, hurl, hvalid⟩ := bind_eq_ok.1 hdetails
    rw [refuseIf_eq_ok] at hurl hvalid
    refine ⟨by simpa using hkey, ?_, by simpa using hurl⟩
    simp only [Bool.or_eq_false_iff, decide_eq_false_iff_not, not_not] at hvalid
    exact hvalid.1
  · intro h
    rw [h] at hreset
    cases userPubkey with
    | none => rfl
    | some key => simpa using hreset

theorem Leaves.refl {writes : Prop} (hnot : ¬writes) (st : Store OracleKey) :
    Leaves writes st st := ⟨fun h => absurd h hnot, fun _ _ _ => rfl⟩

/-- The first commit: the addresses and the key. -/
theorem sat_storeDetails {d : OracleDev} (h : OracleInv W pubkey d)
    (hpubkey : ∀ key, p.pubkey = some key → key = pubkey ∧ key.length = EC_PUBLIC_KEY_LEN)
    (hreset : p.resetDetails = true → pubkey = W.serverPublicKey) {writes : Prop}
    (hwrites : writes ↔
      (p.urlA ≠ [] ∨ p.resetDetails = true) ∧ (d.fate = .done ∨ d.fate = .cutAfter)) :
    Sat (storeDetails p)
      (fun _ d' => OracleInv W pubkey d' ∧ Leaves writes d.store d'.store)
      (fun _ d' => OracleSound W pubkey d'.store ∧ Leaves writes d.store d'.store) d := by
  obtain ⟨hflag, hsound⟩ := h
  have hrefused : ∀ {fate}, d.fate = fate → fate = .refused ∨ fate = .cutBefore → ¬writes := by
    intro fate hfate hkind hw
    rcases (hwrites.1 hw).2 with hdone | hdone <;> rcases hkind with rfl | rfl <;>
      rw [hfate] at hdone <;> cases hdone
  -- a transaction that writes the addresses, or erases them
  have hcommit : ∀ {kvs : List (OracleKey × Option Bytes)} (errmsg : String),
      (p.urlA ≠ [] ∨ p.resetDetails = true) →
      OracleSound W pubkey (({ d with fates := d.fates.tail } : OracleDev).putAll kvs).store →
      (({ d with fates := d.fates.tail } : OracleDev).putAll kvs).store .privatekey = none →
      Sat (do
          if ← transaction kvs then return none
          else return some (CBOR_RPC_INTERNAL_ERROR, errmsg) : OracleM (Option (ℤ × String)))
        (fun _ d' => OracleInv W pubkey d' ∧ Leaves writes d.store d'.store)
        (fun _ d' => OracleSound W pubkey d'.store ∧ Leaves writes d.store d'.store) d := by
    intro kvs errmsg hkind hput hgone
    have hleaves : ∀ {fate}, d.fate = fate → fate = .done ∨ fate = .cutAfter →
        Leaves writes d.store (({ d with fates := d.fates.tail } : OracleDev).putAll kvs).store := by
      intro fate hfate hdone
      have hw : writes := hwrites.2 ⟨hkind, by rcases hdone with rfl | rfl <;> simp [hfate]⟩
      exact ⟨fun _ => hgone, fun hnot => absurd hw hnot⟩
    simp only [sat_bind, sat_transaction, sat_ite, sat_pure]
    refine ⟨fun hf => ⟨fun _ => ⟨⟨?_, hput⟩, hleaves hf (.inl rfl)⟩, fun hno => absurd trivial hno⟩,
      fun hf => ⟨fun hno => absurd hno Bool.false_ne_true, fun _ => ⟨⟨hflag, hsound⟩,
        .refl (hrefused hf (.inl rfl)) _⟩⟩,
      fun hf => ⟨hsound, .refl (hrefused hf (.inr rfl)) _⟩,
      fun hf => ⟨hput, hleaves hf (.inr rfl)⟩⟩
    rw [Dev.putAll_ram]
    exact hflag
  unfold storeDetails
  rw [sat_ite]
  refine ⟨fun hurl => ?_, fun hurl => ?_⟩
  · refine hcommit _ (.inl (by simpa using hurl)) ?_ ?_
    · exact OracleSound.set_details (d := { d with fates := d.fates.tail }) hsound hpubkey _ _
    · cases p.pubkey <;> simp [Dev.putAll, Dev.put, Function.update]
  · rw [sat_ite]
    refine ⟨fun hr => ?_, fun hr => ?_⟩
    · refine hcommit _ (.inr hr) ?_ ?_
      · exact OracleSound.erase_details (d := { d with fates := d.fates.tail }) hsound (hreset hr)
      · simp [Dev.putAll, Dev.put, Function.update]
    · refine (sat_pure _).2 ⟨⟨hflag, hsound⟩, .refl (fun hw => ?_) _⟩
      rcases (hwrites.1 hw).1 with hne | hr'
      · exact hurl (by simpa using hne)
      · exact hr hr'

/-- The second commit: the certificate, which touches none of the other records. -/
theorem sat_storeCertificate {writes : Prop} {st : Store OracleKey} {d : OracleDev}
    (h : OracleInv W pubkey d) (hleaves : Leaves writes st d.store) :
    Sat (storeCertificate p)
      (fun _ d' => OracleInv W pubkey d' ∧ Leaves writes st d'.store)
      (fun _ d' => OracleSound W pubkey d'.store ∧ Leaves writes st d'.store) d := by
  have hput : ∀ v, OracleSound W pubkey (Function.update d.store .pinsvrcert v) ∧
      Leaves writes st (Function.update d.store .pinsvrcert v) := by
    intro v
    refine ⟨h.2.put_cert v, fun hw => ?_, fun hw k hk => ?_⟩
    · rw [Function.update_of_ne (by simp)]
      exact hleaves.1 hw
    · rw [Function.update_of_ne (by rintro rfl; simp at hk)]
      exact hleaves.2 hw k hk
  have hcommit : ∀ (v : Option Bytes) (errmsg : String),
      Sat (do
          if ← commit OracleKey.pinsvrcert v then return none
          else return some (CBOR_RPC_INTERNAL_ERROR, errmsg) : OracleM (Option (ℤ × String)))
        (fun _ d' => OracleInv W pubkey d' ∧ Leaves writes st d'.store)
        (fun _ d' => OracleSound W pubkey d'.store ∧ Leaves writes st d'.store) d := by
    intro v errmsg
    simp only [sat_bind, sat_commit, sat_ite, sat_pure]
    exact ⟨fun _ => ⟨fun _ => ⟨⟨h.1, (hput v).1⟩, (hput v).2⟩, fun hno => absurd trivial hno⟩,
      fun _ => ⟨fun hno => absurd hno Bool.false_ne_true, fun _ => ⟨h, hleaves⟩⟩,
      fun _ => ⟨h.2, hleaves⟩, fun _ => hput v⟩
  unfold storeCertificate
  rw [sat_ite]
  refine ⟨fun _ => hcommit _ _, fun _ => ?_⟩
  rw [sat_ite]
  exact ⟨fun _ => hcommit _ _, fun _ => (sat_pure _).2 ⟨h, hleaves⟩⟩

/-- **What one call does**, when a wallet is stored: the key of the oracle stays, the addresses stay
together, and the private key of the unit goes when the addresses are written, and only then. -/
theorem sat_updatePinserver {d : OracleDev} (h : OracleInv W pubkey d) :
    Sat (updatePinserver W user p)
      (fun _ d' => OracleInv W pubkey d' ∧ Leaves (WritesDetails W user p d) d.store d'.store)
      (fun _ d' => OracleSound W pubkey d'.store ∧
        Leaves (WritesDetails W user p d) d.store d'.store) d := by
  have hsound := h.2
  simp only [updatePinserver, storageGetPinserverPubkey, sat_bind, sat_getRam, sat_get, sat_pure]
  cases happrove : approve W user d.ram (fixedRecord d.store .pinsvrpubkey EC_PUBLIC_KEY_LEN) p with
  | error err =>
      have hnot : ¬WritesDetails W user p d := by
        intro hwrites
        rw [WritesDetails, happrove] at hwrites
        cases hwrites.1
      cases err with
      | fault f => exact (sat_throw _).2 ⟨hsound, .refl hnot _⟩
      | reject code errmsg => exact (sat_pure _).2 ⟨h, .refl hnot _⟩
  | ok u =>
      have hwrites : WritesDetails W user p d ↔
          (p.urlA ≠ [] ∨ p.resetDetails = true) ∧ (d.fate = .done ∨ d.fate = .cutAfter) := by
        rw [WritesDetails, happrove]
        exact and_iff_right rfl
      rw [h.1] at happrove
      obtain ⟨hpubkey, hreset⟩ := approve_pubkey happrove
      have heffective : (fixedRecord d.store .pinsvrpubkey EC_PUBLIC_KEY_LEN).getD
          W.serverPublicKey = pubkey := hsound.pubkey
      rw [heffective] at hpubkey hreset
      rw [sat_bind]
      refine (sat_storeDetails h (fun key hkey => ⟨(hpubkey key hkey).1, (hpubkey key hkey).2.1⟩)
        hreset hwrites).mono ?_ fun _ _ h => h
      intro err d₁ hd₁
      cases err with
      | some err => exact (sat_pure _).2 hd₁
      | none => exact sat_storeCertificate hd₁.1 hd₁.2

end Call

/-! ### One step -/

section Step

variable {V : Type} (C : TinyCborValues V) (W : PinOracle)

/-- An operation that writes the addresses, or erases them. -/
def WritesOp (d : OracleDev) : OracleOp V → Prop
  | .update params user fates =>
      ∃ p, PinserverParams.read C params = .ok p ∧ WritesDetails W user p { d with fates := fates }
  | .reset _ | .reboot => False

/-- An error that is returned has changed none of the records of the addresses and the key. -/
def ErrorKeeps (d : OracleDev) : OracleOp V → Prop
  | .update params user fates =>
      ∀ err d', (updatePinserverCall W user C params).run { d with fates := fates } =
          .ok (some err) d' →
        ∀ k ∈ [OracleKey.pinsvrurlA, .pinsvrurlB, .pinsvrpubkey], d'.store k = d.store k
  | .reset fates =>
      ∀ d', resetPinserver.run { d with fates := fates } = .ok false d' →
        ∀ k ∈ [OracleKey.pinsvrurlA, .pinsvrurlB, .pinsvrpubkey], d'.store k = d.store k
  | .reboot => True

variable {C W} {pubkey : Bytes}

theorem sat_updatePinserverCall {user : OracleScreen → Bool} {params : V} {fates : List Fate}
    {d : OracleDev} (h : OracleInv W pubkey d) :
    Sat (updatePinserverCall W user C params)
      (fun _ d' => OracleInv W pubkey d' ∧
        Leaves (WritesOp C W d (.update params user fates)) d.store d'.store)
      (fun _ d' => OracleSound W pubkey d'.store ∧
        Leaves (WritesOp C W d (.update params user fates)) d.store d'.store)
      { d with fates := fates } := by
  unfold updatePinserverCall
  cases hread : PinserverParams.read C params with
  | error e =>
      refine (sat_throw _).2 ⟨h.2, .refl (fun hw => ?_) _⟩
      obtain ⟨p, hp, -⟩ := hw
      rw [hread] at hp
      cases hp
  | ok p =>
      have hiff : WritesOp C W d (.update params user fates) ↔
          WritesDetails W user p { d with fates := fates } := by
        constructor
        · rintro ⟨p', hp', hw⟩
          obtain rfl := Except.ok.inj (hread.symm.trans hp')
          exact hw
        · intro hw
          exact ⟨p, hread, hw⟩
      simp only [hiff]
      exact sat_updatePinserver (d := { d with fates := fates }) h

/-- The boot code sets the flag, and changes no record. -/
theorem sat_bootFlag {J : Store OracleKey → Prop} {d : OracleDev}
    (h : OracleSound W pubkey d.store ∧ J d.store) :
    Sat bootFlag (fun _ d' => OracleInv W pubkey d' ∧ J d'.store)
      (fun _ d' => OracleInv W pubkey d' ∧ J d'.store) { d with ram := false, fates := [] } := by
  simp only [bootFlag, sat_bind, sat_get, sat_modifyRam]
  exact ⟨⟨decide_eq_true h.1.counter, h.1⟩, h.2⟩

/-- With a wallet stored, a reset restarts the device before it writes anything. -/
theorem sat_resetPinserver {d : OracleDev} (h : OracleInv W pubkey d) :
    Sat resetPinserver (fun _ _ => False) (fun _ d' => d' = d) d := by
  simp only [resetPinserver, sat_bind, sat_getRam, sat_assert, h.1, Bool.not_true,
    Bool.false_eq_true, false_implies, true_implies, true_and]

/-- **What every step preserves**, and what it leaves of the private key of the unit. -/
theorem oracleStep_inv {d : OracleDev} (h : OracleInv W pubkey d) (o : OracleOp V) :
    OracleInv W pubkey (oracleStep C W d o) ∧
      Leaves (WritesOp C W d o) d.store (oracleStep C W d o).store := by
  cases o with
  | reboot =>
      exact restart_of_sat (sat_bootFlag ⟨h.2, .refl (fun hw => hw) _⟩)
  | reset fates =>
      refine runOp_of_sat (J := fun d' => OracleSound W pubkey d'.store ∧
        Leaves (WritesOp C W d (.reset fates)) d.store d'.store) ?_ fun _ => sat_bootFlag
      refine (sat_resetPinserver (d := { d with fates := fates }) h).mono
        (fun _ _ hno => hno.elim) ?_
      rintro _ _ rfl
      exact ⟨h.2, .refl (fun hw => hw) _⟩
  | update params user fates =>
      exact runOp_of_sat (sat_updatePinserverCall h) fun _ => sat_bootFlag

/-- A step that does not write the addresses returns no error behind a change of them. -/
theorem errorKeeps_of_not_writes {d : OracleDev} (h : OracleInv W pubkey d) {o : OracleOp V}
    (hnot : ¬WritesOp C W d o) : ErrorKeeps C W d o := by
  cases o with
  | reboot => trivial
  | reset fates =>
      intro d' hrun
      exact ((sat_resetPinserver (d := { d with fates := fates }) h).ok hrun).elim
  | update params user fates =>
      intro err d' hrun k hk
      have hcall : Sat (updatePinserverCall W user C params) _ _ { d with fates := fates } :=
        sat_updatePinserverCall h
      exact (hcall.ok hrun).2.2 hnot k (List.mem_cons_of_mem _ hk)

end Step

/-! ### Unlocking -/

/-- A wallet has been stored, with the private key `key` of the unit. -/
structure WalletStored (W : PinOracle) (key : Bytes) (d : OracleDev) : Prop where
  flag : d.ram = true
  counter : 0 < counterOf fun k => d.store (.wallet k)
  unit : unitPrivatekey W d.store = some key
  verified : W.publicKeyVerify (effectivePubkey W d.store) = true
  urls : (d.store .pinsvrurlA).isSome = (d.store .pinsvrurlB).isSome

/-- **The wallet can be unlocked**: the next use of the oracle has the same key of the oracle and the
same private key of the unit, whatever key would be drawn, so that a PIN gives the same key as when
the wallet was stored; and the addresses are together. -/
structure Unlocks (W : PinOracle) (pubkey key : Bytes) (d : OracleDev) : Prop where
  oracle : effectivePubkey W d.store = pubkey
  unit : ∀ newKey, Sat (pinGetUnitPrivatekey W newKey) (fun r _ => r = some key) (fun _ _ => False)
    { d with fates := [] }
  aeskey : ∀ newKey pin, Sat (pinserverInteraction W newKey pin)
    (fun r _ => r = some (finalAes W pubkey key pin)) (fun _ _ => False) { d with fates := [] }
  urls : (d.store .pinsvrurlA).isSome = (d.store .pinsvrurlB).isSome

section Unlock

variable {W : PinOracle} {pubkey key : Bytes} {d : OracleDev}

theorem sat_pinGetUnitPrivatekey_of_some
    (h : unitPrivatekey W d.store = some key) (newKey : Bytes) :
    Sat (pinGetUnitPrivatekey W newKey) (fun r d' => r = some key ∧ d' = d) (fun _ _ => False) d := by
  simp only [pinGetUnitPrivatekey, storageGetPinPrivatekey, sat_bind, sat_get, h, sat_pure]
  exact ⟨trivial, trivial⟩

/-- With the private key in place, the next use has the same keys. -/
theorem unlocks_of_unit (h : OracleSound W pubkey d.store)
    (hverify : W.publicKeyVerify pubkey = true)
    (hunit : unitPrivatekey W d.store = some key) :
    Unlocks W pubkey key d := by
  have hget : ∀ newKey, Sat (pinGetUnitPrivatekey W newKey) (fun r _ => r = some key)
      (fun _ _ => False) { d with fates := [] } := fun newKey =>
    (sat_pinGetUnitPrivatekey_of_some (d := { d with fates := [] }) hunit newKey).mono
      (fun _ _ h => h.1) fun _ _ h => h
  refine ⟨h.pubkey, hget, fun newKey pin => ?_, h.urls⟩
  simp only [pinserverInteraction, sat_bind, sat_get, h.pubkey, hverify, Bool.not_true,
    Bool.false_eq_true, if_false]
  refine (hget newKey).mono ?_ fun _ _ h => h
  rintro r d' rfl
  exact (sat_pure _).2 rfl

/-- Without it, the next use does not have that key for every key that may be drawn. -/
theorem not_unlocks_of_none (hnone : d.store .privatekey = none) : ¬Unlocks W pubkey key d := by
  intro h
  have hnew := h.unit (key ++ [0])
  have hrecord : unitPrivatekey W d.store = none := by
    rw [unitPrivatekey, fixedRecord, hnone]
    rfl
  simp only [pinGetUnitPrivatekey, storageGetPinPrivatekey, storageSetPinPrivatekey, sat_bind,
    sat_get, hrecord, sat_ite, sat_pure] at hnew
  by_cases hvalid : W.privateKeyVerify (key ++ [0]) = true
  · have hwrite := hnew.1 hvalid
    simp only [write, sat_commit] at hwrite
    have hlen := congrArg List.length (Option.some.inj ((hwrite.1 rfl).1 trivial))
    simp at hlen
  · exact absurd ((hnew.2 hvalid).2 Bool.false_ne_true) (by simp)

end Unlock

/-! ### A stored wallet -/

/-- An oracle whose answer is what it was asked. -/
def toyOracle : PinOracle where
  serverPublicKey := 0x02 :: List.replicate 32 0x33
  publicKeyVerify pubkey := pubkey.length == EC_PUBLIC_KEY_LEN
  privateKeyVerify privatekey := privatekey.length == EC_PRIVATE_KEY_LEN
  publicKeyFromPrivateKey privatekey := 0x03 :: privatekey
  hmacSha256 key text := key ++ text
  serverKey pubkey unit secret := pubkey ++ unit ++ secret

def toyUnitKey : Bytes := List.replicate 32 0x44

/-- A wallet with three attempts left, and no settings of the oracle. -/
def toyStored : OracleDev where
  store
    | .wallet .counter => some [3]
    | .wallet .blob => some [0]
    | .privatekey => some toyUnitKey
    | _ => none
  ram := true
  fates := []
  log := []

theorem toyStored_walletStored : WalletStored toyOracle toyUnitKey toyStored where
  flag := rfl
  counter := by decide
  unit := by decide
  verified := by decide
  urls := rfl

/-- `{"certificate": "x"}` and `{"urlA": "http://a.b"}`, and both at once. -/
def toyCertificate : Bytes := 0xa1 :: shortText "certificate" ++ shortText "x"

def toyAddress : Bytes := 0xa1 :: shortText "urlA" ++ shortText "http://a.b"

def toyBoth : Bytes :=
  0xa2 :: shortText "urlA" ++ shortText "http://a.b" ++ shortText "certificate" ++ shortText "x"

/-- A new certificate, a new address that is declined, and a reboot. -/
def toyMildRun : List (OracleOp Bytes) :=
  [.update toyCertificate (fun _ => true) [], .update toyAddress (fun _ => false) [], .reboot]

/-! ### The result -/

section Result

variable {V : Type} {C : TinyCborValues V} {W : PinOracle}

theorem WalletStored.inv {key : Bytes} {d : OracleDev} (h : WalletStored W key d) :
    OracleInv W (effectivePubkey W d.store) d := ⟨h.flag, h.counter, rfl, h.urls⟩

/-- The invariant, and the private key of the unit along a run that does not write the addresses. -/
theorem run_unit {pubkey key : Bytes} {d : OracleDev} (h : OracleInv W pubkey d)
    (hunit : unitPrivatekey W d.store = some key)
    {ops : List (OracleOp V)}
    (hops : AllSteps (oracleStep C W) (fun d o => ¬WritesOp C W d o) d ops) :
    OracleInv W pubkey (run (oracleStep C W) d ops) ∧
      unitPrivatekey W (run (oracleStep C W) d ops).store = some key := by
  refine run_induction (I := fun d => OracleInv W pubkey d ∧
    unitPrivatekey W d.store = some key) ?_ ⟨h, hunit⟩ hops
  intro d o hd hnot
  obtain ⟨hinv, hleaves⟩ := oracleStep_inv (C := C) hd.1 o
  refine ⟨hinv, ?_⟩
  rw [unitPrivatekey, fixedRecord, hleaves.2 hnot .privatekey (by simp)]
  exact hd.2

/-- **The stored wallet.**  In every run of updates, with refusals, failed writes, losses of power and
reboots, the key of the oracle stays the same, and the addresses are both there or both not there.
The wallet can be unlocked in every state of the run, and no error that is returned has changed the
addresses or the key, exactly when no step writes the addresses or erases them. -/
theorem lockout_iff {key : Bytes} {d : OracleDev} (h : WalletStored W key d)
    (ops : List (OracleOp V)) :
    (∀ pre, pre <+: ops →
      effectivePubkey W (run (oracleStep C W) d pre).store = effectivePubkey W d.store ∧
        ((run (oracleStep C W) d pre).store .pinsvrurlA).isSome =
          ((run (oracleStep C W) d pre).store .pinsvrurlB).isSome) ∧
    (((∀ pre, pre <+: ops →
        Unlocks W (effectivePubkey W d.store) key (run (oracleStep C W) d pre)) ∧
      AllSteps (oracleStep C W) (ErrorKeeps C W) d ops) ↔
      AllSteps (oracleStep C W) (fun d o => ¬WritesOp C W d o) d ops) := by
  have hall : ∀ pre : List (OracleOp V),
      OracleInv W (effectivePubkey W d.store) (run (oracleStep C W) d pre) := by
    intro pre
    induction pre using List.reverseRecOn with
    | nil => exact h.inv
    | append_singleton pre o ih =>
        rw [run_append]
        exact (oracleStep_inv ih o).1
  refine ⟨fun pre _ => ⟨(hall pre).2.pubkey, (hall pre).2.urls⟩, ?_, fun hops => ⟨?_, ?_⟩⟩
  · rintro ⟨hunlocks, -⟩
    -- the first step that writes the addresses leaves a state without the private key
    induction ops using List.reverseRecOn with
    | nil => trivial
    | append_singleton ops o ih =>
        rw [allSteps_append]
        refine ⟨ih fun pre hpre => hunlocks pre (hpre.trans (List.prefix_append _ _)), ?_, trivial⟩
        intro hwrites
        have hlast := hunlocks (ops ++ [o]) (List.prefix_refl _)
        rw [run_append] at hlast
        exact not_unlocks_of_none ((oracleStep_inv (hall ops) o).2.1 hwrites) hlast
  · rintro pre ⟨post, rfl⟩
    have hpre := ((allSteps_append _ _ _ _ _).1 hops).1
    obtain ⟨hinv, hunit⟩ := run_unit h.inv h.unit hpre
    exact unlocks_of_unit hinv.2 h.verified hunit
  · induction ops using List.reverseRecOn with
    | nil => trivial
    | append_singleton ops o ih =>
        rw [allSteps_append] at hops ⊢
        exact ⟨ih hops.1, errorKeeps_of_not_writes (hall ops) hops.2.1, trivial⟩

/-- After a new certificate, and an address that is declined, the wallet can be unlocked. -/
theorem lockout_mild_run :
    (∀ pre, pre <+: toyMildRun → Unlocks toyOracle (effectivePubkey toyOracle toyStored.store)
      toyUnitKey (run (oracleStep tinyCborValues toyOracle) toyStored pre)) ∧
    AllSteps (oracleStep tinyCborValues toyOracle) (ErrorKeeps tinyCborValues toyOracle) toyStored
      toyMildRun := by
  refine (lockout_iff toyStored_walletStored toyMildRun).2.2 ⟨?_, ?_, fun h => h, trivial⟩
  · rintro ⟨p, hp, -, hkind, -⟩
    obtain rfl := Except.ok.inj hp
    rcases hkind with hurl | hreset
    · exact hurl rfl
    · cases hreset
  · rintro ⟨p, hp, happrove, -⟩
    obtain rfl := Except.ok.inj hp
    cases happrove

/-- **A new address locks the wallet out**, although the key of the oracle is the same; and when the
certificate beside it cannot be written, an error is returned after the address has changed. -/
theorem lockout_new_address :
    (¬∀ pre, pre <+: [OracleOp.update toyAddress (fun _ => true) []] →
      Unlocks toyOracle (effectivePubkey toyOracle toyStored.store) toyUnitKey
        (run (oracleStep tinyCborValues toyOracle) toyStored pre)) ∧
    ¬ErrorKeeps tinyCborValues toyOracle toyStored
      (.update toyBoth (fun _ => true) [.done, .refused]) := by
  constructor
  · intro h
    refine not_unlocks_of_none ?_ (h _ (List.prefix_refl _))
    rfl
  · intro h
    have hurl := h (CBOR_RPC_INTERNAL_ERROR, "Failed to persist Oracle certificate") _ rfl
      .pinsvrurlA (by simp)
    exact absurd hurl (by decide)

end Result

end Jade
