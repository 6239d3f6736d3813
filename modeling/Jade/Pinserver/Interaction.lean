/-
**What a question to the PIN oracle does.**

A question takes the next value of the counter and moves the counter on, in a commit of its own and
before anything is sent; it may make the private key of the unit; otherwise it leaves the flash and
the wallet alone. What is sent is made with that value, with the key of the unit and the oracle's
key that are then in the flash, and with the PIN; and a key comes back only out of the message that
was taken next.

Main definitions:

* `Jade.Pinclient.Kept` — what stays, and what only grows;
* `Jade.Pinclient.Question` — a request that asks for a PIN with a value of the counter;
* `Jade.Pinclient.Progress` — questions asked one after the other;
* `Jade.Pinclient.Answered`, `Jade.Pinclient.Heard` — where a key comes from, and when one comes.

Main results:

* `Jade.Pinclient.sat_pinserverInteraction` — one question;
* `Jade.Pinclient.sat_getPinserverAeskey` — **questions until one is answered**.
-/

import Jade.Pinserver.Client

set_option relaxedAutoImplicit false
set_option autoImplicit false

namespace Jade.Pinclient

open Exec Flash

/-! ### What stays -/

section Kept

variable {V : Type} (W : PinWally)

/-- The private key of the unit, if there is one. -/
def unitKeyOf (st : Store ClientKey) : Option Bytes :=
  (fixedRecord (settings st) .privatekey EC_PRIVATE_KEY_LEN).filter fun key => W.ecPrivateKeyVerify key

/-- The value of the counter for the next question. A counter that cannot be read is exhausted. -/
def floorOf (st : Store ClientKey) : ℕ := (replayCounterOf st).getD (2 ^ 32)

/-- The wallet and the settings stay, the key of the unit stays once there is one, and the counter
grows. A flash that works goes on working. -/
structure Kept (d d' : ClientDev V) : Prop where
  held : d'.ram.held = d.ram.held
  frame : ∀ k, k ≠ ClientKey.settings .privatekey → k ≠ .antireplay → d'.store k = d.store k
  unit : ∀ key, unitKeyOf W d.store = some key → unitKeyOf W d'.store = some key
  floor : floorOf d.store ≤ floorOf d'.store
  fates : d.fates = [] → d'.fates = []

variable {W} {d d' d'' : ClientDev V}

/-- The flash is the same. -/
theorem Kept.of_store (hstore : d'.store = d.store) (hheld : d'.ram.held = d.ram.held)
    (hfates : d.fates = [] → d'.fates = []) : Kept W d d' where
  held := hheld
  frame := by
    intro k _ _
    rw [hstore]
  unit := by
    intro key hkey
    rwa [hstore]
  floor := by rw [hstore]
  fates := hfates

theorem Kept.refl (d : ClientDev V) : Kept W d d := .of_store rfl rfl id

theorem Kept.trans (h : Kept W d d') (h' : Kept W d' d'') : Kept W d d'' where
  held := h'.held.trans h.held
  frame := fun k hk hne => (h'.frame k hk hne).trans (h.frame k hk hne)
  unit := fun key hkey => h'.unit key (h.unit key hkey)
  floor := h.floor.trans h'.floor
  fates := fun hd => h'.fates (h.fates hd)

theorem oraclePubkey_of_kept (h : Kept W d d') :
    oraclePubkey W d'.store = oraclePubkey W d.store := by
  simp only [oraclePubkey, fixedRecord, settings,
    h.frame (.settings .pinsvrpubkey) (by simp) (by simp)]

theorem floorOf_update_antireplay (st : Store ClientKey) {j : ℕ} (hj : j < UINT32_MAX) :
    floorOf (Function.update st .antireplay
      (some (Bytes.ofNatLE REPLAY_COUNTER_LEN (j + 1)))) = j + 1 := by
  have hlt : j + 1 < 256 ^ REPLAY_COUNTER_LEN := by
    simp only [UINT32_MAX, REPLAY_COUNTER_LEN] at hj ⊢
    omega
  rw [floorOf, replayCounterOf, Function.update_self]
  simp only [Bytes.length_ofNatLE, if_true, Option.getD_some]
  exact Bytes.toNatLE_ofNatLE_of_lt hlt

theorem settings_update_antireplay (st : Store ClientKey) (v : Option Bytes) (k : OracleKey) :
    Function.update st .antireplay v (.settings k) = st (.settings k) :=
  Function.update_of_ne (by simp) _ _

/-- The counter moves on. -/
theorem Kept.reserve {j : ℕ} (hj : j < UINT32_MAX) (hcounter : replayCounterOf d.store = some j)
    (hstore : d'.store = Function.update d.store .antireplay
      (some (Bytes.ofNatLE REPLAY_COUNTER_LEN (j + 1))))
    (hheld : d'.ram.held = d.ram.held) (hfates : d.fates = [] → d'.fates = []) :
    Kept W d d' where
  held := hheld
  fates := hfates
  frame := by
    intro k _ hk
    rw [hstore, Function.update_of_ne hk]
  unit := by
    intro key hkey
    rwa [unitKeyOf, fixedRecord, settings, hstore, settings_update_antireplay]
  floor := by
    rw [hstore, floorOf_update_antireplay _ hj, floorOf, hcounter]
    exact Nat.le_succ j

/-- A key is made for a unit that has none. -/
theorem Kept.newUnit {key : Bytes} (hnone : unitKeyOf W d.store = none)
    (hstore : d'.store = Function.update d.store (.settings .privatekey) (some key))
    (hheld : d'.ram.held = d.ram.held) (hfates : d.fates = [] → d'.fates = []) :
    Kept W d d' where
  held := hheld
  fates := hfates
  frame := by
    intro k hk _
    rw [hstore, Function.update_of_ne hk]
  unit := by
    intro key hkey
    rw [hnone] at hkey
    cases hkey
  floor := by
    rw [hstore, floorOf, floorOf, replayCounterOf, replayCounterOf,
      Function.update_of_ne (by simp)]

end Kept

/-! ### Drawing and reading -/

section Parts

variable {V : Type} {W : PinWally} {d : ClientDev V}

/-- A commit uses up the next fate of a flash. -/
theorem tail_of_works {fates : List Fate} (h : fates = []) : fates.tail = [] := by
  rw [h, List.tail_nil]

/-- Nothing but the exchange has gone on. -/
structure Talked (d d' : ClientDev V) : Prop where
  store : d'.store = d.store
  held : d'.ram.held = d.ram.held
  fates : d'.fates = d.fates

theorem Talked.refl (d : ClientDev V) : Talked d d := ⟨rfl, rfl, rfl⟩

theorem Talked.trans {d' d'' : ClientDev V} (h : Talked d d') (h' : Talked d' d'') : Talked d d'' :=
  ⟨h'.store.trans h.store, h'.held.trans h.held, h'.fates.trans h.fates⟩

theorem Talked.kept {d' : ClientDev V} (h : Talked d d') : Kept W d d' :=
  .of_store h.store h.held fun hd => h.fates.trans hd

theorem talked_putTalk (d : ClientDev V) (talk : PinTalk V) :
    Talked d { d with ram := d.ram.putTalk talk } := ⟨rfl, rfl, rfl⟩

/-- Nor has that. -/
structure Still (d d' : ClientDev V) : Prop extends Talked d d' where
  talk : d'.ram.talk = d.ram.talk

theorem Still.refl (d : ClientDev V) : Still d d := ⟨.refl d, rfl⟩

theorem Still.trans {d' d'' : ClientDev V} (h : Still d d') (h' : Still d' d'') : Still d d'' :=
  ⟨h.toTalked.trans h'.toTalked, h'.talk.trans h.talk⟩

theorem sat_getRandom (n : ℕ) :
    Sat (getRandom n) (fun bytes d' => Still d d' ∧ bytes.length = n) (fun _ _ => False) d := by
  simp only [getRandom, sat_bind, sat_getRam, sat_modifyRam, sat_pure]
  exact ⟨⟨⟨rfl, rfl, rfl⟩, rfl⟩, length_drawn _ n⟩

/-- A key that is drawn is one. -/
theorem sat_keychainGetNewPrivatekey (attempts : ℕ) :
    Sat (keychainGetNewPrivatekey W attempts)
      (fun r d' => Still d d' ∧
        ∀ key, r = some key → key.length = EC_PRIVATE_KEY_LEN ∧ W.ecPrivateKeyVerify key = true)
      (fun _ _ => False) d := by
  induction attempts generalizing d with
  | zero =>
      refine (sat_pure _).2 ⟨.refl d, ?_⟩
      intro key hkey
      cases hkey
  | succ attempts ih =>
      rw [keychainGetNewPrivatekey, sat_bind]
      refine (sat_getRandom EC_PRIVATE_KEY_LEN).mono ?_ (fun _ _ h => h)
      rintro bytes d₁ ⟨hstill, hlen⟩
      rw [sat_ite]
      constructor
      · intro hverify
        refine (sat_pure _).2 ⟨hstill, ?_⟩
        intro key hkey
        obtain rfl := Option.some.inj hkey
        exact ⟨hlen, hverify⟩
      · intro _
        exact ih.mono (fun _ _ h => ⟨hstill.trans h.1, h.2⟩) (fun _ _ h => h)

/-- **The counter moves on before its value is used**: whatever becomes of the commit. -/
theorem sat_storageGetReplayCounter :
    Sat storageGetReplayCounter
      (fun r d' => (Kept W d d' ∧ d'.ram = d.ram) ∧
        ∀ j, r = some j → j < UINT32_MAX ∧ floorOf d.store = j ∧ floorOf d'.store = j + 1)
      (fun _ d' => Kept W d d' ∧ d'.ram = d.ram) d := by
  simp only [storageGetReplayCounter, sat_bind, sat_get]
  cases hcounter : replayCounterOf d.store with
  | none =>
      refine (sat_pure _).2 ⟨⟨.refl d, rfl⟩, ?_⟩
      intro j hj
      cases hj
  | some j =>
      simp only [sat_bind, sat_assert, decide_eq_true_eq, decide_eq_false_iff_not]
      refine ⟨fun hj => ?_, fun _ => ⟨.refl d, trivial⟩⟩
      have hmoved : ∀ d' : ClientDev V, d'.fates = d.fates.tail → d'.ram = d.ram →
          d'.store = Function.update d.store .antireplay
            (some (Bytes.ofNatLE REPLAY_COUNTER_LEN (j + 1))) → Kept W d d' :=
        fun d' hfates hram hstore => .reserve hj hcounter hstore (by rw [hram])
          fun hd => hfates.trans (tail_of_works hd)
      refine (sat_commit _ _).2 ⟨fun _ => ?_, fun _ => ?_, fun _ =>
        ⟨.of_store rfl rfl tail_of_works, rfl⟩, fun _ => ⟨hmoved _ rfl rfl rfl, rfl⟩⟩
      · refine (sat_ite.2 ⟨fun _ => (sat_pure _).2 ⟨⟨hmoved _ rfl rfl rfl, rfl⟩, ?_⟩,
          fun h => absurd rfl h⟩)
        intro j' hj'
        obtain rfl := Option.some.inj hj'
        refine ⟨hj, by rw [floorOf, hcounter, Option.getD_some], ?_⟩
        exact floorOf_update_antireplay _ hj
      · refine sat_ite.2 ⟨fun h => Bool.noConfusion h, fun _ => (sat_pure _).2
          ⟨⟨.of_store rfl rfl tail_of_works, rfl⟩, ?_⟩⟩
        intro j' hj'
        cases hj'

/-- The key of the unit that is returned is the one in the flash. -/
theorem sat_pinGetUnitPrivatekey :
    Sat (pinGetUnitPrivatekey W)
      (fun r d' => (Kept W d d' ∧ d'.ram.talk = d.ram.talk) ∧
        ∀ key, r = some key → unitKeyOf W d'.store = some key)
      (fun _ d' => Kept W d d' ∧ d'.ram.talk = d.ram.talk) d := by
  simp only [pinGetUnitPrivatekey, storageGetPinPrivatekey, sat_bind, sat_get, sat_pure]
  cases hunit : (fixedRecord (settings d.store) .privatekey EC_PRIVATE_KEY_LEN).filter
      fun key => W.ecPrivateKeyVerify key with
  | some key =>
      refine (sat_pure _).2 ⟨⟨.refl d, rfl⟩, ?_⟩
      intro key' hkey'
      obtain rfl := Option.some.inj hkey'
      exact hunit
  | none =>
      rw [sat_bind]
      refine (sat_keychainGetNewPrivatekey 4).mono ?_ (fun _ _ h => h.elim)
      rintro new d₁ ⟨hstill, hnew⟩
      cases new with
      | none =>
          refine (sat_pure _).2 ⟨⟨hstill.kept, hstill.talk⟩, ?_⟩
          intro key hkey
          cases hkey
      | some key =>
          obtain ⟨hlen, hverify⟩ := hnew key rfl
          have hnone : unitKeyOf W d₁.store = none := by
            rw [hstill.store]
            exact hunit
          have hmade : ∀ d₂ : ClientDev V, d₂.fates = d₁.fates.tail → d₂.ram = d₁.ram →
              d₂.store = Function.update d₁.store (.settings .privatekey) (some key) →
                Kept W d d₂ ∧ d₂.ram.talk = d.ram.talk := by
            intro d₂ hfates hram hstore
            refine ⟨hstill.kept.trans (.newUnit hnone hstore (by rw [hram]) fun hd =>
              hfates.trans (tail_of_works hd)), ?_⟩
            rw [hram, hstill.talk]
          have hsame : ∀ d₂ : ClientDev V, d₂.fates = d₁.fates.tail → d₂.ram = d₁.ram →
              d₂.store = d₁.store →
              Kept W d d₂ ∧ d₂.ram.talk = d.ram.talk := by
            intro d₂ hfates hram hstore
            refine ⟨hstill.kept.trans (.of_store hstore (by rw [hram]) fun hd =>
              hfates.trans (tail_of_works hd)), ?_⟩
            rw [hram, hstill.talk]
          simp only [storageSetPinPrivatekey, hverify, if_true, sat_bind]
          refine (sat_commit _ _).2 ⟨fun _ => ?_, fun _ => ?_, fun _ => hsame _ rfl rfl rfl,
            fun _ => hmade _ rfl rfl rfl⟩
          · refine sat_ite.2 ⟨fun _ => (sat_pure _).2 ⟨hmade _ rfl rfl rfl, ?_⟩,
              fun h => absurd rfl h⟩
            intro key' hkey'
            obtain rfl := Option.some.inj hkey'
            simp [unitKeyOf, fixedRecord, settings, Dev.put, hlen, hverify, Option.filter]
          · refine sat_ite.2 ⟨fun h => Bool.noConfusion h, fun _ => (sat_pure _).2
              ⟨hsame _ rfl rfl rfl, ?_⟩⟩
            intro key' hkey'
            cases hkey'

end Parts

/-! ### What is sent -/

section Sent

variable {V : Type} (W : PinWally)

/-- The keys of a session that was opened with the value `j` of the counter. -/
structure KeysFor (st : Store ClientKey) (j : ℕ) (keys : PinKeys) : Prop where
  below : j < UINT32_MAX
  counter : keys.replayCounter = Bytes.ofNatLE REPLAY_COUNTER_LEN j
  cke : W.ecPublicKeyFromPrivateKey keys.privkey = some keys.cke
  ske : generateSke W (oraclePubkey W st) keys.cke keys.replayCounter = some keys.ske

/-- The text that asks for a PIN on behalf of a unit. -/
structure Content (keys : PinKeys) (unit pin : Bytes) (passClientEntropy : Bool)
    (data : Bytes) : Prop where
  made : ∃ entropy iv sig payload,
    entropy.length = (if passClientEntropy then ENTROPY_LEN else 0) ∧ iv.length = AES_BLOCK_LEN ∧
      signPayload W unit keys (getPinSecret W pin unit) entropy = some sig ∧
      encryptPayload W keys (getPinSecret W pin unit) entropy sig iv = some payload ∧
      assembleReplyData W keys payload = some data

/-- What is asked: for which PIN, under which document, and with entropy or without. -/
structure Ask where
  pin : Bytes
  document : Document
  passClientEntropy : Bool

/-- **A request that asks for a PIN**, with the value `j` of the counter, and with the key of the
unit and the key of the oracle in the flash. The addresses may be older. -/
structure Question (st : Store ClientKey) (ask : Ask) (j : ℕ) (keys : PinKeys)
    (r : HttpRequest) : Prop where
  opened : KeysFor W st j keys
  content : ∃ unit data sentAt, unitKeyOf W st = some unit ∧
    Content W keys unit ask.pin ask.passClientEntropy data ∧
    r = httpRequest sentAt ask.document data

variable {W} {d d' : ClientDev V} {ask : Ask} {j : ℕ} {keys : PinKeys} {r : HttpRequest}

variable {st st' : Store ClientKey}

theorem KeysFor.congr (h : KeysFor W st j keys) (hpubkey : oraclePubkey W st' = oraclePubkey W st) :
    KeysFor W st' j keys where
  below := h.below
  counter := h.counter
  cke := h.cke
  ske := by
    rw [hpubkey]
    exact h.ske

/-- A question goes on to be one while the two keys stay. -/
theorem Question.congr (h : Question W st ask j keys r)
    (hpubkey : oraclePubkey W st' = oraclePubkey W st)
    (hunit : ∀ unit, unitKeyOf W st = some unit → unitKeyOf W st' = some unit) :
    Question W st' ask j keys r := by
  obtain ⟨unit, data, sentAt, hhas, hcontent⟩ := h.content
  exact ⟨h.opened.congr hpubkey, unit, data, sentAt, hunit unit hhas, hcontent⟩

theorem Question.kept (h : Question W d.store ask j keys r) (hkept : Kept W d d') :
    Question W d'.store ask j keys r := h.congr (oraclePubkey_of_kept hkept) hkept.unit

/-- The keys of a session. -/
theorem sat_generateEphemeralPinkeys :
    Sat (generateEphemeralPinkeys W)
      (fun r d' => (Kept W d d' ∧ d'.ram.talk = d.ram.talk) ∧
        ∀ keys, r = .ok keys → ∃ j, KeysFor W d'.store j keys ∧ floorOf d.store = j ∧
          j < floorOf d'.store)
      (fun _ d' => Kept W d d' ∧ d'.ram.talk = d.ram.talk) d := by
  have hfails : ∀ {d₁ : ClientDev V} (errmsg : String), Kept W d d₁ → d₁.ram.talk = d.ram.talk →
      (Kept W d d₁ ∧ d₁.ram.talk = d.ram.talk) ∧
        ∀ keys, (Except.error errmsg : Except String PinKeys) = .ok keys →
          ∃ j, KeysFor W d₁.store j keys ∧ floorOf d.store = j ∧ j < floorOf d₁.store := by
    intro d₁ errmsg hkept htalk
    refine ⟨⟨hkept, htalk⟩, ?_⟩
    intro keys hkeys
    cases hkeys
  rw [generateEphemeralPinkeys, sat_bind]
  refine (sat_keychainGetNewPrivatekey 4).mono ?_ (fun _ _ h => h.elim)
  rintro privkey d₁ ⟨hstill, -⟩
  cases privkey with
  | none => exact (sat_pure _).2 (hfails _ hstill.kept hstill.talk)
  | some privkey =>
      cases hcke : W.ecPublicKeyFromPrivateKey privkey with
      | none =>
          simp only [hcke]
          exact (sat_pure _).2 (hfails _ hstill.kept hstill.talk)
      | some cke =>
          simp only [hcke, sat_bind]
          refine (sat_storageGetReplayCounter (W := W)).mono ?_ ?_
          · rintro counter d₂ ⟨⟨hkept, hram⟩, hcounter⟩
            have htalk : d₂.ram.talk = d.ram.talk := by rw [hram, hstill.talk]
            have hkept₂ := hstill.kept.trans hkept
            cases counter with
            | none => exact (sat_pure _).2 (hfails _ hkept₂ htalk)
            | some j =>
                obtain ⟨hbelow, hj, hmoved⟩ := hcounter j rfl
                simp only [sat_bind, sat_get]
                cases hske : generateSke W (oraclePubkey W d₂.store) cke
                    (Bytes.ofNatLE REPLAY_COUNTER_LEN j) with
                | none => exact (sat_pure _).2 (hfails _ hkept₂ htalk)
                | some ske =>
                    refine (sat_pure _).2 ⟨⟨hkept₂, htalk⟩, ?_⟩
                    intro keys hkeys
                    obtain rfl := Except.ok.inj hkeys
                    refine ⟨j, ⟨hbelow, rfl, hcke, hske⟩, ?_, ?_⟩
                    · rw [← hstill.store, hj]
                    · rw [hmoved]
                      exact Nat.lt_succ_self j
          · rintro _ d₂ ⟨hkept, hram⟩
            exact ⟨hstill.kept.trans hkept, by rw [hram, hstill.talk]⟩

/-- The content of a question. -/
theorem sat_oracleMessage (keys : PinKeys) (pin : Bytes) (passClientEntropy : Bool) :
    Sat (oracleMessage W keys pin passClientEntropy)
      (fun r d' => (Kept W d d' ∧ d'.ram.talk = d.ram.talk) ∧
        ∀ data, r = some data → ∃ unit, unitKeyOf W d'.store = some unit ∧
          Content W keys unit pin passClientEntropy data)
      (fun _ d' => Kept W d d' ∧ d'.ram.talk = d.ram.talk) d := by
  have hnone : ∀ {d₁ : ClientDev V}, Kept W d d₁ → d₁.ram.talk = d.ram.talk →
      (Kept W d d₁ ∧ d₁.ram.talk = d.ram.talk) ∧
        ∀ data, (none : Option Bytes) = some data → ∃ unit, unitKeyOf W d₁.store = some unit ∧
          Content W keys unit pin passClientEntropy data := by
    intro d₁ hkept htalk
    refine ⟨⟨hkept, htalk⟩, ?_⟩
    intro data hdata
    cases hdata
  rw [oracleMessage, sat_bind]
  refine (sat_getRandom ENTROPY_LEN).mono ?_ (fun _ _ h => h.elim)
  rintro bytes d₁ ⟨hstill, hlen⟩
  have hentropy : (if passClientEntropy then bytes else []).length =
      if passClientEntropy then ENTROPY_LEN else 0 := by
    cases passClientEntropy with
    | true => exact hlen
    | false => rfl
  simp only [sat_bind]
  refine (sat_pinGetUnitPrivatekey (W := W)).mono ?_ ?_
  · rintro unit d₂ ⟨⟨hkept, htalk⟩, hunit⟩
    have hkept₂ := hstill.kept.trans hkept
    have htalk₂ := htalk.trans hstill.talk
    cases unit with
    | none => exact (sat_pure _).2 (hnone hkept₂ htalk₂)
    | some unit =>
        cases hsig : signPayload W unit keys (getPinSecret W pin unit)
            (if passClientEntropy then bytes else []) with
        | none =>
            simp only [hsig]
            exact (sat_pure _).2 (hnone hkept₂ htalk₂)
        | some sig =>
            simp only [hsig, sat_bind]
            refine (sat_getRandom AES_BLOCK_LEN).mono ?_ (fun _ _ h => h.elim)
            rintro iv d₃ ⟨hstill₃, hiv⟩
            refine (sat_pure _).2 ⟨⟨hkept₂.trans hstill₃.kept, hstill₃.talk.trans htalk₂⟩, ?_⟩
            intro data hdata
            obtain ⟨payload, hpayload, hdata⟩ := Option.bind_eq_some_iff.1 hdata
            refine ⟨unit, hstill₃.kept.unit unit (hunit unit rfl), ?_⟩
            exact ⟨_, _, _, _, hentropy, hiv, hsig, hpayload, hdata⟩
  · rintro _ d₂ ⟨hkept, htalk⟩
    exact ⟨hstill.kept.trans hkept, htalk.trans hstill.talk⟩

end Sent

/-! ### The exchange with the host -/

/-- The request in an answer. -/
def requestOf (out : Outgoing PinReply) : Option HttpRequest :=
  match out.body with
  | .data (.httpRequest r) => some r
  | _ => none

/-- The requests of an exchange, oldest first. -/
def requests {V : Type} (events : List (Dialogue.Event (Incoming V) PinScreen (Outgoing PinReply))) :
    List HttpRequest := (Dialogue.outbox events).filterMap requestOf

section Exchange

variable {V : Type} {W : PinWally} {C : TinyCborStrings V} {d : ClientDev V}

@[simp] theorem requests_nil :
    requests ([] : List (Dialogue.Event (Incoming V) PinScreen (Outgoing PinReply))) = [] := rfl

@[simp] theorem requests_append
    (events events' : List (Dialogue.Event (Incoming V) PinScreen (Outgoing PinReply))) :
    requests (events ++ events') = requests events ++ requests events' := by
  rw [requests, Dialogue.outbox_append, List.filterMap_append]
  rfl

/-- The request that is sent. -/
theorem sat_sendHttpRequestReply (document : Document) (data : Bytes) :
    Sat (sendHttpRequestReply C document data)
      (fun _ d' => Talked d d' ∧
        ∃ m out, d.ram.talk.current = some m ∧
          out.body = .data (.httpRequest (httpRequest d.store document data)) ∧
          IsAnswer C m out ∧ d'.ram.talk = d.ram.talk.record (.sent out))
      (fun _ d' => Still d d') d := by
  simp only [sendHttpRequestReply, sat_bind, sat_get, sat_assert]
  refine ⟨fun _ => ?_, fun _ => .refl d⟩
  simp only [sat_onTalk, currentMessage, sat_bind, sat_get, sat_pure]
  cases hcurrent : d.ram.talk.current with
  | none => exact (sat_throw _).2 ⟨⟨rfl, rfl, rfl⟩, rfl⟩
  | some m =>
      simp only [replyWith, replyTo, sat_bind, sat_orFault, Dialogue.sat_send]
      constructor
      · intro a ha
        refine ⟨⟨rfl, rfl, rfl⟩, m, _, rfl, rfl, ⟨rfl, ?_⟩, rfl⟩
        cases hans : replyToMessageResult C m.value (httpRequest d.store document data).size
            (replyBufferLen d.store) with
        | error e =>
            rw [hans] at ha
            cases ha
        | ok a' =>
            rw [hans] at ha
            obtain rfl : a' = a := Except.ok.inj ha
            obtain ⟨id, hid, hans⟩ := bind_eq_ok.1 hans
            obtain ⟨_, hne, hans⟩ := bind_eq_ok.1 hans
            refine idOf_result hid ?_ hans
            intro hzero
            rw [jadeAssert, if_neg (by simp [hzero])] at hne
            cases hne
      · intro _ _
        exact ⟨⟨rfl, rfl, rfl⟩, rfl⟩

/-- Looking at the message changes nothing. -/
theorem sat_isCurrent (method : String) (s : PinTalk V) :
    Sat (isCurrent C method) (fun _ s' => s' = s) (fun _ s' => s' = s) s := by
  simp only [isCurrent, currentMessage, sat_bind, sat_get, sat_pure]
  cases s.current with
  | none => exact (sat_pure _).2 rfl
  | some m => exact (sat_orFault _).2 ⟨fun _ _ => rfl, fun _ _ => rfl⟩

theorem sat_isOracleMessage (s : PinTalk V) :
    Sat (isOracleMessage C) (fun _ s' => s' = s) (fun _ s' => s' = s) s := by
  rw [isOracleMessage, sat_bind]
  refine (sat_isCurrent _ s).mono ?_ (fun _ _ h => h)
  rintro live _ rfl
  rw [sat_ite]
  exact ⟨fun _ => (sat_pure _).2 rfl, fun _ => sat_isCurrent _ _⟩

theorem ok_of_getter {α : Type} {x : Except WireAbort α} {a : α} (h : getter x = .ok a) :
    x = .ok a := by
  cases x with
  | error e => cases h
  | ok a' => exact congrArg _ (Except.ok.inj h)

theorem getter_eq_error {α : Type} {x : Except WireAbort α} {f : Fault}
    (h : getter x = .error f) (a : α) : x ≠ .ok a := by
  rintro rfl
  cases h

/-- The answer is the message that is taken next. -/
theorem sat_handlePinMessage (keys : PinKeys) (s : PinTalk V) :
    Sat (handlePinMessage W C keys)
      (fun result s' => s' = s.take ∧ pinVerdict W C keys s'.current = .ok result)
      (fun _ s' => s' = s ∨ s' = s.take ∧ ∀ result, pinVerdict W C keys s'.current ≠ .ok result)
      s := by
  rw [handlePinMessage, sat_bind]
  refine (sat_isOracleMessage s).mono ?_ (fun _ _ h => .inl h)
  intro live s' hs
  subst s'
  cases live with
  | false => exact (sat_throw _).2 (.inl rfl)
  | true =>
      simp only [Bool.not_true, Bool.false_eq_true, if_false, sat_bind, sat_pure, Dialogue.sat_take,
        currentMessage, sat_get, sat_orFault]
      constructor
      · intro result hresult
        exact ⟨trivial, ok_of_getter hresult⟩
      · intro f hf
        exact .inr ⟨trivial, getter_eq_error hf⟩

/-- Taking a message adds one event. -/
theorem events_take (s : PinTalk V) :
    ∃ e, s.take.events = s.events ++ [e] ∧ requests [e] = [] ∧
      ∀ m, e = .took m ↔ s.take.current = some m := by
  obtain ⟨inbox, current, events⟩ := s
  cases inbox with
  | nil =>
      refine ⟨.lost, rfl, rfl, fun m => ⟨?_, ?_⟩⟩
      · intro h
        cases h
      · intro h
        cases h
  | cons m inbox =>
      refine ⟨.took m, rfl, rfl, fun m' => ⟨?_, ?_⟩⟩
      · intro h
        exact congrArg some (Dialogue.Event.took.inj h)
      · intro h
        exact congrArg _ (Option.some.inj h)

end Exchange

/-! ### Questions -/

section Questions

variable {V : Type} (W : PinWally) (C : TinyCborStrings V) (ask : Ask)

/-- **Questions asked one after the other**: each with a value of the counter that no other has. -/
structure Progress (d d' : ClientDev V) : Prop where
  kept : Kept W d d'
  asked : ∃ es js, d'.ram.talk.events = d.ram.talk.events ++ es ∧ js.Pairwise (· < ·) ∧
    (∀ j ∈ js, floorOf d.store ≤ j ∧ j < floorOf d'.store) ∧
    List.Forall₂ (fun r j => ∃ keys, Question W d'.store ask j keys r) (requests es) js

/-- **Where a key comes from**: the message that was taken right after a question was sent opens
under the keys of that question. -/
def Answered (d : ClientDev V) (aeskey : Bytes) : Prop :=
  ∃ before out m r j keys serverkey,
    d.ram.talk.events = before ++ [.sent out, .took m] ∧ out.body = .data (.httpRequest r) ∧
      Question W d.store ask j keys r ∧ pinVerdict W C keys (some m) = .ok (.success serverkey) ∧
      aeskey = W.hmacSha256 serverkey ask.pin

/-- **When a key comes back**: if the last message came right after a question, and it opens under
the keys of the question. -/
def Heard (d d' : ClientDev V) (key : Option Bytes) : Prop :=
  ∀ before out m after r,
    d'.ram.talk.events = d.ram.talk.events ++ before ++ [.sent out, .took m] ++ after →
    (∀ m', .took m' ∉ after) → out.body = .data (.httpRequest r) →
    ∃ j keys, Question W d'.store ask j keys r ∧ ∀ serverkey,
      pinVerdict W C keys (some m) = .ok (.success serverkey) →
        key = some (W.hmacSha256 serverkey ask.pin)

variable {W C ask} {d d' d'' : ClientDev V}

/-- Nothing is asked. -/
theorem Progress.of_kept (hkept : Kept W d d')
    (hevents : ∃ es, d'.ram.talk.events = d.ram.talk.events ++ es ∧ requests es = []) :
    Progress W ask d d' := by
  obtain ⟨es, hevents, hnone⟩ := hevents
  refine ⟨hkept, es, [], hevents, List.Pairwise.nil, ?_, ?_⟩
  · intro j hj
    exact absurd hj List.not_mem_nil
  · rw [hnone]
    exact .nil

theorem Progress.of_talk (hkept : Kept W d d') (htalk : d'.ram.talk = d.ram.talk) :
    Progress W ask d d' := by
  refine .of_kept hkept ⟨[], ?_, rfl⟩
  rw [htalk, List.append_nil]

/-- One thing is asked, and whatever comes after it is not another question. -/
theorem Progress.of_question (hkept : Kept W d d') {j : ℕ} {keys : PinKeys}
    {r : HttpRequest} (hq : Question W d'.store ask j keys r) (hfloor : floorOf d.store ≤ j)
    (hbelow : j < floorOf d'.store) {out : Outgoing PinReply}
    (hout : out.body = .data (.httpRequest r))
    {es : List (Dialogue.Event (Incoming V) PinScreen (Outgoing PinReply))}
    (hes : requests es = [])
    (hevents : d'.ram.talk.events = d.ram.talk.events ++ (.sent out :: es)) :
    Progress W ask d d' := by
  have hrequests : requests (.sent out :: es) = [r] := by
    rw [← List.singleton_append, requests_append, hes, List.append_nil]
    simp [requests, requestOf, hout]
  refine ⟨hkept, _, [j], hevents, List.pairwise_singleton _ _, ?_, ?_⟩
  · intro j' hj'
    obtain rfl := List.mem_singleton.1 hj'
    exact ⟨hfloor, hbelow⟩
  · rw [hrequests]
    exact .cons ⟨keys, hq⟩ .nil

/-- More questions have larger values. -/
theorem Progress.trans (h : Progress W ask d d') (h' : Progress W ask d' d'') :
    Progress W ask d d'' := by
  obtain ⟨es, js, hevents, hpair, hbounds, hasked⟩ := h.asked
  obtain ⟨es', js', hevents', hpair', hbounds', hasked'⟩ := h'.asked
  refine ⟨h.kept.trans h'.kept, es ++ es', js ++ js', ?_, ?_, ?_, ?_⟩
  · rw [hevents', hevents, List.append_assoc]
  · refine List.pairwise_append.2 ⟨hpair, hpair', ?_⟩
    intro a ha b hb
    exact Nat.lt_of_lt_of_le (hbounds a ha).2 (hbounds' b hb).1
  · intro j hj
    rcases List.mem_append.1 hj with hj | hj
    · exact ⟨(hbounds j hj).1, Nat.lt_of_lt_of_le (hbounds j hj).2 h'.kept.floor⟩
    · exact ⟨h.kept.floor.trans (hbounds' j hj).1, (hbounds' j hj).2⟩
  · rw [requests_append]
    refine List.rel_append (hasked.imp ?_) hasked'
    rintro r j ⟨keys, hq⟩
    exact ⟨keys, hq.kept h'.kept⟩

/-- What comes back, and why. -/
structure Concluded (W : PinWally) (C : TinyCborStrings V) (ask : Ask) (d d' : ClientDev V)
    (key : Option Bytes) : Prop where
  progress : Progress W ask d d'
  answered : ∀ aeskey, key = some aeskey → Answered W C ask d' aeskey
  heard : Heard W C ask d d' key

/-- The key in the result of an interaction. -/
def PinResult.key? {α : Type} : PinResult α → Option α
  | .success a => some a
  | _ => none

/-- At most one thing has happened. -/
theorem heard_of_short {key : Option Bytes}
    (es : List (Dialogue.Event (Incoming V) PinScreen (Outgoing PinReply))) (hlen : es.length ≤ 1)
    (hevents : d'.ram.talk.events = d.ram.talk.events ++ es) : Heard W C ask d d' key := by
  intro before out m after r hlast _ _
  have hlength := congrArg List.length (hevents.symm.trans hlast)
  simp only [List.length_append, List.length_cons, List.length_nil] at hlength
  omega

/-- After a message that brought no key, something else has happened. -/
theorem Heard.push (h : Heard W C ask d d' none) (hkept : Kept W d' d'')
    {e : Dialogue.Event (Incoming V) PinScreen (Outgoing PinReply)}
    (hevents : d''.ram.talk.events = d'.ram.talk.events ++ [e]) (he : ∀ m, e ≠ .took m) :
    Heard W C ask d d'' none := by
  intro before out m after r hlast hno hbody
  rw [hevents] at hlast
  rcases List.eq_nil_or_concat after with rfl | ⟨after, e', rfl⟩
  · rw [List.append_nil, List.append_cons _ _ [_]] at hlast
    exact absurd (List.singleton_inj.1 (List.append_inj' hlast rfl).2) (he m)
  · rw [List.concat_eq_append, ← List.append_assoc] at hlast
    have hno' : ∀ m', Dialogue.Event.took m' ∉ after := fun m' hm' =>
      hno m' (by rw [List.concat_eq_append]; exact List.mem_append_left _ hm')
    obtain ⟨j, keys, hq, hnone⟩ := h before out m after r (List.append_inj' hlast rfl).1 hno' hbody
    exact ⟨j, keys, hq.kept hkept, hnone⟩

theorem concluded_of_talk (hkept : Kept W d d') (htalk : d'.ram.talk = d.ram.talk) :
    Concluded W C ask d d' none where
  progress := .of_talk hkept htalk
  answered := by
    intro aeskey h
    cases h
  heard := heard_of_short [] (Nat.zero_le 1) (by rw [htalk, List.append_nil])

/-- One question, and one thing after it: the result is what the message that was taken says. -/
theorem concluded_of_taken {out : Outgoing PinReply} {j : ℕ} {keys : PinKeys} {r : HttpRequest}
    {e : Dialogue.Event (Incoming V) PinScreen (Outgoing PinReply)} {current : Option (Incoming V)}
    {key : Option Bytes} (hprogress : Progress W ask d d') (hq : Question W d'.store ask j keys r)
    (hout : out.body = .data (.httpRequest r))
    (hevents : d'.ram.talk.events = d.ram.talk.events ++ [.sent out, e])
    (htook : ∀ m, e = .took m ↔ current = some m)
    (hkey : ∀ serverkey, pinVerdict W C keys current = .ok (.success serverkey) ↔
      key = some serverkey) :
    Concluded W C ask d d' (key.map (W.hmacSha256 · ask.pin)) := by
  refine ⟨hprogress, ?_, ?_⟩
  · intro aeskey haeskey
    obtain ⟨serverkey, rfl, rfl⟩ := Option.map_eq_some_iff.1 haeskey
    have hsuccess := (hkey serverkey).2 rfl
    cases current with
    | none => cases hsuccess
    | some m =>
        refine ⟨d.ram.talk.events, out, m, r, j, keys, serverkey, ?_, hout, hq, hsuccess, rfl⟩
        rw [hevents, (htook m).2 rfl]
  · intro before out' m after r' hlast _ hbody
    -- the question and the message are all that happened
    rw [hevents, List.append_assoc, List.append_assoc, List.append_cancel_left_eq] at hlast
    have hlen := congrArg List.length hlast
    simp only [List.length_append, List.length_cons, List.length_nil] at hlen
    obtain rfl := List.length_eq_zero_iff.1 (show before.length = 0 by omega)
    obtain rfl := List.length_eq_zero_iff.1 (show after.length = 0 by omega)
    obtain ⟨hfst, hsnd⟩ := List.cons.inj hlast
    obtain rfl := Dialogue.Event.sent.inj hfst
    have hcurrent := (htook m).1 (List.cons.inj hsnd).1
    rw [hout] at hbody
    obtain rfl := PinReply.httpRequest.inj (Body.data.inj hbody)
    refine ⟨j, keys, hq, ?_⟩
    intro serverkey hsuccess
    rw [← hcurrent] at hsuccess
    rw [(hkey serverkey).1 hsuccess]
    rfl

/-- **One question.** -/
theorem sat_pinserverInteraction (ask : Ask) :
    Sat (pinserverInteraction W C ask.pin ask.document ask.passClientEntropy)
      (fun result d' => Concluded W C ask d d' result.key?)
      (fun _ d' => Concluded W C ask d d' none) d := by
  simp only [pinserverInteraction, sat_bind, sat_getRam, sat_assert]
  refine ⟨fun _ => ?_, fun _ => concluded_of_talk (.refl d) rfl⟩
  refine (sat_generateEphemeralPinkeys (W := W)).mono ?_ fun _ _ h => concluded_of_talk h.1 h.2
  rintro opened d₁ ⟨⟨hkept, htalk⟩, hopened⟩
  cases opened with
  | error errmsg => exact (sat_pure _).2 (concluded_of_talk hkept htalk)
  | ok keys =>
      obtain ⟨j, hkeys, hfloor, hbelow⟩ := hopened keys rfl
      simp only [sat_bind]
      refine (sat_oracleMessage keys ask.pin ask.passClientEntropy).mono ?_ fun _ _ h =>
        concluded_of_talk (hkept.trans h.1) (h.2.trans htalk)
      rintro content d₂ ⟨⟨hkept₂, htalk₂⟩, hcontent⟩
      have hkept' := hkept.trans hkept₂
      have htalk' := htalk₂.trans htalk
      cases content with
      | none => exact (sat_pure _).2 (concluded_of_talk hkept' htalk')
      | some data =>
          obtain ⟨unit, hunit, hmade⟩ := hcontent data rfl
          simp only [sat_bind]
          refine (sat_sendHttpRequestReply ask.document data).mono ?_ fun _ _ h =>
            concluded_of_talk (hkept'.trans h.kept) (h.talk.trans htalk')
          rintro _ d₃ ⟨htalked, m, out, -, hout, -, hsent⟩
          have hkept₃ : Kept W d₂ d₃ := htalked.kept
          have hq : Question W d₂.store ask j keys (httpRequest d₂.store ask.document data) :=
            ⟨hkeys.congr (oraclePubkey_of_kept hkept₂), unit, data, d₂.store, hunit, hmade, rfl⟩
          -- after the question: either nothing more happens, or a message is taken
          have hafter : ∀ (d₄ : ClientDev V)
              (es : List (Dialogue.Event (Incoming V) PinScreen (Outgoing PinReply))),
              Talked d₃ d₄ → requests es = [] →
              d₄.ram.talk.events = d₃.ram.talk.events ++ es →
                d₄.ram.talk.events = d.ram.talk.events ++ (.sent out :: es) ∧
                Question W d₄.store ask j keys (httpRequest d₂.store ask.document data) ∧
                Progress W ask d d₄ := by
            intro d₄ es htalked₄ hes hevents
            have hkept₄ : Kept W d₂ d₄ := hkept₃.trans htalked₄.kept
            have hevents₄ : d₄.ram.talk.events = d.ram.talk.events ++ (.sent out :: es) := by
              rw [hevents, hsent, Dialogue.State.record_events, htalk', List.append_assoc]
              rfl
            have hq₄ := hq.kept hkept₄
            refine ⟨hevents₄, hq₄, .of_question (hkept'.trans hkept₄) hq₄ hfloor.le ?_ hout hes
              hevents₄⟩
            exact Nat.lt_of_lt_of_le hbelow (hkept₂.trans hkept₄).floor
          obtain ⟨e, hevent, hnoRequest, htook⟩ := events_take d₃.ram.talk
          -- what the message that was taken means for the result
          have hverdict : ∀ key, (∀ serverkey, pinVerdict W C keys d₃.ram.talk.take.current =
                .ok (.success serverkey) ↔ key = some serverkey) →
              Concluded W C ask d { d₃ with ram := d₃.ram.putTalk d₃.ram.talk.take }
                (key.map (W.hmacSha256 · ask.pin)) := by
            intro key hkey
            obtain ⟨hevents₄, hq₄, hprogress⟩ := hafter
              { d₃ with ram := d₃.ram.putTalk d₃.ram.talk.take } [e] (talked_putTalk _ _) hnoRequest
              hevent
            exact concluded_of_taken hprogress hq₄ hout hevents₄ htook hkey
          rw [handlePin, sat_onTalk]
          refine (sat_handlePinMessage keys d₃.ram.talk).mono ?_ ?_
          · rintro result talk ⟨rfl, hresult⟩
            cases result with
            | success serverkey =>
                refine (sat_pure _).2 (hverdict (some serverkey) fun key => ?_)
                rw [hresult]
                simp
            | canRetry code message =>
                refine (sat_pure _).2 (hverdict none fun key => ?_)
                rw [hresult]
                simp
            | failure code message =>
                refine (sat_pure _).2 (hverdict none fun key => ?_)
                rw [hresult]
                simp
            | cancelled =>
                refine (sat_pure _).2 (hverdict none fun key => ?_)
                rw [hresult]
                simp
          · rintro _ talk (rfl | ⟨rfl, hnone⟩)
            · obtain ⟨hevents₄, -, hprogress⟩ := hafter
                { d₃ with ram := d₃.ram.putTalk d₃.ram.talk } [] (talked_putTalk _ _) rfl
                (List.append_nil _).symm
              exact ⟨hprogress, (fun _ h => by cases h),
                heard_of_short [_] (Nat.le_refl 1) hevents₄⟩
            · refine hverdict none fun key => ⟨fun h => absurd h (hnone _), fun h => ?_⟩
              cases h

/-- Rejecting a message: it is sent an error, or nothing happens. -/
theorem sat_rejectMessage_sent (code : ℤ) (errmsg : String) (s : PinTalk V) :
    Sat (rejectMessage C code errmsg)
      (fun _ s' => s' = s ∨ ∃ out, out.body = .error code errmsg ∧ s' = s.record (.sent out))
      (fun _ s' => s' = s) s := by
  simp only [rejectMessage, currentMessage, sat_bind, sat_get, sat_pure]
  cases s.current with
  | none => exact (sat_pure _).2 (.inl rfl)
  | some m =>
      simp only [replyWith, replyTo, sat_bind, sat_orFault, Dialogue.sat_send]
      exact ⟨fun a _ => .inr ⟨_, rfl, rfl⟩, fun _ _ => trivial⟩

/-- A step that ends with something other than a message brings no key. -/
theorem Concluded.of_step (h : Concluded W C ask d d' none)
    (hkept : Kept W d' d'') {e : Dialogue.Event (Incoming V) PinScreen (Outgoing PinReply)}
    (hevents : d''.ram.talk.events = d'.ram.talk.events ++ [e]) (hnone : requests [e] = [])
    (he : ∀ m, e ≠ .took m) : Concluded W C ask d d'' none where
  progress := h.progress.trans (.of_kept hkept ⟨[e], hevents, hnone⟩)
  answered := by
    intro aeskey haeskey
    cases haeskey
  heard := h.heard.push hkept hevents he

theorem sat_interactionResult (result : PinResult Bytes) {d₀ : ClientDev V}
    (hd : Concluded W C ask d₀ d result.key?) :
    Sat (interactionResult C result) (fun key d' => Concluded W C ask d₀ d' key)
      (fun _ d' => Concluded W C ask d₀ d' none) d := by
  have hrejects : ∀ code message, Concluded W C ask d₀ d none →
      Sat (do onTalk (rejectMessage C code message); return none : ClientM V (Option Bytes))
        (fun key d' => Concluded W C ask d₀ d' key)
        (fun _ d' => Concluded W C ask d₀ d' none) d := by
    intro code message hnone
    rw [sat_bind, sat_onTalk]
    refine (sat_rejectMessage_sent code message _).mono ?_ ?_
    · rintro _ talk (rfl | ⟨out, hout, rfl⟩)
      · exact (sat_pure _).2 hnone
      · refine (sat_pure _).2 (hnone.of_step (talked_putTalk _ _).kept rfl ?_
          (fun _ h => by cases h))
        simp [requests, requestOf, hout]
    · rintro _ talk rfl
      exact hnone
  cases result with
  | success aeskey => exact (sat_pure _).2 hd
  | cancelled => exact (sat_pure _).2 hd
  | canRetry code message => exact hrejects code message hd
  | failure code message => exact hrejects code message hd

/-- Asking the user whether to try again. -/
theorem sat_showNetworkError {d₀ : ClientDev V} (hd : Concluded W C ask d₀ d none) :
    Sat (showNetworkError : ClientM V Unit)
      (fun _ d' => Concluded W C ask d₀ d' none ∧
        d'.ram.talk.events = d.ram.talk.events ++ [.shown .networkError])
      (fun _ _ => False) d := by
  have hevents :
      (d.ram.talk.showMore (Dialogue.screens d.ram.talk.events ++ [.networkError])).events =
        d.ram.talk.events ++ [.shown .networkError] := by
    rw [Dialogue.State.showMore_append]
    rfl
  rw [showNetworkError, sat_onTalk, Dialogue.sat_onScreens, sat_modify]
  exact ⟨hd.of_step (talked_putTalk _ _).kept hevents rfl (fun _ h => by cases h), hevents⟩

/-- Where a pair lies in what has been extended, when the first of it was not the last thing. -/
theorem pair_append {α : Type} {xs new before after : List α} {a b : α}
    (h : xs ++ new = before ++ [a, b] ++ after) (ha : ∀ ys, xs ≠ ys ++ [a]) :
    (∃ before', new = before' ++ [a, b] ++ after) ∨
      ∃ mid, xs = before ++ [a, b] ++ mid ∧ after = mid ++ new := by
  rw [List.append_assoc, List.append_eq_append_iff] at h
  rcases h with ⟨before', -, hnew⟩ | ⟨mid, hxs, hmid⟩
  · exact .inl ⟨before', by rw [hnew, List.append_assoc]⟩
  · cases mid with
    | nil => exact .inl ⟨[], hmid.symm⟩
    | cons x mid =>
        simp only [List.cons_append, List.nil_append, List.cons.injEq] at hmid
        obtain ⟨rfl, hmid⟩ := hmid
        cases mid with
        | nil => exact absurd hxs (ha before)
        | cons y mid =>
            simp only [List.cons_append, List.cons.injEq] at hmid
            obtain ⟨rfl, hmid⟩ := hmid
            exact .inr ⟨mid, by rw [hxs, List.append_assoc]; rfl, hmid⟩

/-- Another try after a screen. -/
theorem Concluded.retry {key : Option Bytes} (h : Concluded W C ask d d' none)
    {es : List (Dialogue.Event (Incoming V) PinScreen (Outgoing PinReply))}
    (hshown : d'.ram.talk.events = es ++ [.shown .networkError])
    (h' : Concluded W C ask d' d'' key) : Concluded W C ask d d'' key where
  progress := h.progress.trans h'.progress
  answered := h'.answered
  heard := by
    intro before out m after r hlast hno hbody
    obtain ⟨new, js, hnew, -⟩ := h'.progress.asked
    rw [hnew] at hlast
    have hscreen : ∀ ys, d'.ram.talk.events ≠ ys ++ [.sent out] := by
      intro ys hys
      rw [hshown] at hys
      cases List.singleton_inj.1 (List.append_inj' hys rfl).2
    rcases pair_append hlast hscreen with ⟨before', rfl⟩ | ⟨mid, hold, rfl⟩
    · -- the question is a new one
      exact h'.heard before' out m after r (by simp only [hnew, List.append_assoc]) hno hbody
    · -- it is one whose answer did not open
      obtain ⟨j, keys, hq, hnone⟩ := h.heard before out m mid r hold
        (fun m' hm' => hno m' (List.mem_append_left _ hm')) hbody
      refine ⟨j, keys, hq.kept h'.progress.kept, ?_⟩
      intro serverkey hsuccess
      cases hnone serverkey hsuccess

/-- The loop: every try is another question. -/
theorem sat_aeskeyLoop (ask : Ask) (retries : List Bool) :
    Sat (aeskeyLoop W C ask.pin ask.document ask.passClientEntropy retries)
      (fun key d' => Concluded W C ask d d' key) (fun _ d' => Concluded W C ask d d' none) d := by
  induction retries generalizing d with
  | nil =>
      rw [aeskeyLoop, sat_bind]
      refine (sat_pinserverInteraction ask).mono ?_ (fun _ _ h => h)
      intro result d₁ hd₁
      cases result with
      | canRetry code message =>
          simp only [sat_bind]
          exact (sat_showNetworkError hd₁).mono (fun _ _ h => (sat_throw _).2 h.1)
            (fun _ _ h => h.elim)
      | success aeskey => exact sat_interactionResult _ hd₁
      | failure code message => exact sat_interactionResult _ hd₁
      | cancelled => exact sat_interactionResult _ hd₁
  | cons again retries ih =>
      rw [aeskeyLoop, sat_bind]
      refine (sat_pinserverInteraction ask).mono ?_ (fun _ _ h => h)
      intro result d₁ hd₁
      cases result with
      | canRetry code message =>
          simp only [sat_bind]
          refine (sat_showNetworkError hd₁).mono ?_ (fun _ _ h => h.elim)
          rintro _ d₂ ⟨hd₂, hshown⟩
          rw [sat_ite]
          refine ⟨fun _ => ?_, fun _ => sat_interactionResult (.canRetry code message) hd₂⟩
          exact ih.mono (fun _ _ h => hd₂.retry hshown h) (fun _ _ h => hd₂.retry hshown h)
      | success aeskey => exact sat_interactionResult _ hd₁
      | failure code message => exact sat_interactionResult _ hd₁
      | cancelled => exact sat_interactionResult _ hd₁

/-- **Questions until one is answered.** -/
theorem sat_getPinserverAeskey (ask : Ask) (retries : List Bool) :
    Sat (getPinserverAeskey W C ask.pin ask.document ask.passClientEntropy retries)
      (fun key d' => Concluded W C ask d d' key) (fun _ d' => Concluded W C ask d d' none) d := by
  rw [getPinserverAeskey, sat_bind, sat_onTalk]
  refine (sat_isOracleMessage _).mono ?_ ?_
  · rintro live talk rfl
    have hd : { d with ram := d.ram.putTalk d.ram.talk } = d := rfl
    rw [hd]
    simp only [sat_bind, sat_assert]
    exact ⟨fun _ => sat_aeskeyLoop ask retries, fun _ => concluded_of_talk (.refl d) rfl⟩
  · rintro _ talk rfl
    exact concluded_of_talk (talked_putTalk _ _).kept rfl

end Questions

end Jade.Pinclient
