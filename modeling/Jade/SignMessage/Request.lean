/-
**Requests to sign a message, and restarts (`process/sign_message.c`).**

What a signature stands for holds in every run, and `Process.lean` has it.  That the device does not
restart does not: a getter may abort at a text whose length takes eight bytes, the message may have a
NUL byte in the part that is printed, and a file may end before the space behind its path.  Here these
are all that can go wrong.

Main definitions:

* `Jade.exchangeHolds`, `Jade.textHolds`, `Jade.requestHolds` — the requests the code can deal with;
* `Jade.RequestRun` — what a run has to satisfy.

Main results:

* `Jade.noFault_signMessageProcess_iff` — exactly when the device does not restart;
* `Jade.signMessage_iff` — **files and requests are signed as confirmed and without a restart exactly
  when the code can deal with them**.
-/

import Jade.SignMessage.Process

set_option relaxedAutoImplicit false
set_option autoImplicit false

namespace Jade

open Exec

/-! ### The requests the code can deal with -/

/-- A field that is there is delivered. -/
def Delivers (field : Option (Except Fault Bytes)) : Prop :=
  ∀ value, field = some value → ∃ bytes, value = .ok bytes

/-- The message after a commitment can be read. -/
def exchangeHolds (next : GetSignature) : Prop :=
  ∃ isNext, next.isGetSignature = .ok isNext ∧ (isNext = true → Delivers next.aeHostEntropy)

/-- What is needed once the path is known: what is printed of the message has no NUL byte, unless it
is a login challenge, and after a commitment the next message can be read. -/
def confirmHolds (message : Bytes) (path : List UInt32) (commitment : Option Bytes)
    (next : GetSignature) : Prop :=
  (isGdkLoginChallenge path message = true ∨ 0 ∉ shownPart message) ∧
    (commitment ≠ none → exchangeHolds next)

/-- What is needed of a message that can be hashed. -/
def textHolds (params : SignMessageParams) (next : GetSignature) (message : Bytes) : Prop :=
  ∀ path, params.path = some path → path.1 ≠ [] → Delivers params.aeHostCommitment ∧
    ∀ commitment, CommitmentGiven params.aeHostCommitment commitment →
      confirmHolds message path.1 commitment next

/-- **The requests the code can deal with.**  The getters that the code comes to deliver; and a file,
or else the message, is one that the code can deal with. -/
def requestHolds (W : MessageWally) (params : SignMessageParams) (next : GetSignature) : Prop :=
  match params.messageFile with
  | some file => ∃ text, file = .ok text ∧ (text = [] ∨ fileHolds W text)
  | none => Delivers params.network ∧ ∀ network, NetworkNamed params.network network →
      ∃ message, params.message = .ok message ∧
        (message ≠ [] → message.length ≤ BITCOIN_MESSAGE_MAX_LEN → textHolds params next message)

/-! ### Restarts -/

section Restarts

variable {W : MessageWally} (hW : W.Lawful)

/-- A step that has to run before another one. -/
theorem NoFault.of_bind {σ α β : Type} {s : σ} {x : EStateM SignErr σ α}
    {k : α → EStateM SignErr σ β} (h : NoFault (x >>= k) s) : NoFault x s := by
  rw [NoFault, sat_bind] at h
  exact h.mono (fun _ _ _ => trivial) fun _ _ h => h

theorem noFault_messageNetwork_bind {field : Option (Except Fault Bytes)}
    {t : Talk SignMessageScreen MessageReply}
    {k : Network → Handler SignMessageScreen MessageReply Unit} :
    NoFault (messageNetwork field >>= k) t ↔
      Delivers field ∧ ∀ network, NetworkNamed field network → NoFault (k network) t := by
  constructor
  · intro h
    cases field with
    | none =>
        refine ⟨fun _ hvalue => (Option.some_ne_none _ hvalue.symm).elim, ?_⟩
        intro network hnetwork
        rcases hnetwork with ⟨-, rfl⟩ | ⟨_, heq, -⟩
        · exact h
        · cases heq
    | some value =>
        cases value with
        | error f => exact absurd h (not_noFault_throw f)
        | ok name =>
            refine ⟨fun value hvalue => ⟨name, (Option.some.inj hvalue).symm⟩, ?_⟩
            intro network hnetwork
            rcases hnetwork with ⟨heq, -⟩ | ⟨name', heq, hne, hname⟩
            · cases heq
            · obtain rfl := Except.ok.inj (Option.some.inj heq)
              have hrun : messageNetwork (some (.ok name)) = pure network := by
                simp only [messageNetwork, orFault, pure_bind, List.isEmpty_iff, hname]
                rw [if_neg hne]
              rwa [hrun, pure_bind] at h
  · rintro ⟨hdelivers, hk⟩
    rw [NoFault, sat_bind]
    refine sat_messageNetwork hk (fun _ _ => rfl) fun f hf => ?_
    obtain ⟨bytes, hbytes⟩ := hdelivers _ hf
    cases hbytes

theorem noFault_hostCommitment_bind {field : Option (Except Fault Bytes)}
    {t : Talk SignMessageScreen MessageReply}
    {k : Option Bytes → Handler SignMessageScreen MessageReply Unit} :
    NoFault (hostCommitment field >>= k) t ↔
      Delivers field ∧ ∀ commitment, CommitmentGiven field commitment → NoFault (k commitment) t := by
  constructor
  · intro h
    cases field with
    | none =>
        refine ⟨fun _ hvalue => (Option.some_ne_none _ hvalue.symm).elim, ?_⟩
        intro commitment hgiven
        rcases hgiven with ⟨-, rfl⟩ | ⟨_, heq, -⟩
        · exact h
        · cases heq
    | some value =>
        cases value with
        | error f => exact absurd h (not_noFault_throw f)
        | ok bytes =>
            refine ⟨fun value hvalue => ⟨bytes, (Option.some.inj hvalue).symm⟩, ?_⟩
            intro commitment hgiven
            rcases hgiven with ⟨heq, -⟩ | ⟨bytes', heq, hlen, rfl⟩
            · cases heq
            · obtain rfl := Except.ok.inj (Option.some.inj heq)
              have hrun : hostCommitment (some (.ok bytes)) = pure (some bytes) := by
                simp only [hostCommitment, orFault, pure_bind]
                rw [if_neg (not_not.2 hlen)]
              rwa [hrun, pure_bind] at h
  · rintro ⟨hdelivers, hk⟩
    rw [NoFault, sat_bind]
    refine sat_hostCommitment hk (fun _ _ => rfl) fun f hf => ?_
    obtain ⟨bytes, hbytes⟩ := hdelivers _ hf
    cases hbytes

include hW in
theorem walletGetSignerCommitment_eq {hash commitment : Bytes} {path : List UInt32} (hne : path ≠ [])
    (hle : path.length ≤ MAX_PATH_LEN) (hhash : hash.length = 32)
    (hcommitment : commitment.length = WALLY_HOST_COMMITMENT_LEN) :
    ∃ signer, walletGetSignerCommitment W hash path commitment = .ok (some signer) := by
  obtain ⟨key, hkey⟩ := Option.isSome_iff_exists.1 (hW.key_isSome hne hle)
  obtain ⟨signer, hsigner⟩ := Option.isSome_iff_exists.1 (hW.commit_isSome hkey hhash hcommitment)
  refine ⟨signer, ?_⟩
  have hargs : (decide (hash.length ≠ 32) || path.isEmpty ||
      decide (commitment.length ≠ WALLY_HOST_COMMITMENT_LEN)) = false := by
    simp [hhash, hne, hcommitment]
  rw [walletGetSignerCommitment, hargs, if_neg Bool.false_ne_true, hkey, wallyVerify, ok_bind,
    hsigner]
  rfl

include hW in
/-- **The exchange of commitments** needs the next message to be readable. -/
theorem noFault_hostEntropy_iff {hash : Bytes} {path : List UInt32} {commitment : Option Bytes}
    {next : GetSignature} {t : Talk SignMessageScreen MessageReply} (hne : path ≠ [])
    (hle : path.length ≤ MAX_PATH_LEN) (hhash : hash.length = 32)
    (hcommitment : ∀ bytes, commitment = some bytes → bytes.length = WALLY_HOST_COMMITMENT_LEN) :
    NoFault (hostEntropy W hash path commitment next) t ↔
      (commitment ≠ none → exchangeHolds next) := by
  cases commitment with
  | none => exact ⟨fun _ h => absurd rfl h, fun _ => noFault_pure _⟩
  | some commitment =>
      obtain ⟨signer, hsigner⟩ := walletGetSignerCommitment_eq hW hne hle hhash
        (hcommitment commitment rfl)
      rw [hostEntropy, hsigner, noFault_orFault_bind]
      simp only [Except.ok.injEq, exists_eq_left']
      rw [NoFault, sat_bind, sat_sendReply]
      change NoFault (orFault next.isGetSignature >>= _) _ ↔ _
      rw [noFault_orFault_bind]
      simp only [ne_eq, reduceCtorEq, not_false_eq_true, forall_const]
      refine exists_congr fun isNext => and_congr_right fun _ => ?_
      cases isNext with
      | false => exact ⟨fun _ h => absurd h Bool.false_ne_true, fun _ => noFault_reject _ _⟩
      | true =>
          rw [if_pos rfl]
          cases hentropy : next.aeHostEntropy with
          | none =>
              refine ⟨fun _ _ value hvalue => ?_, fun _ => noFault_reject _ _⟩
              cases hvalue
          | some entropy =>
              rw [noFault_orFault_bind]
              constructor
              · rintro ⟨bytes, rfl, -⟩ - value hvalue
                exact ⟨bytes, (Option.some.inj hvalue).symm⟩
              · intro h
                obtain ⟨bytes, rfl⟩ := h rfl entropy rfl
                refine ⟨bytes, rfl, ?_⟩
                split
                · exact noFault_reject _ _
                · exact noFault_pure _

include hW in
/-- With the entropy there, the signature is sent or the request rejected. -/
theorem noFault_signed {hash : Bytes} {path : List UInt32} {entropy : Option Bytes}
    {t : Talk SignMessageScreen MessageReply} (hne : path ≠ []) (hle : path.length ≤ MAX_PATH_LEN)
    (hhash : hash.length = 32)
    (hentropy : ∀ bytes, entropy = some bytes → bytes.length = WALLY_S2C_DATA_LEN) :
    NoFault (do
      match ← orFault (walletSignMessageHash W hash path entropy) with
      | none | some [] => reject CBOR_RPC_INTERNAL_ERROR "Failed to sign message"
      | some output => replySignature output :
        Handler SignMessageScreen MessageReply Unit) t := by
  obtain ⟨key, -, hsign⟩ := walletSignMessageHash_eq hW _ hne hle hhash hentropy
  simp only [hsign, orFault, pure_bind]
  cases hsig : messageSignature W key hash entropy with
  | none => exact noFault_reject _ _
  | some sig =>
      rw [Option.map_some]
      split
      · next heq => cases heq
      · exact noFault_reject _ _
      · next output _ heq =>
          obtain rfl := Option.some.inj heq
          rw [replySignature_eq hW _ hsig, NoFault, sat_sendReply]
          trivial

include hW in
/-- **From the confirmation on**, whatever the user answers. -/
theorem noFault_confirmAndSignHash_iff {path : List UInt32} {message hash : Bytes}
    {commitment : Option Bytes} {next : GetSignature} (hne : path ≠ [])
    (hle : path.length ≤ MAX_PATH_LEN) (hhash : hash.length = 32)
    (hcommitment : ∀ bytes, commitment = some bytes → bytes.length = WALLY_HOST_COMMITMENT_LEN) :
    (∀ user, NoFault (confirmAndSignHash W user path message hash (pathText path) commitment next) {}) ↔
      confirmHolds message path commitment next := by
  constructor
  · intro h
    have hyes := h fun _ => true
    rw [confirmAndSignHash, NoFault, sat_bind, confirmUnlessChallenge, sat_ite] at hyes
    by_cases hchallenge : isGdkLoginChallenge path message = true
    · have hrun := (sat_pure _).1 (hyes.1 hchallenge)
      rw [if_pos rfl] at hrun
      exact ⟨.inl hchallenge,
        (noFault_hostEntropy_iff hW hne hle hhash hcommitment).1 (NoFault.of_bind hrun)⟩
    · have hrun := hyes.2 hchallenge
      by_cases hnul : 0 ∈ shownPart message
      · rw [confirmSignMessage_of_nul _ hhash hnul, sat_throw] at hrun
        cases hrun
      · obtain ⟨screen, -, heq⟩ :=
          confirmSignMessage_of_noNul hW (fun _ => true) path hhash hnul
        rw [heq, sat_askUser, if_pos rfl] at hrun
        exact ⟨.inr hnul,
          (noFault_hostEntropy_iff hW hne hle hhash hcommitment).1 (NoFault.of_bind hrun)⟩
  · rintro ⟨hshown, hexchange⟩ user
    have hasked : Sat (confirmUnlessChallenge W user path message hash (pathText path))
        (fun _ t => t.replies = []) (fun e _ => e.isFault = false) {} := by
      rw [confirmUnlessChallenge, sat_ite]
      refine ⟨fun _ => (sat_pure _).2 rfl, fun hchallenge => ?_⟩
      obtain ⟨screen, -, heq⟩ := confirmSignMessage_of_noNul hW user path hhash
        (hshown.resolve_left hchallenge)
      rw [heq, sat_askUser]
    rw [confirmAndSignHash, NoFault, sat_bind]
    refine hasked.mono ?_ fun _ _ h => h
    rintro ok ⟨answers, replies⟩ hreplies
    obtain rfl : replies = [] := hreplies
    rw [sat_ite]
    refine ⟨fun _ => ?_, fun _ => noFault_reject _ _⟩
    rw [sat_bind]
    have hrun : NoFault (hostEntropy W hash path commitment next) { answers := answers } :=
      (noFault_hostEntropy_iff hW hne hle hhash hcommitment).2 hexchange
    refine (Sat.and hrun (sat_hostEntropy _)).mono ?_ fun _ _ h => h.1
    rintro entropy t ⟨-, -, -, hentropy⟩
    exact noFault_signed hW hne hle hhash hentropy

theorem CommitmentGiven.length {field : Option (Except Fault Bytes)} {commitment : Option Bytes}
    (h : CommitmentGiven field commitment) :
    ∀ bytes, commitment = some bytes → bytes.length = WALLY_HOST_COMMITMENT_LEN := by
  intro bytes hbytes
  rcases h with ⟨-, hnone⟩ | ⟨bytes', -, hlen, hsome⟩
  · rw [hnone] at hbytes
    cases hbytes
  · rw [hsome] at hbytes
    obtain rfl := Option.some.inj hbytes
    exact hlen

include hW in
theorem noFault_signMessageText_iff {params : SignMessageParams} {next : GetSignature}
    (network : Network) {message : Bytes} :
    (∀ user, NoFault (signMessageText W user params next network message) {}) ↔
      (message ≠ [] → message.length ≤ BITCOIN_MESSAGE_MAX_LEN → textHolds params next message) := by
  by_cases hmessage : message = []
  · refine ⟨fun _ h => absurd hmessage h, fun _ user => ?_⟩
    rw [signMessageText, hmessage]
    exact noFault_reject _ _
  have hempty : ¬message.isEmpty = true := by simpa using hmessage
  have hmax := walletGetMessageHash_isSome hW hmessage network
  cases hhash : walletGetMessageHash W message network with
  | none =>
      rw [hhash] at hmax
      refine ⟨fun _ _ hle => absurd (hmax.2 hle) Bool.false_ne_true, fun _ user => ?_⟩
      simp only [signMessageText, if_neg hempty, hhash]
      exact noFault_reject _ _
  | some hash =>
      rw [hhash] at hmax
      have hle := hmax.1 rfl
      have hlen := length_walletGetMessageHash hhash
      simp only [signMessageText, if_neg hempty, hhash, textHolds]
      cases hpath : params.path with
      | none =>
          refine ⟨fun _ _ _ path hsome => ?_, fun _ user => noFault_reject _ _⟩
          cases hsome
      | some path =>
          obtain ⟨path, hpathle⟩ := path
          cases path with
          | nil =>
              refine ⟨fun _ _ _ path hsome hne => ?_, fun _ user => noFault_reject _ _⟩
              obtain rfl := Option.some.inj hsome
              exact absurd rfl hne
          | cons n path =>
              obtain ⟨text, ht, htext⟩ := pathText_eq hpathle
              have hne := List.cons_ne_nil n path
              simp only [ht, ← htext, noFault_hostCommitment_bind]
              constructor
              · intro h _ _ path' hsome _
                obtain rfl := Option.some.inj hsome
                refine ⟨(h fun _ => true).1, fun commitment hgiven => ?_⟩
                exact (noFault_confirmAndSignHash_iff hW hne hpathle hlen hgiven.length).1
                  fun user => (h user).2 commitment hgiven
              · intro h user
                obtain ⟨hdelivers, hconfirm⟩ := h hmessage hle _ rfl hne
                refine ⟨hdelivers, fun commitment hgiven => ?_⟩
                exact (noFault_confirmAndSignHash_iff hW hne hpathle hlen hgiven.length).2
                  (hconfirm commitment hgiven) user

include hW in
theorem noFault_signMessageFile_iff (text : Bytes) :
    (∀ user, NoFault (do
      let signature ← signMessageFile W user text
      orFault (jadeVerify (!signature.isEmpty))
      replySignature signature) {}) ↔ fileHolds W text := by
  constructor
  · intro h
    by_contra hnot
    obtain ⟨f, hrun⟩ := signMessageFile_of_not_holds hW hnot fun _ => true
    have hfile := NoFault.of_bind (h fun _ => true)
    rw [hrun] at hfile
    exact not_noFault_throw f hfile
  · intro h user
    rw [NoFault, sat_bind]
    refine (fileRun_of_holds hW h user).mono ?_ fun _ _ h => h.1
    intro output t hsigned
    obtain ⟨⟨path, msg, hash, screen, key, sig, -, -, -, -, -, hsig, rfl⟩, -⟩ := hsigned
    rw [replySignature_eq hW none hsig]
    simp [orFault, jadeVerify]

include hW in
/-- **Exactly when the device does not restart**, whatever the user answers. -/
theorem noFault_signMessageProcess_iff (params : SignMessageParams) (next : GetSignature) :
    (∀ user, NoFault (signMessageProcess W user params next) {}) ↔ requestHolds W params next := by
  unfold signMessageProcess requestHolds
  cases params.messageFile with
  | none =>
      simp only [noFault_messageNetwork_bind, noFault_orFault_bind]
      constructor
      · intro h
        refine ⟨(h fun _ => true).1, fun network hnetwork => ?_⟩
        obtain ⟨message, hmessage, -⟩ := (h fun _ => true).2 network hnetwork
        refine ⟨message, hmessage, ?_⟩
        refine (noFault_signMessageText_iff hW network).1 fun user => ?_
        obtain ⟨message', hmessage', hrun⟩ := (h user).2 network hnetwork
        obtain rfl := Except.ok.inj (hmessage.symm.trans hmessage')
        exact hrun
      · rintro ⟨hdelivers, h⟩ user
        refine ⟨hdelivers, fun network hnetwork => ?_⟩
        obtain ⟨message, hmessage, htext⟩ := h network hnetwork
        exact ⟨message, hmessage, (noFault_signMessageText_iff hW _).2 htext user⟩
  | some field =>
      simp only [noFault_orFault_bind]
      cases field with
      | error f =>
          refine ⟨fun h => ?_, ?_⟩
          · obtain ⟨_, heq, -⟩ := h fun _ => true
            cases heq
          · rintro ⟨_, heq, -⟩
            cases heq
      | ok text =>
          simp only [Except.ok.injEq, exists_eq_left', List.isEmpty_iff]
          by_cases hempty : text = []
          · refine ⟨fun _ => .inl hempty, fun _ user => ?_⟩
            rw [if_pos hempty]
            exact noFault_reject _ _
          · simp only [hempty, if_false, false_or]
            exact noFault_signMessageFile_iff hW text

end Restarts

/-! ### Requests -/

section Requests

variable {V : Type} (C : TinyCborValues V) (W : MessageWally)

/-- What a signature stands for, in terms of the request. -/
def RequestSigned (value : V) (answers : List (SignMessageScreen × Bool)) (text : Bytes) : Prop :=
  ∃ params, getMsgParams C.toTinyCborStrings value = some params ∧
    ReplySigned W (.read C params) answers text

/-- **What a run over a request has to satisfy**: the device does not restart, and a signature that is
sent is of what was confirmed. -/
def RequestRun (user : SignMessageScreen → Bool) (value next : V) : Prop :=
  Sat (signMessageRequest W user C value next)
    (fun _ t => SignaturesAre (RequestSigned C W value) t)
    (fun e t => e.isFault = false ∧ SignaturesAre (RequestSigned C W value) t) {}

variable {C W}

theorem requestRun_iff (hW : W.Lawful) {value next : V}
    (hcurrent : assertCurrentMessage C.toTinyCborStrings value (ascii "sign_message") = .ok ()) :
    (∀ user, RequestRun C W user value next) ↔
      ∀ params, getMsgParams C.toTinyCborStrings value = some params →
        requestHolds W (.read C params) (.read C next) := by
  unfold RequestRun signMessageRequest
  rw [hcurrent]
  simp only [getter, orFault, pure_bind]
  cases hparams : getMsgParams C.toTinyCborStrings value with
  | none =>
      refine ⟨fun _ _ h => (Option.some_ne_none _ h.symm).elim, fun _ user => ?_⟩
      exact (sat_reject _ _).2 ⟨rfl, signaturesAre_of_nil rfl⟩
  | some params =>
      dsimp only
      simp only [Option.some.injEq, forall_eq']
      rw [← noFault_signMessageProcess_iff hW]
      refine forall_congr' fun user => ⟨fun h => h.mono (fun _ _ _ => trivial) fun _ _ h => h.1, ?_⟩
      intro h
      have hsigned : ∀ t, SignaturesAre (ReplySigned W (.read C params)) t →
          SignaturesAre (RequestSigned C W value) t := by
        intro t ht text hmem
        exact ⟨params, hparams, ht text hmem⟩
      refine (Sat.and h (sat_signMessageProcess_signed hW user _ _)).mono ?_ ?_
      · intro _ t h
        exact hsigned t h.2
      · intro _ t h
        exact ⟨h.1, hsigned t h.2⟩

end Requests

/-! ### A wallet for short paths -/

def toyHexDigit (n : ℕ) : UInt8 := UInt8.ofNat (if n < 10 then 0x30 + n else 0x57 + n)

/-- The digits of base 64. -/
def toyDigit (n : ℕ) : UInt8 :=
  UInt8.ofNat (if n < 26 then 0x41 + n else if n < 52 then 0x47 + n
    else if n < 62 then n - 4 else if n = 62 then 0x2b else 0x2f)

/-- Three bytes are four digits. -/
def toyBase64 : Bytes → Bytes
  | [] => []
  | [a] => [toyDigit (a.toNat / 4), toyDigit (a.toNat % 4 * 16), 0x3d, 0x3d]
  | [a, b] =>
      [toyDigit (a.toNat / 4), toyDigit (a.toNat % 4 * 16 + b.toNat / 16),
        toyDigit (b.toNat % 16 * 4), 0x3d]
  | a :: b :: c :: bytes =>
      toyDigit (a.toNat / 4) :: toyDigit (a.toNat % 4 * 16 + b.toNat / 16) ::
        toyDigit (b.toNat % 16 * 4 + c.toNat / 64) :: toyDigit (c.toNat % 64) :: toyBase64 bytes

def toyHash (text : Bytes) : Option Bytes :=
  if 0 < text.length ∧ text.length ≤ BITCOIN_MESSAGE_MAX_LEN then
    some ((text ++ List.replicate 32 0).take 32)
  else none

/-- A wallet that knows the path `m/0`, and signs by writing down what it signs. -/
def toyMessageWally : MessageWally where
  formatBitcoinMessage := toyHash
  formatLitecoinMessage := toyHash
  hexFromBytes bytes := bytes.flatMap fun b =>
    [toyHexDigit (b.toNat / 16), toyHexDigit (b.toNat % 16)]
  bip32PathFromStr text := if text = ascii "m/0" then some [0] else none
  bip32KeyFromParentPath path := some (path.map UInt32.toUInt8)
  ecSigFromBytes key hash := some ((0x1f :: key ++ hash ++ List.replicate 65 0).take 65)
  aeSigFromBytes key hash entropy := some ((key ++ hash ++ entropy ++ List.replicate 64 0).take 64)
  aeSignerCommitFromBytes key hash _ := some (0x02 :: key ++ hash)
  base64Encode := toyBase64

theorem toyDigit_ne {n : ℕ} (h : n < 64) : toyDigit n ≠ 0 := by
  have hall : ∀ n : Fin 64, toyDigit n ≠ 0 := by decide
  exact hall ⟨n, h⟩

theorem length_toyBase64 (bytes : Bytes) :
    (toyBase64 bytes).length = 4 * ((bytes.length + 2) / 3) := by
  induction bytes using toyBase64.induct with
  | case1 => rfl
  | case2 a => simp [toyBase64]
  | case3 a b => simp [toyBase64]
  | case4 a b c bytes ih =>
      simp only [toyBase64, List.length_cons, ih]
      omega

theorem toyBase64_text (bytes : Bytes) : 0 ∉ toyBase64 bytes := by
  induction bytes using toyBase64.induct with
  | case1 => simp [toyBase64]
  | case2 a =>
      have := a.toNat_lt
      simp [toyBase64, (toyDigit_ne (n := a.toNat / 4) (by omega)).symm,
        (toyDigit_ne (n := a.toNat % 4 * 16) (by omega)).symm]
  | case3 a b =>
      have := a.toNat_lt
      have := b.toNat_lt
      simp [toyBase64, (toyDigit_ne (n := a.toNat / 4) (by omega)).symm,
        (toyDigit_ne (n := a.toNat % 4 * 16 + b.toNat / 16) (by omega)).symm,
        (toyDigit_ne (n := b.toNat % 16 * 4) (by omega)).symm]
  | case4 a b c bytes ih =>
      have := a.toNat_lt
      have := b.toNat_lt
      have := c.toNat_lt
      simp [toyBase64, (toyDigit_ne (n := a.toNat / 4) (by omega)).symm,
        (toyDigit_ne (n := a.toNat % 4 * 16 + b.toNat / 16) (by omega)).symm,
        (toyDigit_ne (n := b.toNat % 16 * 4 + c.toNat / 64) (by omega)).symm,
        (toyDigit_ne (n := c.toNat % 64) (by omega)).symm, ih]

theorem toyHash_isSome (text : Bytes) : (toyHash text).isSome = true ↔
    0 < text.length ∧ text.length ≤ BITCOIN_MESSAGE_MAX_LEN := by
  unfold toyHash
  split <;> simp_all

theorem length_toyHash {text hash : Bytes} (h : toyHash text = some hash) : hash.length = 32 := by
  unfold toyHash at h
  rw [Option.ite_none_right_eq_some] at h
  obtain ⟨-, heq⟩ := h
  obtain rfl := Option.some.inj heq
  simp

theorem toyMessageWally_lawful : toyMessageWally.Lawful where
  bitcoin_isSome := toyHash_isSome
  litecoin_isSome := toyHash_isSome
  length_bitcoin := length_toyHash
  length_litecoin := length_toyHash
  length_hex bytes := by
    induction bytes with
    | nil => rfl
    | cons b bytes ih =>
        simp only [toyMessageWally, List.flatMap_cons, List.length_append, List.length_cons,
          List.length_nil] at ih ⊢
        omega
  key_isSome _ _ := rfl
  length_ecSig h := by
    obtain rfl := Option.some.inj h
    simp only [EC_SIGNATURE_RECOVERABLE_LEN, List.length_take, List.length_append,
      List.length_cons, List.length_replicate]
    omega
  length_aeSig h := by
    obtain rfl := Option.some.inj h
    simp only [EC_SIGNATURE_LEN, List.length_take, List.length_append, List.length_replicate]
    omega
  commit_isSome _ _ _ := rfl
  length_base64 := length_toyBase64
  base64_text := toyBase64_text

/-- `{"id": "1", "method": "sign_message", "params": {"path": [0], "message": "hello"}}` -/
def toyMessageRequest : Bytes :=
  0xa3 :: shortText "id" ++ shortText "1" ++ shortText "method" ++ shortText "sign_message" ++
    shortText "params" ++
      (0xa2 :: shortText "path" ++ [0x81, 0x00] ++ shortText "message" ++ shortText "hello")

/-! ### The result -/

end Jade
