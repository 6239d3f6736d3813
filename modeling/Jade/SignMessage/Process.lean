/-
**Signing a message (`process/sign_message.c`).**

A request gives a message and a path, or a file with both.  Unless the message is a login challenge on
the path of such challenges, the user is shown the message, its hash and the path, and has to agree.
With a commitment of the host the signature is an anti-exfil one: the device answers with a commitment
of its own, and waits for the host's entropy in a second message.

Main definitions:

* `Jade.SignMessageParams`, `Jade.GetSignature` — the parameters, as the getters deliver them;
* `Jade.isGdkLoginChallenge`, `Jade.signMessageProcess`, `Jade.signMessageRequest` — the code;
* `Jade.ReplySigned` — what a signature that is sent stands for.

Main results:

* `Jade.sat_signMessageProcess_signed` — **no signature is sent for anything but what was confirmed**.
-/

import Jade.SignMessage.File
import Jade.Utils.CborParams

set_option relaxedAutoImplicit false
set_option autoImplicit false

namespace Jade

open Exec

/-! ### The parameters -/

/-- The parameters of a request, as the getters deliver them.  An optional field that is not there is
`none`, a text or bytes that cannot be had are empty, and a getter may abort: one that hands out a
pointer does so at a string whose length takes eight bytes. -/
structure SignMessageParams where
  messageFile : Option (Except Fault Bytes)
  network : Option (Except Fault Bytes)
  message : Except Fault Bytes
  path : Option { path : List UInt32 // path.length ≤ MAX_PATH_LEN }
  aeHostCommitment : Option (Except Fault Bytes)

/-- The message after a commitment: is it `get_signature`, and what are its parameters? -/
structure GetSignature where
  isGetSignature : Except Fault Bool
  aeHostEntropy : Option (Except Fault Bytes)

def MAX_NETWORK_NAME_LEN : ℕ := 20

section Read

variable {V : Type} (C : TinyCborValues V)

/-- `rpc_get_string_ptr` -/
def textField (field : String) (params : V) : Except Fault Bytes :=
  getter ((rpcGetStringPtr C.toTinyCbor field params).map fun text => text.getD [])

/-- `rpc_get_bytes_ptr` -/
def bytesField (field : String) (params : V) : Except Fault Bytes :=
  getter ((rpcGetBytesPtr C.toTinyCbor field params).map fun bytes => bytes.getD [])

/-- A field that is only read when it is there. -/
def optionalField (field : String) (params : V) (read : Except Fault Bytes) :
    Option (Except Fault Bytes) :=
  if rpcHasFieldData C field params then some read else none

/-- The parameters of a `sign_message` request. -/
def SignMessageParams.read (params : V) : SignMessageParams where
  messageFile := optionalField C "message_file" params (textField C "message_file" params)
  network := optionalField C "network" params
    (getter (rpcGetString C "network" MAX_NETWORK_NAME_LEN params))
  message := textField C "message" params
  path := (rpcGetBip32Path C "path" MAX_PATH_LEN params).attach.map fun path =>
    ⟨path.1, length_rpcGetBip32Path path.2⟩
  aeHostCommitment :=
    optionalField C "ae_host_commitment" params (bytesField C "ae_host_commitment" params)

/-- The message that is loaded next. -/
def GetSignature.read (value : V) : GetSignature where
  isGetSignature := getter (isCurrentMessage C.toTinyCborStrings value (ascii "get_signature"))
  aeHostEntropy := (getMsgParams C.toTinyCborStrings value).map (bytesField C "ae_host_entropy")

end Read

/-! ### The code -/

def GDK_CHALLENGE_LENGTH : ℕ := 32
def GDK_CHALLENGE_PREFIX : Bytes := ascii "greenaddress.it      login "
def GDK_CHALLENGE_PATH : UInt32 := 0x4741b11e

/-- `isGdkLoginChallenge` -/
def isGdkLoginChallenge (path : List UInt32) (message : Bytes) : Bool :=
  path == [GDK_CHALLENGE_PATH] && message.length == GDK_CHALLENGE_LENGTH &&
    message.take GDK_CHALLENGE_PREFIX.length == GDK_CHALLENGE_PREFIX

/-- `network_from_name` of a C string. -/
def networkFromText (name : Bytes) : Option Network :=
  networkFromName (some (String.ofList ((Bytes.cstr name).map fun b => Char.ofNat b.toNat)))

section Model

variable (W : MessageWally) (user : SignMessageScreen → Bool)

/-- The optional network, which is Bitcoin by default. -/
def messageNetwork (network : Option (Except Fault Bytes)) :
    Handler SignMessageScreen MessageReply Network :=
  match network with
  | none => pure .bitcoin
  | some name => do
      let name ← orFault name
      if name.isEmpty then
        reject CBOR_RPC_BAD_PARAMETERS "Invalid network parameter type or length"
      else
        match networkFromText name with
        | none => reject CBOR_RPC_BAD_PARAMETERS "Unknown network for message signing"
        | some network => pure network

/-- The optional commitment of the host. -/
def hostCommitment (commitment : Option (Except Fault Bytes)) :
    Handler SignMessageScreen MessageReply (Option Bytes) :=
  match commitment with
  | none => pure none
  | some commitment => do
      let commitment ← orFault commitment
      if commitment.length ≠ WALLY_HOST_COMMITMENT_LEN then
        reject CBOR_RPC_BAD_PARAMETERS "Failed to extract valid host commitment from parameters"
      else pure (some commitment)

/-- `wallet_get_signer_commitment` -/
def walletGetSignerCommitment (hash : Bytes) (path : List UInt32) (commitment : Bytes) :
    Except Fault (Option Bytes) :=
  if decide (hash.length ≠ 32) || path.isEmpty ||
      decide (commitment.length ≠ WALLY_HOST_COMMITMENT_LEN) then .ok none
  else do
    let privkey ← wallyVerify (W.bip32KeyFromParentPath path)
    return W.aeSignerCommitFromBytes privkey hash commitment

/-- The exchange of commitments, which gives the entropy of the host. -/
def hostEntropy (hash : Bytes) (path : List UInt32) (commitment : Option Bytes)
    (next : GetSignature) : Handler SignMessageScreen MessageReply (Option Bytes) :=
  match commitment with
  | none => pure none
  | some commitment => do
      match ← orFault (walletGetSignerCommitment W hash path commitment) with
      | none => reject CBOR_RPC_INTERNAL_ERROR "Failed to make ae signer commitment"
      | some signerCommitment => do
          sendReply (.signerCommitment signerCommitment)
          if ← orFault next.isGetSignature then
            match next.aeHostEntropy with
            | none => reject CBOR_RPC_BAD_PARAMETERS "Expecting parameters map"
            | some entropy => do
                let entropy ← orFault entropy
                if entropy.length ≠ WALLY_S2C_DATA_LEN then
                  reject CBOR_RPC_BAD_PARAMETERS "Failed to extract host entropy from parameters"
                else pure (some entropy)
          else
            reject CBOR_RPC_PROTOCOL_ERROR "Unexpected message, expecting 'get_signature'"

/-- The signature, with its terminator, as a reply. -/
def replySignature (output : Bytes) : Handler SignMessageScreen MessageReply Unit := do
  orFault (jadeVerify (decide (output.length < EC_SIGNATURE_LEN * 2)))
  orFault (jadeVerify (output.getLast? == some 0))
  sendReply (.signature (Bytes.cstr output))

/-- A login challenge is signed without asking. -/
def confirmUnlessChallenge (path : List UInt32) (message hash pathstr : Bytes) :
    Handler SignMessageScreen MessageReply Bool :=
  if isGdkLoginChallenge path message then pure true
  else confirmSignMessage W user message hash pathstr

/-- From the confirmation to the signature. -/
def confirmAndSignHash (path : List UInt32) (message hash pathstr : Bytes) (commitment : Option Bytes)
    (next : GetSignature) : Handler SignMessageScreen MessageReply Unit := do
  if ← confirmUnlessChallenge W user path message hash pathstr then do
    let entropy ← hostEntropy W hash path commitment next
    match ← orFault (walletSignMessageHash W hash path entropy) with
    | none | some [] => reject CBOR_RPC_INTERNAL_ERROR "Failed to sign message"
    | some output => replySignature output
  else reject CBOR_RPC_USER_CANCELLED "User declined to sign message"

/-- The message of a request that has no file. -/
def signMessageText (params : SignMessageParams) (next : GetSignature) (network : Network)
    (message : Bytes) : Handler SignMessageScreen MessageReply Unit :=
  if message.isEmpty then
    reject CBOR_RPC_BAD_PARAMETERS "Failed to extract message from parameters"
  else
    match walletGetMessageHash W message network with
    | none => reject CBOR_RPC_INTERNAL_ERROR "Failed to format message for signing"
    | some hash =>
        match params.path with
        | none | some ⟨[], _⟩ =>
            reject CBOR_RPC_BAD_PARAMETERS "Failed to extract valid path from parameters"
        | some ⟨n :: path, _⟩ =>
            match walletBip32PathAsStr (n :: path) (maxPathStrLen MAX_PATH_LEN) false with
            | none => reject CBOR_RPC_INTERNAL_ERROR "Failed to convert path to string format"
            | some pathstr => do
                let commitment ← hostCommitment params.aeHostCommitment
                confirmAndSignHash W user (n :: path) message hash (ascii pathstr) commitment next

/-- `sign_message_process`, with the parameters there. -/
def signMessageProcess (params : SignMessageParams) (next : GetSignature) :
    Handler SignMessageScreen MessageReply Unit :=
  match params.messageFile with
  | some file => do
      let file ← orFault file
      if file.isEmpty then reject CBOR_RPC_BAD_PARAMETERS "Invalid sign message file data"
      else do
        let signature ← signMessageFile W user file
        orFault (jadeVerify (!signature.isEmpty))
        replySignature signature
  | none => do
      let network ← messageNetwork params.network
      let message ← orFault params.message
      signMessageText W user params next network message

/-- `sign_message_process`, for a message that the dispatcher has handed to it. -/
def signMessageRequest {V : Type} (C : TinyCborValues V) (value next : V) :
    Handler SignMessageScreen MessageReply Unit := do
  orFault (getter (assertCurrentMessage C.toTinyCborStrings value (ascii "sign_message")))
  match getMsgParams C.toTinyCborStrings value with
  | none => reject CBOR_RPC_BAD_PARAMETERS "Expecting parameters map"
  | some params => signMessageProcess W user (.read C params) (.read C next)

end Model

/-! ### What a signature stands for -/

/-- The network of the request. -/
def NetworkNamed (field : Option (Except Fault Bytes)) (network : Network) : Prop :=
  (field = none ∧ network = .bitcoin) ∨
    ∃ name, field = some (.ok name) ∧ name ≠ [] ∧ networkFromText name = some network

/-- The commitment of the host, if there is one. -/
def CommitmentGiven (field : Option (Except Fault Bytes)) (commitment : Option Bytes) : Prop :=
  (field = none ∧ commitment = none) ∨
    ∃ bytes, field = some (.ok bytes) ∧ bytes.length = WALLY_HOST_COMMITMENT_LEN ∧
      commitment = some bytes

/-- A signature over the hash of a message, with the key of a path.  The user has confirmed the message
with its hash and path, or the message is a login challenge. -/
def TextSigned (W : MessageWally) (network : Network) (message : Bytes) (path : List UInt32)
    (answers : List (SignMessageScreen × Bool)) (text : Bytes) : Prop :=
  ∃ hash key entropy sig, walletGetMessageHash W message network = some hash ∧
    (isGdkLoginChallenge path message = true ∨
      ∃ screen, ShowsMessage W path message hash screen ∧ answers = [(screen, true)]) ∧
    W.bip32KeyFromParentPath path = some key ∧
    messageSignature W key hash entropy = some sig ∧ text = W.base64Encode sig

/-- **A signature that is sent** is that of the file of the request, or that of its message. -/
def ReplySigned (W : MessageWally) (params : SignMessageParams)
    (answers : List (SignMessageScreen × Bool)) (text : Bytes) : Prop :=
  (∃ file output, params.messageFile = some (.ok file) ∧ FileSigned W file output answers ∧
    text = Bytes.cstr output) ∨
  ∃ network message path, params.messageFile = none ∧ NetworkNamed params.network network ∧
    params.message = .ok message ∧ params.path = some path ∧
      TextSigned W network message path.1 answers text

/-- Every signature among the replies has the property. -/
def SignaturesAre (P : List (SignMessageScreen × Bool) → Bytes → Prop)
    (t : Talk SignMessageScreen MessageReply) : Prop :=
  ∀ text, .signature text ∈ t.replies → P t.answers text

section Signed

variable {W : MessageWally} (hW : W.Lawful) (user : SignMessageScreen → Bool)

theorem signaturesAre_of_nil {P : List (SignMessageScreen × Bool) → Bytes → Prop}
    {t : Talk SignMessageScreen MessageReply} (h : t.replies = []) : SignaturesAre P t := by
  intro text hmem
  rw [h] at hmem
  cases hmem

/-- The size of a signature as text. -/
theorem length_base64_lt (hW : W.Lawful) {key hash sig : Bytes} {entropy : Option Bytes}
    (h : messageSignature W key hash entropy = some sig) :
    (W.base64Encode sig).length + 1 < EC_SIGNATURE_LEN * 2 := by
  have hsize : sig.length ≤ EC_SIGNATURE_RECOVERABLE_LEN := by
    cases entropy with
    | none => exact (hW.length_ecSig h).le
    | some entropy => exact (hW.length_aeSig h).trans_le (by decide)
  rw [hW.length_base64]
  unfold EC_SIGNATURE_RECOVERABLE_LEN at hsize
  unfold EC_SIGNATURE_LEN
  omega

include hW in
theorem replySignature_eq {key hash sig : Bytes} (entropy : Option Bytes)
    (h : messageSignature W key hash entropy = some sig) :
    replySignature (W.base64Encode sig ++ [0]) = sendReply (.signature (W.base64Encode sig)) := by
  have hlen := length_base64_lt hW h
  rw [replySignature, jadeVerify, if_pos (decide_eq_true (by simpa using hlen)), jadeVerify,
    if_pos (by simp), cstr_append_nul (hW.base64_text sig)]
  rfl

/-- The network is read off the request, or the request fails. -/
theorem sat_messageNetwork {Q : Network → Talk SignMessageScreen MessageReply → Prop}
    {E : SignErr → Talk SignMessageScreen MessageReply → Prop}
    {t : Talk SignMessageScreen MessageReply} {field : Option (Except Fault Bytes)}
    (hQ : ∀ network, NetworkNamed field network → Q network t)
    (hreject : ∀ code errmsg, E (.reject code errmsg) t)
    (hfault : ∀ f, field = some (.error f) → E (.fault f) t) :
    Sat (messageNetwork field) Q E t := by
  cases field with
  | none => exact (sat_pure _).2 (hQ _ (.inl ⟨rfl, rfl⟩))
  | some name =>
      cases name with
      | error f => exact (sat_throw _).2 (hfault f rfl)
      | ok name =>
          simp only [messageNetwork, orFault, pure_bind]
          rw [sat_ite]
          refine ⟨fun _ => (sat_reject _ _).2 (hreject _ _), fun hne => ?_⟩
          cases hnetwork : networkFromText name with
          | none => exact (sat_reject _ _).2 (hreject _ _)
          | some network =>
              refine (sat_pure _).2 (hQ _ (.inr ⟨name, rfl, ?_, hnetwork⟩))
              rintro rfl
              exact hne rfl

/-- So is the commitment of the host. -/
theorem sat_hostCommitment {Q : Option Bytes → Talk SignMessageScreen MessageReply → Prop}
    {E : SignErr → Talk SignMessageScreen MessageReply → Prop}
    {t : Talk SignMessageScreen MessageReply} {field : Option (Except Fault Bytes)}
    (hQ : ∀ commitment, CommitmentGiven field commitment → Q commitment t)
    (hreject : ∀ code errmsg, E (.reject code errmsg) t)
    (hfault : ∀ f, field = some (.error f) → E (.fault f) t) :
    Sat (hostCommitment field) Q E t := by
  cases field with
  | none => exact (sat_pure _).2 (hQ _ (.inl ⟨rfl, rfl⟩))
  | some commitment =>
      cases commitment with
      | error f => exact (sat_throw _).2 (hfault f rfl)
      | ok bytes =>
          simp only [hostCommitment, orFault, pure_bind]
          rw [sat_ite]
          refine ⟨fun _ => (sat_reject _ _).2 (hreject _ _), fun hlen => ?_⟩
          exact (sat_pure _).2 (hQ _ (.inr ⟨bytes, rfl, not_not.1 hlen, rfl⟩))

include hW in
/-- The user is asked about the message, its hash and the path, if the device does not restart. -/
theorem sat_confirmSignMessage {path : List UInt32} {msg hash : Bytes} (hhash : hash.length = 32)
    (t : Talk SignMessageScreen MessageReply) :
    Sat (confirmSignMessage W user msg hash (pathText path))
      (fun ok t' => ∃ screen, ShowsMessage W path msg hash screen ∧
        t' = { t with answers := t.answers ++ [(screen, ok)] }) (fun _ t' => t' = t) t := by
  by_cases hnul : 0 ∈ shownPart msg
  · rw [confirmSignMessage_of_nul user hhash hnul]
    exact (sat_throw _).2 rfl
  · obtain ⟨screen, hshows, heq⟩ := confirmSignMessage_of_noNul hW user path hhash hnul
    rw [heq, sat_askUser]
    exact ⟨screen, hshows, rfl⟩

/-- The exchange of commitments asks nothing and sends no signature. -/
theorem sat_hostEntropy {hash : Bytes} {path : List UInt32} {commitment : Option Bytes}
    {next : GetSignature} (answers : List (SignMessageScreen × Bool)) :
    Sat (hostEntropy W hash path commitment next)
      (fun entropy t => t.answers = answers ∧ (∀ text, .signature text ∉ t.replies) ∧
        ∀ bytes, entropy = some bytes → bytes.length = WALLY_S2C_DATA_LEN)
      (fun _ t => t.answers = answers ∧ ∀ text, .signature text ∉ t.replies)
      { answers := answers, replies := [] } := by
  cases commitment with
  | none => exact (sat_pure _).2 ⟨rfl, by simp, by simp⟩
  | some commitment =>
      rw [hostEntropy, sat_bind, sat_orFault]
      refine ⟨fun signer _ => ?_, fun _ _ => ⟨rfl, by simp⟩⟩
      cases signer with
      | none => exact (sat_reject _ _).2 ⟨rfl, by simp⟩
      | some signer =>
          simp only [sat_bind, sat_sendReply, sat_orFault, sat_ite, sat_reject]
          refine ⟨fun isNext _ => ⟨fun _ => ?_, fun _ => ⟨trivial, by simp⟩⟩,
            fun _ _ => ⟨trivial, by simp⟩⟩
          cases next.aeHostEntropy with
          | none => exact (sat_reject _ _).2 ⟨rfl, by simp⟩
          | some entropy =>
              simp only [sat_bind, sat_orFault, sat_ite, sat_reject, sat_pure]
              refine ⟨fun bytes _ => ⟨fun _ => ⟨trivial, by simp⟩, fun hlen => ⟨trivial, by simp, ?_⟩⟩,
                fun _ _ => ⟨trivial, by simp⟩⟩
              intro bytes' heq
              obtain rfl := Option.some.inj heq
              exact not_not.1 hlen

include hW in
/-- From the confirmation on, a signature is one of the message that was confirmed. -/
theorem sat_confirmAndSignHash_signed {network : Network} {path : List UInt32} {message hash : Bytes}
    (hne : path ≠ []) (hle : path.length ≤ MAX_PATH_LEN)
    (hhash : walletGetMessageHash W message network = some hash) (commitment : Option Bytes)
    (next : GetSignature) :
    Sat (confirmAndSignHash W user path message hash (pathText path) commitment next)
      (fun _ t => SignaturesAre (TextSigned W network message path) t)
      (fun _ t => SignaturesAre (TextSigned W network message path) t) {} := by
  have hlen := length_walletGetMessageHash hhash
  have hasked : Sat (confirmUnlessChallenge W user path message hash (pathText path))
      (fun ok t => t.replies = [] ∧ (ok = true → isGdkLoginChallenge path message = true ∨
        ∃ screen, ShowsMessage W path message hash screen ∧ t.answers = [(screen, true)]))
      (fun _ t => t.replies = []) {} := by
    rw [confirmUnlessChallenge, sat_ite]
    refine ⟨fun hchallenge => (sat_pure _).2 ⟨rfl, fun _ => .inl hchallenge⟩, fun _ => ?_⟩
    refine (sat_confirmSignMessage hW user hlen {}).mono ?_ ?_
    · rintro ok _ ⟨screen, hshows, rfl⟩
      refine ⟨rfl, fun hok => .inr ⟨screen, hshows, ?_⟩⟩
      rw [hok]
      rfl
    · rintro _ _ rfl
      rfl
  rw [confirmAndSignHash, sat_bind]
  refine hasked.mono ?_ fun _ _ h => signaturesAre_of_nil h
  rintro ok ⟨answers, replies⟩ ⟨hreplies, hok⟩
  obtain rfl : replies = [] := hreplies
  rw [sat_ite]
  refine ⟨fun hyes => ?_, fun _ => (sat_reject _ _).2 (signaturesAre_of_nil rfl)⟩
  rw [sat_bind]
  refine (sat_hostEntropy answers).mono ?_ fun _ t h text hmem =>
    absurd hmem (h.2 text)
  rintro entropy t ⟨hanswers, hnone, hentropy⟩
  obtain ⟨key, hkey, hsign⟩ := walletSignMessageHash_eq hW _ hne hle hlen hentropy
  simp only [hsign, sat_bind, orFault, sat_pure]
  cases hsig : messageSignature W key hash entropy with
  | none => exact (sat_reject _ _).2 fun text hmem => absurd hmem (hnone text)
  | some sig =>
      have hcons : ∃ b bs, W.base64Encode sig ++ [0] = b :: bs := by
        cases W.base64Encode sig with
        | nil => exact ⟨0, [], rfl⟩
        | cons b bs => exact ⟨b, bs ++ [0], rfl⟩
      obtain ⟨b, bs, hbs⟩ := hcons
      simp only [Option.map_some, hbs]
      rw [← hbs, replySignature_eq hW _ hsig, sat_sendReply]
      intro text hmem
      rcases List.mem_append.1 hmem with hmem | hmem
      · exact absurd hmem (hnone text)
      · simp only [List.mem_singleton, MessageReply.signature.injEq] at hmem
        refine ⟨hash, key, entropy, sig, hhash, ?_, hkey, hsig, hmem⟩
        have hanswers' : t.answers = answers := hanswers
        rw [hanswers']
        exact hok hyes

include hW in
/-- So is one of a request without a file. -/
theorem sat_signMessageText_signed {params : SignMessageParams} {network : Network} {message : Bytes}
    (hfile : params.messageFile = none) (hnetwork : NetworkNamed params.network network)
    (hmessage : params.message = .ok message) (next : GetSignature) :
    Sat (signMessageText W user params next network message)
      (fun _ t => SignaturesAre (ReplySigned W params) t)
      (fun _ t => SignaturesAre (ReplySigned W params) t) {} := by
  have hnone : SignaturesAre (ReplySigned W params) {} := signaturesAre_of_nil rfl
  rw [signMessageText, sat_ite]
  refine ⟨fun _ => (sat_reject _ _).2 hnone, fun _ => ?_⟩
  cases hhash : walletGetMessageHash W message network with
  | none => exact (sat_reject _ _).2 hnone
  | some hash =>
      dsimp only
      split
      · exact (sat_reject _ _).2 hnone
      · exact (sat_reject _ _).2 hnone
      next n path hle hpath =>
      obtain ⟨t, ht, htext⟩ := pathText_eq hle
      simp only [ht]
      rw [← htext, sat_bind]
      refine sat_hostCommitment (fun commitment _ => ?_) (fun _ _ => hnone) fun _ _ => hnone
      have hsigned : ∀ t, SignaturesAre (TextSigned W network message (n :: path)) t →
          SignaturesAre (ReplySigned W params) t := by
        intro t h text hmem
        exact .inr ⟨network, message, ⟨n :: path, hle⟩, hfile, hnetwork, hmessage, hpath, h text hmem⟩
      exact (sat_confirmAndSignHash_signed hW user (List.cons_ne_nil n path) hle hhash commitment
        next).mono (fun _ => hsigned) fun _ => hsigned

include hW in
/-- **No signature is sent for anything but what was confirmed**, or for a login challenge; whether
the request is accepted, rejected or cut short. -/
theorem sat_signMessageProcess_signed (params : SignMessageParams) (next : GetSignature) :
    Sat (signMessageProcess W user params next)
      (fun _ t => SignaturesAre (ReplySigned W params) t)
      (fun _ t => SignaturesAre (ReplySigned W params) t) {} := by
  have hnone : SignaturesAre (ReplySigned W params) {} := signaturesAre_of_nil rfl
  unfold signMessageProcess
  cases hfield : params.messageFile with
  | none =>
      dsimp only
      rw [sat_bind]
      refine sat_messageNetwork (fun network hnetwork => ?_) (fun _ _ => hnone) fun _ _ => hnone
      rw [sat_bind, sat_orFault]
      exact ⟨fun message hmessage =>
        sat_signMessageText_signed hW user hfield hnetwork hmessage next, fun _ _ => hnone⟩
  | some field =>
      dsimp only
      rw [sat_bind, sat_orFault]
      refine ⟨fun file hfile => ?_, fun _ _ => hnone⟩
      obtain rfl := hfile
      rw [sat_ite]
      refine ⟨fun _ => (sat_reject _ _).2 hnone, fun _ => ?_⟩
      rw [sat_bind]
      refine (sat_signMessageFile hW user file).mono ?_ fun _ _ h => signaturesAre_of_nil h
      intro signature t h
      obtain ⟨hsigned, hreplies⟩ := h
      simp only [replySignature, sat_bind, sat_orFault, sat_sendReply]
      have hnone' : SignaturesAre (ReplySigned W params) t := signaturesAre_of_nil hreplies
      refine ⟨fun _ _ => ⟨fun _ _ => ⟨fun _ _ => ?_, fun _ _ => hnone'⟩, fun _ _ => hnone'⟩,
        fun _ _ => hnone'⟩
      intro text hmem
      rw [hreplies, List.nil_append, List.mem_singleton, MessageReply.signature.injEq] at hmem
      exact .inl ⟨file, signature, hfield, hsigned, hmem⟩

end Signed

end Jade
