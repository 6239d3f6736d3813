/-
**The phases of `sign_tx` (`process/sign_tx.c`), whatever the transaction.**

Between the confirmations and the signatures messages come in and answers go out, but nothing is
shown.  A run of the process keeps what the answers so far are allowed to say, and the screens that
were accepted so far; the loop over the inputs keeps an invariant of its tables.

Main definitions:

* `Jade.Quiet` — the answers so far are allowed, and these are the screens;
* `Jade.AllowsOthers`, `Jade.AllowsSignatures` — what the answers may say.

Main results:

* `Jade.sat_readInputs_quiet` — the loop over the inputs;
* `Jade.sat_hashTaprootInputs_quiet` — the hashes of the taproot inputs;
* `Jade.sat_sendSignatures_quiet` — the signatures, in both flows;
* `Jade.sat_signTx_quiet` — the whole process.
-/

import Jade.SignTx.Prevouts
import Jade.SignTx.Process

set_option relaxedAutoImplicit false
set_option autoImplicit false

namespace Jade

open Exec Dialogue

section Quiet

variable {V : Type} {α : Type}
  {P : List (Event (Incoming V) (Screen × Bool) (Outgoing TxData)) → Outgoing TxData → Prop}
  {log : Answers} {msgs : List (Incoming V)}
  {s : Dialogue.State (Incoming V) (Screen × Bool) (Outgoing TxData)}
  {C : TinyCborStrings V}

/-! ### Steps that show nothing -/

variable (P log msgs) in
/-- So far every answer was allowed, and these are the screens and the messages. -/
structure Quiet (s : Dialogue.State (Incoming V) (Screen × Bool) (Outgoing TxData)) : Prop where
  allowed : EverySent P s.events
  screens : screens s.events = log
  messages : messages s.events = msgs

variable (P) in
/-- So far every answer was allowed. -/
def Allowed (_ : SignErr) (s : Dialogue.State (Incoming V) (Screen × Bool) (Outgoing TxData)) :
    Prop :=
  EverySent P s.events

theorem quiet_start {inbox : List (Incoming V)} {m₀ : Incoming V} :
    Quiet P [] [] (Dialogue.State.start m₀ inbox) := ⟨everySent_nil, rfl, rfl⟩

theorem Quiet.sent (h : Quiet P log msgs s) {out : Outgoing TxData} (hout : P s.events out) :
    Quiet P log msgs (s.record (.sent out)) where
  allowed := by
    refine h.allowed.push ?_
    intro r hr
    cases hr
    exact hout
  screens := by
    rw [State.record_events, screens_append, screens_sent, List.append_nil]
    exact h.screens
  messages := by
    rw [State.record_events, messages_append, messages_sent, List.append_nil]
    exact h.messages

theorem sat_replyTo_quiet (h : Quiet P log msgs s) {source : UInt8} {body : Body TxData}
    (hbody : ∀ id, P s.events { source, id, body }) (x : Except WireAbort Answer) :
    Sat (replyTo source x body) (fun _ => Quiet P log msgs) (Allowed P) s := by
  simp only [replyTo, sat_bind, sat_orFault, sat_send]
  exact ⟨fun out _ => h.sent (hbody out.id), fun _ _ => h.allowed⟩

theorem sat_replyToMessageBytes_quiet (h : Quiet P log msgs s) {m : Incoming V} {r : TxData}
    (hbody : ∀ id, P s.events { source := m.source, id, body := .data r }) (bytes : Bytes) :
    Sat (replyToMessageBytes C m bytes r) (fun _ => Quiet P log msgs) (Allowed P) s := by
  rw [replyToMessageBytes, sat_dite]
  exact ⟨fun _ => sat_replyTo_quiet h hbody _, fun _ => (sat_throw _).2 h.allowed⟩

/-- The next message, when it is the one that is expected. -/
theorem sat_expectMessage_quiet (h : Quiet P log msgs s) (method errmsg : String) :
    Sat (expectMessage C method errmsg : SignTx V (Incoming V))
      (fun m => Quiet P log (msgs ++ [m])) (Allowed P) s.take := by
  obtain ⟨inbox, current, events⟩ := s
  have hallowed := h.allowed.take
  cases inbox with
  | nil =>
      simp only [expectMessage, currentMessage, sat_bind, sat_get, sat_pure]
      exact (sat_reject _ _).2 hallowed
  | cons m inbox =>
      have hnext : Quiet P log (msgs ++ [m]) (State.take ⟨m :: inbox, current, events⟩) := by
        refine ⟨hallowed, (State.screens_take _).trans h.screens, ?_⟩
        exact (messages_append _ _).trans (congrArg (· ++ [m]) h.messages)
      simp only [expectMessage, currentMessage, sat_bind, sat_get, sat_pure]
      rw [State.take]
      simp only [sat_bind, sat_orFault, sat_ite, sat_pure, sat_reject]
      exact ⟨fun _ _ => ⟨fun _ => hnext, fun _ => hallowed⟩, fun _ _ => hallowed⟩

theorem sat_rejectMessage_quiet (h : EverySent P s.events)
    (hbody : ∀ events source id code errmsg, P events { source, id, body := .error code errmsg })
    (code : ℤ) (errmsg : String) :
    Sat (rejectMessage C code errmsg : SignTx V Unit) (fun _ s' => EverySent P s'.events)
      (Allowed P)
      s := by
  simp only [rejectMessage, currentMessage, sat_bind, sat_get, sat_pure]
  split
  · exact (sat_pure _).2 h
  · exact (sat_replyTo_quiet ⟨h, rfl, rfl⟩ (fun _ => hbody _ _ _ _ _) _).mono
      (fun _ _ h' => h'.allowed) (fun _ _ h' => h')

/-- Screens that are accepted. -/
theorem sat_onScreens_quiet {Q : Answers → Prop} {x : Ui Bool} (h : Quiet P log msgs s)
    (hx : Sat x (fun ok after => ok = true → ∃ shown, after = log ++ shown ∧ Q shown)
      (fun _ _ => True) log) :
    Sat (onScreens x)
      (fun ok s' => EverySent P s'.events ∧
        (ok = true → ∃ shown, Q shown ∧ Quiet P (log ++ shown) msgs s'))
      (Allowed P) s := by
  have hlog := h.screens
  have hmessages : Sat (onScreens x) (fun _ s' => messages s'.events = messages s.events)
      (fun _ _ => True) s := by
    rw [sat_onScreens]
    exact sat_of_forall (fun _ _ => State.messages_showMore _ _) fun _ _ => trivial
  refine ((h.allowed.onScreens x).and
    (hmessages.and (sat_onScreens_accepts (Q := Q) (hlog ▸ hx)))).mono ?_ (fun _ _ h' => h'.1)
  intro ok s' h'
  refine ⟨h'.1, fun hok => ?_⟩
  obtain ⟨shown, hshown, hQ⟩ := h'.2.2 hok
  exact ⟨shown, hQ, h'.1, hshown.trans (congrArg (· ++ shown) hlog), h'.2.1.trans h.messages⟩

end Quiet

section Phases

variable {K V : Type} {L : SignTxLib K V} {forLiquid : Bool} {network : Network}
  {request : SignTxRequest} {m₀ m : Incoming V}
  {P : List (Event (Incoming V) (Screen × Bool) (Outgoing TxData)) → Outgoing TxData → Prop}
  {log : Answers} {msgs : List (Incoming V)}
  {s : Dialogue.State (Incoming V) (Screen × Bool) (Outgoing TxData)}

theorem mem_outputsWithInfo_option {tx : Tx} (infos : Option (List OutputInfo)) {i : ℕ}
    {out : TxOutput} (hout : tx.outputs[i]? = some out) :
    (out, infos.bind fun infos => infos[i]?) ∈ outputsWithInfo tx infos :=
  List.mem_map.2 ⟨(out, i), List.mem_zipIdx_iff_getElem?.2 hout, rfl⟩

/-! ### The inputs -/

/-- Nothing but a signature needs a justification. -/
def NotSignature (body : Body TxData) : Prop := ∀ signature, body ≠ .data (.signature signature)

variable (P) in
/-- All answers but signatures are allowed. -/
def AllowsOthers : Prop :=
  ∀ events source id body, NotSignature body → P events { source, id, body }

theorem msgParams_eq_ok {C : TinyCborStrings V} {params : V} :
    msgParams C m = .ok params ↔ getMsgParams C m.value = some params := by
  rw [msgParams]
  cases getMsgParams C m.value <;> simp

/-- One message about an input. -/
theorem sat_readInput_quiet (hP : AllowsOthers P) (h : Quiet P log msgs s) {st : SigningState}
    {input : TxInput} {index : ℕ} :
    Sat (readInput L forLiquid request st (input, index))
      (fun st' s' => ∃ m params id c, getMsgParams L.cbor.toTinyCborStrings m.value = some params ∧
        processInput L forLiquid request input index params id st = .ok (st', c) ∧
        Quiet P log (msgs ++ [m]) s')
      (Allowed P) s := by
  rw [readInput, sat_bind, sat_take, sat_bind]
  refine (sat_expectMessage_quiet h _ _).mono ?_ (fun _ _ h' => h')
  intro m s₁ hs₁
  rw [sat_bind, sat_orThrow]
  refine ⟨fun out hout => ?_, fun _ _ => hs₁.allowed⟩
  obtain ⟨params, hparams, hout⟩ := bind_eq_ok.1 hout
  obtain ⟨id, -, hout⟩ := bind_eq_ok.1 hout
  obtain ⟨_, -, hout⟩ := bind_eq_ok.1 hout
  have hget := msgParams_eq_ok.1 hparams
  rw [sat_bind, answerInput, sat_ite]
  constructor
  · intro _
    refine (sat_replyToMessageBytes_quiet hs₁ (fun _ => hP _ _ _ _ ?_) _).mono ?_ (fun _ _ h' => h')
    · intro signature hsig
      cases hsig
    · intro _ s₂ hs₂
      exact (sat_pure _).2 ⟨m, params, id, out.2, hget, hout, hs₂⟩
  · intro _
    exact (sat_pure _).2 ((sat_pure _).2 ⟨m, params, id, out.2, hget, hout, hs₁⟩)

/-- The part of a counted list before an element is as long as the element says. -/
theorem zipIdx_eq_append {γ : Type} {xs : List γ} {pre suf : List (γ × ℕ)} {x : γ × ℕ}
    (h : xs.zipIdx = pre ++ x :: suf) :
    x.2 = (pre.map Prod.fst).length ∧ xs = pre.map Prod.fst ++ x.1 :: suf.map Prod.fst := by
  constructor
  · have hget : xs.zipIdx[pre.length]? = some x := by
      rw [h, List.getElem?_append_right le_rfl, Nat.sub_self]
      rfl
    obtain ⟨y, -, hy⟩ := (by simpa using hget : ∃ y, xs[pre.length]? = some y ∧ (y, pre.length) = x)
    rw [← hy, List.length_map]
  · have hmap := congrArg (List.map Prod.fst) h
    rwa [List.zipIdx_map_fst, List.map_append, List.map_cons] at hmap

/-- **The loop over the inputs** keeps an invariant that every turn keeps. -/
theorem sat_readInputs_quiet (hP : AllowsOthers P) (h : Quiet P log [] s)
    {I : List TxInput → List (Incoming V) → SigningState → Prop}
    (hstart : I [] [] { inSums := request.inSums })
    (hstep : ∀ done msgs input st m params id c st', I done msgs st →
      getMsgParams L.cbor.toTinyCborStrings m.value = some params →
      processInput L forLiquid request input done.length params id st = .ok (st', c) →
        I (done ++ [input]) (msgs ++ [m]) st') :
    Sat (readInputs L forLiquid request)
      (fun st s' => ∃ msgs, Quiet P log msgs s' ∧ I request.tx.inputs msgs st) (Allowed P) s := by
  have hloop : Sat (readInputs L forLiquid request)
      (fun st s' => ∃ msgs, Quiet P log msgs s' ∧ I (request.tx.inputs.zipIdx.map Prod.fst) msgs st)
      (Allowed P) s := by
    refine sat_foldlM (fun pre st s' => ∃ msgs, Quiet P log msgs s' ∧ I (pre.map Prod.fst) msgs st)
      _ ?_ _ _ ⟨[], h, hstart⟩
    intro pre entry suf st s' hsplit hs'
    obtain ⟨msgs, hquiet, hst⟩ := hs'
    obtain ⟨input, index⟩ := entry
    obtain rfl := (zipIdx_eq_append hsplit).1
    refine (sat_readInput_quiet hP hquiet).mono ?_ (fun _ _ h' => h')
    intro st' s'' hs''
    obtain ⟨m, params, id, c, hparams, hprocess, hquiet'⟩ := hs''
    refine ⟨msgs ++ [m], hquiet', ?_⟩
    rw [List.map_append]
    exact hstep _ msgs input st m params id c st' hst hparams hprocess
  rwa [List.zipIdx_map_fst] at hloop

/-- The hashes of the taproot inputs are made once all inputs are known. -/
theorem sat_hashTaprootInputs_quiet (h : Quiet P log msgs s) {st : SigningState}
    (hnum : st.numP2trToSign = numTaproot st.inputs) :
    Sat (hashTaprootInputs L network forLiquid request st)
      (fun st' s' => Quiet P log msgs s' ∧ ∃ inputs, st' = { st with inputs } ∧
        List.Forall₂ (TaprootHashed L request.tx st.maps (genesisBlockhash network forLiquid st))
          st.inputs.zipIdx inputs)
      (Allowed P) s := by
  rw [hashTaprootInputs]
  split
  · rw [sat_bind, sat_take, sat_reject]
    exact h.allowed.take
  · next inputs hinputs =>
      refine (sat_pure _).2 ⟨h, inputs, rfl, hashTaproot_eq_some ?_ hinputs⟩
      rw [List.zipIdx_map_fst]
      exact hnum

/-- The data of an input, before its hash was made if that had to wait. -/
theorem getElem?_of_taprootHashed {tx : Tx} {maps : SigningMaps} {genesis : Option Bytes}
    {inputs inputs' : List InputData}
    (h : List.Forall₂ (TaprootHashed L tx maps genesis) inputs.zipIdx inputs') {data : InputData}
    (hmem : data ∈ inputs') :
    ∃ i old, inputs[i]? = some old ∧ TaprootHashed L tx maps genesis (old, i) data := by
  obtain ⟨i, hlt, hget⟩ := List.mem_iff_getElem.1 hmem
  have hlen : inputs.length = inputs'.length := by simpa using h.length_eq
  have hlt' : i < inputs.length := hlen ▸ hlt
  have hentry := h.get (by simpa using hlt') hlt
  simp only [List.get_eq_getElem, List.getElem_zipIdx, Nat.zero_add, hget] at hentry
  exact ⟨i, inputs[i], List.getElem?_eq_getElem hlt', hentry⟩

/-! ### The fee -/

theorem sat_rejectLate_quiet (h : EverySent P s.events) (code : ℤ) (errmsg : String) :
    Sat (rejectLate request code errmsg : SignTx V Unit) (fun _ _ => False) (Allowed P) s := by
  rw [rejectLate, sat_ite, sat_bind, sat_take, sat_reject, sat_reject]
  exact ⟨fun _ => h.take, fun _ => h⟩

theorem sat_showNothingToSign (h : Quiet P log msgs s) (st : SigningState) :
    Sat (showNothingToSign st : SignTx V Unit)
      (fun _ s' => ∃ rest, Quiet P (log ++ accepted rest) msgs s') (Allowed P) s := by
  rw [showNothingToSign, sat_ite]
  constructor
  · intro _
    rw [sat_onScreens, sat_modify]
    refine ⟨[.nothingToSign], h.allowed.map_shown _, ?_, ?_⟩
    · rw [State.showMore_append, screens_append, screens_map_shown, h.screens]
      rfl
    · rw [State.messages_showMore, h.messages]
  · intro _
    exact (sat_pure _).2 ⟨[], by rwa [accepted_nil, List.append_nil]⟩

/-! ### The signatures -/

variable (L network) in
/-- What is sent for an input: nothing, or a signature over its hash. -/
def SignatureOf (data : InputData) (signature : Bytes) : Prop :=
  signature = [] ∨
    data.path ≠ [] ∧ ∃ entropy, walletSignTxInputHash L network data entropy = .ok (some signature)

theorem ne_nil_of_isEmpty_false {α : Type} {xs : List α} (h : ¬ xs.isEmpty = true) : xs ≠ [] :=
  fun hnil => h (List.isEmpty_iff.2 hnil)

theorem aeSignature_eq_ok {data : InputData} {signature : Bytes}
    (h : aeSignature L network data m = .ok signature) : SignatureOf L network data signature := by
  rw [aeSignature] at h
  split at h
  · exact .inl (Except.ok.inj h).symm
  · next hpath =>
      obtain ⟨params, -, h⟩ := bind_eq_ok.1 h
      obtain ⟨entropy, -, h⟩ := bind_eq_ok.1 h
      obtain ⟨signed, hsigned, h⟩ := bind_eq_ok.1 h
      cases signed with
      | none => cases h
      | some signature' =>
          obtain ⟨_, -, h⟩ := bind_eq_ok.1 h
          obtain rfl := pure_eq_ok.1 h
          exact .inr ⟨ne_nil_of_isEmpty_false hpath, entropy, liftFault_eq_ok.1 hsigned⟩

theorem ecSignature_eq_ok {data : InputData} {signature : Bytes}
    (h : ecSignature L network data = .ok (some signature)) :
    SignatureOf L network data signature := by
  rw [ecSignature] at h
  split at h
  · exact .inl (Option.some.inj (Except.ok.inj h)).symm
  · next hpath =>
      obtain ⟨signed, hsigned, h⟩ := bind_eq_ok.1 h
      cases signed with
      | none => cases h
      | some signature' =>
          obtain ⟨_, -, h⟩ := bind_eq_ok.1 h
          obtain rfl := Option.some.inj (pure_eq_ok.1 h)
          exact .inr ⟨ne_nil_of_isEmpty_false hpath, none, hsigned⟩

variable (P log msgs L network) in
/-- Signatures for these inputs may be sent after these screens and messages. -/
def AllowsSignatures (inputs : List InputData) : Prop :=
  ∀ events, screens events = log → msgs <+: messages events → ∀ data ∈ inputs, ∀ signature,
    SignatureOf L network data signature → ∀ source id,
      P events { source, id, body := .data (.signature signature) }

theorem sat_sendAeSignatures_quiet (h : Quiet P log msgs s) {inputs : List InputData}
    (hP : AllowsSignatures L network P log msgs inputs) :
    Sat (sendAeSignatures L network inputs) (fun _ s' => EverySent P s'.events) (Allowed P) s := by
  have hloop : Sat (sendAeSignatures L network inputs)
      (fun _ s' => ∃ more, Quiet P log (msgs ++ more) s') (Allowed P) s := by
    refine sat_forM (fun _ s' => ∃ more, Quiet P log (msgs ++ more) s') inputs ?_ _
      ⟨[], (List.append_nil msgs).symm ▸ h⟩
    intro pre data suf s' hsplit hs'
    obtain ⟨more, hquiet⟩ := hs'
    have hmem : data ∈ inputs := hsplit ▸ List.mem_append_cons_self
    rw [sendAeSignature, sat_bind, sat_take, sat_bind]
    refine (sat_expectMessage_quiet hquiet _ _).mono ?_ (fun _ _ h' => h')
    intro m s₁ hs₁
    rw [List.append_assoc] at hs₁
    rw [sat_bind, sat_orThrow]
    refine ⟨fun signature hsig => ?_, fun _ _ => hs₁.allowed⟩
    have hprefix : msgs <+: messages s₁.events := ⟨more ++ [m], hs₁.messages.symm⟩
    refine (sat_replyToMessageBytes_quiet hs₁ (fun _ => hP _ hs₁.screens hprefix data hmem signature
      (aeSignature_eq_ok hsig) _ _) _).mono ?_ (fun _ _ h' => h')
    intro _ s₂ hs₂
    exact ⟨more ++ [m], hs₂⟩
  refine hloop.mono ?_ (fun _ _ h' => h')
  intro _ s' hs'
  obtain ⟨more, hquiet⟩ := hs'
  exact hquiet.allowed

/-- The signatures of the older flow are made before any is sent. -/
theorem sat_makeEcSignatures (hothers : AllowsOthers P) (h : Quiet P log msgs s)
    (source : UInt8)
    (inputs : List InputData) :
    Sat (makeEcSignatures L network source inputs)
      (fun signatures s' => Quiet P log msgs s' ∧ ∀ sigs, signatures = some sigs →
        List.Forall₂ (SignatureOf L network) inputs sigs)
      (Allowed P) s := by
  induction inputs with
  | nil =>
      refine (sat_pure _).2 ⟨h, ?_⟩
      intro sigs hsigs
      obtain rfl := Option.some.inj hsigs
      exact .nil
  | cons data inputs ih =>
      rw [makeEcSignatures, sat_bind, sat_orFault]
      refine ⟨fun signed hsigned => ?_, fun _ _ => h.allowed⟩
      cases signed with
      | none =>
          rw [sat_bind]
          refine (sat_replyTo_quiet h (fun _ => hothers _ _ _ _ ?_) _).mono ?_ (fun _ _ h' => h')
          · intro signature hsig
            cases hsig
          · intro _ s' hs'
            refine (sat_pure _).2 ⟨hs', ?_⟩
            intro sigs hsigs
            cases hsigs
      | some signature =>
          rw [sat_bind]
          refine ih.mono ?_ (fun _ _ h' => h')
          intro rest s' hs'
          refine (sat_pure _).2 ⟨hs'.1, ?_⟩
          intro sigs hsigs
          obtain ⟨rest', hrest, rfl⟩ := Option.map_eq_some_iff.1 hsigs
          exact .cons (ecSignature_eq_ok hsigned) (hs'.2 rest' hrest)

theorem signatureOf_of_mem_zip {inputs : List InputData} {sigs : List Bytes}
    (h : List.Forall₂ (SignatureOf L network) inputs sigs) {entry : InputData × Bytes}
    (hmem : entry ∈ inputs.zip sigs) :
    entry.1 ∈ inputs ∧ SignatureOf L network entry.1 entry.2 := by
  induction h with
  | nil => cases hmem
  | @cons data sig inputs sigs hsig _ ih =>
      rw [List.zip_cons_cons] at hmem
      rcases List.mem_cons.1 hmem with rfl | hmem
      · exact ⟨List.mem_cons_self, hsig⟩
      · exact ⟨List.mem_cons_of_mem _ (ih hmem).1, (ih hmem).2⟩

theorem sat_sendEcSignatures_quiet (hothers : AllowsOthers P) (h : Quiet P log msgs s)
    (source : UInt8) {inputs : List InputData}
    (hP : AllowsSignatures L network P log msgs inputs) :
    Sat (sendEcSignatures L network source inputs) (fun _ => Quiet P log msgs) (Allowed P) s := by
  rw [sendEcSignatures, sat_bind]
  refine (sat_makeEcSignatures hothers h source inputs).mono ?_ (fun _ _ h' => h')
  intro signatures s₁ hs₁
  cases signatures with
  | none => exact (sat_pure _).2 hs₁.1
  | some sigs =>
      refine sat_forM (fun _ => Quiet P log msgs) _ ?_ _ hs₁.1
      intro pre entry suf s' hsplit hs'
      have hentry : entry ∈ inputs.zip sigs := hsplit ▸ List.mem_append_cons_self
      obtain ⟨hmem, hsig⟩ := signatureOf_of_mem_zip (hs₁.2 sigs rfl) hentry
      have hprefix : msgs <+: messages s'.events := hs'.messages ▸ List.prefix_rfl
      exact sat_replyTo_quiet hs'
        (fun _ => hP _ hs'.screens hprefix entry.1 hmem entry.2 hsig _ _) _

/-- The signatures, in one of the flows. -/
theorem sat_sendSignatures_quiet (hothers : AllowsOthers P) (h : Quiet P log msgs s)
    (source : UInt8) {st : SigningState}
    (hP : ∀ rest, AllowsSignatures L network P (log ++ accepted rest) msgs st.inputs) :
    Sat (sendSignatures L network source request st) (fun _ s' => EverySent P s'.events) (Allowed P)
      s := by
  rw [sendSignatures, sat_bind]
  refine (sat_showNothingToSign h _).mono ?_ (fun _ _ h' => h')
  intro _ s' hs'
  obtain ⟨rest, hquiet⟩ := hs'
  rw [sat_ite]
  constructor
  · intro _
    exact sat_sendAeSignatures_quiet hquiet (hP rest)
  · intro _
    exact (sat_sendEcSignatures_quiet hothers hquiet _ (hP rest)).mono (fun _ _ h' => h'.allowed)
      (fun _ _ h' => h')

/-! ### The process -/

/-- **The whole process**, from what holds of a request that is valid. -/
theorem sat_signTx_quiet (hothers : AllowsOthers P) (inbox : List (Incoming V))
    (hrequest : ∀ network request, openRequest L forLiquid m₀ = .ok (network, request) → ∀ s,
      Quiet P [] [] s → Sat (signRequest L network forLiquid m₀ request)
        (fun _ s' => EverySent P s'.events) (Allowed P) s) :
    Sat (signTx L forLiquid) (fun _ s => EverySent P s.events) (fun _ s => EverySent P s.events)
      (.start m₀ inbox) := by
  have himpl : Sat (signTxImpl L forLiquid) (fun _ s => EverySent P s.events) (Allowed P)
      (.start m₀ inbox) := by
    simp only [signTxImpl, currentMessage, sat_bind, sat_get, sat_pure, Dialogue.State.start,
      sat_orThrow]
    exact ⟨fun opened hopened => hrequest opened.1 opened.2 hopened _ quiet_start,
      fun _ _ => everySent_nil⟩
  rw [signTx, answerErrors, sat_tryCatch]
  refine himpl.mono (fun _ _ h => h) ?_
  intro e s he
  cases e with
  | reject code errmsg =>
      refine sat_rejectMessage_quiet he ?_ code errmsg
      intro events source id code' errmsg'
      exact hothers _ _ _ _ (by intro _ hsig; cases hsig)
  | fault f => exact (sat_throw _).2 he

end Phases

end Jade
