/-
**What is known of the inputs of `sign_tx` (`process/sign_tx.c`).**

The loop over the inputs fills three tables: the data of the inputs themselves, the amounts and
scripts they spend, and the running total. For Bitcoin and Litecoin an amount is that of the output
spent, in a transaction with the id that the input names. The exception is a single segwit input,
for which the host may state the amount; then the hash that is signed is made with it.

Main definitions:

* `Jade.SignedAs` — what is to be signed as the message about an input says;
* `Jade.Prevout`, `Jade.Spends` — an amount and a script, and that they are what an input spends;
* `Jade.Hashed` — the hash of an input that is to be signed;
* `Jade.InputsRead` — the tables after some of the inputs.

Main results:

* `Jade.processInput_eq_ok` — one turn of the loop;
* `Jade.InputsRead.step` — **the tables stay right**;
* `Jade.hashTaproot_eq_some` — the hashes of the taproot inputs.
-/

import Jade.SignTx.Inputs

set_option relaxedAutoImplicit false
set_option autoImplicit false

namespace Jade

open Exec

section Turn

variable {K V : Type} {L : SignTxLib K V} {forLiquid : Bool} {request : SignTxRequest}
  {input : TxInput} {index : ℕ} {params : V} {id c : Bytes} {st st' : SigningState}
  {sp : SigningParams} {data : InputData}

/-! ### The parts of a turn -/

/-- The path is looked at when it is there; then the input is signed. -/
theorem processInput_eq_ok
    (h : processInput L forLiquid request input index params id st = .ok (st', c)) :
    (∃ st₁ sp st₂ data, inputToSign L forLiquid request index params id st = .ok (st₁, sp) ∧
      prevout L forLiquid request.tx.inputs.length input index params sp.input.sigType st₁ =
        .ok st₂ ∧
      hashInput L request index st₂.maps sp = .ok (data, c) ∧ st' = st₂.push data) ∨
    ∃ st₂, prevout L forLiquid request.tx.inputs.length input index params
        (inputNotToSign L forLiquid params id).sigType st = .ok st₂ ∧
      st' = st₂.push (inputNotToSign L forLiquid params id) := by
  dsimp only [processInput] at h
  split at h
  · obtain ⟨⟨st₁, sp⟩, hsign, h⟩ := bind_eq_ok.1 h
    obtain ⟨st₂, hprev, h⟩ := bind_eq_ok.1 h
    obtain ⟨⟨data, commitment⟩, hhash, h⟩ := bind_eq_ok.1 h
    obtain ⟨rfl, rfl⟩ := Prod.mk.inj (pure_eq_ok.1 h)
    exact .inl ⟨st₁, sp, st₂, data, hsign, hprev, hhash, rfl⟩
  · obtain ⟨st₂, hprev, h⟩ := bind_eq_ok.1 h
    obtain ⟨rfl, -⟩ := Prod.mk.inj (pure_eq_ok.1 h)
    exact .inr ⟨st₂, hprev, rfl⟩

theorem signerPath_ne_nil {path : Option PathArray} {elements : List UInt32}
    (h : signerPath path = some elements) : elements ≠ [] := by
  cases path with
  | none => cases h
  | some path =>
      rw [signerPath] at h
      split at h
      · cases h
      · next hne =>
          obtain rfl := Option.some.inj h
          intro hnil
          exact hne (List.isEmpty_iff.2 hnil)

variable (L) in
/-- **What is signed as the message about an input says**: with the key of its path, for its script,
and in the way that the script and the flag for witnesses ask for. -/
structure SignedAs (params : V) (data : InputData) (script : Bytes) : Prop where
  path : signerPath (bip32PathField L.cbor "path" params) = some data.path
  field : bytesField L.cbor.toTinyCborValues "script" params = .ok script
  nonempty : script ≠ []
  sigType : ∃ isWitness scriptType,
    rpcGetBoolean L.cbor.toTinyCbor "is_witness" params = some isWitness ∧
    L.scripts.wallet.scriptType script = some scriptType ∧
    data.sigType = some (if (getScriptFlavour scriptType).2 then .swV1
      else if isWitness then .swV0 else .preSw)

theorem SignedAs.path_ne_nil {script : Bytes} (h : SignedAs L params data script) :
    data.path ≠ [] := signerPath_ne_nil h.path

/-- An input with a path keeps its id, and the rest is as its message says. -/
theorem paramsTxInputSigningData_eq_ok {useAe : Bool} {flavour : ScriptFlavour}
    (h : paramsTxInputSigningData L useAe params id flavour = .ok sp) :
    sp.input.id = id ∧ SignedAs L params sp.input sp.script := by
  rw [paramsTxInputSigningData] at h
  split at h
  · cases h
  · next isWitness hwitness =>
      split at h
      · cases h
      · next path hpath =>
          obtain ⟨sighash, -, h⟩ := bind_eq_ok.1 h
          obtain ⟨commitment, -, h⟩ := bind_eq_ok.1 h
          obtain ⟨script, hscript, h⟩ := bind_eq_ok.1 h
          obtain ⟨_, hne, h⟩ := bind_eq_ok.1 h
          obtain ⟨scriptType, htype, h⟩ := bind_eq_ok.1 h
          obtain ⟨_, -, h⟩ := bind_eq_ok.1 h
          obtain rfl := pure_eq_ok.1 h
          rw [rejectUnless_eq_ok, Bool.not_eq_true'] at hne
          refine ⟨rfl, hpath, liftFault_eq_ok.1 hscript, ?_, isWitness, scriptType, hwitness,
            wallyVerify_eq_ok.1 (liftFault_eq_ok.1 htype), ?_⟩
          · rintro rfl
            cases hne
          · cases (getScriptFlavour scriptType).2 <;> rfl

/-- The counts, and for Liquid more. -/
theorem inputToSign_eq_ok {st₁ : SigningState}
    (h : inputToSign L forLiquid request index params id st = .ok (st₁, sp)) :
    (sp.input.id = id ∧ SignedAs L params sp.input sp.script) ∧
      supportedSighash forLiquid request sp.input = true ∧
      st₁ = { st.count sp with inSums := st₁.inSums, maps := st₁.maps } ∧
      (forLiquid = false → st₁ = st.count sp) := by
  obtain ⟨sp', hsp, h⟩ := bind_eq_ok.1 h
  obtain ⟨_, hsupported, h⟩ := bind_eq_ok.1 h
  have hdata := paramsTxInputSigningData_eq_ok hsp
  rw [rejectUnless_eq_ok] at hsupported
  cases forLiquid with
  | false =>
      obtain ⟨rfl, rfl⟩ := Prod.mk.inj (pure_eq_ok.1 h)
      exact ⟨hdata, hsupported, rfl, fun _ => rfl⟩
  | true =>
      obtain ⟨inSums, -, h⟩ := bind_eq_ok.1 h
      obtain ⟨maps, -, h⟩ := bind_eq_ok.1 h
      obtain ⟨rfl, rfl⟩ := Prod.mk.inj (pure_eq_ok.1 h)
      refine ⟨hdata, hsupported, rfl, ?_⟩
      intro hfalse
      cases hfalse

/-- The transaction of an input concerns the maps and the total. -/
theorem prevout_eq_ok {n : ℕ} {sigType : Option SigType}
    (h : prevout L forLiquid n input index params sigType st = .ok st') :
    st' = { st with maps := st'.maps, inputAmount := st'.inputAmount } := by
  cases forLiquid with
  | true =>
      obtain ⟨_, -, h⟩ := bind_eq_ok.1 h
      obtain ⟨_, -, h⟩ := bind_eq_ok.1 h
      obtain rfl := pure_eq_ok.1 h
      rfl
  | false =>
      obtain ⟨txbuf, -, h⟩ := bind_eq_ok.1 h
      cases txbuf with
      | some txbuf =>
          obtain ⟨txout, -, h⟩ := bind_eq_ok.1 h
          obtain rfl := pure_eq_ok.1 h
          rfl
      | none =>
          obtain ⟨_, -, h⟩ := bind_eq_ok.1 h
          cases hsatoshi : rpcGetUint64 L.cbor "satoshi" params with
          | none =>
              simp only [hsatoshi] at h
              cases h
          | some satoshi =>
              simp only [hsatoshi] at h
              obtain rfl := pure_eq_ok.1 h
              rfl

/-- The hash, which a taproot input does not have yet. -/
theorem hashInput_eq_ok {maps : SigningMaps}
    (h : hashInput L request index maps sp = .ok (data, c)) :
    (sp.input.sigType = some .swV1 ∧ request.useAeSignatures = true ∧ data = sp.input) ∨
    (sp.input.sigType ≠ some .swV1 ∧ ∃ hash,
      L.inputSignatureHash request.tx index maps (some sp.script) none sp.input.sighash
        sp.input.sigType = some hash ∧ data = { sp.input with signatureHash := hash }) := by
  rw [hashInput] at h
  split at h
  · next htaproot =>
      split at h
      · next hae =>
          obtain ⟨rfl, -⟩ := Prod.mk.inj (Except.ok.inj h)
          exact .inl ⟨htaproot, hae, rfl⟩
      · cases h
  · next hother =>
      split at h
      · cases h
      · next hash hhash =>
          obtain ⟨_, -, h⟩ := bind_eq_ok.1 h
          obtain ⟨rfl, -⟩ := Prod.mk.inj (pure_eq_ok.1 h)
          exact .inr ⟨hother, hash, hhash, rfl⟩

theorem inputNotToSign_path : (inputNotToSign L forLiquid params id).path = [] := by
  cases forLiquid <;> rfl

theorem inputNotToSign_id : (inputNotToSign L forLiquid params id).id = id := by
  cases forLiquid <;> rfl

theorem isTaproot_of_path_eq_nil {data : InputData} (h : data.path = []) :
    data.isTaproot = false := by
  rw [InputData.isTaproot, h, List.isEmpty_nil, Bool.not_true, Bool.and_false]

/-- The number of taproot inputs that are to be signed. -/
def numTaproot (inputs : List InputData) : ℕ := (inputs.filter InputData.isTaproot).length

theorem numTaproot_push (inputs : List InputData) (data : InputData) :
    numTaproot (inputs ++ [data]) = numTaproot inputs + if data.isTaproot then 1 else 0 := by
  rw [numTaproot, numTaproot, List.filter_append, List.length_append]
  cases h : data.isTaproot <;> simp [h]

variable (L) in
/-- An input that is signed as its message says has its hash, unless that has to wait. -/
def OwnHash (tx : Tx) (index : ℕ) (params : V) (data : InputData) : Prop :=
  ∃ script, SignedAs L params data script ∧ (data.isTaproot = false → ∃ maps,
    L.inputSignatureHash tx index maps (some script) none data.sighash data.sigType =
      some data.signatureHash)

/-- **One turn of the loop**: the data of one more input, under the id of its message and as it says,
and the count of the taproot inputs that wait for their hash. -/
theorem processInput_push
    (h : processInput L forLiquid request input index params id st = .ok (st', c)) :
    ∃ data, st'.inputs = st.inputs ++ [data] ∧ data.id = id ∧
      (data.path ≠ [] → OwnHash L request.tx index params data) ∧
      (data.isTaproot = true → request.useAeSignatures = true) ∧
      st'.numP2trToSign = st.numP2trToSign + if data.isTaproot then 1 else 0 := by
  rcases processInput_eq_ok h with ⟨st₁, sp, st₂, data, hsign, hprev, hhash, rfl⟩ |
    ⟨st₂, hprev, rfl⟩
  · obtain ⟨⟨hid, hown⟩, -, hst₁, -⟩ := inputToSign_eq_ok hsign
    have hst₂ := prevout_eq_ok hprev
    have hinputs : st₂.inputs = st.inputs := by rw [hst₂, hst₁]; rfl
    have hnum : st₂.numP2trToSign =
        st.numP2trToSign + if sp.input.sigType = some .swV1 then 1 else 0 := by
      rw [hst₂, hst₁]
      rfl
    have hpathData : sp.input.path.isEmpty = false := by
      rw [← Bool.not_eq_true, List.isEmpty_iff]
      exact hown.path_ne_nil
    refine ⟨data, congrArg (· ++ [data]) hinputs, ?_⟩
    rcases hashInput_eq_ok hhash with ⟨htaproot, hae, rfl⟩ | ⟨hother, hash, hmade, rfl⟩
    · have htap : sp.input.isTaproot = true := by
        rw [InputData.isTaproot, htaproot, hpathData]
        rfl
      refine ⟨hid, fun _ => ⟨sp.script, hown, fun hnot => ?_⟩, fun _ => hae, ?_⟩
      · rw [htap] at hnot
        cases hnot
      rw [htap, if_pos rfl]
      exact hnum.trans (by rw [if_pos htaproot])
    · have htap : ({ sp.input with signatureHash := hash } : InputData).isTaproot = false := by
        rw [InputData.isTaproot, beq_eq_false_iff_ne.2 hother, Bool.false_and]
      refine ⟨hid, fun _ => ⟨sp.script, ⟨hown.path, hown.field, hown.nonempty, hown.sigType⟩,
        fun _ => ⟨st₂.maps, hmade⟩⟩,
        fun htrue => absurd (htap.symm.trans htrue) Bool.false_ne_true, ?_⟩
      rw [htap]
      exact hnum.trans (by rw [if_neg hother]; rfl)
  · have hst₂ := prevout_eq_ok hprev
    have htap : (inputNotToSign L forLiquid params id).isTaproot = false :=
      isTaproot_of_path_eq_nil inputNotToSign_path
    refine ⟨_, ?_, inputNotToSign_id, fun hpath => absurd inputNotToSign_path hpath,
      fun htrue => absurd (htap.symm.trans htrue) Bool.false_ne_true, ?_⟩
    · rw [hst₂]
      rfl
    · rw [htap, hst₂]
      rfl

end Turn

/-! ### Amounts and scripts -/

/-- What an input spends; the script is not known of an input whose amount the host has stated. -/
structure Prevout where
  satoshi : UInt64
  script : Option Bytes

section Prevouts

variable {K V : Type} (L : SignTxLib K V)

/-- **The amount and the script are those of the output that the input spends**, in a transaction
with the id that the input names, or the amount is stated for a transaction with no other input. -/
inductive Spends (numInputs : ℕ) (input : TxInput) (sigType : Option SigType) : Prevout → Prop
  | output {txbuf : Bytes} {inputTx : Tx} {txout : TxOutput} :
      L.txFromBytes txbuf false = some inputTx → L.txGetTxid inputTx = some input.txhash →
      inputTx.outputs[input.index.toNat]? = some txout →
      Spends numInputs input sigType ⟨txout.satoshi, some txout.script⟩
  | stated {satoshi : UInt64} : numInputs ≤ 1 → sigType = some .swV0 →
      Spends numInputs input sigType ⟨satoshi, none⟩

/-- The items of a table with a value for each input that has one. -/
def tableOf (value : Prevout → Option Bytes) (spent : List Prevout) : List (MapKey × Bytes) :=
  spent.zipIdx.filterMap fun entry => (value entry.1).map fun bytes => (.int entry.2, bytes)

def Prevout.amount (p : Prevout) : Option Bytes := some (satoshiBytes p.satoshi)

variable {L} {value : Prevout → Option Bytes} {spent : List Prevout} {p : Prevout}

theorem tableOf_push (value : Prevout → Option Bytes) (spent : List Prevout) (p : Prevout) :
    tableOf value (spent ++ [p]) =
      tableOf value spent ++
        ((value p).map fun bytes => (MapKey.int spent.length, bytes)).toList := by
  rw [tableOf, List.zipIdx_append, List.filterMap_append, Nat.zero_add]
  cases h : value p <;> simp [tableOf, h]

/-- The keys are the positions. -/
theorem lt_of_mem_tableOf {item : MapKey × Bytes} (h : item ∈ tableOf value spent) :
    ∃ i < spent.length, item.1 = .int i := by
  obtain ⟨⟨p, i⟩, hmem, hitem⟩ := List.mem_filterMap.1 h
  obtain ⟨bytes, -, rfl⟩ := Option.map_eq_some_iff.1 hitem
  obtain ⟨hlt, -⟩ := List.mem_zipIdx' hmem
  exact ⟨i, hlt, rfl⟩

theorem find?_tableOf_of_le {i : ℕ} (h : spent.length ≤ i) :
    (tableOf value spent).find? (·.1 == .int i) = none := by
  rw [List.find?_eq_none]
  intro item hmem hkey
  obtain ⟨j, hj, hitem⟩ := lt_of_mem_tableOf hmem
  obtain rfl : j = i := MapKey.int.inj (hitem.symm.trans (beq_iff_eq.1 hkey))
  omega

/-- The value at a position is that of the input there. -/
theorem find_tableOf {m : WallyMap} (hm : m.items = tableOf value spent) (i : ℕ) :
    m.find (.int i) = spent[i]?.bind value := by
  rw [WallyMap.find, hm]
  clear hm
  induction spent using List.reverseRecOn with
  | nil => rfl
  | append_singleton spent p ih =>
      rcases Nat.lt_or_ge spent.length i with hgt | hle
      · have hlen : (spent ++ [p]).length ≤ i := by
          rw [List.length_append, List.length_singleton]
          exact hgt
        rw [find?_tableOf_of_le hlen, List.getElem?_eq_none hlen]
        rfl
      · rw [tableOf_push, List.find?_append]
        rcases Nat.eq_or_lt_of_le hle with rfl | hlt
        · rw [find?_tableOf_of_le le_rfl, Option.none_or, List.getElem?_concat_length]
          cases hv : value p <;> simp [hv]
        · have hlast : (((value p).map fun bytes => (MapKey.int spent.length, bytes)).toList).find?
              (·.1 == .int i) = none := by
            rw [List.find?_eq_none]
            intro item hmem hkey
            obtain ⟨bytes, -, rfl⟩ := Option.map_eq_some_iff.1 (Option.mem_toList.1 hmem)
            have hi := MapKey.int.inj (beq_iff_eq.1 hkey)
            omega
          rw [hlast, Option.or_none, List.getElem?_append_left hlt, ih]

/-- A table with one more value. -/
theorem items_add_tableOf {m : WallyMap} (hm : m.items = tableOf value spent) {bytes : Bytes}
    (hp : value p = some bytes) :
    (m.add (.int spent.length, bytes)).items = tableOf value (spent ++ [p]) := by
  have hnew : MapKey.int spent.length ∉ m.items.map Prod.fst := by
    intro hmem
    obtain ⟨item, hitem, hkey⟩ := List.mem_map.1 hmem
    rw [hm] at hitem
    obtain ⟨i, hi, hitem⟩ := lt_of_mem_tableOf hitem
    have hi' := MapKey.int.inj (hkey.symm.trans hitem)
    omega
  rw [tableOf_push, ← hm, hp, WallyMap.add, dif_neg hnew]
  rfl

/-- The script of what is spent goes into its table when it is known. -/
def addScript (m : WallyMap) (index : ℕ) (p : Prevout) : WallyMap :=
  match p.script with
  | none => m
  | some script => m.add (.int index, script)

theorem items_addScript {m : WallyMap} (hm : m.items = tableOf Prevout.script spent)
    (p : Prevout) : (addScript m spent.length p).items = tableOf Prevout.script (spent ++ [p]) := by
  rw [addScript]
  cases hp : p.script with
  | none =>
      rw [tableOf_push, hp, hm]
      exact (List.append_nil _).symm
  | some script => exact items_add_tableOf hm hp

/-- The state after what is spent was looked up. -/
def SigningState.spend (st : SigningState) (index : ℕ) (p : Prevout) : SigningState :=
  { st with
    maps := { st.maps with
      scriptpubkeys := addScript st.maps.scriptpubkeys index p
      amounts := st.maps.amounts.add (.int index, satoshiBytes p.satoshi) }
    inputAmount := st.inputAmount + p.satoshi }

theorem prevTxOutput_eq_ok {input : TxInput} {txbuf : Bytes} {txout : TxOutput}
    (h : prevTxOutput L input txbuf = .ok txout) :
    ∃ inputTx, L.txFromBytes txbuf false = some inputTx ∧
      L.txGetTxid inputTx = some input.txhash ∧
      inputTx.outputs[input.index.toNat]? = some txout := by
  rw [prevTxOutput] at h
  split at h
  · cases h
  · next inputTx htx =>
      obtain ⟨_, hid, h⟩ := bind_eq_ok.1 h
      rw [rejectUnless_eq_ok, beq_iff_eq] at hid
      split at h
      · cases h
      · next txout' hout =>
          exact ⟨inputTx, htx, hid, by rw [hout, pure_eq_ok.1 h]⟩

/-- What an input of Bitcoin or Litecoin spends. -/
theorem btcPrevout_eq_ok {n index : ℕ} {input : TxInput} {params : V} {sigType : Option SigType}
    {st st' : SigningState} (h : btcPrevout L n input index params sigType st = .ok st') :
    ∃ p, Spends L n input sigType p ∧ st' = st.spend index p := by
  obtain ⟨txbuf, -, h⟩ := bind_eq_ok.1 h
  cases txbuf with
  | some txbuf =>
      obtain ⟨txout, hout, h⟩ := bind_eq_ok.1 h
      obtain ⟨inputTx, htx, hid, hget⟩ := prevTxOutput_eq_ok hout
      exact ⟨_, .output htx hid hget, (pure_eq_ok.1 h).symm⟩
  | none =>
      obtain ⟨_, hsingle, h⟩ := bind_eq_ok.1 h
      cases hsatoshi : rpcGetUint64 L.cbor "satoshi" params with
      | none =>
          simp only [hsatoshi] at h
          cases h
      | some satoshi =>
          simp only [hsatoshi] at h
          rw [rejectUnless_eq_ok, Bool.and_eq_true, beq_iff_eq, decide_eq_true_iff] at hsingle
          exact ⟨_, .stated hsingle.2 hsingle.1, (pure_eq_ok.1 h).symm⟩

/-! ### The loop -/

/-- The sighash is the default of a taproot input or the one for all inputs and outputs. -/
def CommitsToOutputs (data : InputData) : Prop :=
  data.sighash = WALLY_SIGHASH_ALL.toUInt8 ∨
    data.sigType = some .swV1 ∧ data.sighash = WALLY_SIGHASH_DEFAULT.toUInt8

theorem commitsToOutputs_of_supported {request : SignTxRequest} {data : InputData}
    (h : supportedSighash false request data = true) : CommitsToOutputs data := by
  have heq : ∀ sighash : UInt32, sighash < 256 → data.sighash.toUInt32 = sighash →
      data.sighash = sighash.toUInt8 := by
    intro sighash _ heq
    rw [← heq, UInt8.toUInt8_toUInt32]
  rw [supportedSighash, sighashIsSupported, Bool.false_and, Bool.false_and,
    if_neg Bool.false_ne_true] at h
  split at h
  · next htaproot =>
      have hsome : data.sigType = some .swV1 := by
        cases hs : data.sigType with
        | none => rw [hs] at htaproot; cases htaproot
        | some sigType => rw [hs] at htaproot; exact congrArg some htaproot
      rw [Bool.or_eq_true, beq_iff_eq, beq_iff_eq] at h
      rcases h with hdefault | hall
      · exact .inr ⟨hsome, heq _ (by decide) hdefault⟩
      · exact .inl (heq _ (by decide) hall)
  · exact .inl (heq _ (by decide) (beq_iff_eq.1 h))

variable (L) in
/-- An input that is to be signed, but not a taproot one, has its hash, which is made with the script
of its message and a table with its own amount. -/
def Hashed (tx : Tx) (index : ℕ) (data : InputData) (p : Prevout) (script : Bytes) : Prop :=
  ∃ maps, maps.amounts.find (.int index) = some (satoshiBytes p.satoshi) ∧
    L.inputSignatureHash tx index maps (some script) none data.sighash data.sigType =
      some data.signatureHash

variable (L) in
/-- The tables after the inputs `done`, which spend `spent`, and whose messages have the parameters
`told`. -/
structure InputsRead (request : SignTxRequest) (done : List TxInput) (told : List V)
    (spent : List Prevout) (st : SigningState) : Prop where
  length_inputs : st.inputs.length = done.length
  length_told : told.length = done.length
  length_spent : spent.length = done.length
  amounts : st.maps.amounts.items = tableOf Prevout.amount spent
  scripts : st.maps.scriptpubkeys.items = tableOf Prevout.script spent
  total : st.inputAmount.toNat = (spent.map fun p => p.satoshi.toNat).sum % 2 ^ 64
  numP2tr : st.numP2trToSign = numTaproot st.inputs
  spends : ∀ (i : ℕ) input (data : InputData) p, done[i]? = some input → st.inputs[i]? = some data →
    spent[i]? = some p → Spends L request.tx.inputs.length input data.sigType p
  supported : ∀ (i : ℕ) (data : InputData), st.inputs[i]? = some data → data.path ≠ [] →
    CommitsToOutputs data
  own : ∀ (i : ℕ) (data : InputData) params p, st.inputs[i]? = some data →
    told[i]? = some params → spent[i]? = some p → data.path ≠ [] →
    ∃ script, SignedAs L params data script ∧
      (data.isTaproot = false → Hashed L request.tx i data p script)

theorem inputsRead_nil (request : SignTxRequest) (inSums : List AssetSummary) :
    InputsRead L request [] [] [] { inSums } where
  length_inputs := rfl
  length_told := rfl
  length_spent := rfl
  amounts := rfl
  scripts := rfl
  total := rfl
  numP2tr := rfl
  spends i _ _ _ h := by cases h
  supported i _ h := by cases h
  own i _ _ _ h := by cases h

/-- One turn for Bitcoin or Litecoin: what the input spends, and its hash if it is to be signed. -/
theorem processInput_btc {request : SignTxRequest} {input : TxInput} {index : ℕ} {params : V}
    {id c : Bytes} {st st' : SigningState}
    (h : processInput L false request input index params id st = .ok (st', c)) :
    ∃ data p, Spends L request.tx.inputs.length input data.sigType p ∧
      st'.inputs = st.inputs ++ [data] ∧ st'.maps = (st.spend index p).maps ∧
      st'.inputAmount = st.inputAmount + p.satoshi ∧
      (data.path ≠ [] → CommitsToOutputs data) ∧
      (data.path ≠ [] → ∃ script, SignedAs L params data script ∧
        (data.isTaproot = false →
          L.inputSignatureHash request.tx index st'.maps (some script) none data.sighash
              data.sigType =
            some data.signatureHash)) := by
  rcases processInput_eq_ok h with ⟨st₁, sp, st₂, data, hsign, hprev, hhash, rfl⟩ |
    ⟨st₂, hprev, rfl⟩
  · obtain ⟨⟨-, hown⟩, hsupported, -, hst₁⟩ := inputToSign_eq_ok hsign
    have hcommits := commitsToOutputs_of_supported hsupported
    obtain ⟨p, hspends, rfl⟩ := btcPrevout_eq_ok hprev
    obtain rfl := hst₁ rfl
    refine ⟨data, p, ?_, rfl, rfl, rfl, fun _ => ?_, ?_⟩
    · rcases hashInput_eq_ok hhash with ⟨-, -, rfl⟩ | ⟨-, hash, -, rfl⟩
      · exact hspends
      · exact hspends
    · rcases hashInput_eq_ok hhash with ⟨-, -, rfl⟩ | ⟨-, hash, -, rfl⟩
      · exact hcommits
      · exact hcommits
    · intro _
      rcases hashInput_eq_ok hhash with ⟨htaproot, -, rfl⟩ | ⟨-, hash, hsig, rfl⟩
      · refine ⟨sp.script, hown, fun hnot => ?_⟩
        rw [InputData.isTaproot, htaproot] at hnot
        simp [hown.path_ne_nil] at hnot
      · exact ⟨sp.script, ⟨hown.path, hown.field, hown.nonempty, hown.sigType⟩, fun _ => hsig⟩
  · obtain ⟨p, hspends, rfl⟩ := btcPrevout_eq_ok hprev
    exact ⟨_, p, hspends, rfl, rfl, rfl, fun hpath => absurd inputNotToSign_path hpath,
      fun hpath => absurd inputNotToSign_path hpath⟩

theorem total_push {total satoshi : UInt64} {n : ℕ} (h : total.toNat = n % 2 ^ 64) :
    (total + satoshi).toNat = (n + satoshi.toNat) % 2 ^ 64 := by
  rw [UInt64.toNat_add, h, Nat.mod_add_mod]

/-- An element of a list with one more at its end is an old one, or the new one. -/
theorem getElem?_push {α : Type} {xs : List α} {x y : α} {i : ℕ} (h : (xs ++ [x])[i]? = some y) :
    (xs[i]? = some y) ∨ (i = xs.length ∧ x = y) := by
  rcases Nat.lt_trichotomy i xs.length with hlt | rfl | hgt
  · rw [List.getElem?_append_left hlt] at h
    exact .inl h
  · rw [List.getElem?_concat_length] at h
    exact .inr ⟨rfl, Option.some.inj h⟩
  · rw [List.getElem?_eq_none (by simpa using hgt)] at h
    cases h

theorem lt_of_getElem? {α : Type} {xs : List α} {x : α} {i : ℕ} (h : xs[i]? = some x) :
    i < xs.length := (List.getElem?_eq_some_iff.1 h).1

/-- **The tables stay right** in one turn of the loop. -/
theorem InputsRead.step {request : SignTxRequest} {done : List TxInput} {told : List V}
    {spent : List Prevout} {input : TxInput} {params : V} {id c : Bytes} {st st' : SigningState}
    (hst : InputsRead L request done told spent st)
    (h : processInput L false request input done.length params id st = .ok (st', c)) :
    ∃ p, InputsRead L request (done ++ [input]) (told ++ [params]) (spent ++ [p]) st' := by
  obtain ⟨data, p, hspends, hinputs, hmaps, htotal, hcommits, hown⟩ := processInput_btc h
  obtain ⟨data', hinputs', -, -, -, hnum⟩ := processInput_push h
  obtain rfl : data = data' := by simpa using hinputs.symm.trans hinputs'
  have hlength : spent.length = st.inputs.length := hst.length_spent.trans hst.length_inputs.symm
  have hamounts : st'.maps.amounts.items = tableOf Prevout.amount (spent ++ [p]) := by
    rw [hmaps, ← hst.length_spent]
    exact items_add_tableOf hst.amounts rfl
  refine ⟨p, ?_, ?_, ?_, hamounts, ?_, ?_, ?_, ?_, ?_, ?_⟩
  · rw [hinputs, List.length_append, List.length_append, hst.length_inputs]
    rfl
  · rw [List.length_append, List.length_append, hst.length_told]
    rfl
  · rw [List.length_append, List.length_append, hst.length_spent]
    rfl
  · rw [hmaps, ← hst.length_spent]
    exact items_addScript hst.scripts p
  · rw [htotal, total_push hst.total, List.map_append, List.sum_append, List.map_singleton,
      List.sum_singleton]
  · rw [hnum, hst.numP2tr, hinputs, numTaproot_push]
  · intro i input' data' p' hinput hdata hp
    rw [hinputs] at hdata
    rcases getElem?_push hp with hp | ⟨rfl, rfl⟩
    · have hlt := lt_of_getElem? hp
      rw [List.getElem?_append_left (hst.length_spent ▸ hlt)] at hinput
      rw [List.getElem?_append_left (hlength ▸ hlt)] at hdata
      exact hst.spends i input' data' p' hinput hdata hp
    · rw [hst.length_spent, List.getElem?_concat_length] at hinput
      rw [hlength, List.getElem?_concat_length] at hdata
      obtain rfl := Option.some.inj hinput
      obtain rfl := Option.some.inj hdata
      exact hspends
  · intro i data' hdata hpath
    rw [hinputs] at hdata
    rcases getElem?_push hdata with hdata | ⟨rfl, rfl⟩
    · exact hst.supported i data' hdata hpath
    · exact hcommits hpath
  · intro i data' params' p' hdata htold hp hpath
    rw [hinputs] at hdata
    rcases getElem?_push hp with hp | ⟨rfl, rfl⟩
    · have hlt := lt_of_getElem? hp
      rw [List.getElem?_append_left (hlength ▸ hlt)] at hdata
      rw [List.getElem?_append_left
        ((hst.length_told.trans hst.length_spent.symm).symm ▸ hlt)] at htold
      exact hst.own i data' params' p' hdata htold hp hpath
    · rw [hlength, List.getElem?_concat_length] at hdata
      rw [hst.length_spent, ← hst.length_told, List.getElem?_concat_length] at htold
      obtain rfl := Option.some.inj hdata
      obtain rfl := Option.some.inj htold
      obtain ⟨script, hsigned, hhash⟩ := hown hpath
      refine ⟨script, hsigned, fun hnot => ⟨st'.maps, ?_, ?_⟩⟩
      · rw [find_tableOf hamounts, List.getElem?_concat_length]
        rfl
      · rw [hst.length_spent]
        exact hhash hnot

/-! ### Taproot -/

/-- The hash of a taproot input; the data of the others stay as they are. -/
def TaprootHashed (L : SignTxLib K V) (tx : Tx) (maps : SigningMaps) (genesis : Option Bytes)
    (entry : InputData × ℕ) (data : InputData) : Prop :=
  if entry.1.isTaproot then
    ∃ hash, L.inputSignatureHash tx entry.2 maps none genesis entry.1.sighash entry.1.sigType =
      some hash ∧ data = { entry.1 with signatureHash := hash }
  else data = entry.1

theorem taprootHashed_of_none {tx : Tx} {maps : SigningMaps} {genesis : Option Bytes}
    {entries : List (InputData × ℕ)} (h : ∀ entry ∈ entries, entry.1.isTaproot = false) :
    List.Forall₂ (TaprootHashed L tx maps genesis) entries (entries.map Prod.fst) := by
  induction entries with
  | nil => exact .nil
  | cons entry entries ih =>
      refine .cons ?_ (ih fun entry' hmem => h entry' (List.mem_cons_of_mem _ hmem))
      rw [TaprootHashed, h entry List.mem_cons_self]
      rfl

theorem numTaproot_eq_zero {inputs : List InputData} (h : numTaproot inputs = 0) :
    ∀ data ∈ inputs, data.isTaproot = false := by
  intro data hmem
  rw [numTaproot, List.length_eq_zero_iff, List.filter_eq_nil_iff] at h
  exact Bool.eq_false_iff.2 (h data hmem)

/-- **The hashes of the taproot inputs**, when the number left is that of the taproot inputs left.
-/
theorem hashTaproot_eq_some {tx : Tx} {maps : SigningMaps} {genesis : Option Bytes}
    {entries : List (InputData × ℕ)} {inputs : List InputData} {num : ℕ}
    (hnum : num = numTaproot (entries.map Prod.fst))
    (h : hashTaproot L tx maps genesis entries num = some inputs) :
    List.Forall₂ (TaprootHashed L tx maps genesis) entries inputs := by
  induction entries generalizing num inputs with
  | nil =>
      obtain rfl := Option.some.inj h
      exact .nil
  | cons entry entries ih =>
      obtain ⟨data, index⟩ := entry
      have hcount : num = numTaproot (entries.map Prod.fst) + if data.isTaproot then 1 else 0 := by
        rw [hnum, List.map_cons, numTaproot, List.filter_cons]
        split
        · rw [List.length_cons]
          rfl
        · rfl
      rw [hashTaproot] at h
      split at h
      · next hzero =>
          obtain rfl := Option.some.inj h
          have hnone := numTaproot_eq_zero (hnum.symm.trans hzero)
          have hall : ∀ entry ∈ (data, index) :: entries, entry.1.isTaproot = false := by
            intro entry hmem
            exact hnone _ (List.mem_map_of_mem hmem)
          exact taprootHashed_of_none hall
      · split at h
        · next hnot =>
            have hfalse : data.isTaproot = false := by simpa using hnot
            obtain ⟨rest, hrest, rfl⟩ := Option.map_eq_some_iff.1 h
            rw [hfalse] at hcount
            refine .cons ?_ (ih hcount hrest)
            rw [TaprootHashed, hfalse]
            rfl
        · next htrue =>
            have htaproot : data.isTaproot = true := by simpa using htrue
            split at h
            · cases h
            · next hash hhash =>
                obtain ⟨rest, hrest, rfl⟩ := Option.map_eq_some_iff.1 h
                rw [htaproot, if_pos rfl] at hcount
                refine .cons ?_ (ih (by omega) hrest)
                rw [TaprootHashed, htaproot, if_pos rfl]
                exact ⟨hash, hhash, rfl⟩

end Prevouts

end Jade
