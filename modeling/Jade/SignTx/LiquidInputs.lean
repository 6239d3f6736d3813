/-
**The inputs of a Liquid transaction (`process/sign_tx.c`).**

The host sends no transactions that are spent. For an input that is not of the old kind it sends the
commitment to its value, which the hash is made with. If summaries were sent as well, the asset and
the value that open the commitments are booked to them; an input without the data is left out, and
one with data that cannot be verified is rejected.

Main definitions:

* `Jade.Told` — the message about an input, and what was counted of it;
* `Jade.LiquidInput`, `Jade.LiquidRead` — one input, and the tables of the loop.

Main results:

* `Jade.processInput_liquid` — one turn of the loop;
* `Jade.LiquidRead.step` — it keeps the tables right.
-/

import Jade.SignTx.Prevouts
import Jade.SignTx.Summaries

set_option relaxedAutoImplicit false
set_option autoImplicit false

namespace Jade

open Exec

/-! ### Maps -/

section Maps

variable {m : WallyMap} {key : MapKey} {value : Bytes}

theorem find_add_of_find (h : m.find key = some value) (item : MapKey × Bytes) :
    (m.add item).find key = some value := by
  rw [WallyMap.add]
  split
  · exact h
  · obtain ⟨entry, hentry, hvalue⟩ := Option.map_eq_some_iff.1 h
    rw [WallyMap.find, List.find?_append, hentry, Option.some_or, Option.map_some, hvalue]

theorem find_add_self (h : key ∉ m.items.map Prod.fst) :
    (m.add (key, value)).find key = some value := by
  have hnone : m.items.find? (·.1 == key) = none := by
    rw [List.find?_eq_none]
    intro entry hmem hkey
    exact h (List.mem_map.2 ⟨entry, hmem, beq_iff_eq.1 hkey⟩)
  rw [WallyMap.add, dif_neg h, WallyMap.find, List.find?_append, hnone, Option.none_or]
  simp

theorem mem_keys_add {item : MapKey × Bytes} (h : key ∈ (m.add item).items.map Prod.fst) :
    key ∈ m.items.map Prod.fst ∨ key = item.1 := by
  rw [WallyMap.add] at h
  split at h
  · exact .inl h
  · rw [List.map_append, List.mem_append, List.map_singleton, List.mem_singleton] at h
    exact h

/-- The keys are the positions of inputs that were read. -/
def KeysBelow (n : ℕ) (m : WallyMap) : Prop :=
  ∀ key ∈ m.items.map Prod.fst, ∃ i < n, key = .int i

theorem KeysBelow.succ {n : ℕ} (h : KeysBelow n m) : KeysBelow (n + 1) m := by
  intro key hkey
  obtain ⟨i, hi, rfl⟩ := h key hkey
  exact ⟨i, Nat.lt_succ_of_lt hi, rfl⟩

theorem KeysBelow.add {n : ℕ} (h : KeysBelow n m) (value : Bytes) :
    KeysBelow (n + 1) (m.add (.int n, value)) := by
  intro key hkey
  rcases mem_keys_add hkey with hold | rfl
  · exact h.succ key hold
  · exact ⟨n, Nat.lt_succ_self n, rfl⟩

theorem KeysBelow.notMem {n : ℕ} (h : KeysBelow n m) : MapKey.int n ∉ m.items.map Prod.fst := by
  intro hmem
  obtain ⟨i, hi, heq⟩ := h _ hmem
  exact absurd (MapKey.int.inj heq) (Nat.ne_of_gt hi)

end Maps

section Inputs

variable {K V : Type} (L : SignTxLib K V)

/-! ### What was told -/

/-- The parameters of the message about an input, and what was booked of it. -/
structure Told (V : Type) where
  params : V
  counted : Option Commitment := none

/-- What was booked of the inputs. -/
def countedInputs (told : List (Told V)) : List (Bytes × UInt64) :=
  told.filterMap fun t => t.counted.map fun c => (c.assetId, c.value)

def Told.book (t : Told V) (sums : List AssetSummary) : List AssetSummary :=
  t.counted.elim sums fun c => assetSummaryUpdate c.assetId c.value sums

/-- The maps have the commitment to the value of an input, unless it is of the old kind. -/
def HasValue (params : V) (i : ℕ) (data : InputData) (maps : SigningMaps) : Prop :=
  data.sigType ≠ some .preSw → ∃ value,
    bytesField L.cbor.toTinyCborValues "value_commitment" params = .ok value ∧
    maps.amounts.find (.int i) = some value

/-- The commitments of an input that is counted open to what is counted. -/
def Told.Genuine (W : Binding L.blinding) (t : Told V) : Prop :=
  ∀ c : Commitment, t.counted = some c →
    ∃ gen com, readCommitments L.cbor t.params = .ok (some (gen, com)) ∧
      OpensTo W gen com c.assetId c.value

/-- An input that is signed is only left out of summaries when nothing was sent to open it. -/
def Told.Covered (request : SignTxRequest) (t : Told V) : Prop :=
  t.counted = none → request.inSums ≠ [] →
    readCommitmentData L.cbor L.blinding t.params none = .error .absent

/-- A proposal of a swap leaves the rest of the transaction open, all other signatures do not. -/
def CommitsToParts (request : SignTxRequest) (data : InputData) : Prop :=
  if request.txType = .swap ∧ request.isPartial = true then
    data.sighash = (WALLY_SIGHASH_SINGLE ||| WALLY_SIGHASH_ANYONECANPAY).toUInt8
  else CommitsToOutputs data

/-- What is known about an input. -/
structure LiquidInput (W : Binding L.blinding) (request : SignTxRequest) (maps : SigningMaps)
    (i : ℕ) (data : InputData) (t : Told V) : Prop where
  genuine : t.Genuine L W
  covered : data.path ≠ [] → t.Covered L request
  parts : data.path ≠ [] → CommitsToParts request data
  value : data.path ≠ [] → HasValue L t.params i data maps
  own : data.path ≠ [] → ∃ script, SignedAs L t.params data script ∧
    (data.isTaproot = false → ∃ maps, HasValue L t.params i data maps ∧
      L.inputSignatureHash request.tx i maps (some script) none data.sighash data.sigType =
        some data.signatureHash)

variable {L} {W : Binding L.blinding} {request : SignTxRequest} {input : TxInput} {index : ℕ}
  {params : V} {id c : Bytes} {st st' : SigningState} {data : InputData}

theorem HasValue.mono {i : ℕ} {maps maps' : SigningMaps} (h : HasValue L params i data maps)
    (hmaps : ∀ key value, maps.amounts.find key = some value →
      maps'.amounts.find key = some value) : HasValue L params i data maps' := by
  intro htype
  obtain ⟨value, hfield, hfind⟩ := h htype
  exact ⟨value, hfield, hmaps _ _ hfind⟩

theorem LiquidInput.mono {i : ℕ} {maps maps' : SigningMaps} {t : Told V}
    (h : LiquidInput L W request maps i data t)
    (hmaps : ∀ key value, maps.amounts.find key = some value →
      maps'.amounts.find key = some value) : LiquidInput L W request maps' i data t where
  genuine := h.genuine
  covered := h.covered
  parts := h.parts
  value hpath := (h.value hpath).mono hmaps
  own := h.own

/-! ### The parts of a turn -/

theorem paramsCommitmentData_absent {C : TinyCborArrays V} {B : BlindingLib} {record : Commitment}
    {txout : Option TxOutput} {result : CommitmentResult}
    (h : paramsCommitmentData C B params record txout = .ok result) (hno : result.accepted = false)
    (herr : result.errmsg = none) : readCommitmentData C B params txout = .error .absent := by
  rw [paramsCommitmentData] at h
  split at h
  · cases h
    cases hno
  · assumption
  · cases h
    cases herr
  · cases h

theorem getter_eq_ok {α : Type} {x : Except WireAbort α} {a : α} :
    getter x = .ok a ↔ x = .ok a := by
  cases x <;> simp [getter]

/-- What is booked of an input. -/
theorem inputSummary_eq_ok {inSums inSums' : List AssetSummary} (W : Binding L.blinding)
    (h : inputSummary L params data inSums = .ok inSums') :
    (∃ c : Commitment, inSums' = assetSummaryUpdate c.assetId c.value inSums ∧
      ∃ gen com, readCommitments L.cbor params = .ok (some (gen, com)) ∧
        OpensTo W gen com c.assetId c.value) ∨
    (inSums' = inSums ∧ (inSums ≠ [] →
      readCommitmentData L.cbor L.blinding params none = .error .absent)) := by
  rw [inputSummary] at h
  split at h
  · next hempty =>
      refine .inr ⟨(Except.ok.inj h).symm, ?_⟩
      intro hne
      exact absurd (List.isEmpty_iff.1 hempty) hne
  · split at h
    · cases h
    · obtain ⟨result, hresult, h⟩ := bind_eq_ok.1 h
      have hdata : paramsCommitmentData L.cbor L.blinding params {} none = .ok result :=
        getter_eq_ok.1 (liftFault_eq_ok.1 hresult)
      split at h
      · next haccepted =>
          obtain ⟨-, -, gen, com, hof, hopens⟩ := (paramsCommitmentData_spec hdata).1 haccepted
          exact .inl ⟨result.record, (pure_eq_ok.1 h).symm, gen, com, hof, hopens W⟩
      · next hno =>
          split at h
          · cases h
          · next herr =>
              refine .inr ⟨(pure_eq_ok.1 h).symm, fun _ => ?_⟩
              exact paramsCommitmentData_absent hdata (Bool.eq_false_iff.2 hno) herr

/-- The commitment to the value of an input. -/
theorem inputValueCommitment_eq_ok {maps maps' : SigningMaps}
    (hkeys : KeysBelow index maps.amounts)
    (h : inputValueCommitment L params data index maps = .ok maps') :
    HasValue L params index data maps' ∧ KeysBelow (index + 1) maps'.amounts ∧
      ∀ key value, maps.amounts.find key = some value → maps'.amounts.find key = some value := by
  rw [inputValueCommitment] at h
  split at h
  · next htype =>
      obtain rfl := Except.ok.inj h
      exact ⟨fun hne => absurd htype hne, hkeys.succ, fun _ _ hfind => hfind⟩
  · obtain ⟨value, hvalue, h⟩ := bind_eq_ok.1 h
    obtain ⟨_, -, h⟩ := bind_eq_ok.1 h
    obtain rfl := pure_eq_ok.1 h
    refine ⟨fun _ => ⟨value, liftFault_eq_ok.1 hvalue, find_add_self hkeys.notMem⟩,
      hkeys.add value, ?_⟩
    intro key value' hfind
    exact find_add_of_find hfind _

theorem liquidPrevout_eq_ok (h : liquidPrevout L index params st = .ok st') :
    st' = { st with maps := st'.maps } ∧ st'.maps.amounts = st.maps.amounts := by
  obtain ⟨scriptpubkeys, -, h⟩ := bind_eq_ok.1 h
  obtain ⟨assets, -, h⟩ := bind_eq_ok.1 h
  obtain rfl := pure_eq_ok.1 h
  exact ⟨rfl, rfl⟩

theorem commitsToParts_of_supported (h : supportedSighash true request data = true) :
    CommitsToParts request data := by
  rw [CommitsToParts]
  split
  · next hpartial =>
      rw [supportedSighash, sighashIsSupported, Bool.true_and, decide_eq_true hpartial.1,
        Bool.true_and, if_pos hpartial.2, beq_iff_eq] at h
      rw [← h, UInt8.toUInt8_toUInt32]
  · next hother =>
      have hwhole : (decide (request.txType = .swap) && request.isPartial) = false := by
        rw [Bool.eq_false_iff, ne_eq, Bool.and_eq_true, decide_eq_true_iff]
        exact hother
      rw [supportedSighash, sighashIsSupported, Bool.true_and, hwhole] at h
      have hbase : supportedSighash false request data = true := h
      exact commitsToOutputs_of_supported hbase

theorem inputToSign_liquid {st₁ : SigningState} {sp : SigningParams}
    (h : inputToSign L true request index params id st = .ok (st₁, sp)) :
    supportedSighash true request sp.input = true ∧ SignedAs L params sp.input sp.script ∧
      inputSummary L params sp.input st.inSums = .ok st₁.inSums ∧
      inputValueCommitment L params sp.input index st.maps = .ok st₁.maps ∧
      st₁.inputs = st.inputs := by
  obtain ⟨⟨-, hown⟩, hsupported, -, -⟩ := inputToSign_eq_ok h
  obtain ⟨sp', hsp, h⟩ := bind_eq_ok.1 h
  obtain ⟨_, -, h⟩ := bind_eq_ok.1 h
  obtain ⟨inSums, hinSums, h⟩ := bind_eq_ok.1 h
  obtain ⟨maps, hmaps, h⟩ := bind_eq_ok.1 h
  obtain ⟨rfl, rfl⟩ := Prod.mk.inj (pure_eq_ok.1 h)
  exact ⟨hsupported, hown, hinSums, hmaps, rfl⟩

/-- The hash of an input is made with its value, and as its message says. -/
theorem hashInput_liquid {sp : SigningParams} {maps : SigningMaps}
    (hvalue : HasValue L params index sp.input maps) (hown : SignedAs L params sp.input sp.script)
    (h : hashInput L request index maps sp = .ok (data, c)) :
    data.sigType = sp.input.sigType ∧ data.sighash = sp.input.sighash ∧
      ∃ script, SignedAs L params data script ∧
        (data.isTaproot = false → ∃ maps, HasValue L params index data maps ∧
          L.inputSignatureHash request.tx index maps (some script) none data.sighash data.sigType =
            some data.signatureHash) := by
  rcases hashInput_eq_ok h with ⟨htaproot, -, rfl⟩ | ⟨-, hash, hhash, rfl⟩
  · refine ⟨rfl, rfl, sp.script, hown, fun hnot => ?_⟩
    rw [InputData.isTaproot, htaproot] at hnot
    simp [hown.path_ne_nil] at hnot
  · exact ⟨rfl, rfl, sp.script, ⟨hown.path, hown.field, hown.nonempty, hown.sigType⟩,
      fun _ => ⟨maps, hvalue, hhash⟩⟩

/-- **One turn of the loop for Liquid.** -/
theorem processInput_liquid (W : Binding L.blinding)
    (h : processInput L true request input index params id st = .ok (st', c))
    (hkeys : KeysBelow index st.maps.amounts)
    (hstated : st.inSums.map AssetSummary.stated = request.inSums.map AssetSummary.stated) :
    ∃ data t, t.params = params ∧ st'.inputs = st.inputs ++ [data] ∧
      st'.inSums = Told.book t st.inSums ∧
      KeysBelow (index + 1) st'.maps.amounts ∧
      (∀ key value, st.maps.amounts.find key = some value →
        st'.maps.amounts.find key = some value) ∧
      LiquidInput L W request st'.maps index data t := by
  rcases processInput_eq_ok h with ⟨st₁, sp, st₂, data, hsign, hprev, hhash, rfl⟩ |
    ⟨st₂, hprev, rfl⟩
  · obtain ⟨hsupported, hsigned, hsums, hmaps, hinputs⟩ := inputToSign_liquid hsign
    obtain ⟨hst₂, hamounts⟩ := liquidPrevout_eq_ok hprev
    obtain ⟨hvalue, hkeys', hgrow⟩ := inputValueCommitment_eq_ok hkeys hmaps
    rw [← hamounts] at hkeys' hgrow
    have hvalue₂ : HasValue L params index sp.input st₂.maps := by
      refine hvalue.mono fun key value hfind => ?_
      rw [hamounts]
      exact hfind
    obtain ⟨hdtype, hdsighash, hown⟩ := hashInput_liquid hvalue₂ hsigned hhash
    have hsums₂ : st₂.inSums = st₁.inSums := by rw [hst₂]
    have hinputs₂ : st₂.inputs = st.inputs := by rw [hst₂, hinputs]
    have hvalueData : HasValue L params index data st₂.maps := by
      rw [HasValue, hdtype]
      exact hvalue₂
    have hparts : CommitsToParts request data := by
      refine commitsToParts_of_supported ?_
      rw [supportedSighash, hdtype, hdsighash]
      exact hsupported
    rcases inputSummary_eq_ok W hsums with ⟨c, hbook, hopens⟩ | ⟨hbook, habsent⟩
    · refine ⟨data, ⟨params, some c⟩, rfl, congrArg (· ++ [data]) hinputs₂, hsums₂.trans hbook,
        hkeys', hgrow, ?_, ?_, fun _ => hparts, fun _ => hvalueData, fun _ => hown⟩
      · intro c' hc'
        obtain rfl := Option.some.inj hc'
        exact hopens
      · intro _ hnone
        cases hnone
    · refine ⟨data, ⟨params, none⟩, rfl, congrArg (· ++ [data]) hinputs₂, hsums₂.trans hbook,
        hkeys', hgrow, ?_, ?_, fun _ => hparts, fun _ => hvalueData, fun _ => hown⟩
      · intro c' hc'
        cases hc'
      · intro _ _ hne
        refine habsent fun hnil => hne ?_
        rw [hnil] at hstated
        exact List.map_eq_nil_iff.1 hstated.symm
  · obtain ⟨hst₂, hamounts⟩ := liquidPrevout_eq_ok hprev
    have hnot : ∀ {p : Prop}, (inputNotToSign L true params id).path ≠ [] → p :=
      fun hpath => absurd inputNotToSign_path hpath
    have hinputs₂ : st₂.inputs = st.inputs := by rw [hst₂]
    have hsums₂ : st₂.inSums = st.inSums := by rw [hst₂]
    refine ⟨_, ⟨params, none⟩, rfl, congrArg (· ++ [_]) hinputs₂, hsums₂, ?_, ?_,
      ⟨?_, hnot, hnot, hnot, hnot⟩⟩
    · exact hamounts ▸ hkeys.succ
    · intro key value hfind
      exact (congrArg (WallyMap.find · key) hamounts).trans hfind
    · intro c' hc'
      cases hc'

/-! ### The loop -/

variable (L) in
/-- **The tables after the inputs that were told.** -/
structure LiquidRead (W : Binding L.blinding) (request : SignTxRequest)
    (booked : List (Bytes × UInt64)) (told : List (Told V)) (st : SigningState) : Prop where
  length_inputs : st.inputs.length = told.length
  keys : KeysBelow told.length st.maps.amounts
  numP2tr : st.numP2trToSign = numTaproot st.inputs
  stated : st.inSums.map AssetSummary.stated = request.inSums.map AssetSummary.stated
  booked : Booked (booked ++ countedInputs told) st.inSums
  inputs : ∀ (i : ℕ) (data : InputData) t, st.inputs[i]? = some data → told[i]? = some t →
    LiquidInput L W request st.maps i data t

theorem liquidRead_nil {W : Binding L.blinding} {booked : List (Bytes × UInt64)}
    (h : Booked booked request.inSums) :
    LiquidRead L W request booked [] { inSums := request.inSums } where
  length_inputs := rfl
  keys _ hmem := by cases hmem
  numP2tr := rfl
  stated := rfl
  booked := (List.append_nil booked).symm ▸ h
  inputs i _ _ h := by cases h

theorem Told.book_stated (t : Told V) (sums : List AssetSummary) :
    (t.book sums).map AssetSummary.stated = sums.map AssetSummary.stated := by
  rw [Told.book]
  cases t.counted with
  | none => rfl
  | some c => exact map_stated_update _ _ _

theorem Told.book_booked (t : Told V) {postings : List (Bytes × UInt64)}
    {sums : List AssetSummary} (h : Booked postings sums) :
    Booked (postings ++ countedInputs [t]) (t.book sums) := by
  rw [Told.book, countedInputs]
  cases hc : t.counted with
  | none =>
      rw [List.filterMap_cons, hc]
      exact (List.append_nil postings).symm ▸ h
  | some c =>
      rw [List.filterMap_cons, hc]
      exact h.update _ _

/-- **The tables stay right** in one turn of the loop. -/
theorem LiquidRead.step {W : Binding L.blinding} {booked : List (Bytes × UInt64)}
    {told : List (Told V)} (hst : LiquidRead L W request booked told st)
    (h : processInput L true request input told.length params id st = .ok (st', c)) :
    ∃ t, t.params = params ∧ LiquidRead L W request booked (told ++ [t]) st' := by
  obtain ⟨data, t, hparams, hinputs, hsums, hkeys, hgrow, hinput⟩ :=
    processInput_liquid W h hst.keys hst.stated
  obtain ⟨data', hinputs', -, -, -, hnum⟩ := processInput_push h
  obtain rfl : data = data' := by simpa using hinputs.symm.trans hinputs'
  have hlength : (told ++ [t]).length = told.length + 1 := List.length_append
  refine ⟨t, hparams, ?_, ?_, ?_, ?_, ?_, ?_⟩
  · rw [hinputs, List.length_append, hst.length_inputs, hlength]
    rfl
  · rw [hlength]
    exact hkeys
  · rw [hnum, hst.numP2tr, hinputs, numTaproot_push]
  · rw [hsums, Told.book_stated]
    exact hst.stated
  · rw [hsums, countedInputs, List.filterMap_append, ← List.append_assoc]
    exact t.book_booked hst.booked
  · intro i data' t' hdata ht
    rw [hinputs] at hdata
    rcases getElem?_push ht with ht | ⟨rfl, rfl⟩
    · have hlt : i < st.inputs.length := by
        rw [hst.length_inputs]
        exact lt_of_getElem? ht
      rw [List.getElem?_append_left hlt] at hdata
      exact (hst.inputs i data' t' hdata ht).mono hgrow
    · rw [← hst.length_inputs, List.getElem?_concat_length] at hdata
      obtain rfl := Option.some.inj hdata
      exact hinput

end Inputs

end Jade
