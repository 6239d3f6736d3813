/-
**Whether all signed inputs belong to one registered wallet (`sign_psbt.c`).**

An output with several keys is only taken for change when every signed input belongs to the same
registered multisig or descriptor.  The loop over the inputs looks up the first signed input and tries
the record it finds on the others.

Two things go wrong.  An input whose path is too long for the buffer is signed without having been
tried.  And which record is tried depends on which input comes first: it is the first one that fits that
input, although another one may fit all of them.

Main definitions:

* `Jade.SignedInput`, `Jade.signedInputs` — the inputs that are signed;
* `Jade.HasShortPath`, `Jade.Gives` — the paths that fit the buffer, and the records that give a script;
* `Jade.recordsTried`, `Jade.Picks` — the records in their order, and the first that gives the script;
* `Jade.recordStep`, `Jade.Tracked` — the search for the record, and what it knows after some inputs;
* `Jade.Survives`, `Jade.GivesUp` — how the search ends for some order of the inputs;
* `Jade.LooksAt`, `Jade.MarkedBy`, `Jade.Comparable` — the outputs a record is compared with;
* `Jade.Reordered`, `Jade.markedOutputs` — other orders of the inputs, and the outputs that are marked;
* `Jade.MarkingSound` — outputs are marked for one record of all inputs, in whatever order they come;
* `Jade.LongPathsBelong`, `Jade.RecordsAgree` — the records do not depend on the order.

Main results:

* `Jade.lookUpRecord_eq` — the loops over the names look up the first record that gives the script;
* `Jade.tracked_foldlM`, `Jade.foldlM_kept`, `Jade.foldlM_first_misfit` — how the search ends;
* `Jade.exists_updateOutput_iff` — the outputs that can be compared with a record do not stop the device;
* `Jade.marking_sound_iff` — **exactly when outputs are marked for one record in every order**.
-/

import Jade.SignPsbt.Green
import Jade.SignPsbt.Scan

set_option relaxedAutoImplicit false
set_option autoImplicit false

namespace Jade

open Exec Mweb

variable {K P : Type} (D : Device K P)

/-! ### The signed inputs -/

/-- An input that is signed: the iterator at the wallet's key, and the script of the output it spends. -/
structure SignedInput (K : Type) where
  iter : KeyIter K
  script : Bytes

/-- What is looked at of an input that is signed. -/
def signedInputOf (input : PsbtInput) : Option (SignedInput K) :=
  if isMwebInput input then none
  else
    match input.bestUtxo, keyIterBeginPublic D.wallet (inputKeySource input) with
    | some utxo, .ok (some iter) => some ⟨iter, utxo.script⟩
    | _, _ => none

/-- The inputs that are signed, in their order. -/
def signedInputs (psbt : Psbt) : List (SignedInput K) := psbt.inputs.filterMap (signedInputOf D)

/-- An input with several keys that is not taken for a Green one. -/
def isPlainMultisig (network : Network) (s : SignedInput K) : Bool :=
  decide (s.iter.numKeys > 1) && !(isGreenMultisigSigners D.wallet network s.iter false).isSome

/-- An input with several keys that is taken for a Green one. -/
def isGreenInput (network : Network) (s : SignedInput K) : Bool :=
  decide (s.iter.numKeys > 1) && (isGreenMultisigSigners D.wallet network s.iter false).isSome

/-- An input with one key. -/
def isSinglesigInput (s : SignedInput K) : Bool := !decide (s.iter.numKeys > 1)

theorem scanInputFlags_eq (network : Network) (flags : SigningFlags) (s : SignedInput K) :
    scanInputFlags D network flags s.iter = { flags with
      singlesig := flags.singlesig || isSinglesigInput s
      multisig := flags.multisig || isPlainMultisig D network s
      greenMultisig := flags.greenMultisig || isGreenInput D network s } := by
  unfold scanInputFlags isSinglesigInput isPlainMultisig isGreenInput
  by_cases hkeys : s.iter.numKeys > 1
  · by_cases hgreen : (isGreenMultisigSigners D.wallet network s.iter false).isSome = true
    · simp [hkeys, hgreen]
    · simp [hkeys, hgreen]
  · simp [hkeys]

theorem isPlainMultisig_iff (network : Network) (s : SignedInput K) :
    isPlainMultisig D network s = true ↔
      isSinglesigInput s = false ∧ isGreenInput D network s = false := by
  unfold isSinglesigInput isPlainMultisig isGreenInput
  by_cases hkeys : s.iter.numKeys > 1 <;> simp [hkeys]

/-! ### The search -/

/-- The state of the search: the flags, and the record. -/
abbrev RecordState : Type := SigningFlags × Option SuitableRecord

/-- One signed input. -/
def recordStep (network : Network) (st : RecordState) (s : SignedInput K) :
    Except Fault RecordState :=
  scanInputRecord D network (networkIsLiquid network) (scanInputFlags D network st.1 s.iter) st.2
    s.iter s.script

/-- The path of the key fits the buffer of 16 elements. -/
def HasShortPath (s : SignedInput K) : Prop := (s.iter.getPath MAX_PATH_LEN).isSome = true

/-- The path of the key an iterator is at. -/
def KeyIter.fullPath (iter : KeyIter K) : List UInt32 :=
  ((iter.keypaths[iter.keyIndex]?).map Keypath.path).getD []

theorem fullPath_of_getPath {iter : KeyIter K} {n : ℕ} {path : List UInt32}
    (h : iter.getPath n = some path) : iter.fullPath = path := by
  obtain ⟨keypath, hkeypath, h⟩ := Option.bind_eq_some_iff.1 h
  split at h
  · rw [KeyIter.fullPath, hkeypath, ← Option.some.inj h]
    rfl
  · cases h

/-- A record gives the script of the output that a signed input spends, or gives another one. -/
def Gives (network : Network) (r : SuitableRecord) (s : SignedInput K) (answer : Bool) : Prop :=
  r.verifies D.wallet D.records network s.iter s.iter.fullPath s.script = .ok answer

/-- A record is tried on an input with a short path. -/
structure Tests (network : Network) (r : SuitableRecord) (s : SignedInput K) (answer : Bool) :
    Prop where
  short : HasShortPath s
  gives : Gives D network r s answer

theorem tests_iff {network : Network} {r : SuitableRecord} {s : SignedInput K} {answer : Bool} :
    Tests D network r s answer ↔ ∃ path, s.iter.getPath MAX_PATH_LEN = some path ∧
      r.verifies D.wallet D.records network s.iter path s.script = .ok answer := by
  constructor
  · intro h
    obtain ⟨path, hpath⟩ := Option.isSome_iff_exists.1 h.short
    refine ⟨path, hpath, ?_⟩
    rw [← fullPath_of_getPath hpath]
    exact h.gives
  · rintro ⟨path, hpath, h⟩
    refine ⟨Option.isSome_iff_exists.2 ⟨path, hpath⟩, ?_⟩
    rw [Gives, fullPath_of_getPath hpath]
    exact h

def SuitableRecord.name : SuitableRecord → String
  | .multisig name _ => name
  | .descriptor name _ => name

/-- The registered records in the order in which they are tried. Liquid has no descriptors. -/
def recordsTried (network : Network) : List SuitableRecord :=
  (D.records.multisigNames.getD []).filterMap
      (fun name => (D.records.multisigLoad name).map (.multisig name)) ++
    if networkIsLiquid network then []
    else (D.records.descriptorNames.getD []).filterMap
      fun name => (D.records.descriptorLoad name).map (.descriptor name)

/-- The first of some records that gives the script, or none of them does. -/
inductive FirstOf (network : Network) (s : SignedInput K) :
    List SuitableRecord → Option SuitableRecord → Prop
  | none : FirstOf network s [] none
  | here (r : SuitableRecord) (rs : List SuitableRecord) (hgives : Gives D network r s true)
      (hname : r.name.length < NVS_KEY_NAME_MAX_SIZE) : FirstOf network s (r :: rs) (some r)
  | later (r : SuitableRecord) (rs : List SuitableRecord) (found : Option SuitableRecord)
      (hgives : Gives D network r s false) (hrest : FirstOf network s rs found) :
      FirstOf network s (r :: rs) found

/-- The first registered record that gives the script of an input with a short path. -/
structure Picks (network : Network) (s : SignedInput K) (found : Option SuitableRecord) :
    Prop where
  short : HasShortPath s
  script : s.script ≠ []
  first : FirstOf D network s (recordsTried D network) found

/-- The loops over the names, as one loop over the records. -/
def firstFitting (network : Network) (iter : KeyIter K) (path : List UInt32) (script : Bytes) :
    List SuitableRecord → Except Fault (Option SuitableRecord)
  | [] => .ok none
  | r :: rs => do
      if ← r.verifies D.wallet D.records network iter path script then do
        jadeVerify (decide (r.name.length < NVS_KEY_NAME_MAX_SIZE))
        pure (some r)
      else firstFitting network iter path script rs

theorem firstSuitable_eq {E : Type} {load : String → Option E}
    {record : String → E → SuitableRecord} (hrecord : ∀ name data, (record name data).name = name)
    (network : Network) (iter : KeyIter K) (path : List UInt32) (script : Bytes)
    (names : List String) :
    firstSuitable D.wallet D.records load record network iter path script names =
      firstFitting D network iter path script
        (names.filterMap fun name => (load name).map (record name)) := by
  induction names with
  | nil => rfl
  | cons name names ih =>
      rw [firstSuitable, List.filterMap_cons]
      cases load name with
      | none => exact ih
      | some data =>
          dsimp only [Option.map_some]
          rw [firstFitting, hrecord, ih]

theorem firstFitting_append (network : Network) (iter : KeyIter K) (path : List UInt32)
    (script : Bytes) (rs rs' : List SuitableRecord) :
    firstFitting D network iter path script (rs ++ rs') =
      firstFitting D network iter path script rs >>= fun found =>
        if found.isNone then firstFitting D network iter path script rs' else pure found := by
  induction rs with
  | nil => rfl
  | cons r rs ih =>
      rw [List.cons_append, firstFitting, firstFitting, bind_assoc]
      congr 1
      funext answer
      cases answer with
      | true =>
          simp only [if_true, bind_assoc]
          rfl
      | false =>
          simp only [Bool.false_eq_true, if_false]
          exact ih

/-- **What is looked up**: the first of the records that gives the script. -/
theorem lookUpRecord_eq (network : Network) (iter : KeyIter K) (path : List UInt32)
    {script : Bytes} (hscript : script ≠ []) :
    lookUpRecord D network (networkIsLiquid network) iter path script =
      firstFitting D network iter path script (recordsTried D network) := by
  have hmultisig : getSuitableMultisigRecord D.wallet D.records network iter path script =
      firstFitting D network iter path script ((D.records.multisigNames.getD []).filterMap
        fun name => (D.records.multisigLoad name).map (.multisig name)) := by
    rw [getSuitableMultisigRecord, jadeVerify, if_pos (by simpa using hscript), ok_bind]
    cases D.records.multisigNames with
    | none => rfl
    | some names => exact firstSuitable_eq D (fun _ _ => rfl) network iter path script names
  have hdescriptor : getSuitableDescriptorRecord D.wallet D.records network iter path script =
      firstFitting D network iter path script ((D.records.descriptorNames.getD []).filterMap
        fun name => (D.records.descriptorLoad name).map (.descriptor name)) := by
    rw [getSuitableDescriptorRecord, jadeVerify, if_pos (by simpa using hscript), ok_bind]
    cases D.records.descriptorNames with
    | none => rfl
    | some names => exact firstSuitable_eq D (fun _ _ => rfl) network iter path script names
  rw [lookUpRecord, recordsTried, hmultisig, hdescriptor, firstFitting_append]
  congr 1
  funext found
  cases networkIsLiquid network with
  | false =>
      simp only [Bool.not_false, Bool.and_true, Bool.false_eq_true, if_false]
  | true =>
      simp only [Bool.not_true, Bool.and_false, Bool.false_eq_true, if_false, if_true]
      cases found <;> rfl

theorem firstFitting_eq_ok {network : Network} {s : SignedInput K} {path : List UInt32}
    (hpath : s.iter.getPath MAX_PATH_LEN = some path) {rs : List SuitableRecord}
    {found : Option SuitableRecord} :
    firstFitting D network s.iter path s.script rs = .ok found ↔ FirstOf D network s rs found := by
  have hgives : ∀ {r : SuitableRecord} {answer : Bool}, Gives D network r s answer ↔
      r.verifies D.wallet D.records network s.iter path s.script = .ok answer := by
    intro r answer
    rw [Gives, fullPath_of_getPath hpath]
  induction rs generalizing found with
  | nil =>
      constructor
      · intro h
        obtain rfl := Except.ok.inj h
        exact .none
      · rintro ⟨⟩
        rfl
  | cons r rs ih =>
      rw [firstFitting, bind_eq_ok]
      constructor
      · rintro ⟨answer, hanswer, h⟩
        cases answer with
        | false => exact .later r rs found (hgives.2 hanswer) (ih.1 h)
        | true =>
            obtain ⟨_, hname, h⟩ := bind_eq_ok.1 h
            obtain rfl := pure_eq_ok.1 h
            exact .here r rs (hgives.2 hanswer) (by simpa using jadeVerify_eq_ok.1 hname)
      · intro h
        cases h with
        | here _ _ hanswer hname =>
            refine ⟨true, hgives.1 hanswer, ?_⟩
            rw [if_pos rfl, jadeVerify, if_pos (decide_eq_true hname)]
            rfl
        | later _ _ _ hanswer hrest => exact ⟨false, hgives.1 hanswer, ih.2 hrest⟩

theorem picks_iff {network : Network} {s : SignedInput K} {found : Option SuitableRecord} :
    Picks D network s found ↔ ∃ path, s.iter.getPath MAX_PATH_LEN = some path ∧
      lookUpRecord D network (networkIsLiquid network) s.iter path s.script = .ok found := by
  constructor
  · intro h
    obtain ⟨path, hpath⟩ := Option.isSome_iff_exists.1 h.short
    refine ⟨path, hpath, ?_⟩
    rw [lookUpRecord_eq D network s.iter path h.script, firstFitting_eq_ok D hpath]
    exact h.first
  · rintro ⟨path, hpath, h⟩
    have hscript : s.script ≠ [] := by
      intro hempty
      obtain ⟨_, hfound, -⟩ := bind_eq_ok.1 h
      obtain ⟨_, hverify, -⟩ := bind_eq_ok.1 hfound
      rw [hempty] at hverify
      cases hverify
    refine ⟨Option.isSome_iff_exists.2 ⟨path, hpath⟩, hscript, ?_⟩
    rwa [lookUpRecord_eq D network s.iter path hscript, firstFitting_eq_ok D hpath] at h

/-- Some order of the inputs looks up the record, and it fits every input it is tried on. -/
structure Survives (network : Network) (xs : List (SignedInput K)) (r : SuitableRecord) : Prop where
  picked : ∃ v ∈ xs, Picks D network v (some r)
  tested : ∀ s ∈ xs, HasShortPath s → Gives D network r s true

/-- Some order of the inputs finds no record, or one that does not fit another input. -/
def GivesUp (network : Network) (xs : List (SignedInput K)) : Prop :=
  ∃ v ∈ xs, Picks D network v none ∨
    ∃ r, Picks D network v (some r) ∧ ∃ s ∈ xs, Tests D network r s false

theorem GivesUp.mono {network : Network} {xs ys : List (SignedInput K)}
    (h : GivesUp D network xs) (hsub : ∀ s ∈ xs, s ∈ ys) : GivesUp D network ys := by
  obtain ⟨v, hv, hnone | ⟨r, hr, s, hs, htest⟩⟩ := h
  · exact ⟨v, hsub v hv, .inl hnone⟩
  · exact ⟨v, hsub v hv, .inr ⟨r, hr, s, hsub s hs, htest⟩⟩

theorem Survives.perm {network : Network} {xs ys : List (SignedInput K)} {r : SuitableRecord}
    (h : Survives D network xs r) (hmem : ∀ s, s ∈ xs ↔ s ∈ ys) : Survives D network ys r := by
  obtain ⟨v, hv, hpick⟩ := h.picked
  exact ⟨⟨v, (hmem v).1 hv, hpick⟩, fun s hs => h.tested s ((hmem s).2 hs)⟩

/-- The record is one of those that are registered. -/
def IsRegistered (records : Records) : SuitableRecord → Prop
  | .multisig name data => records.multisigLoad name = some data
  | .descriptor name data => records.descriptorLoad name = some data

theorem isRegistered_of_mem {network : Network} {r : SuitableRecord}
    (h : r ∈ recordsTried D network) : IsRegistered D.records r := by
  have hload : ∀ {E : Type} {load : String → Option E} {record : String → E → SuitableRecord}
      {names : List String}, (∀ name data, load name = some data →
        IsRegistered D.records (record name data)) →
      r ∈ names.filterMap (fun name => (load name).map (record name)) →
        IsRegistered D.records r := by
    intro E load record names hregistered hmem
    obtain ⟨name, -, hname⟩ := List.mem_filterMap.1 hmem
    obtain ⟨data, hdata, rfl⟩ := Option.map_eq_some_iff.1 hname
    exact hregistered name data hdata
  rcases List.mem_append.1 h with h | h
  · exact @hload MultisigData D.records.multisigLoad .multisig _ (fun _ _ h => h) h
  · split at h
    · cases h
    · exact @hload DescriptorData D.records.descriptorLoad .descriptor _ (fun _ _ h => h) h

theorem FirstOf.spec {network : Network} {s : SignedInput K} {rs : List SuitableRecord}
    {r : SuitableRecord} (h : FirstOf D network s rs (some r)) :
    r ∈ rs ∧ Gives D network r s true := by
  induction rs with
  | nil => cases h
  | cons r' rs ih =>
      cases h with
      | here _ _ hgives _ => exact ⟨List.mem_cons_self, hgives⟩
      | later _ _ _ _ hrest =>
          obtain ⟨hmem, hgives⟩ := ih hrest
          exact ⟨List.mem_cons_of_mem r' hmem, hgives⟩

/-- A record that is looked up is registered and fits the input. -/
theorem Picks.spec {network : Network} {s : SignedInput K} {r : SuitableRecord}
    (h : Picks D network s (some r)) :
    IsRegistered D.records r ∧ Tests D network r s true := by
  obtain ⟨hmem, hgives⟩ := h.first.spec
  exact ⟨isRegistered_of_mem D hmem, h.short, hgives⟩

/-- The flags say which kinds of inputs there are among `pre`. -/
structure KindFlags (network : Network) (pre : List (SignedInput K)) (flags : SigningFlags) :
    Prop where
  singlesig : flags.singlesig = pre.any isSinglesigInput
  multisig : flags.multisig = pre.any (isPlainMultisig D network)
  greenMultisig : flags.greenMultisig = pre.any (isGreenInput D network)

/-- **What the search knows after the inputs `pre`.** -/
structure Tracked (network : Network) (pre : List (SignedInput K)) (st : RecordState) : Prop
    extends KindFlags D network pre st.1 where
  single : st.1.singleMultisigRecord = true → st.1.multisig = true
  going : st.1.multisigChangeAbandoned = false → ∀ s ∈ pre, isPlainMultisig D network s = true
  searching : st.1.multisigChangeAbandoned = false → st.1.singleMultisigRecord = false →
    ∀ s ∈ pre, ¬HasShortPath s
  kept : st.1.multisigChangeAbandoned = false → st.1.singleMultisigRecord = true →
    ∃ r, st.2 = some r ∧ Survives D network pre r
  abandoned : st.1.multisigChangeAbandoned = true →
    (∃ s ∈ pre, isPlainMultisig D network s = false) ∨ GivesUp D network pre

theorem tracked_nil (network : Network) : Tracked D network [] ({}, none) where
  singlesig := rfl
  multisig := rfl
  greenMultisig := rfl
  single := by simp
  going := by simp
  searching := by simp
  kept := by simp
  abandoned := by simp

/-- All inputs are of the plain kind, unless one is of another kind. -/
theorem plain_or_otherKind (network : Network) (xs : List (SignedInput K)) :
    (xs.any isSinglesigInput || xs.any (isGreenInput D network)) = true ↔
      ∃ s ∈ xs, isPlainMultisig D network s = false := by
  have hplain : ∀ s : SignedInput K, isPlainMultisig D network s = false ↔
      isSinglesigInput s = true ∨ isGreenInput D network s = true := by
    intro s
    rw [← Bool.not_eq_true, isPlainMultisig_iff]
    cases isSinglesigInput s <;> cases isGreenInput D network s <;> simp
  simp only [Bool.or_eq_true, List.any_eq_true, hplain]
  constructor
  · intro h
    rcases h with ⟨s, hs, hkind⟩ | ⟨s, hs, hkind⟩
    · exact ⟨s, hs, .inl hkind⟩
    · exact ⟨s, hs, .inr hkind⟩
  · intro h
    obtain ⟨s, hs, hkind | hkind⟩ := h
    · exact .inl ⟨s, hs, hkind⟩
    · exact .inr ⟨s, hs, hkind⟩

theorem all_plain_of_kind {network : Network} {xs : List (SignedInput K)}
    (h : (xs.any isSinglesigInput || xs.any (isGreenInput D network)) = false) :
    ∀ s ∈ xs, isPlainMultisig D network s = true := by
  intro s hs
  by_contra hplain
  have hother := (plain_or_otherKind D network xs).2 ⟨s, hs, by simpa using hplain⟩
  rw [h] at hother
  cases hother

theorem KindFlags.step {network : Network} {pre : List (SignedInput K)} {flags : SigningFlags}
    (h : KindFlags D network pre flags) (s : SignedInput K) :
    KindFlags D network (pre ++ [s]) (scanInputFlags D network flags s.iter) := by
  have hany : ∀ q : SignedInput K → Bool, (pre ++ [s]).any q = (pre.any q || q s) := by
    intro q
    simp
  rw [scanInputFlags_eq]
  constructor
  · rw [hany, ← h.singlesig]
  · rw [hany, ← h.multisig]
  · rw [hany, ← h.greenMultisig]

/-- The search only goes on as long as all inputs are of the plain kind. -/
theorem KindFlags.all_plain {network : Network} {xs : List (SignedInput K)} {flags : SigningFlags}
    (h : KindFlags D network xs flags) (hkind : (flags.singlesig || flags.greenMultisig) = false) :
    ∀ s ∈ xs, isPlainMultisig D network s = true := by
  rw [h.singlesig, h.greenMultisig] at hkind
  exact all_plain_of_kind D hkind

/-- A record that is kept stays so when it fits the next input as well. -/
theorem Survives.concat {network : Network} {pre : List (SignedInput K)} {s : SignedInput K}
    {r : SuitableRecord} (h : Survives D network pre r)
    (hs : HasShortPath s → Gives D network r s true) : Survives D network (pre ++ [s]) r := by
  obtain ⟨v, hv, hpick⟩ := h.picked
  refine ⟨⟨v, List.mem_append_left _ hv, hpick⟩, ?_⟩
  intro x hx hshort
  rcases List.mem_append.1 hx with hx | hx
  · exact h.tested x hx hshort
  · obtain rfl := List.mem_singleton.1 hx
    exact hs hshort

section TrackedSteps

variable {D} {network : Network} {pre xs : List (SignedInput K)} {flags : SigningFlags}
  {record : Option SuitableRecord} {s : SignedInput K}

/-- Where the search ends: an input is of another kind, or no record fits them all. -/
theorem KindFlags.tracked_of_abandoned (hkinds : KindFlags D network xs flags)
    (hsingle : flags.singleMultisigRecord = true → flags.multisig = true)
    (habandoned : flags.multisigChangeAbandoned = true)
    (hwhy : (∃ s ∈ xs, isPlainMultisig D network s = false) ∨ GivesUp D network xs) :
    Tracked D network xs (flags, record) where
  toKindFlags := hkinds
  single := hsingle
  going hno := absurd habandoned (Bool.eq_false_iff.1 hno)
  searching hno := absurd habandoned (Bool.eq_false_iff.1 hno)
  kept hno := absurd habandoned (Bool.eq_false_iff.1 hno)
  abandoned _ := hwhy

/-- Where a record fits all inputs so far. -/
theorem KindFlags.tracked_of_survives {r : SuitableRecord} (hkinds : KindFlags D network xs flags)
    (hmultisig : flags.multisig = true)
    (hkind : (flags.singlesig || flags.greenMultisig) = false)
    (hsingle : flags.singleMultisigRecord = true)
    (hgoing : flags.multisigChangeAbandoned = false) (hkept : Survives D network xs r) :
    Tracked D network xs (flags, some r) where
  toKindFlags := hkinds
  single _ := hmultisig
  going _ := hkinds.all_plain D hkind
  searching _ hnone := absurd hsingle (Bool.eq_false_iff.1 hnone)
  kept _ _ := ⟨r, rfl, hkept⟩
  abandoned hyes := absurd hyes (Bool.eq_false_iff.1 hgoing)

/-- The first input with a path keeps the record it finds. -/
theorem Picks.survives {r : SuitableRecord} (hpick : Picks D network s (some r))
    (hsearching : ∀ x ∈ pre, ¬HasShortPath x) : Survives D network (pre ++ [s]) r := by
  refine ⟨⟨s, by simp, hpick⟩, ?_⟩
  intro x hx hshort
  rcases List.mem_append.1 hx with hx | hx
  · exact absurd hshort (hsearching x hx)
  · obtain rfl := List.mem_singleton.1 hx
    exact (hpick.spec D).2.gives

/-- Only the kinds of the flags change before the record is looked at. -/
theorem Tracked.noteKind (h : Tracked D network pre (flags, record)) (s : SignedInput K) :
    (scanInputFlags D network flags s.iter).singleMultisigRecord = flags.singleMultisigRecord ∧
      (scanInputFlags D network flags s.iter).multisigChangeAbandoned =
        flags.multisigChangeAbandoned ∧
      (flags.singleMultisigRecord = true →
        (scanInputFlags D network flags s.iter).multisig = true) := by
  rw [scanInputFlags_eq]
  refine ⟨rfl, rfl, fun hrecord => ?_⟩
  rw [show flags.multisig = true from h.single hrecord, Bool.true_or]

end TrackedSteps

theorem Tracked.step {network : Network} {pre : List (SignedInput K)} {st st' : RecordState}
    {s : SignedInput K} (h : Tracked D network pre st)
    (hstep : recordStep D network st s = .ok st') : Tracked D network (pre ++ [s]) st' := by
  have hsub : ∀ x ∈ pre, x ∈ pre ++ [s] := fun x hx => List.mem_append_left _ hx
  have hmem : s ∈ pre ++ [s] := by simp
  obtain ⟨flags, record⟩ := st
  obtain ⟨flags', record'⟩ := st'
  have hkinds := h.toKindFlags.step D s
  have hnote := h.noteKind s
  unfold recordStep at hstep
  rw [scanInputRecord_iff] at hstep
  dsimp only at hkinds hstep
  generalize scanInputFlags D network flags s.iter = flags₁ at hkinds hnote hstep
  obtain ⟨hsingle, habandoned, hone⟩ := hnote
  cases hstep with
  | abandoned hab =>
      refine hkinds.tracked_of_abandoned (fun hrecord => hone (hsingle ▸ hrecord)) hab ?_
      rcases h.abandoned (habandoned ▸ hab) with ⟨x, hx, hplain⟩ | hgives
      · exact .inl ⟨x, hsub x hx, hplain⟩
      · exact .inr (hgives.mono D hsub)
  | otherKind hno hkind =>
      rw [hkinds.singlesig, hkinds.greenMultisig] at hkind
      exact KindFlags.tracked_of_abandoned ⟨hkinds.singlesig, hkinds.multisig, hkinds.greenMultisig⟩
        (fun hrecord => hone (hsingle ▸ hrecord)) rfl
        (.inl ((plain_or_otherKind D network _).1 hkind))
  | noPath hno hkind hpath =>
      have hlong : ¬HasShortPath s := by simp [HasShortPath, hpath]
      exact {
        __ := hkinds
        single := fun hrecord => hone (hsingle ▸ hrecord)
        going := fun _ => hkinds.all_plain D hkind
        searching := by
          intro _ hrecord x hx
          rcases List.mem_append.1 hx with hx | hx
          · exact h.searching (habandoned ▸ hno) (hsingle ▸ hrecord) x hx
          · obtain rfl := List.mem_singleton.1 hx
            exact hlong
        kept := by
          intro _ hrecord
          obtain ⟨r, hr, hkept⟩ := h.kept (habandoned ▸ hno) (hsingle ▸ hrecord)
          exact ⟨r, hr, hkept.concat D fun hshort => absurd hshort hlong⟩
        abandoned := fun hyes => absurd hyes (Bool.eq_false_iff.1 hno) }
  | tested path r answer hno hkind hpath hrecord hr hanswer =>
      obtain ⟨r', hr', hkept⟩ := h.kept (habandoned ▸ hno) (hsingle ▸ hrecord)
      obtain rfl : r' = r := Option.some.inj (hr'.symm.trans hr)
      have htest : Tests D network r' s answer := (tests_iff D).2 ⟨path, hpath, hanswer⟩
      have hmultisig := hone (hsingle ▸ hrecord)
      have hkinds' : KindFlags D network (pre ++ [s])
          { flags₁ with multisigChangeAbandoned := !answer } :=
        ⟨hkinds.singlesig, hkinds.multisig, hkinds.greenMultisig⟩
      cases answer with
      | true =>
          exact hkinds'.tracked_of_survives hmultisig hkind hrecord rfl
            (hkept.concat D fun _ => htest.gives)
      | false =>
          obtain ⟨v, hv, hpick⟩ := hkept.picked
          exact hkinds'.tracked_of_abandoned (fun _ => hmultisig) rfl
            (.inr ⟨v, hsub v hv, .inr ⟨r', hpick, s, hmem, htest⟩⟩)
  | lookedUp path found hno hkind hpath hrecord hfound =>
      have hpick : Picks D network s record' := (picks_iff D).2 ⟨path, hpath, hfound⟩
      have hmultisig : flags₁.multisig = true := by
        rw [hkinds.multisig, List.any_eq_true]
        exact ⟨s, hmem, hkinds.all_plain D hkind s hmem⟩
      have hkinds' : KindFlags D network (pre ++ [s])
          { flags₁ with
            singleMultisigRecord := record'.isSome
            multisigChangeAbandoned := record'.isNone } :=
        ⟨hkinds.singlesig, hkinds.multisig, hkinds.greenMultisig⟩
      cases record' with
      | none => exact hkinds'.tracked_of_abandoned nofun rfl (.inr ⟨s, hmem, .inl hpick⟩)
      | some r =>
          exact hkinds'.tracked_of_survives hmultisig hkind rfl rfl
            (hpick.survives (h.searching (habandoned ▸ hno) (hsingle ▸ hrecord)))

/-- **What the search knows after all signed inputs.** -/
theorem tracked_foldlM {network : Network} {xs : List (SignedInput K)} {st : RecordState}
    (h : xs.foldlM (recordStep D network) ({}, none) = .ok st) : Tracked D network xs st :=
  foldlM_eq_ok (Tracked D network) xs (fun _ _ _ _ _ _ hpre hstep => hpre.step D hstep)
    (tracked_nil D network) h

theorem Tracked.kinds_of_plain {network : Network} {xs : List (SignedInput K)} {st : RecordState}
    (h : Tracked D network xs st) (hplain : ∀ s ∈ xs, isPlainMultisig D network s = true) :
    st.1.singlesig = false ∧ st.1.greenMultisig = false := by
  rw [h.singlesig, h.greenMultisig]
  constructor
  · rw [List.any_eq_false]
    intro s hs
    simp [((isPlainMultisig_iff D network s).1 (hplain s hs)).1]
  · rw [List.any_eq_false]
    intro s hs
    simp [((isPlainMultisig_iff D network s).1 (hplain s hs)).2]

/-- The flags say that all inputs are Green ones exactly when they are. -/
theorem Tracked.greenFlags_iff {network : Network} {xs : List (SignedInput K)} {st : RecordState}
    (h : Tracked D network xs st) :
    st.1 = { greenMultisig := true, multisigChangeAbandoned := true } ↔
      xs.any (isGreenInput D network) = true ∧ xs.any isSinglesigInput = false ∧
        xs.any (isPlainMultisig D network) = false := by
  rw [← h.singlesig, ← h.multisig, ← h.greenMultisig]
  constructor
  · intro hst
    rw [hst]
    exact ⟨rfl, rfl, rfl⟩
  · rintro ⟨hgreen, hsinglesig, hmultisig⟩
    have habandoned : st.1.multisigChangeAbandoned = true := by
      by_contra hno
      have hkinds := (h.kinds_of_plain D (h.going (by simpa using hno))).2
      rw [hgreen] at hkinds
      cases hkinds
    have hsingle : st.1.singleMultisigRecord = false := by
      by_contra hyes
      have hkind := h.single (by simpa using hyes)
      rw [hmultisig] at hkind
      cases hkind
    cases hst : st.1
    simp_all

/-! ### Orders of the inputs -/

/-- Once the search is abandoned nothing stops the loop. -/
theorem foldlM_abandoned (network : Network) (xs : List (SignedInput K)) (st : RecordState)
    (h : st.1.multisigChangeAbandoned = true) :
    ∃ st', xs.foldlM (recordStep D network) st = .ok st' ∧ st'.1.multisigChangeAbandoned = true := by
  refine exists_foldlM_eq_ok (fun st : RecordState => st.1.multisigChangeAbandoned = true) xs ?_ h
  intro s _ st hst
  have habandoned : (scanInputFlags D network st.1 s.iter).multisigChangeAbandoned = true := by
    rw [scanInputFlags_eq]
    exact hst
  exact ⟨_, (scanInputRecord_iff D).2 (.abandoned habandoned), habandoned⟩

/-- The flags when all signed inputs belong to one record. -/
def recordFlags : SigningFlags := { multisig := true, singleMultisigRecord := true }

theorem scanInputFlags_recordFlags {network : Network} {s : SignedInput K}
    (h : isPlainMultisig D network s = true) :
    scanInputFlags D network recordFlags s.iter = recordFlags := by
  obtain ⟨hsinglesig, hgreen⟩ := (isPlainMultisig_iff D network s).1 h
  simp [scanInputFlags_eq, recordFlags, h, hsinglesig, hgreen]

/-- A record that fits them is kept over all inputs. -/
theorem foldlM_recordFlags {network : Network} {xs : List (SignedInput K)} {r : SuitableRecord}
    (hplain : ∀ s ∈ xs, isPlainMultisig D network s = true)
    (htested : ∀ s ∈ xs, HasShortPath s → Gives D network r s true) :
    xs.foldlM (recordStep D network) (recordFlags, some r) = .ok (recordFlags, some r) := by
  have hturn : ∀ s ∈ xs, ∀ st : RecordState, st = (recordFlags, some r) →
      ∃ st', recordStep D network st s = .ok st' ∧ st' = (recordFlags, some r) := by
    rintro s hs _ rfl
    refine ⟨_, ?_, rfl⟩
    unfold recordStep
    rw [scanInputFlags_recordFlags D (hplain s hs), scanInputRecord_iff]
    cases hpath : s.iter.getPath MAX_PATH_LEN with
    | none => exact .noPath rfl rfl hpath
    | some path =>
        have hshort : HasShortPath s := by simp [HasShortPath, hpath]
        obtain ⟨path', hpath', hverifies⟩ := (tests_iff D).1 ⟨hshort, htested s hs hshort⟩
        exact .tested path' r true rfl rfl hpath' rfl rfl hverifies
  obtain ⟨st, hst, rfl⟩ := exists_foldlM_eq_ok _ xs hturn rfl
  exact hst

/-- The first input with a path that fits decides which record is tried. -/
theorem recordStep_first {network : Network} {s : SignedInput K} {found : Option SuitableRecord}
    (hplain : isPlainMultisig D network s = true) (hpick : Picks D network s found) :
    recordStep D network ({}, none) s = .ok ({
      multisig := true
      singleMultisigRecord := found.isSome
      multisigChangeAbandoned := found.isNone }, found) := by
  obtain ⟨path, hpath, hfound⟩ := (picks_iff D).1 hpick
  obtain ⟨hsinglesig, hgreen⟩ := (isPlainMultisig_iff D network s).1 hplain
  unfold recordStep
  rw [scanInputFlags_eq, scanInputRecord_iff, hsinglesig, hgreen, hplain]
  exact .lookedUp path found rfl rfl hpath rfl hfound

/-- **A record that is kept in some order**: the input it is looked up for comes first. -/
theorem foldlM_kept {network : Network} {v : SignedInput K} {rest : List (SignedInput K)}
    {r : SuitableRecord} (hplain : ∀ s ∈ v :: rest, isPlainMultisig D network s = true)
    (hpick : Picks D network v (some r))
    (htested : ∀ s ∈ rest, HasShortPath s → Gives D network r s true) :
    (v :: rest).foldlM (recordStep D network) ({}, none) = .ok (recordFlags, some r) := by
  rw [List.foldlM_cons, bind_eq_ok]
  refine ⟨_, recordStep_first D (hplain v List.mem_cons_self) hpick, ?_⟩
  exact foldlM_recordFlags D (fun s hs => hplain s (List.mem_cons_of_mem v hs)) htested

/-- The search ends without a record when the input none is found for comes first. -/
theorem foldlM_first_none {network : Network} {v : SignedInput K} (ys : List (SignedInput K))
    (hplain : isPlainMultisig D network v = true) (hpick : Picks D network v none) :
    ∃ st, (v :: ys).foldlM (recordStep D network) ({}, none) = .ok st ∧
      st.1.multisigChangeAbandoned = true := by
  obtain ⟨st, hst, habandoned⟩ := foldlM_abandoned D network ys
    ({ multisig := true, multisigChangeAbandoned := true }, none) rfl
  exact ⟨st, bind_eq_ok.2 ⟨_, recordStep_first D hplain hpick, hst⟩, habandoned⟩

/-- The search ends without a record when an input comes first whose record does not fit the next
one. -/
theorem foldlM_first_misfit {network : Network} {v s : SignedInput K} {r : SuitableRecord}
    (ys : List (SignedInput K)) (hplain : isPlainMultisig D network v = true)
    (hplain' : isPlainMultisig D network s = true) (hpick : Picks D network v (some r))
    (htest : Tests D network r s false) :
    ∃ st, (v :: s :: ys).foldlM (recordStep D network) ({}, none) = .ok st ∧
      st.1.multisigChangeAbandoned = true := by
  obtain ⟨path, hpath, hverifies⟩ := (tests_iff D).1 htest
  have hsecond : recordStep D network (recordFlags, some r) s =
      .ok ({ recordFlags with multisigChangeAbandoned := true }, some r) := by
    unfold recordStep
    rw [scanInputFlags_recordFlags D hplain', scanInputRecord_iff]
    exact .tested path r false rfl rfl hpath rfl rfl hverifies
  obtain ⟨st, hst, habandoned⟩ := foldlM_abandoned D network ys
    ({ recordFlags with multisigChangeAbandoned := true }, some r) rfl
  refine ⟨st, bind_eq_ok.2 ⟨_, recordStep_first D hplain hpick, ?_⟩, habandoned⟩
  exact bind_eq_ok.2 ⟨_, hsecond, hst⟩

/-- An answer is an answer: the first input's record fits that input. -/
theorem ne_of_misfit {network : Network} {v s : SignedInput K} {r : SuitableRecord}
    (hpick : Picks D network v (some r)) (htest : Tests D network r s false) : v ≠ s := by
  rintro rfl
  cases (hpick.spec D).2.gives.symm.trans htest.gives

/-! ### The loop over the inputs -/

theorem assetSummaryUpdate_isEmpty (assetId : Bytes) (value : UInt64) (sums : List AssetSummary) :
    (assetSummaryUpdate assetId value sums).isEmpty = sums.isEmpty := by
  cases sums with
  | nil => rfl
  | cons sum sums =>
      rw [assetSummaryUpdate]
      split <;> rfl

theorem scanInputAsset_isEmpty {forLiquid : Bool} {inSums inSums' : List AssetSummary}
    {input : PsbtInput} (h : scanInputAsset forLiquid inSums input = .ok inSums') :
    inSums'.isEmpty = inSums.isEmpty := by
  unfold scanInputAsset at h
  split at h
  · rw [Except.ok.inj h]
  · split at h
    · obtain ⟨_, -, h⟩ := bind_eq_ok.1 h
      rw [← pure_eq_ok.1 h, assetSummaryUpdate_isEmpty]
    · cases h

/-- Whether the asset of an input passes does not depend on the sums so far. -/
theorem exists_scanInputAsset {forLiquid : Bool} {inSums inSums' inSums₁ : List AssetSummary}
    {input : PsbtInput} (h : scanInputAsset forLiquid inSums input = .ok inSums')
    (hsums : inSums₁.isEmpty = inSums.isEmpty) :
    ∃ inSums₁', scanInputAsset forLiquid inSums₁ input = .ok inSums₁' := by
  unfold scanInputAsset at h ⊢
  rw [hsums]
  split at h
  · next hskip => exact ⟨inSums₁, by rw [if_pos hskip]⟩
  · next hskip =>
      rw [if_neg hskip]
      split at h
      · obtain ⟨_, hasset, -⟩ := bind_eq_ok.1 h
        exact ⟨_, bind_eq_ok.2 ⟨_, hasset, rfl⟩⟩
      · cases h

/-- Whether the script of an input passes does not depend on the flavour so far. -/
theorem exists_scanInputFlavour (flavour₁ : ScriptFlavour) {flavour flavour' : ScriptFlavour}
    {sigType : SigType} {script : Bytes} (h : scanInputFlavour D flavour sigType script = .ok flavour') :
    ∃ flavour₁', scanInputFlavour D flavour₁ sigType script = .ok flavour₁' := by
  unfold scanInputFlavour at h ⊢
  split at h
  · next hempty => exact ⟨flavour₁, by rw [if_pos hempty]⟩
  · next hempty =>
      rw [if_neg hempty]
      obtain ⟨scriptType, htype, h⟩ := bind_eq_ok.1 h
      obtain ⟨_, hp2tr, -⟩ := bind_eq_ok.1 h
      exact ⟨_, bind_eq_ok.2 ⟨scriptType, htype, bind_eq_ok.2 ⟨_, hp2tr, rfl⟩⟩⟩

/-- The steps of the search that an input makes: one when it is signed, and none otherwise. -/
def recordSteps (network : Network) (st : RecordState) (input : PsbtInput) :
    Except Fault RecordState :=
  (signedInputOf D input).toList.foldlM (recordStep D network) st

section Turn

variable {D} {network : Network} {txType : TxType} {isPartial : Bool} {psbt psbt' : Psbt}
  {scan scan' : InputScan} {input : PsbtInput} {i j : ℕ}

theorem scanOwnInput_record {script : Bytes} {iter : KeyIter K}
    (h : scanOwnInput D network txType isPartial psbt scan input i script iter = .ok scan') :
    recordStep D network (scan.flags, scan.record) ⟨iter, script⟩ =
        .ok (scan'.flags, scan'.record) ∧
      scan'.inSums.isEmpty = scan.inSums.isEmpty := by
  rw [scanOwnInput] at h
  obtain ⟨inSums, hasset, h⟩ := bind_eq_ok.1 h
  obtain ⟨_, -, h⟩ := bind_eq_ok.1 h
  obtain ⟨_, -, h⟩ := bind_eq_ok.1 h
  obtain ⟨_, -, h⟩ := bind_eq_ok.1 h
  obtain ⟨flavour, -, h⟩ := bind_eq_ok.1 h
  obtain ⟨⟨flags, record⟩, hrecord, h⟩ := bind_eq_ok.1 h
  obtain rfl := pure_eq_ok.1 h
  exact ⟨liftFault_eq_ok.1 hrecord, scanInputAsset_isEmpty hasset⟩

/-- An input that is signed passes the checks after other inputs too, when its step of the search
does not fail. -/
theorem exists_scanOwnInput {script : Bytes} {iter : KeyIter K} {scan₁ : InputScan}
    {st : RecordState}
    (h : scanOwnInput D network txType isPartial psbt scan input i script iter = .ok scan')
    (hsig : D.getInputSignatureType psbt' j = D.getInputSignatureType psbt i)
    (hsums : scan₁.inSums.isEmpty = scan.inSums.isEmpty)
    (hrecord : recordStep D network (scan₁.flags, scan₁.record) ⟨iter, script⟩ = .ok st) :
    ∃ scan₁', scanOwnInput D network txType isPartial psbt' scan₁ input j script iter = .ok scan₁' ∧
      (scan₁'.flags, scan₁'.record) = st := by
  obtain ⟨flags, record⟩ := st
  rw [scanOwnInput] at h
  obtain ⟨inSums, hasset, h⟩ := bind_eq_ok.1 h
  obtain ⟨sigType, htype, h⟩ := bind_eq_ok.1 h
  obtain ⟨_, hswap, h⟩ := bind_eq_ok.1 h
  obtain ⟨_, hsighash, h⟩ := bind_eq_ok.1 h
  obtain ⟨flavour, hflavour, -⟩ := bind_eq_ok.1 h
  obtain ⟨inSums₁, hasset₁⟩ := exists_scanInputAsset hasset hsums
  obtain ⟨flavour₁, hflavour₁⟩ := exists_scanInputFlavour D scan₁.flavour hflavour
  rw [scanOwnInput, hsig]
  refine ⟨{ scan₁ with
    inSums := inSums₁
    flags, record
    flavour := flavour₁
    sigTypes := scan₁.sigTypes ++ [some sigType] }, ?_, rfl⟩
  refine bind_eq_ok.2 ⟨inSums₁, hasset₁, bind_eq_ok.2 ⟨sigType, htype, ?_⟩⟩
  exact bind_eq_ok.2 ⟨_, hswap, bind_eq_ok.2 ⟨_, hsighash, bind_eq_ok.2 ⟨flavour₁, hflavour₁,
    bind_eq_ok.2 ⟨(flags, record), liftFault_eq_ok.2 hrecord, rfl⟩⟩⟩⟩

theorem addMwebAmount_record (scan : InputScan) (input : PsbtInput) :
    (scan.addMwebAmount input).flags = scan.flags ∧
      (scan.addMwebAmount input).record = scan.record ∧
      (scan.addMwebAmount input).inSums = scan.inSums := by
  unfold InputScan.addMwebAmount
  split <;> exact ⟨rfl, rfl, rfl⟩

theorem scanMwebInput_record (h : scanMwebInput D scan input = .ok scan') :
    scan'.flags = scan.flags ∧ scan'.record = scan.record ∧ scan'.inSums = scan.inSums := by
  obtain ⟨hflags, hrecord, hsums⟩ := addMwebAmount_record scan input
  simp only [scanMwebInput] at h
  split_ifs at h
  · obtain rfl := Except.ok.inj h
    exact ⟨hflags, hrecord, hsums⟩
  · obtain rfl := Except.ok.inj h
    exact ⟨hflags, hrecord, hsums⟩
  · obtain ⟨_, -, h⟩ := bind_eq_ok.1 h
    obtain rfl := pure_eq_ok.1 h
    exact ⟨hflags, hrecord, hsums⟩

/-- Whether an MWEB input passes does not depend on the inputs before it. -/
theorem exists_scanMwebInput {scan₁ : InputScan} (h : scanMwebInput D scan input = .ok scan') :
    ∃ scan₁', scanMwebInput D scan₁ input = .ok scan₁' := by
  simp only [scanMwebInput] at h ⊢
  split_ifs at h ⊢
  · exact ⟨_, rfl⟩
  · exact ⟨_, rfl⟩
  · obtain ⟨_, hfields, -⟩ := bind_eq_ok.1 h
    exact ⟨_, bind_eq_ok.2 ⟨_, hfields, rfl⟩⟩

/-- One turn of the loop is at most one step of the search. -/
theorem scanInput_record (h : scanInput D network txType isPartial psbt scan input i = .ok scan') :
    recordSteps D network (scan.flags, scan.record) input = .ok (scan'.flags, scan'.record) ∧
      scan'.inSums.isEmpty = scan.inSums.isEmpty := by
  have hnone : ∀ {scan₁ : InputScan}, signedInputOf D input = none → scan₁.flags = scan.flags ∧
      scan₁.record = scan.record ∧ scan₁.inSums = scan.inSums →
      recordSteps D network (scan.flags, scan.record) input = .ok (scan₁.flags, scan₁.record) ∧
        scan₁.inSums.isEmpty = scan.inSums.isEmpty := by
    rintro scan₁ hinput ⟨hflags, hrecord, hsums⟩
    refine ⟨?_, by rw [hsums]⟩
    rw [recordSteps, hinput, hflags, hrecord]
    rfl
  rw [scanInput] at h
  by_cases hmweb : mwebInHasOutputId input.mwebKeyset = true
  · rw [if_pos hmweb] at h
    exact hnone (by rw [signedInputOf, isMwebInput, if_pos hmweb]) (scanMwebInput_record h)
  · rw [if_neg hmweb, scanStdInput] at h
    cases hutxo : input.bestUtxo with
    | none => simp [hutxo] at h
    | some utxo =>
        simp only [hutxo] at h
        obtain ⟨iter, hiter, h⟩ := bind_eq_ok.1 h
        have hiter := liftFault_eq_ok.1 hiter
        have hadd : ∀ scan₀ : InputScan, scan₀ = (if networkIsLiquid network then scan
            else { scan with inputAmount := scan.inputAmount + utxo.satoshi }) →
            scan₀.flags = scan.flags ∧ scan₀.record = scan.record ∧
              scan₀.inSums = scan.inSums := by
          rintro _ rfl
          split <;> exact ⟨rfl, rfl, rfl⟩
        obtain ⟨hflags, hrecord, hsums⟩ := hadd _ rfl
        cases iter with
        | none =>
            obtain rfl := pure_eq_ok.1 h
            refine hnone ?_ ⟨hflags, hrecord, hsums⟩
            rw [signedInputOf, isMwebInput, if_neg hmweb, hutxo, hiter]
        | some iter =>
            obtain ⟨hstep, hempty⟩ := scanOwnInput_record h
            rw [hflags, hrecord] at hstep
            rw [hsums] at hempty
            have hinput : signedInputOf D input = some ⟨iter, utxo.script⟩ := by
              rw [signedInputOf, isMwebInput, if_neg hmweb, hutxo, hiter]
            refine ⟨?_, hempty⟩
            rw [recordSteps, hinput]
            exact bind_eq_ok.2 ⟨_, hstep, rfl⟩

/-- An input passes the checks after other inputs too, when its step of the search does not fail. -/
theorem exists_scanInput {scan₁ : InputScan} {st : RecordState}
    (h : scanInput D network txType isPartial psbt scan input i = .ok scan')
    (hsig : D.getInputSignatureType psbt' j = D.getInputSignatureType psbt i)
    (hsums : scan₁.inSums.isEmpty = scan.inSums.isEmpty)
    (hrecord : recordSteps D network (scan₁.flags, scan₁.record) input = .ok st) :
    ∃ scan₁', scanInput D network txType isPartial psbt' scan₁ input j = .ok scan₁' ∧
      (scan₁'.flags, scan₁'.record) = st := by
  have hsome : ∀ {scan₁'}, scanInput D network txType isPartial psbt' scan₁ input j = .ok scan₁' →
      ∃ scan₁', scanInput D network txType isPartial psbt' scan₁ input j = .ok scan₁' ∧
        (scan₁'.flags, scan₁'.record) = st := by
    intro scan₁' hscan
    have hsteps := (scanInput_record hscan).1
    rw [hrecord, Except.ok.injEq] at hsteps
    exact ⟨scan₁', hscan, hsteps.symm⟩
  suffices hexists : ∃ scan₁', scanInput D network txType isPartial psbt' scan₁ input j =
      .ok scan₁' by
    obtain ⟨scan₁', hscan⟩ := hexists
    exact hsome hscan
  rw [scanInput] at h ⊢
  by_cases hmweb : mwebInHasOutputId input.mwebKeyset = true
  · rw [if_pos hmweb] at h ⊢
    exact exists_scanMwebInput h
  · rw [if_neg hmweb, scanStdInput] at h ⊢
    cases hutxo : input.bestUtxo with
    | none => simp [hutxo] at h
    | some utxo =>
        simp only [hutxo] at h ⊢
        obtain ⟨iter, hiter, h⟩ := bind_eq_ok.1 h
        cases iter with
        | none => exact ⟨_, bind_eq_ok.2 ⟨none, hiter, rfl⟩⟩
        | some iter =>
            have hsigned : signedInputOf D input = some ⟨iter, utxo.script⟩ := by
              rw [signedInputOf, isMwebInput, if_neg hmweb, hutxo, liftFault_eq_ok.1 hiter]
            rw [recordSteps, hsigned] at hrecord
            obtain ⟨st', hstep, -⟩ := bind_eq_ok.1 hrecord
            have hstep' : recordStep D network ((if networkIsLiquid network then scan₁
                else { scan₁ with inputAmount := scan₁.inputAmount + utxo.satoshi }).flags,
                (if networkIsLiquid network then scan₁
                  else { scan₁ with inputAmount := scan₁.inputAmount + utxo.satoshi }).record)
                ⟨iter, utxo.script⟩ = .ok st' := by split <;> exact hstep
            obtain ⟨scan₁', hscan, -⟩ :=
              exists_scanOwnInput h hsig (by split <;> exact hsums) hstep'
            exact ⟨scan₁', bind_eq_ok.2 ⟨some iter, hiter, hscan⟩⟩

theorem foldlM_recordSteps (inputs : List PsbtInput) (st : RecordState) :
    inputs.foldlM (recordSteps D network) st =
      (inputs.filterMap (signedInputOf D)).foldlM (recordStep D network) st := by
  induction inputs generalizing st with
  | nil => rfl
  | cons input inputs ih =>
      rw [List.foldlM_cons, recordSteps]
      cases hinput : signedInputOf D input with
      | none =>
          rw [List.filterMap_cons_none hinput]
          exact ih st
      | some s =>
          rw [List.filterMap_cons_some hinput, List.foldlM_cons]
          simp only [Option.toList_some, List.foldlM_cons, List.foldlM_nil, bind_pure]
          exact congrArg _ (funext ih)

variable {info : AdditionalInfo}

/-- The loop over the inputs is the search over those that are signed. -/
theorem scanInputs_record (h : scanInputs D network txType info psbt = .ok scan) :
    (signedInputs D psbt).foldlM (recordStep D network) ({}, none) =
      .ok (scan.flags, scan.record) := by
  have hsteps : psbt.inputs.foldlM (recordSteps D network) ({}, none) =
      .ok (scan.flags, scan.record) := by
    refine foldlM_zipIdx_eq_ok (fun pre scan => pre.foldlM (recordSteps D network) ({}, none) =
      .ok (scan.flags, scan.record)) psbt.inputs ?_ rfl h
    intro pre input _ scan₀ scan₁ _ hpre hstep
    rw [List.foldlM_append, hpre]
    exact bind_eq_ok.2 ⟨_, rfl, bind_eq_ok.2 ⟨_, (scanInput_record hstep).1, rfl⟩⟩
  rwa [foldlM_recordSteps] at hsteps

/-- An input passes the checks that have nothing to do with the search. -/
def Passes (D : Device K P) (network : Network) (txType : TxType) (info : AdditionalInfo)
    (psbt : Psbt) (input : PsbtInput) : Prop :=
  ∃ i scan₀ scan₁, psbt.inputs[i]? = some input ∧
    scan₀.inSums.isEmpty = info.inSums.isEmpty ∧
    scanInput D network txType info.isPartial psbt scan₀ input i = .ok scan₁

theorem passes_of_scanInputs (h : scanInputs D network txType info psbt = .ok scan) :
    ∀ input ∈ psbt.inputs, Passes D network txType info psbt input := by
  have hall : scan.inSums.isEmpty = info.inSums.isEmpty ∧
      ∀ input ∈ psbt.inputs, Passes D network txType info psbt input := by
    refine foldlM_zipIdx_eq_ok (fun pre scan => scan.inSums.isEmpty = info.inSums.isEmpty ∧
      ∀ input ∈ pre, Passes D network txType info psbt input) psbt.inputs ?_ (by simp) h
    rintro pre input suf scan₀ scan₁ hinputs ⟨hsums, hpre⟩ hstep
    refine ⟨(scanInput_record hstep).2.trans hsums, ?_⟩
    intro input' hmem
    rcases List.mem_append.1 hmem with hmem | hmem
    · exact hpre input' hmem
    · obtain rfl := List.mem_singleton.1 hmem
      exact ⟨pre.length, scan₀, scan₁, by simp [hinputs], hsums, hstep⟩
  exact hall.2

/-- The signature type of an input does not depend on where it stands. -/
def SignatureTypeLocal (D : Device K P) : Prop :=
  ∀ psbt psbt' i j, psbt.inputs[i]? = psbt'.inputs[j]? →
    D.getInputSignatureType psbt i = D.getInputSignatureType psbt' j

/-- Inputs that pass in one order pass in every order in which the search does not fail. -/
theorem exists_scanInputs (hlocal : SignatureTypeLocal D) {st : RecordState}
    (hpasses : ∀ input ∈ psbt'.inputs, Passes D network txType info psbt input)
    (hrecord : (signedInputs D psbt').foldlM (recordStep D network) ({}, none) = .ok st) :
    ∃ scan', scanInputs D network txType info psbt' = .ok scan' ∧
      (scan'.flags, scan'.record) = st := by
  have key : ∀ (l : List (PsbtInput × ℕ)) (scan : InputScan),
      (∀ entry ∈ l, psbt'.inputs[entry.2]? = some entry.1) →
      scan.inSums.isEmpty = info.inSums.isEmpty →
      (l.map Prod.fst).foldlM (recordSteps D network) (scan.flags, scan.record) = .ok st →
      ∃ scan', l.foldlM (fun scan entry =>
          scanInput D network txType info.isPartial psbt' scan entry.1 entry.2) scan = .ok scan' ∧
        (scan'.flags, scan'.record) = st := by
    intro l
    induction l with
    | nil =>
        intro scan _ _ hst
        exact ⟨scan, rfl, pure_eq_ok.1 hst⟩
    | cons entry l ih =>
        intro scan hl hsums hst
        obtain ⟨input, j⟩ := entry
        rw [List.map_cons, List.foldlM_cons, bind_eq_ok] at hst
        obtain ⟨st₁, hst₁, hst⟩ := hst
        have hget : psbt'.inputs[j]? = some input := hl (input, j) List.mem_cons_self
        obtain ⟨i, scan₀, scan₁, hgetI, hsums₀, hscan⟩ :=
          hpasses input (List.mem_of_getElem? hget)
        obtain ⟨scan', hscan', hst'⟩ := exists_scanInput hscan
          (hlocal psbt' psbt j i (hget.trans hgetI.symm)) (hsums.trans hsums₀.symm) hst₁
        rw [← hst'] at hst
        obtain ⟨scan'', hrest, hend⟩ := ih scan'
          (fun e he => hl e (List.mem_cons_of_mem _ he))
          ((scanInput_record hscan').2.trans hsums) hst
        exact ⟨scan'', bind_eq_ok.2 ⟨scan', hscan', hrest⟩, hend⟩
  refine key psbt'.inputs.zipIdx { inSums := info.inSums } ?_ rfl ?_
  · rintro ⟨input, j⟩ hmem
    exact List.mem_zipIdx_iff_getElem?.1 hmem
  · rw [List.zipIdx_map_fst, foldlM_recordSteps]
    exact hrecord

end Turn

/-! ### The outputs -/

/-- The flags when all signed inputs are Green ones. -/
def greenFlags : SigningFlags := { greenMultisig := true, multisigChangeAbandoned := true }

/-- An output whose keys are looked at: it has a key of the wallet with a path that fits, and a script
that is not too long. -/
structure LooksAt (network : Network) (output : PsbtOutput) (txScript : Option Bytes)
    (iter : KeyIter K) (path : List UInt32) (script : Bytes) : Prop where
  std : mwebOutIsMweb output.mwebOutputKeyset = false
  notFee : (networkIsLiquid network && (txScript.getD []).isEmpty) = false
  key : keyIterBeginPublic D.wallet (outputKeySource output) = .ok (some iter)
  fits : iter.getPath MAX_PATH_LEN = some path
  tx : txScript = some script
  short : script.length ≤ WALLY_SCRIPTPUBKEY_P2WSH_LEN

/-- An output that a record marks: it has several keys, one of them the wallet's, and the record gives its
script. -/
def MarkedBy (network : Network) (r : SuitableRecord) (output : PsbtOutput)
    (txScript : Option Bytes) : Prop :=
  ∃ iter path script, LooksAt D network output txScript iter path script ∧ iter.numKeys ≠ 1 ∧
    r.verifies D.wallet D.records network iter path script = .ok true

/-- An output with several keys that are not taken for those of a Green one. -/
def IsPlainOutput (network : Network) (output : PsbtOutput) : Prop :=
  ∃ iter, keyIterBeginPublic D.wallet (outputKeySource output) = .ok (some iter) ∧
    iter.numKeys > 1 ∧
    isGreenMultisigSigners D.wallet network iter (iter.numKeys == 3) = none

/-- The sizes of the blinding key and the asset of an output are as they should be. -/
structure BlindingFits (output : PsbtOutput) : Prop where
  key : output.blindingPublicKey ≠ [] → output.blindingPublicKey.length = 33
  asset : output.amount.isSome = true → output.asset ≠ [] → output.asset.length = 32

/-- Comparing an output with a record fails no assertion: its blinding data has the right sizes, a fee
is explicit, the search for a key succeeds, and so does the comparison of the script; if that is equal,
a warning about the path fits its field. -/
structure Comparable (network : Network) (r : SuitableRecord) (output : PsbtOutput)
    (txScript : Option Bytes) : Prop where
  blinding : mwebOutIsMweb output.mwebOutputKeyset = false → networkIsLiquid network = true →
    BlindingFits output
  fee : mwebOutIsMweb output.mwebOutputKeyset = false →
    (networkIsLiquid network && (txScript.getD []).isEmpty) = true →
      output.assetCommitment = [] ∧ output.valueCommitment = [] ∧ output.amount.isSome = true ∧
        output.asset ≠ []
  key : mwebOutIsMweb output.mwebOutputKeyset = false →
    (networkIsLiquid network && (txScript.getD []).isEmpty) = false →
      ∃ found, keyIterBeginPublic D.wallet (outputKeySource output) = .ok found
  record : ∀ iter path script, LooksAt D network output txScript iter path script →
    iter.numKeys ≠ 1 → ∃ answer,
      r.verifies D.wallet D.records network iter path script = .ok answer ∧
      (answer = true →
        walletIsExpectedMultisigPath iter.keyIndex (isChangePath path)
            (path.drop (pathGetUnhardenedTailIndex path)) = true ∨
          ∃ message, outputWarning "Unusual change path suffix: " path = .ok message)

/-- What is known of the blinding data of an output. -/
def liquidInfo (network : Network) (output : PsbtOutput) : Except Fault OutputInfo :=
  if networkIsLiquid network then updateLiquidInfo output else pure {}

/-- What is done with an output whose keys are looked at. -/
def updateOwnOutput (network : Network) (flags : SigningFlags) (record : Option SuitableRecord)
    (iter : KeyIter K) (path : List UInt32) (script : Bytes) (info : OutputInfo) :
    Except Fault OutputInfo :=
  if iter.numKeys == 1 then updateSinglesigOutput D.wallet network flags iter path script info
  else if flags = greenFlags then updateGreenOutput D.wallet network iter path script info
  else if flags = recordFlags then
    updateMultisigOutput D.wallet D.records network record iter path script info
  else .ok info

/-- What is done with an output once its blinding data is known. -/
def updateKnownOutput (network : Network) (flags : SigningFlags) (record : Option SuitableRecord)
    (output : PsbtOutput) (txScript : Option Bytes) (info : OutputInfo) : Except Fault OutputInfo :=
  if networkIsLiquid network && (txScript.getD []).isEmpty then do
    jadeVerify (!info.confidential)
    jadeVerify info.hasUnblinded
    pure info
  else do
    match ← keyIterBeginPublic D.wallet (outputKeySource output) with
    | none => pure info
    | some iter =>
        match iter.getPath MAX_PATH_LEN, txScript with
        | some path, some txScript =>
            if decide (txScript.length > WALLY_SCRIPTPUBKEY_P2WSH_LEN) then pure info
            else updateOwnOutput D network flags record iter path txScript info
        | _, _ => pure info

section Output

variable {D} {network : Network} {output : PsbtOutput} {txScript : Option Bytes}

/-- What is known of the blinding data of an output, whose sizes are then as they should be. -/
theorem updateLiquidInfo_eq_ok {info : OutputInfo} (h : updateLiquidInfo output = .ok info) :
    BlindingFits output ∧ info.validated = false ∧
      info.confidential = (!output.assetCommitment.isEmpty || !output.valueCommitment.isEmpty) ∧
      info.hasUnblinded = (output.amount.isSome && !output.asset.isEmpty) := by
  have hamounts : ∀ {info₁ : OutputInfo} (value : UInt64), info₁.validated = false →
      info₁.confidential = (!output.assetCommitment.isEmpty || !output.valueCommitment.isEmpty) →
      info₁.hasUnblinded = false →
      (if output.asset.isEmpty then pure { info₁ with value }
        else do
          jadeVerify (output.asset.length == 32)
          pure { info₁ with value, assetId := output.asset.reverse, hasUnblinded := true } :
        Except Fault OutputInfo) = .ok info →
      (output.asset ≠ [] → output.asset.length = 32) ∧ info.validated = false ∧
        info.confidential = (!output.assetCommitment.isEmpty || !output.valueCommitment.isEmpty) ∧
        info.hasUnblinded = !output.asset.isEmpty := by
    intro info₁ value hfalse hconfidential hblinded h
    split at h
    · next hempty =>
        obtain rfl := pure_eq_ok.1 h
        exact ⟨fun hne => absurd (List.isEmpty_iff.1 hempty) hne, hfalse, hconfidential,
          by simp [hblinded, hempty]⟩
    · next hne =>
        obtain ⟨_, hlen, h⟩ := bind_eq_ok.1 h
        obtain rfl := pure_eq_ok.1 h
        have hlen := jadeVerify_eq_ok.1 hlen
        exact ⟨fun _ => beq_iff_eq.1 hlen, hfalse, hconfidential, by simp [hne]⟩
  unfold updateLiquidInfo at h
  dsimp only at h
  cases hamount : output.amount with
  | none =>
      have hnone : output.amount.isSome = true → output.asset ≠ [] → output.asset.length = 32 := by
        simp [hamount]
      rw [hamount] at h
      split at h
      · next hempty =>
          obtain ⟨info₁, hinfo₁, h⟩ := bind_eq_ok.1 h
          obtain rfl := pure_eq_ok.1 hinfo₁
          obtain rfl := pure_eq_ok.1 h
          exact ⟨⟨fun hne => absurd (List.isEmpty_iff.1 hempty) hne, hnone⟩, rfl, rfl, rfl⟩
      · obtain ⟨_, hlen, h⟩ := bind_eq_ok.1 h
        obtain ⟨info₁, hinfo₁, h⟩ := bind_eq_ok.1 h
        obtain rfl := pure_eq_ok.1 hinfo₁
        obtain rfl := pure_eq_ok.1 h
        exact ⟨⟨fun _ => by simpa using jadeVerify_eq_ok.1 hlen, hnone⟩, rfl, rfl, rfl⟩
  | some value =>
      rw [hamount] at h
      split at h
      · next hempty =>
          obtain ⟨info₁, hinfo₁, h⟩ := bind_eq_ok.1 h
          obtain rfl := pure_eq_ok.1 hinfo₁
          obtain ⟨hasset, hinfo⟩ := hamounts value rfl rfl rfl h
          exact ⟨⟨fun hne => absurd (List.isEmpty_iff.1 hempty) hne, fun _ => hasset⟩, hinfo⟩
      · obtain ⟨_, hlen, h⟩ := bind_eq_ok.1 h
        obtain ⟨info₁, hinfo₁, h⟩ := bind_eq_ok.1 h
        obtain rfl := pure_eq_ok.1 hinfo₁
        obtain ⟨hasset, hinfo⟩ := hamounts value rfl rfl rfl h
        exact ⟨⟨fun _ => by simpa using jadeVerify_eq_ok.1 hlen, fun _ => hasset⟩, hinfo⟩

theorem exists_updateLiquidInfo (h : BlindingFits output) :
    ∃ info, updateLiquidInfo output = .ok info := by
  unfold updateLiquidInfo
  by_cases hblinding : output.blindingPublicKey = []
  · cases hamount : output.amount with
    | none => exact ⟨_, by simp [hblinding]; rfl⟩
    | some value =>
        by_cases hasset : output.asset = []
        · exact ⟨_, by simp [hblinding, hasset]; rfl⟩
        · have hlen := h.asset (by simp [hamount]) hasset
          exact ⟨_, by simp [hblinding, hasset, hlen, jadeVerify]; rfl⟩
  · have hkey := h.key hblinding
    cases hamount : output.amount with
    | none => exact ⟨_, by simp [hblinding, hkey, jadeVerify]; rfl⟩
    | some value =>
        by_cases hasset : output.asset = []
        · exact ⟨_, by simp [hblinding, hkey, hasset, jadeVerify]; rfl⟩
        · have hlen := h.asset (by simp [hamount]) hasset
          exact ⟨_, by simp [hblinding, hkey, hasset, hlen, jadeVerify]; rfl⟩

theorem liquidInfo_eq_ok {info : OutputInfo} (h : liquidInfo network output = .ok info) :
    info.validated = false ∧ (networkIsLiquid network = true → BlindingFits output ∧
      info.confidential = (!output.assetCommitment.isEmpty || !output.valueCommitment.isEmpty) ∧
      info.hasUnblinded = (output.amount.isSome && !output.asset.isEmpty)) := by
  rw [liquidInfo] at h
  split at h
  · obtain ⟨hfits, hfalse, hinfo⟩ := updateLiquidInfo_eq_ok h
    exact ⟨hfalse, fun _ => ⟨hfits, hinfo⟩⟩
  · next hno =>
      obtain rfl := pure_eq_ok.1 h
      exact ⟨rfl, fun hyes => absurd hyes hno⟩

theorem exists_liquidInfo_iff :
    (∃ info, liquidInfo network output = .ok info) ↔
      (networkIsLiquid network = true → BlindingFits output) := by
  constructor
  · rintro ⟨info, h⟩ hliquid
    exact ((liquidInfo_eq_ok h).2 hliquid).1
  · intro h
    rw [liquidInfo]
    split
    · next hliquid => exact exists_updateLiquidInfo (h hliquid)
    · exact ⟨{}, rfl⟩

/-- An ordinary output is looked at once its blinding data is known. -/
theorem updateOutput_eq (hstd : mwebOutIsMweb output.mwebOutputKeyset = false)
    (flags : SigningFlags) (record : Option SuitableRecord) :
    updateOutput D.wallet D.records network flags record output txScript =
      liquidInfo network output >>= updateKnownOutput D network flags record output txScript := by
  rw [updateOutput, if_neg (by simp [hstd]), liquidInfo]
  unfold updateKnownOutput
  cases networkIsLiquid network <;> rfl

theorem LooksAt.unique {iter iter' : KeyIter K} {path path' : List UInt32} {script script' : Bytes}
    (h : LooksAt D network output txScript iter path script)
    (h' : LooksAt D network output txScript iter' path' script') :
    iter = iter' ∧ path = path' ∧ script = script' := by
  obtain rfl : iter = iter' := Option.some.inj (Except.ok.inj (h.key.symm.trans h'.key))
  exact ⟨rfl, Option.some.inj (h.fits.symm.trans h'.fits),
    Option.some.inj (h.tx.symm.trans h'.tx)⟩

/-- An output that is looked at is updated by its keys, path and script. -/
theorem updateOutput_of_looksAt {iter : KeyIter K} {path : List UInt32} {script : Bytes}
    (h : LooksAt D network output txScript iter path script) (flags : SigningFlags)
    (record : Option SuitableRecord) :
    updateOutput D.wallet D.records network flags record output txScript =
      liquidInfo network output >>= updateOwnOutput D network flags record iter path script := by
  rw [updateOutput_eq h.std]
  congr 1
  funext info
  rw [updateKnownOutput, if_neg (by simp [h.notFee]), h.key, ok_bind]
  simp only [h.fits, h.tx]
  exact if_neg (by simpa using h.short)

/-- An output that is no fee and is not looked at stays as it is. -/
theorem updateKnownOutput_of_not_looksAt (hstd : mwebOutIsMweb output.mwebOutputKeyset = false)
    (hfee : (networkIsLiquid network && (txScript.getD []).isEmpty) = false)
    (h : ¬∃ iter path script, LooksAt D network output txScript iter path script)
    {found : Option (KeyIter K)}
    (hfound : keyIterBeginPublic D.wallet (outputKeySource output) = .ok found)
    (flags : SigningFlags) (record : Option SuitableRecord) (info : OutputInfo) :
    updateKnownOutput D network flags record output txScript info = .ok info := by
  rw [updateKnownOutput, if_neg (by simp [hfee]), hfound, ok_bind]
  cases found with
  | none => rfl
  | some iter =>
      cases hpath : iter.getPath MAX_PATH_LEN with
      | none => simp only [hpath]; rfl
      | some path =>
          cases htx : txScript with
          | none => simp only [hpath]; rfl
          | some script =>
              simp only [hpath]
              refine if_pos ?_
              by_contra hlen
              refine h ⟨iter, path, script, hstd, hfee, hfound, hpath, htx, ?_⟩
              simpa using hlen

/-- What is done with an output that is not looked at does not depend on the inputs. -/
theorem updateOutput_of_not_looksAt
    (h : ¬∃ iter path script, LooksAt D network output txScript iter path script) :
    (∀ flags record flags' record',
      updateOutput D.wallet D.records network flags record output txScript =
        updateOutput D.wallet D.records network flags' record' output txScript) ∧
    ∀ flags record info,
      updateOutput D.wallet D.records network flags record output txScript = .ok info →
        info.validated = false := by
  by_cases hmweb : mwebOutIsMweb output.mwebOutputKeyset = true
  · simp only [updateOutput, if_pos hmweb, implies_true, true_and]
    rintro _ _ _ ⟨⟩
    rfl
  have hstd : mwebOutIsMweb output.mwebOutputKeyset = false := Bool.eq_false_iff.2 hmweb
  -- once the blinding data is known there is one answer, which leaves it as it is
  have hknown : ∀ info, ∃ x, (∀ flags record,
      updateKnownOutput D network flags record output txScript info = x) ∧
        ∀ info', x = .ok info' → info' = info := by
    intro info
    cases hfee : networkIsLiquid network && (txScript.getD []).isEmpty with
    | true =>
        refine ⟨_, fun flags record => if_pos hfee, ?_⟩
        intro info' hinfo'
        obtain ⟨_, -, hinfo'⟩ := bind_eq_ok.1 hinfo'
        obtain ⟨_, -, hinfo'⟩ := bind_eq_ok.1 hinfo'
        exact (pure_eq_ok.1 hinfo').symm
    | false =>
        cases hiter : keyIterBeginPublic D.wallet (outputKeySource output) with
        | error f =>
            refine ⟨.error f, fun flags record => ?_, fun _ h => nomatch h⟩
            rw [updateKnownOutput, if_neg (by simp [hfee]), hiter]
            rfl
        | ok found =>
            exact ⟨.ok info, fun flags record =>
              updateKnownOutput_of_not_looksAt hstd hfee h hiter flags record info,
              fun info' h => (Except.ok.inj h).symm⟩
  constructor
  · intro flags record flags' record'
    rw [updateOutput_eq hstd, updateOutput_eq hstd]
    congr 1
    funext info
    obtain ⟨x, hx, -⟩ := hknown info
    rw [hx, hx]
  · intro flags record info hinfo
    rw [updateOutput_eq hstd] at hinfo
    obtain ⟨info₀, hinfo₀, hinfo⟩ := bind_eq_ok.1 hinfo
    obtain ⟨x, hx, hsame⟩ := hknown info₀
    rw [hx] at hinfo
    rw [hsame info hinfo]
    exact (liquidInfo_eq_ok hinfo₀).1

/-- An output is not marked by an update that leaves the flags of its kind alone. -/
theorem updateOwnOutput_other {flags : SigningFlags} {record : Option SuitableRecord}
    {iter : KeyIter K} {path : List UInt32} {script : Bytes} {info : OutputInfo}
    (hsinglesig : flags.singlesig = false) (hgreen : flags ≠ greenFlags)
    (hrecord : flags ≠ recordFlags) :
    updateOwnOutput D network flags record iter path script info = .ok info := by
  unfold updateOwnOutput updateSinglesigOutput
  rw [if_neg hgreen, if_neg hrecord, hsinglesig]
  split <;> rfl

theorem updateOwnOutput_recordFlags {r : SuitableRecord} {iter : KeyIter K} {path : List UInt32}
    {script : Bytes} {info info' : OutputInfo} (hfalse : info.validated = false)
    (h : updateOwnOutput D network recordFlags (some r) iter path script info = .ok info') :
    info'.validated = true ↔ iter.numKeys ≠ 1 ∧
      r.verifies D.wallet D.records network iter path script = .ok true := by
  unfold updateOwnOutput at h
  by_cases hkeys : iter.numKeys = 1
  · rw [if_pos (by simpa using hkeys)] at h
    obtain rfl : info = info' := Except.ok.inj h
    simp [hkeys, hfalse]
  · rw [if_neg (by simpa using hkeys), if_neg (by decide), if_pos rfl] at h
    unfold updateMultisigOutput at h
    obtain ⟨answer, hanswer, h⟩ := bind_eq_ok.1 h
    rw [hanswer]
    cases answer with
    | false =>
        obtain rfl := pure_eq_ok.1 h
        simp [hfalse]
    | true =>
        dsimp only at h
        rw [if_pos rfl] at h
        have hyes : info'.validated = true := by
          split at h
          · rw [← pure_eq_ok.1 h]
          · obtain ⟨_, -, h⟩ := bind_eq_ok.1 h
            rw [← pure_eq_ok.1 h]
        simp [hyes, hkeys]

/-- With a record of all inputs, the outputs it marks are those whose script it gives. -/
theorem validated_recordFlags {r : SuitableRecord} {info : OutputInfo}
    (h : updateOutput D.wallet D.records network recordFlags (some r) output txScript = .ok info) :
    info.validated = true ↔ MarkedBy D network r output txScript := by
  by_cases hlooks : ∃ iter path script, LooksAt D network output txScript iter path script
  · obtain ⟨iter, path, script, hlooks⟩ := hlooks
    rw [updateOutput_of_looksAt hlooks] at h
    obtain ⟨info₀, hinfo₀, h⟩ := bind_eq_ok.1 h
    rw [updateOwnOutput_recordFlags (liquidInfo_eq_ok hinfo₀).1 h]
    constructor
    · rintro ⟨hkeys, hverifies⟩
      exact ⟨iter, path, script, hlooks, hkeys, hverifies⟩
    · rintro ⟨iter', path', script', hlooks', hkeys, hverifies⟩
      obtain ⟨rfl, rfl, rfl⟩ := hlooks.unique hlooks'
      exact ⟨hkeys, hverifies⟩
  · refine iff_of_false ?_ fun ⟨iter, path, script, hmarked, _⟩ =>
      hlooks ⟨iter, path, script, hmarked⟩
    rw [(updateOutput_of_not_looksAt hlooks).2 _ _ info h]
    exact Bool.false_ne_true

/-- Without one, and without an input of another kind, nothing is marked. -/
theorem validated_other {flags : SigningFlags} {record : Option SuitableRecord} {info : OutputInfo}
    (hsinglesig : flags.singlesig = false) (hgreen : flags ≠ greenFlags)
    (hrecord : flags ≠ recordFlags)
    (h : updateOutput D.wallet D.records network flags record output txScript = .ok info) :
    info.validated = false := by
  by_cases hlooks : ∃ iter path script, LooksAt D network output txScript iter path script
  · obtain ⟨iter, path, script, hlooks⟩ := hlooks
    rw [updateOutput_of_looksAt hlooks] at h
    obtain ⟨info₀, hinfo₀, h⟩ := bind_eq_ok.1 h
    rw [updateOwnOutput_other hsinglesig hgreen hrecord] at h
    rw [← Except.ok.inj h]
    exact (liquidInfo_eq_ok hinfo₀).1
  · exact (updateOutput_of_not_looksAt hlooks).2 _ _ _ h

/-- Nor does anything fail that would not fail with a record. -/
theorem exists_updateOutput_other {flags : SigningFlags} {record : Option SuitableRecord}
    {r : SuitableRecord} {info : OutputInfo} (hsinglesig : flags.singlesig = false)
    (hgreen : flags ≠ greenFlags) (hrecord : flags ≠ recordFlags)
    (h : updateOutput D.wallet D.records network recordFlags (some r) output txScript = .ok info) :
    ∃ info', updateOutput D.wallet D.records network flags record output txScript = .ok info' := by
  by_cases hlooks : ∃ iter path script, LooksAt D network output txScript iter path script
  · obtain ⟨iter, path, script, hlooks⟩ := hlooks
    rw [updateOutput_of_looksAt hlooks] at h ⊢
    obtain ⟨info₀, hinfo₀, -⟩ := bind_eq_ok.1 h
    exact ⟨info₀, bind_eq_ok.2 ⟨info₀, hinfo₀, updateOwnOutput_other hsinglesig hgreen hrecord⟩⟩
  · exact ⟨info, ((updateOutput_of_not_looksAt hlooks).1 _ _ _ _).trans h⟩

/-- An output that is neither Green nor has a single key is only marked for a record. -/
theorem validated_plain {flags : SigningFlags} {record : Option SuitableRecord} {info : OutputInfo}
    (hplain : IsPlainOutput D network output) (hrecord : flags ≠ recordFlags)
    (h : updateOutput D.wallet D.records network flags record output txScript = .ok info) :
    info.validated = false := by
  obtain ⟨iter', hiter', hkeys, hnone⟩ := hplain
  by_cases hlooks : ∃ iter path script, LooksAt D network output txScript iter path script
  · obtain ⟨iter, path, script, hlooks⟩ := hlooks
    obtain rfl : iter = iter' := Option.some.inj (Except.ok.inj (hlooks.key.symm.trans hiter'))
    rw [updateOutput_of_looksAt hlooks] at h
    obtain ⟨info₀, hinfo₀, h⟩ := bind_eq_ok.1 h
    have hfalse := (liquidInfo_eq_ok hinfo₀).1
    rw [updateOwnOutput, if_neg (by simp; omega)] at h
    by_cases hgreen : flags = greenFlags
    · rw [if_pos hgreen] at h
      unfold updateGreenOutput at h
      dsimp only at h
      rw [hnone] at h
      rwa [← Except.ok.inj h]
    · rw [if_neg hgreen, if_neg hrecord] at h
      rwa [← Except.ok.inj h]
  · exact (updateOutput_of_not_looksAt hlooks).2 _ _ _ h

/-- The record counts only when all inputs belong to one. -/
theorem updateOutput_congr {flags flags' : SigningFlags} {record record' : Option SuitableRecord}
    (hrecord : flags ≠ recordFlags) (hrecord' : flags' ≠ recordFlags)
    (hsinglesig : flags.singlesig = flags'.singlesig)
    (hgreen : flags = greenFlags ↔ flags' = greenFlags) :
    updateOutput D.wallet D.records network flags record output txScript =
      updateOutput D.wallet D.records network flags' record' output txScript := by
  by_cases hlooks : ∃ iter path script, LooksAt D network output txScript iter path script
  · obtain ⟨iter, path, script, hlooks⟩ := hlooks
    rw [updateOutput_of_looksAt hlooks, updateOutput_of_looksAt hlooks]
    congr 1
    funext info
    unfold updateOwnOutput updateSinglesigOutput
    rw [hsinglesig, if_neg hrecord, if_neg hrecord']
    simp only [hgreen]
  · exact (updateOutput_of_not_looksAt hlooks).1 _ _ _ _

/-- With a record, what is done with an output that is looked at fails where the comparison does, or
the warning. -/
theorem exists_updateOwnOutput_iff {r : SuitableRecord} {iter : KeyIter K} {path : List UInt32}
    {script : Bytes} {info : OutputInfo} :
    (∃ info', updateOwnOutput D network recordFlags (some r) iter path script info = .ok info') ↔
      (iter.numKeys ≠ 1 → ∃ answer,
        r.verifies D.wallet D.records network iter path script = .ok answer ∧
        (answer = true →
          walletIsExpectedMultisigPath iter.keyIndex (isChangePath path)
              (path.drop (pathGetUnhardenedTailIndex path)) = true ∨
            ∃ message, outputWarning "Unusual change path suffix: " path = .ok message)) := by
  rw [updateOwnOutput]
  by_cases hkeys : iter.numKeys = 1
  · rw [if_pos (by simpa using hkeys)]
    exact iff_of_true ⟨info, rfl⟩ fun hno => absurd hkeys hno
  rw [if_neg (by simpa using hkeys), if_neg (by decide), if_pos rfl, updateMultisigOutput]
  simp only [ne_eq, hkeys, not_false_eq_true, true_implies]
  cases hverifies : r.verifies D.wallet D.records network iter path script with
  | error f => exact iff_of_false (fun ⟨_, h⟩ => nomatch h) fun ⟨_, h, _⟩ => nomatch h
  | ok answer =>
      simp only [ok_bind, Except.ok.injEq, exists_eq_left']
      cases answer with
      | false => exact iff_of_true ⟨info, rfl⟩ fun h => nomatch h
      | true =>
          simp only [if_true, true_implies]
          split
          · next hexpected => exact iff_of_true ⟨_, rfl⟩ (.inl hexpected)
          · next hunusual =>
              rw [or_iff_right hunusual]
              cases outputWarning "Unusual change path suffix: " path with
              | error f => exact iff_of_false (fun ⟨_, h⟩ => nomatch h) fun ⟨_, h⟩ => nomatch h
              | ok message => exact iff_of_true ⟨_, rfl⟩ ⟨message, rfl⟩

/-- **With a record, exactly the outputs that can be compared with it do not stop the device.** -/
theorem exists_updateOutput_iff {r : SuitableRecord} :
    (∃ info, updateOutput D.wallet D.records network recordFlags (some r) output txScript =
      .ok info) ↔ Comparable D network r output txScript := by
  by_cases hmweb : mwebOutIsMweb output.mwebOutputKeyset = true
  · have hstd : ¬mwebOutIsMweb output.mwebOutputKeyset = false := by simp [hmweb]
    refine iff_of_true ⟨{ mweb := true }, by rw [updateOutput, if_pos hmweb]⟩ ?_
    exact ⟨fun h => absurd h hstd, fun h => absurd h hstd, fun h => absurd h hstd,
      fun iter path script h => absurd h.std hstd⟩
  have hstd : mwebOutIsMweb output.mwebOutputKeyset = false := Bool.eq_false_iff.2 hmweb
  by_cases hlooks : ∃ iter path script, LooksAt D network output txScript iter path script
  · obtain ⟨iter, path, script, hlooks⟩ := hlooks
    rw [updateOutput_of_looksAt hlooks]
    constructor
    · rintro ⟨info', h⟩
      obtain ⟨info, hinfo, h⟩ := bind_eq_ok.1 h
      refine ⟨fun _ => exists_liquidInfo_iff.1 ⟨info, hinfo⟩, ?_, fun _ _ => ⟨_, hlooks.key⟩, ?_⟩
      · intro _ hfee
        rw [hlooks.notFee] at hfee
        cases hfee
      · intro iter' path' script' hlooks'
        obtain ⟨rfl, rfl, rfl⟩ := hlooks.unique hlooks'
        exact exists_updateOwnOutput_iff.1 ⟨info', h⟩
    · intro h
      obtain ⟨info, hinfo⟩ := exists_liquidInfo_iff.2 (h.blinding hstd)
      obtain ⟨info', hinfo'⟩ := exists_updateOwnOutput_iff.2 (h.record iter path script hlooks)
      exact ⟨info', bind_eq_ok.2 ⟨info, hinfo, hinfo'⟩⟩
  · -- the blinding data, and then the fee or the search for a key
    have hknown : ∀ {info : OutputInfo}, liquidInfo network output = .ok info →
        ((∃ info', updateKnownOutput D network recordFlags (some r) output txScript info =
          .ok info') ↔
            ((networkIsLiquid network && (txScript.getD []).isEmpty) = true →
              output.assetCommitment = [] ∧ output.valueCommitment = [] ∧
                output.amount.isSome = true ∧ output.asset ≠ []) ∧
            ((networkIsLiquid network && (txScript.getD []).isEmpty) = false →
              ∃ found, keyIterBeginPublic D.wallet (outputKeySource output) = .ok found)) := by
      intro info hinfo
      cases hfee : networkIsLiquid network && (txScript.getD []).isEmpty with
      | true =>
          have hliquid : networkIsLiquid network = true := by
            rw [Bool.and_eq_true] at hfee
            exact hfee.1
          obtain ⟨-, hconfidential, hunblinded⟩ := (liquidInfo_eq_ok hinfo).2 hliquid
          simp only [Bool.true_eq_false, false_implies, and_true, true_implies]
          rw [updateKnownOutput, if_pos hfee]
          constructor
          · rintro ⟨_, h⟩
            obtain ⟨_, hexplicit, h⟩ := bind_eq_ok.1 h
            obtain ⟨_, hhas, -⟩ := bind_eq_ok.1 h
            have hexplicit := jadeVerify_eq_ok.1 hexplicit
            have hhas := jadeVerify_eq_ok.1 hhas
            simp [hconfidential] at hexplicit
            simp [hunblinded] at hhas
            exact ⟨hexplicit.1, hexplicit.2, hhas.1, hhas.2⟩
          · rintro ⟨hasset, hvalue, hamount, hne⟩
            refine ⟨info, bind_eq_ok.2 ⟨(), jadeVerify_eq_ok.2 ?_, bind_eq_ok.2 ⟨(),
              jadeVerify_eq_ok.2 ?_, rfl⟩⟩⟩
            · simp [hconfidential, hasset, hvalue]
            · simp [hunblinded, hamount, hne]
      | false =>
          simp only [Bool.false_eq_true, false_implies, true_and, true_implies]
          cases hiter : keyIterBeginPublic D.wallet (outputKeySource output) with
          | error f =>
              rw [updateKnownOutput, if_neg (by simp [hfee]), hiter]
              exact iff_of_false (fun ⟨_, h⟩ => nomatch h) fun ⟨_, h⟩ => nomatch h
          | ok found =>
              refine iff_of_true ⟨info, ?_⟩ ⟨found, rfl⟩
              exact updateKnownOutput_of_not_looksAt hstd hfee hlooks hiter _ _ info
    rw [updateOutput_eq hstd]
    constructor
    · rintro ⟨info', h⟩
      obtain ⟨info, hinfo, h⟩ := bind_eq_ok.1 h
      obtain ⟨hfee, hkey⟩ := (hknown hinfo).1 ⟨info', h⟩
      exact ⟨fun _ => exists_liquidInfo_iff.1 ⟨info, hinfo⟩, fun _ => hfee, fun _ => hkey,
        fun iter path script h => absurd ⟨iter, path, script, h⟩ hlooks⟩
    · intro h
      obtain ⟨info, hinfo⟩ := exists_liquidInfo_iff.2 (h.blinding hstd)
      obtain ⟨info', hinfo'⟩ := (hknown hinfo).2 ⟨h.fee hstd, h.key hstd⟩
      exact ⟨info', bind_eq_ok.2 ⟨info, hinfo, hinfo'⟩⟩

end Output

/-! ### Every order of the inputs -/

/-- The same PSBT with its inputs in another order. -/
structure Reordered (psbt psbt' : Psbt) : Prop where
  inputs : psbt'.inputs.Perm psbt.inputs
  outputs : psbt'.outputs = psbt.outputs
  tx : psbt'.tx.map Tx.outputs = psbt.tx.map Tx.outputs

/-- The script of an output does not depend on the inputs. -/
def OutputScriptLocal : Prop :=
  ∀ psbt psbt', psbt'.outputs = psbt.outputs → psbt'.tx.map Tx.outputs = psbt.tx.map Tx.outputs →
    D.getOutputScript psbt' = D.getOutputScript psbt

/-- Which outputs `psbt_update_outputs` marks after the loop over the inputs. -/
def markedOutputs (network : Network) (txType : TxType) (info : AdditionalInfo) (psbt : Psbt) :
    Except SignErr (List Bool) := do
  let scan ← scanInputs D network txType info psbt
  let infos ← liftFault (psbtUpdateOutputs D.wallet D.records network (D.getOutputScript psbt) psbt
    scan.flags scan.record)
  pure (infos.map OutputInfo.validated)

/-- Every signed input has several keys, is not taken for a Green one, and spends a script that one
registered record gives. -/
def SharedByInputs (network : Network) (psbt : Psbt) : Prop :=
  ∃ r, IsRegistered D.records r ∧
    ∀ s ∈ signedInputs D psbt, isPlainMultisig D network s = true ∧ Gives D network r s true

/-- **Outputs are marked for one record of all the signed inputs, in whatever order they come.** -/
structure MarkingSound (network : Network) (txType : TxType) (info : AdditionalInfo)
    (psbt : Psbt) : Prop where
  shared : ∀ psbt', Reordered psbt psbt' → ∀ marks,
    markedOutputs D network txType info psbt' = .ok marks → ∀ (i : ℕ) output,
    psbt'.outputs[i]? = some output → IsPlainOutput D network output → marks[i]? = some true →
      SharedByInputs D network psbt'
  order : ∀ psbt₁ psbt₂, Reordered psbt psbt₁ → Reordered psbt psbt₂ → ∀ marks₁ marks₂,
    markedOutputs D network txType info psbt₁ = .ok marks₁ →
    markedOutputs D network txType info psbt₂ = .ok marks₂ → marks₁ = marks₂

/-- The inputs with long paths, if there are any, spend scripts of a registered record that gives those
of the inputs with short paths as well. -/
def LongPathsBelong (network : Network) (xs : List (SignedInput K)) : Prop :=
  (∀ s ∈ xs, HasShortPath s) ∨ ∃ r, IsRegistered D.records r ∧
    (∀ s ∈ xs, HasShortPath s → Gives D network r s true) ∧
    ∀ s ∈ xs, ¬HasShortPath s → Gives D network r s true

/-- All outputs can be compared with a record. -/
def AllComparable (network : Network) (psbt : Psbt) (r : SuitableRecord) : Prop :=
  ∀ (i : ℕ) output, psbt.outputs[i]? = some output →
    Comparable D network r output (D.getOutputScript psbt i)

/-- **The records do not depend on the order.**  Where a record that some order keeps gives the script of
an output, the inputs with long paths belong to a record too, no order gives up, and every other record
that is kept gives the script of the output as well. -/
def RecordsAgree (network : Network) (psbt : Psbt) : Prop :=
  ∀ r, (∀ s ∈ signedInputs D psbt, isPlainMultisig D network s = true) →
    Survives D network (signedInputs D psbt) r → AllComparable D network psbt r →
    ∀ (i : ℕ) output, psbt.outputs[i]? = some output →
      MarkedBy D network r output (D.getOutputScript psbt i) →
      (IsPlainOutput D network output → LongPathsBelong D network (signedInputs D psbt)) ∧
        ¬ GivesUp D network (signedInputs D psbt) ∧
        ∀ r', Survives D network (signedInputs D psbt) r' → AllComparable D network psbt r' →
          MarkedBy D network r' output (D.getOutputScript psbt i)

section Orders

variable {D} {network : Network} {txType : TxType} {info : AdditionalInfo} {psbt psbt' : Psbt}

theorem Reordered.refl (psbt : Psbt) : Reordered psbt psbt := ⟨List.Perm.refl _, rfl, rfl⟩

theorem Reordered.mem_signedInputs (h : Reordered psbt psbt') (s : SignedInput K) :
    s ∈ signedInputs D psbt' ↔ s ∈ signedInputs D psbt :=
  (h.inputs.filterMap (signedInputOf D)).mem_iff

theorem Reordered.sharedByInputs (h : Reordered psbt psbt') :
    SharedByInputs D network psbt' ↔ SharedByInputs D network psbt := by
  unfold SharedByInputs
  simp only [h.mem_signedInputs]

/-- Among plain inputs that some order keeps a record for, only long paths are in the way. -/
theorem sharedByInputs_iff {r : SuitableRecord}
    (hplain : ∀ s ∈ signedInputs D psbt, isPlainMultisig D network s = true)
    (hkept : Survives D network (signedInputs D psbt) r) :
    SharedByInputs D network psbt ↔ LongPathsBelong D network (signedInputs D psbt) := by
  constructor
  · rintro ⟨r', hregistered, hall⟩
    exact .inr ⟨r', hregistered, fun s hs _ => (hall s hs).2, fun s hs _ => (hall s hs).2⟩
  · rintro (hshort | ⟨r', hregistered, hshort, hlong⟩)
    · obtain ⟨v, -, hpick⟩ := hkept.picked
      exact ⟨r, (hpick.spec D).1, fun s hs => ⟨hplain s hs, hkept.tested s hs (hshort s hs)⟩⟩
    · refine ⟨r', hregistered, fun s hs => ⟨hplain s hs, ?_⟩⟩
      by_cases h : HasShortPath s
      · exact hshort s hs h
      · exact hlong s hs h

/-- The outputs are updated with a record exactly when all of them can be compared with it. -/
theorem allComparable_iff {r : SuitableRecord} :
    AllComparable D network psbt r ↔ ∃ infos, psbtUpdateOutputs D.wallet D.records network
      (D.getOutputScript psbt) psbt recordFlags (some r) = .ok infos := by
  constructor
  · intro h
    refine exists_mapM_eq_ok ?_
    rintro ⟨output, i⟩ hmem
    exact exists_updateOutput_iff.2 (h i output (List.mem_zipIdx_iff_getElem?.1 hmem))
  · rintro ⟨infos, hinfos⟩ i output houtput
    obtain ⟨hlen, hupdate⟩ := getElem?_mapM_zipIdx hinfos
    obtain ⟨hi, -⟩ := List.getElem?_eq_some_iff.1 houtput
    exact exists_updateOutput_iff.1 ⟨_, hupdate i output _ houtput
      (List.getElem?_eq_getElem (hlen.symm ▸ hi))⟩

/-- The flags that say so mean that the inputs are plain and that a record is kept. -/
theorem Tracked.of_recordFlags {xs : List (SignedInput K)} {st : RecordState}
    (h : Tracked D network xs st) (hflags : st.1 = recordFlags) :
    (∀ s ∈ xs, isPlainMultisig D network s = true) ∧ ∃ r, st.2 = some r ∧ Survives D network xs r := by
  have habandoned : st.1.multisigChangeAbandoned = false := by
    rw [hflags]
    rfl
  have hsingle : st.1.singleMultisigRecord = true := by
    rw [hflags]
    rfl
  exact ⟨h.going habandoned, h.kept habandoned hsingle⟩

/-- The search among all plain inputs only ends without a record by giving up. -/
theorem Tracked.givesUp {xs : List (SignedInput K)} {st : RecordState} {r : SuitableRecord}
    (h : Tracked D network xs st) (hplain : ∀ s ∈ xs, isPlainMultisig D network s = true)
    (hkept : Survives D network xs r) (hflags : st.1 ≠ recordFlags) : GivesUp D network xs := by
  obtain ⟨v, hv, hpick⟩ := hkept.picked
  cases hab : st.1.multisigChangeAbandoned with
  | true =>
      rcases h.abandoned hab with ⟨s, hs, hother⟩ | hgives
      · rw [hplain s hs] at hother
        cases hother
      · exact hgives
  | false =>
      exfalso
      cases hsingle : st.1.singleMultisigRecord with
      | false =>
          exact h.searching hab hsingle v hv hpick.short
      | true =>
          apply hflags
          obtain ⟨hsinglesig, hgreen⟩ := h.kinds_of_plain D hplain
          have hmultisig := h.single hsingle
          cases hst : st.1
          simp_all [recordFlags]

/-- What the outputs are marked with, in another order. -/
theorem markedOutputs_eq_ok (hlocal : OutputScriptLocal D) (hreorder : Reordered psbt psbt')
    {marks : List Bool} (h : markedOutputs D network txType info psbt' = .ok marks) :
    ∃ st infos, Tracked D network (signedInputs D psbt') st ∧
      psbtUpdateOutputs D.wallet D.records network (D.getOutputScript psbt) psbt st.1 st.2 =
        .ok infos ∧ marks = infos.map OutputInfo.validated := by
  unfold markedOutputs at h
  obtain ⟨scan, hscan, h⟩ := bind_eq_ok.1 h
  obtain ⟨infos, hinfos, h⟩ := bind_eq_ok.1 h
  refine ⟨(scan.flags, scan.record), infos, tracked_foldlM D (scanInputs_record hscan), ?_,
    (pure_eq_ok.1 h).symm⟩
  have hinfos := liftFault_eq_ok.1 hinfos
  unfold psbtUpdateOutputs at hinfos ⊢
  rwa [hreorder.outputs, hlocal psbt psbt' hreorder.outputs hreorder.tx] at hinfos

/-- The inputs in another order, when the search does not fail there. -/
theorem markedOutputs_of_order (hsig : SignatureTypeLocal D) (hlocal : OutputScriptLocal D)
    {scan : InputScan} (hscan : scanInputs D network txType info psbt = .ok scan)
    {inputs : List PsbtInput} (hperm : inputs.Perm psbt.inputs) (st : RecordState)
    (hst : (inputs.filterMap (signedInputOf D)).foldlM (recordStep D network) ({}, none) = .ok st)
    {infos : List OutputInfo}
    (hinfos : psbtUpdateOutputs D.wallet D.records network (D.getOutputScript psbt) psbt st.1 st.2 =
      .ok infos) :
    ∃ psbt', Reordered psbt psbt' ∧
      markedOutputs D network txType info psbt' = .ok (infos.map OutputInfo.validated) := by
  let psbt' : Psbt := { psbt with inputs := inputs }
  have hreorder : Reordered psbt psbt' := ⟨hperm, rfl, rfl⟩
  have hpasses : ∀ input ∈ psbt'.inputs, Passes D network txType info psbt input :=
    fun input hmem => passes_of_scanInputs hscan input (hperm.mem_iff.1 hmem)
  obtain ⟨scan', hscan', hend⟩ := exists_scanInputs hsig hpasses hst
  refine ⟨psbt', hreorder, ?_⟩
  obtain ⟨hflags, hrecord⟩ : scan'.flags = st.1 ∧ scan'.record = st.2 := by
    rw [← hend]
    exact ⟨rfl, rfl⟩
  refine bind_eq_ok.2 ⟨scan', hscan', bind_eq_ok.2 ⟨infos, liftFault_eq_ok.2 ?_, rfl⟩⟩
  rw [hflags, hrecord, hlocal psbt psbt' rfl rfl]
  exact hinfos

/-- The marks, output by output. -/
theorem getElem?_psbtUpdateOutputs {flags : SigningFlags} {record : Option SuitableRecord}
    {infos : List OutputInfo}
    (h : psbtUpdateOutputs D.wallet D.records network (D.getOutputScript psbt) psbt flags record =
      .ok infos) :
    infos.length = psbt.outputs.length ∧ ∀ (i : ℕ) output out, psbt.outputs[i]? = some output →
      infos[i]? = some out → updateOutput D.wallet D.records network flags record output
        (D.getOutputScript psbt i) = .ok out :=
  getElem?_mapM_zipIdx h

/-- An output that is marked in one order is marked in every other. -/
theorem RecordsAgree.validated (hagree : RecordsAgree D network psbt)
    {xs₁ xs₂ : List (SignedInput K)} (hmem₁ : ∀ s, s ∈ xs₁ ↔ s ∈ signedInputs D psbt)
    (hmem₂ : ∀ s, s ∈ xs₂ ↔ s ∈ signedInputs D psbt) {st₁ st₂ : RecordState}
    (h₁ : Tracked D network xs₁ st₁) (h₂ : Tracked D network xs₂ st₂) {infos₁ infos₂ : List OutputInfo}
    (hinfos₁ : psbtUpdateOutputs D.wallet D.records network (D.getOutputScript psbt) psbt st₁.1
      st₁.2 = .ok infos₁)
    (hinfos₂ : psbtUpdateOutputs D.wallet D.records network (D.getOutputScript psbt) psbt st₂.1
      st₂.2 = .ok infos₂) {i : ℕ} {out₁ out₂ : OutputInfo} (hout₁ : infos₁[i]? = some out₁)
    (hout₂ : infos₂[i]? = some out₂) (hyes : out₁.validated = true) : out₂.validated = true := by
  have hmem : ∀ s, s ∈ xs₁ ↔ s ∈ xs₂ := fun s => (hmem₁ s).trans (hmem₂ s).symm
  have hany : ∀ q : SignedInput K → Bool, xs₁.any q = xs₂.any q := by
    intro q
    rw [Bool.eq_iff_iff, List.any_eq_true, List.any_eq_true]
    simp only [hmem]
  obtain ⟨hlen₁, hupdate₁⟩ := getElem?_psbtUpdateOutputs hinfos₁
  obtain ⟨hlen₂, hupdate₂⟩ := getElem?_psbtUpdateOutputs hinfos₂
  obtain ⟨output, houtput⟩ : ∃ output, psbt.outputs[i]? = some output := by
    obtain ⟨hi, -⟩ := List.getElem?_eq_some_iff.1 hout₁
    exact ⟨_, List.getElem?_eq_getElem (hlen₁ ▸ hi)⟩
  have hupd₁ := hupdate₁ i output out₁ houtput hout₁
  have hupd₂ := hupdate₂ i output out₂ houtput hout₂
  by_cases hflags₁ : st₁.1 = recordFlags
  · obtain ⟨hplain₁, r, hr, hkept₁⟩ := h₁.of_recordFlags hflags₁
    have hplain : ∀ s ∈ signedInputs D psbt, isPlainMultisig D network s = true :=
      fun s hs => hplain₁ s ((hmem₁ s).2 hs)
    rw [hflags₁, hr] at hupd₁ hinfos₁
    have hmarked := (validated_recordFlags hupd₁).1 hyes
    obtain ⟨-, hstays, hothers⟩ :=
      hagree r hplain (hkept₁.perm D hmem₁) (allComparable_iff.2 ⟨infos₁, hinfos₁⟩) i output
        houtput hmarked
    by_cases hflags₂ : st₂.1 = recordFlags
    · -- another record, which gives the script too
      obtain ⟨-, r', hr', hkept₂⟩ := h₂.of_recordFlags hflags₂
      rw [hflags₂, hr'] at hupd₂ hinfos₂
      exact (validated_recordFlags hupd₂).2
        (hothers r' (hkept₂.perm D hmem₂) (allComparable_iff.2 ⟨infos₂, hinfos₂⟩))
    · -- no order gives up
      have hgives := h₂.givesUp (fun s hs => hplain s ((hmem₂ s).1 hs)) (hkept₁.perm D hmem)
        hflags₂
      exact absurd (hgives.mono D fun s hs => (hmem₂ s).1 hs) hstays
  · by_cases hflags₂ : st₂.1 = recordFlags
    · obtain ⟨hplain₂, -⟩ := h₂.of_recordFlags hflags₂
      have hplain₁ : ∀ s ∈ xs₁, isPlainMultisig D network s = true :=
        fun s hs => hplain₂ s ((hmem s).1 hs)
      obtain ⟨hsinglesig, hgreen⟩ := h₁.kinds_of_plain D hplain₁
      have hno := validated_other hsinglesig (by rintro heq; rw [heq] at hgreen; cases hgreen)
        hflags₁ hupd₁
      rw [hyes] at hno
      cases hno
    · -- the record plays no part
      have hsame : updateOutput D.wallet D.records network st₁.1 st₁.2 output
          (D.getOutputScript psbt i) = updateOutput D.wallet D.records network st₂.1 st₂.2 output
            (D.getOutputScript psbt i) := updateOutput_congr hflags₁ hflags₂
        (by rw [h₁.singlesig, h₂.singlesig, hany])
        (by
          unfold greenFlags
          rw [h₁.greenFlags_iff, h₂.greenFlags_iff, hany, hany, hany])
      rw [hupd₁, hupd₂] at hsame
      rwa [← Except.ok.inj hsame]

/-- An input can come first. -/
theorem exists_first {inputs : List PsbtInput} {v : SignedInput K}
    (h : v ∈ inputs.filterMap (signedInputOf D)) :
    ∃ input rest, (input :: rest).Perm inputs ∧ signedInputOf D input = some v := by
  obtain ⟨input, hmem, hinput⟩ := List.mem_filterMap.1 h
  obtain ⟨pre, suf, rfl⟩ := List.append_of_mem hmem
  exact ⟨input, pre ++ suf, List.perm_middle.symm, hinput⟩

/-- Some order keeps the record. -/
theorem exists_order_kept (hsig : SignatureTypeLocal D) (hlocal : OutputScriptLocal D)
    {scan : InputScan} (hscan : scanInputs D network txType info psbt = .ok scan)
    {r : SuitableRecord} (hplain : ∀ s ∈ signedInputs D psbt, isPlainMultisig D network s = true)
    (hkept : Survives D network (signedInputs D psbt) r) {infos : List OutputInfo}
    (hinfos : psbtUpdateOutputs D.wallet D.records network (D.getOutputScript psbt) psbt recordFlags
      (some r) = .ok infos) :
    ∃ psbt', Reordered psbt psbt' ∧
      markedOutputs D network txType info psbt' = .ok (infos.map OutputInfo.validated) := by
  obtain ⟨v, hv, hpick⟩ := hkept.picked
  obtain ⟨input, rest, hperm, hinput⟩ := exists_first hv
  have hmem : ∀ s ∈ v :: rest.filterMap (signedInputOf D), s ∈ signedInputs D psbt := by
    intro s hs
    rw [← List.filterMap_cons_some hinput] at hs
    exact (hperm.filterMap (signedInputOf D)).mem_iff.1 hs
  refine markedOutputs_of_order hsig hlocal hscan hperm (recordFlags, some r) ?_ hinfos
  rw [List.filterMap_cons_some hinput]
  exact foldlM_kept D (fun s hs => hplain s (hmem s hs)) hpick
    fun s hs => hkept.tested s (hmem s (List.mem_cons_of_mem v hs))

/-- Some order gives up: the search is abandoned. -/
theorem exists_order_givesUp (hplain : ∀ s ∈ signedInputs D psbt, isPlainMultisig D network s = true)
    (hgives : GivesUp D network (signedInputs D psbt)) :
    ∃ inputs : List PsbtInput, inputs.Perm psbt.inputs ∧ ∃ st,
      (inputs.filterMap (signedInputOf D)).foldlM (recordStep D network) ({}, none) = .ok st ∧
        st.1.multisigChangeAbandoned = true := by
  obtain ⟨v, hv, hend⟩ := hgives
  obtain ⟨input, rest, hperm, hinput⟩ := exists_first hv
  have hfilter : (input :: rest).filterMap (signedInputOf D) =
      v :: rest.filterMap (signedInputOf D) := List.filterMap_cons_some hinput
  rcases hend with hnone | ⟨r, hpick, s, hs, htest⟩
  · refine ⟨input :: rest, hperm, ?_⟩
    rw [hfilter]
    exact foldlM_first_none D _ (hplain v hv) hnone
  · -- the input that the record does not fit comes next
    have hsRest : s ∈ rest.filterMap (signedInputOf D) := by
      have hmem := (hperm.filterMap (signedInputOf D)).mem_iff.2 hs
      rw [hfilter] at hmem
      rcases List.mem_cons.1 hmem with heq | hmem
      · exact absurd heq.symm (ne_of_misfit D hpick htest)
      · exact hmem
    obtain ⟨input', rest', hperm', hinput'⟩ := exists_first hsRest
    refine ⟨input :: input' :: rest', (hperm'.cons input).trans hperm, ?_⟩
    rw [List.filterMap_cons_some hinput, List.filterMap_cons_some hinput']
    exact foldlM_first_misfit D _ (hplain v hv) (hplain s hs) hpick htest

/-- When the search is abandoned among plain inputs, nothing is marked. -/
theorem exists_marks_givesUp {r : SuitableRecord} (hcompare : AllComparable D network psbt r)
    {xs : List (SignedInput K)} {st : RecordState} (h : Tracked D network xs st)
    (hplain : ∀ s ∈ xs, isPlainMultisig D network s = true)
    (habandoned : st.1.multisigChangeAbandoned = true) :
    ∃ infos, psbtUpdateOutputs D.wallet D.records network (D.getOutputScript psbt) psbt st.1 st.2 =
      .ok infos ∧ ∀ out ∈ infos, out.validated = false := by
  obtain ⟨hsinglesig, hgreenKind⟩ := h.kinds_of_plain D hplain
  have hgreen : st.1 ≠ greenFlags := by
    intro heq
    rw [heq] at hgreenKind
    cases hgreenKind
  have hrecord : st.1 ≠ recordFlags := by
    intro heq
    rw [heq] at habandoned
    cases habandoned
  obtain ⟨infos, hinfos⟩ := allComparable_iff.1 hcompare
  obtain ⟨hlen, hupdate⟩ := getElem?_psbtUpdateOutputs hinfos
  obtain ⟨infos', hinfos'⟩ : ∃ infos', psbtUpdateOutputs D.wallet D.records network
      (D.getOutputScript psbt) psbt st.1 st.2 = .ok infos' := by
    refine exists_mapM_eq_ok ?_
    rintro ⟨output, i⟩ hmem
    have houtput : psbt.outputs[i]? = some output := List.mem_zipIdx_iff_getElem?.1 hmem
    obtain ⟨hi, -⟩ := List.getElem?_eq_some_iff.1 houtput
    exact exists_updateOutput_other hsinglesig hgreen hrecord
      (hupdate i output _ houtput (List.getElem?_eq_getElem (hlen.symm ▸ hi)))
  refine ⟨infos', hinfos', ?_⟩
  obtain ⟨hlen', hupdate'⟩ := getElem?_psbtUpdateOutputs hinfos'
  intro out hout
  obtain ⟨i, hi, rfl⟩ := List.getElem_of_mem hout
  exact validated_other hsinglesig hgreen hrecord (hupdate' i _ _
    (List.getElem?_eq_getElem (hlen' ▸ hi)) (List.getElem?_eq_getElem hi))

end Orders

/-! ### A device -/

/-- The keys of the wallet and of one cosigner, whose extended key is a byte that says whose it is. -/
def cosignerWallet : Wallet (Bool × List UInt32) where
  __ := greenWallet
  bip32KeyUnserialize bytes := some (bytes == [1], [])
  witnessProgramFromBytes _ bytes := some (0 :: 32 :: bytes.take 32)

/-- A 2-of-2 of the wallet and the cosigner. -/
def cosignerRecord : MultisigData where
  variant := .multiP2sh
  sorted := false
  threshold := 2
  xpubs := [[0], [1]]

/-- A device with that record. -/
def cosignerDevice : Device (Bool × List UInt32) Pair where
  wallet := cosignerWallet
  records := {
    multisigNames := some ["shared"]
    multisigLoad := fun name => if name = "shared" then some cosignerRecord else none
    descriptorNames := some []
    descriptorLoad := fun _ => none
    descriptorToScript := fun _ _ _ _ _ => none }
  user _ _ := true
  secp := pairSecp
  mwebDeriveKeyFromPath _ := none
  hasAssetInfo _ := false
  psbtIsElements _ := false
  txIsElements _ := false
  psbtExtract _ := none
  getOutputScript psbt i := (psbt.outputs[i]?).map PsbtOutput.script
  getInputSignatureType psbt i := (psbt.inputs[i]?).map fun _ => .preSw
  totalOutputSatoshi _ := none
  getInputSignatureHash _ _ _ := none
  signInputBip32 _ _ _ _ _ _ := none

/-- The entries of the two keys at a path. -/
def cosignerKeypaths (path : List UInt32) : List Keypath :=
  [greenKeypath (false, []) path, greenKeypath (true, []) path]

/-- An input that the record gives the script of, on the pointer 5. -/
def sharedInput : PsbtInput where
  bestUtxo := some {
    satoshi := 1000
    script := [0xa9, 20, 2, 0, 5, 0, 0, 0, 0, 0, 0, 0, 0, 0, 0, 0, 0, 0, 0, 0, 0, 0, 0x87] }
  keypaths := cosignerKeypaths [0, 5]

/-- An input on a path of 17 elements, with another script. -/
def longPathInput : PsbtInput where
  bestUtxo := some { satoshi := 1000, script := [0x51] }
  keypaths := cosignerKeypaths (List.replicate 17 1)

/-- An output that the record gives the script of, on the pointer 7. -/
def sharedOutput : PsbtOutput where
  script := [0xa9, 20, 2, 0, 7, 1, 0, 0, 0, 0, 0, 0, 0, 0, 0, 0, 0, 0, 0, 0, 0, 0, 0x87]
  keypaths := cosignerKeypaths [1, 7]

/-- The iterator at the wallet's key of a list of those entries. -/
def cosignerIter (path : List UInt32) : KeyIter (Bool × List UInt32) where
  keypaths := cosignerKeypaths path
  keyIndex := 0
  hdkey := (false, path)
  isGa2of3RecoveryKey := false

def longPathPsbt : Psbt where
  inputs := [sharedInput, longPathInput]
  outputs := [sharedOutput]

def sharedPsbt : Psbt where
  inputs := [sharedInput]
  outputs := [sharedOutput]

theorem cosignerDevice_registered {r : SuitableRecord}
    (h : IsRegistered cosignerDevice.records r) : ∃ name, r = .multisig name cosignerRecord := by
  cases r with
  | multisig name data =>
      have hload : (if name = "shared" then some cosignerRecord else none) = some data := h
      split at hload
      · exact ⟨name, by rw [Option.some.inj hload]⟩
      · cases hload
  | descriptor name data => cases h

/-- The output is marked, although the second input does not belong to the record. -/
theorem long_path_marked :
    markedOutputs cosignerDevice .bitcoin .sendPayment {} longPathPsbt = .ok [true] ∧
      ¬ MarkingSound cosignerDevice .bitcoin .sendPayment {} longPathPsbt := by
  have hmarks : markedOutputs cosignerDevice .bitcoin .sendPayment {} longPathPsbt =
      .ok [true] := by
    decide +kernel
  refine ⟨hmarks, ?_⟩
  intro hsound
  have hplain : IsPlainOutput cosignerDevice .bitcoin sharedOutput :=
    ⟨cosignerIter [1, 7], rfl, by decide, by decide +kernel⟩
  obtain ⟨r, hregistered, hall⟩ := hsound.shared longPathPsbt (Reordered.refl _) [true] hmarks 0
    sharedOutput rfl hplain rfl
  have hsigned : (⟨cosignerIter (List.replicate 17 1), [0x51]⟩ : SignedInput _) ∈
      signedInputs cosignerDevice longPathPsbt :=
    List.mem_filterMap.2 ⟨longPathInput, by simp [longPathPsbt], rfl⟩
  obtain ⟨-, hfits⟩ := hall _ hsigned
  obtain ⟨name, rfl⟩ := cosignerDevice_registered hregistered
  have hno : SuitableRecord.verifies cosignerDevice.wallet cosignerDevice.records .bitcoin
      (cosignerIter (List.replicate 17 1)) (cosignerIter (List.replicate 17 1)).fullPath [0x51]
      (.multisig name cosignerRecord) = .ok false := rfl
  cases hno.symm.trans hfits

/-! ### Exactly when the marks are sound -/

/-- **Exactly when outputs are marked for one record in every order**: the inputs pass the checks in
some order, and the records that are looked up do not depend on the order. -/
theorem marking_sound_iff (hsig : SignatureTypeLocal D) (hlocal : OutputScriptLocal D)
    (network : Network) (txType : TxType) (info : AdditionalInfo) (psbt : Psbt)
    (hscan : ∃ scan, scanInputs D network txType info psbt = .ok scan) :
    MarkingSound D network txType info psbt ↔ RecordsAgree D network psbt := by
  obtain ⟨scan, hscan⟩ := hscan
  constructor
  · intro hsound r hplain hkept hcompare i output houtput hmarked
    obtain ⟨infos, hinfos⟩ := allComparable_iff.1 hcompare
    obtain ⟨psbt₁, hreorder₁, hmarks₁⟩ := exists_order_kept hsig hlocal hscan hplain hkept hinfos
    obtain ⟨hlen, hupdate⟩ := getElem?_psbtUpdateOutputs hinfos
    obtain ⟨hi, -⟩ := List.getElem?_eq_some_iff.1 houtput
    have hout : infos[i]? = some infos[i] := List.getElem?_eq_getElem (hlen.symm ▸ hi)
    have hyes := (validated_recordFlags (hupdate i output _ houtput hout)).2 hmarked
    have hmark : (infos.map OutputInfo.validated)[i]? = some true := by
      rw [List.getElem?_map, hout, Option.map_some, hyes]
    refine ⟨?_, ?_, ?_⟩
    · intro hplainOutput
      have hshared := hsound.shared psbt₁ hreorder₁ _ hmarks₁ i output
        (by rw [hreorder₁.outputs, houtput]) hplainOutput hmark
      exact (sharedByInputs_iff hplain hkept).1 (hreorder₁.sharedByInputs.1 hshared)
    · intro hgives
      obtain ⟨inputs, hperm, st, hst, habandoned⟩ := exists_order_givesUp hplain hgives
      have hmem : ∀ s ∈ inputs.filterMap (signedInputOf D), s ∈ signedInputs D psbt :=
        fun s hs => (hperm.filterMap (signedInputOf D)).mem_iff.1 hs
      obtain ⟨infos₂, hinfos₂, hnone⟩ := exists_marks_givesUp hcompare (tracked_foldlM D hst)
        (fun s hs => hplain s (hmem s hs)) habandoned
      obtain ⟨psbt₂, hreorder₂, hmarks₂⟩ :=
        markedOutputs_of_order hsig hlocal hscan hperm _ hst hinfos₂
      rw [hsound.order psbt₁ psbt₂ hreorder₁ hreorder₂ _ _ hmarks₁ hmarks₂,
        List.getElem?_map, Option.map_eq_some_iff] at hmark
      obtain ⟨out, hout₂, htrue⟩ := hmark
      rw [hnone out (List.mem_of_getElem? hout₂)] at htrue
      cases htrue
    · intro r' hkept' hcompare₂
      obtain ⟨infos₂, hinfos₂⟩ := allComparable_iff.1 hcompare₂
      obtain ⟨psbt₂, hreorder₂, hmarks₂⟩ :=
        exists_order_kept hsig hlocal hscan hplain hkept' hinfos₂
      rw [hsound.order psbt₁ psbt₂ hreorder₁ hreorder₂ _ _ hmarks₁ hmarks₂,
        List.getElem?_map, Option.map_eq_some_iff] at hmark
      obtain ⟨out, hout₂, htrue⟩ := hmark
      exact (validated_recordFlags
        ((getElem?_psbtUpdateOutputs hinfos₂).2 i output out houtput hout₂)).1 htrue
  · intro hagree
    refine ⟨?_, ?_⟩
    · intro psbt' hreorder marks hmarks i output houtput hplainOutput hmark
      obtain ⟨st, infos, htracked, hinfos, rfl⟩ := markedOutputs_eq_ok hlocal hreorder hmarks
      rw [List.getElem?_map, Option.map_eq_some_iff] at hmark
      obtain ⟨out, hout, htrue⟩ := hmark
      rw [hreorder.outputs] at houtput
      have hupdate := (getElem?_psbtUpdateOutputs hinfos).2 i output out houtput hout
      have hflags : st.1 = recordFlags := by
        by_contra hother
        rw [validated_plain hplainOutput hother hupdate] at htrue
        cases htrue
      obtain ⟨hplain, r, hr, hkept⟩ := htracked.of_recordFlags hflags
      rw [hflags, hr] at hupdate hinfos
      have hmem := hreorder.mem_signedInputs (D := D)
      have hplain' : ∀ s ∈ signedInputs D psbt, isPlainMultisig D network s = true :=
        fun s hs => hplain s ((hmem s).2 hs)
      have hkept' := hkept.perm D hmem
      obtain ⟨hlong, -⟩ := hagree r hplain' hkept' (allComparable_iff.2 ⟨infos, hinfos⟩) i output
        houtput ((validated_recordFlags hupdate).1 htrue)
      exact hreorder.sharedByInputs.2 ((sharedByInputs_iff hplain' hkept').2 (hlong hplainOutput))
    · intro psbt₁ psbt₂ hreorder₁ hreorder₂ marks₁ marks₂ hmarks₁ hmarks₂
      obtain ⟨st₁, infos₁, htracked₁, hinfos₁, rfl⟩ := markedOutputs_eq_ok hlocal hreorder₁ hmarks₁
      obtain ⟨st₂, infos₂, htracked₂, hinfos₂, rfl⟩ := markedOutputs_eq_ok hlocal hreorder₂ hmarks₂
      have hlen₁ := (getElem?_psbtUpdateOutputs hinfos₁).1
      have hlen₂ := (getElem?_psbtUpdateOutputs hinfos₂).1
      refine List.ext_getElem (by simp [hlen₁, hlen₂]) ?_
      intro i hi₁ hi₂
      simp only [List.length_map] at hi₁ hi₂
      have hout₁ : infos₁[i]? = some infos₁[i] := List.getElem?_eq_getElem hi₁
      have hout₂ : infos₂[i]? = some infos₂[i] := List.getElem?_eq_getElem hi₂
      rw [List.getElem_map, List.getElem_map, Bool.eq_iff_iff]
      have hmem₁ := hreorder₁.mem_signedInputs (D := D)
      have hmem₂ := hreorder₂.mem_signedInputs (D := D)
      constructor
      · exact hagree.validated hmem₁ hmem₂ htracked₁ htracked₂ hinfos₁ hinfos₂ hout₁ hout₂
      · exact hagree.validated hmem₂ hmem₁ htracked₂ htracked₁ hinfos₂ hinfos₁ hout₂ hout₁

/-- With one input, the output is marked for its record. -/
theorem shared_input_marked :
    MarkingSound cosignerDevice .bitcoin .sendPayment {} sharedPsbt := by
  have hsig : SignatureTypeLocal cosignerDevice := by
    intro psbt psbt' i j hinput
    show (psbt.inputs[i]?).map _ = (psbt'.inputs[j]?).map _
    rw [hinput]
  have hlocal : OutputScriptLocal cosignerDevice := by
    intro psbt psbt' houtputs _
    funext i
    show (psbt'.outputs[i]?).map _ = (psbt.outputs[i]?).map _
    rw [houtputs]
  refine (marking_sound_iff cosignerDevice hsig hlocal .bitcoin .sendPayment {} sharedPsbt
    ⟨_, rfl⟩).2 ?_
  let s : SignedInput (Bool × List UInt32) := ⟨cosignerIter [0, 5],
    [0xa9, 20, 2, 0, 5, 0, 0, 0, 0, 0, 0, 0, 0, 0, 0, 0, 0, 0, 0, 0, 0, 0, 0x87]⟩
  have hsigned : signedInputs cosignerDevice sharedPsbt = [s] := rfl
  have hpick : ∀ {found}, Picks cosignerDevice .bitcoin s found →
      found = some (.multisig "shared" cosignerRecord) := by
    intro found h
    obtain ⟨path, hpath, hfound⟩ := (picks_iff _).1 h
    obtain rfl : [0, 5] = path := Option.some.inj hpath
    exact (Except.ok.inj hfound).symm
  have hfits : SuitableRecord.verifies cosignerDevice.wallet cosignerDevice.records .bitcoin
      s.iter [0, 5] s.script (.multisig "shared" cosignerRecord) = .ok true := rfl
  have hkept : ∀ {r}, Survives cosignerDevice .bitcoin [s] r →
      r = .multisig "shared" cosignerRecord := by
    intro r h
    obtain ⟨v, hv, hpicked⟩ := h.picked
    obtain rfl := List.mem_singleton.1 hv
    exact Option.some.inj (hpick hpicked)
  intro r _ hr _ i output _ hmarked
  rw [hsigned] at hr
  obtain rfl := hkept hr
  refine ⟨fun _ => .inl ?_, ?_, ?_⟩
  · rw [hsigned]
    intro v hv
    obtain rfl := List.mem_singleton.1 hv
    exact rfl
  · rw [hsigned]
    rintro ⟨v, hv, hend⟩
    obtain rfl := List.mem_singleton.1 hv
    rcases hend with hnone | ⟨r, hpicked, v, hv, htest⟩
    · cases hpick hnone
    · obtain rfl := List.mem_singleton.1 hv
      obtain rfl := Option.some.inj (hpick hpicked)
      obtain ⟨path, hpath, htest⟩ := (tests_iff _).1 htest
      obtain rfl : [0, 5] = path := Option.some.inj hpath
      cases hfits.symm.trans htest
  · intro r' hr' _
    rw [hsigned] at hr'
    rwa [hkept hr']

end Jade
