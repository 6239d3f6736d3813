/-
**Warnings about unusual paths.**

A path that is not the one a wallet would use is shown to the user: behind a receive address that was
asked for, and with an output of a transaction or of a PSBT.  The path is written into a buffer that
is large enough for every path the device takes.  Then it is put behind a heading in a field of 128
bytes, and there an assertion demands that it fits.  A path of sixteen elements has up to 193
characters.

Main definitions:

* `Jade.pathWarning` — the heading with the complete path;
* `Jade.FitsField` — it fits the field;
* `Jade.BuildsSinglesig` — the wallet has a script for the path.

Main results:

* `Jade.messageField_pathWarning_iff` — the field takes the warning exactly when it fits;
* `Jade.sat_showBtcTransactionOutputs_message`, `Jade.sat_showElementsTransactionOutputs_message` —
  an output with a warning is displayed with it;
* `Jade.unusualPath_iff` — **the warning is there, with the complete path, exactly when the heading
  and the path are less than 128 characters long; and then the user sees it**.
-/

import Jade.SignTx.ReceiveAddress

set_option relaxedAutoImplicit false
set_option autoImplicit false

namespace Jade

open Exec

/-! ### The warning -/

/-- A heading with the complete path behind it. -/
def pathWarning (heading : String) (path : List UInt32) : String := heading ++ pathString path

/-- The warning fits the field of 128 bytes, with its terminator. -/
def FitsField (heading : String) (path : List UInt32) : Prop :=
  heading.length + (pathString path).length < 128

instance (heading : String) (path : List UInt32) : Decidable (FitsField heading path) :=
  inferInstanceAs (Decidable (_ < _))

theorem messageField_eq_ok {message text : String} :
    messageField message = .ok text ↔ message.length < 128 ∧ text = message := by
  unfold messageField assertThat
  by_cases h : message.length < 128
  · simp [h, bind, Except.bind, pure, Except.pure, eq_comm]
  · simp [h, bind, Except.bind]

/-- The field takes a warning exactly when it fits. -/
theorem messageField_pathWarning_iff {heading text : String} {path : List UInt32} :
    messageField (heading ++ pathString path) = .ok text ↔
      FitsField heading path ∧ text = pathWarning heading path := by
  rw [messageField_eq_ok, FitsField, pathWarning, String.length_append]

theorem messageField_eq_error {heading : String} {path : List UInt32}
    (h : ¬FitsField heading path) :
    messageField (heading ++ pathString path) = .error (.fault .assert) := by
  have hlen : ¬(heading ++ pathString path).length < 128 := by
    rw [String.length_append]
    exact h
  rw [messageField, decide_eq_false hlen]
  rfl

/-- The warning of an output of a PSBT. -/
theorem outputWarning_eq_ok {heading text : String} {path : List UInt32}
    (h : path.length ≤ MAX_PATH_LEN) :
    outputWarning heading path = .ok text ↔
      FitsField heading path ∧ text = pathWarning heading path := by
  have hpath : walletBip32PathAsStr path (1 + 12 * MAX_PATH_LEN + 1) false =
      some (pathString path) := walletBip32PathAsStr_eq h
  rw [outputWarning, hpath, FitsField, pathWarning]
  simp only [Option.getD_some]
  constructor
  · intro hrun
    obtain ⟨_, hverify, hrun⟩ := bind_eq_ok.1 hrun
    have hlen := of_decide_eq_true (jadeVerify_eq_ok.1 hverify)
    rw [String.length_append] at hlen
    exact ⟨hlen, (Except.ok.inj hrun).symm⟩
  · rintro ⟨hlen, rfl⟩
    rw [← String.length_append] at hlen
    rw [jadeVerify_bind (decide_eq_true hlen)]
    rfl

theorem outputWarning_eq_error {heading : String} {path : List UInt32}
    (hpath : path.length ≤ MAX_PATH_LEN) (h : ¬FitsField heading path) :
    outputWarning heading path = .error .assert := by
  have hlen : ¬(heading ++ pathString path).length < 128 := by
    rw [String.length_append]
    exact h
  have htext : walletBip32PathAsStr path (1 + 12 * MAX_PATH_LEN + 1) false =
      some (pathString path) := walletBip32PathAsStr_eq hpath
  rw [outputWarning, htext, Option.getD_some, decide_eq_false hlen]
  rfl

theorem singlesigWarning_eq_ok {network : Network} {variant : ScriptVariant} {isChange : Bool}
    {path : PathArray} {text : String}
    (h : walletIsExpectedSinglesigPath network variant isChange path.1 = false) :
    singlesigWarning network variant isChange path.1 = .ok text ↔
      FitsField ("Unusual " ++ (if isChange then "change" else "receive") ++ " path: ") path.1 ∧
        text = pathWarning ("Unusual " ++ (if isChange then "change" else "receive") ++ " path: ")
          path.1 := by
  rw [singlesigWarning, h, walletBip32PathAsStr_eq path.2]
  exact messageField_pathWarning_iff

theorem receivePathWarning_eq_ok {network : Network} {variant : ScriptVariant} {path : PathArray}
    {text : String} (h : walletIsExpectedSinglesigPath network variant false path.1 = false) :
    receivePathWarning network variant path.1 = .ok text ↔
      FitsField (receivePathHeading (walletIsExpectedSinglesigPath network variant true path.1))
          path.1 ∧
        text = pathWarning
          (receivePathHeading (walletIsExpectedSinglesigPath network variant true path.1))
          path.1 := by
  rw [receivePathWarning, h, walletBip32PathAsStr_eq path.2]
  exact messageField_pathWarning_iff

/-! ### The screens -/

/-- What is displayed contains the screens of every output that is. -/
theorem mem_displayedScreens
    {screens : ℕ → TxOutput → Option OutputInfo → Except Fault (List Screen)}
    {display : TxOutput → Option OutputInfo → Bool} {outs : List (TxOutput × Option OutputInfo)}
    {shown : ℕ} {blocks : List (List Screen)}
    (h : displayedScreens screens display outs shown = .ok blocks)
    {out : TxOutput} {info : Option OutputInfo} (hmem : (out, info) ∈ outs)
    (hdisplay : display out info = true) :
    ∃ place block, screens place out info = .ok block ∧ block ∈ blocks := by
  induction outs generalizing shown blocks with
  | nil => cases hmem
  | cons entry outs ih =>
      obtain ⟨out', info'⟩ := entry
      rw [displayedScreens] at h
      by_cases hdisplay' : display out' info' = true
      · rw [if_pos hdisplay'] at h
        obtain ⟨block, hblock, h⟩ := bind_eq_ok.1 h
        obtain ⟨rest, hrest, h⟩ := bind_eq_ok.1 h
        obtain rfl := Except.ok.inj h
        rcases List.mem_cons.1 hmem with heq | hmem
        · cases heq
          exact ⟨_, block, hblock, List.mem_cons_self⟩
        · obtain ⟨place, block', hblock', hin⟩ := ih hrest hmem
          exact ⟨place, block', hblock', List.mem_cons_of_mem _ hin⟩
      · rw [if_neg hdisplay'] at h
        rcases List.mem_cons.1 hmem with heq | hmem
        · cases heq
          exact absurd hdisplay hdisplay'
        · exact ih h hmem

theorem mem_outputsWithInfo {tx : Tx} {infos : List OutputInfo} {i : ℕ} {out : TxOutput}
    {info : OutputInfo} (hout : tx.outputs[i]? = some out) (hinfo : infos[i]? = some info) :
    (out, some info) ∈ outputsWithInfo tx (some infos) := by
  refine List.mem_map.2 ⟨(out, i), List.mem_zipIdx_iff_getElem?.2 hout, ?_⟩
  simp [hinfo]

theorem mem_accepted {screen : Screen} {screens : List Screen} (h : screen ∈ screens) :
    (screen, true) ∈ accepted screens := List.mem_map.2 ⟨screen, h, rfl⟩

/-- Every output that is `shown`, and has a warning, has been accepted on a screen with it. -/
def AcceptedWarnings (tx : Tx) (infos : List OutputInfo) (shown : TxOutput → Prop)
    (warned : Screen → TxOutput → OutputInfo → Prop) (answers : Answers) : Prop :=
  ∀ (i : ℕ) (out : TxOutput) (info : OutputInfo), tx.outputs[i]? = some out →
    infos[i]? = some info → shown out → info.mweb = false → info.message ≠ "" →
      ∃ screen, (screen, true) ∈ answers ∧ warned screen out info

theorem sat_showTransactionOutputs_message (user : User) (showScriptless : Bool)
    (screens : ℕ → ℕ → TxOutput → Option OutputInfo → Except Fault (List Screen))
    (warned : Screen → TxOutput → OutputInfo → Prop) {tx : Tx} {infos : List OutputInfo}
    (hscreens : ∀ total place out info block, screens total place out (some info) = .ok block →
      info.message ≠ "" → ∃ screen ∈ block, warned screen out info) (log : Answers) :
    Sat (showTransactionOutputs user showScriptless screens (outputsWithInfo tx (some infos)))
      (fun ok log' => ok = true → AcceptedWarnings tx infos
        (fun out => showScriptless = true ∨ out.script ≠ []) warned log')
      (fun _ _ => True) log := by
  refine (sat_showTransactionOutputs user showScriptless screens _ log).mono ?_ (fun _ _ h => h)
  intro ok log' h hok i out info hout hinfo hscript hmweb hmessage
  obtain ⟨blocks, hblocks, rfl⟩ := h hok
  have hdisplay : isDisplayed (outputsWithInfo tx (some infos)) showScriptless out (some info) =
      true := by
    have hshown : displayOutput out (some info) showScriptless = true := by
      rw [displayOutput, if_neg]
      · simp [hmweb, hmessage]
      · rcases hscript with h | h
        · simp [h]
        · simp [h]
    rw [isDisplayed, hshown, Bool.or_true]
  obtain ⟨place, block, hblock, hmem⟩ :=
    mem_displayedScreens hblocks (mem_outputsWithInfo hout hinfo) hdisplay
  obtain ⟨screen, hscreen, hwarned⟩ := hscreens _ _ _ _ _ hblock hmessage
  exact ⟨screen, List.mem_append_right _ (mem_accepted (List.mem_flatten.2 ⟨block, hmem, hscreen⟩)),
    hwarned⟩

/-- The screen of an output, with the warning that goes with it. -/
def WarnsAbout (screen : Screen) (out : TxOutput) (info : OutputInfo) : Prop :=
  ∃ place total, screen =
    .output place total info.validated out.script out.satoshi (some info.message)

/-- The screen of an output of Liquid, with the warning that goes with it. -/
def WarnsAboutElements (screen : Screen) (out : TxOutput) (info : OutputInfo) : Prop :=
  ∃ place total, screen = .elementsOutput place total info.validated out.script
    (if info.hasBlindingKey then some info.blindingKey else none) info.assetId info.value
    (some info.message)

theorem outputMessage_of_ne {info : OutputInfo} (h : info.message ≠ "") :
    outputMessage (some info) = some info.message := if_neg h

theorem sat_showBtcTransactionOutputs_message (user : User) (tx : Tx) (infos : List OutputInfo)
    (log : Answers) :
    Sat (showBtcTransactionOutputsActivity user tx (some infos))
      (fun ok log' => ok = true → AcceptedWarnings tx infos (fun _ => True) WarnsAbout log')
      (fun _ _ => True) log := by
  refine (sat_showTransactionOutputs_message user true btcOutputScreens WarnsAbout
    ?_ log).mono ?_ (fun _ _ h => h)
  · intro total place out info block hblock hmessage
    obtain rfl := Except.ok.inj hblock
    refine ⟨_, List.mem_singleton.2 rfl, place, total, ?_⟩
    rw [outputMessage_of_ne hmessage]
    rfl
  · intro ok log' h hok i out info hout hinfo _
    exact h hok i out info hout hinfo (.inl rfl)

theorem sat_showElementsTransactionOutputs_message (user : User) (hasAssetInfo : Bytes → Bool)
    (tx : Tx) (infos : List OutputInfo) (log : Answers) :
    Sat (showElementsTransactionOutputsActivity user hasAssetInfo tx infos)
      (fun ok log' => ok = true →
        AcceptedWarnings tx infos (fun out => out.script ≠ []) WarnsAboutElements log')
      (fun _ _ => True) log := by
  refine (sat_showTransactionOutputs_message user false (elementsOutputScreens hasAssetInfo)
    WarnsAboutElements ?_ log).mono ?_ (fun _ _ h => h)
  · intro total place out info block hblock hmessage
    simp only [elementsOutputScreens] at hblock
    obtain ⟨_, -, hblock⟩ := bind_eq_ok.1 hblock
    obtain rfl := Except.ok.inj hblock
    rw [outputMessage_of_ne hmessage]
    refine ⟨_, List.mem_append_right _ ?_, place, total, rfl⟩
    simp
  · intro ok log' h hok i out info hout hinfo hscript
    exact h hok i out info hout hinfo (.inr hscript)

/-! ### The callers -/

/-- The text contains the complete path. -/
def ShowsPath (path : List UInt32) (text : String) : Prop :=
  ∃ heading, text = pathWarning heading path

theorem ShowsPath.ne_empty {path : List UInt32} {text : String} (h : ShowsPath path text) :
    text ≠ "" := by
  obtain ⟨heading, rfl⟩ := h
  intro hempty
  have hlen := congrArg String.length hempty
  rw [pathWarning, pathString, String.length_append, String.length_append] at hlen
  have hm : "m".length = 1 := by decide
  have hzero : "".length = 0 := by decide
  omega

section Callers

variable {K : Type} (L : AddressLib K)

/-- The wallet has a script of the variant for the path. -/
def BuildsSinglesig (network : Network) (variant : ScriptVariant) (path : List UInt32)
    (script : Bytes) : Prop :=
  ∃ derived, walletGetHdkey L.toSignerLib path = some derived ∧
    walletBuildSinglesigScript L.wallet network variant (L.wallet.pubKey derived) = .ok (some script)

theorem singlesigReceiveScript_iff {network : Network} {variant : ScriptVariant} {path : PathArray}
    {script : Bytes} (hne : path.1 ≠ []) (hbuilds : BuildsSinglesig L network variant path.1 script)
    (h : walletIsExpectedSinglesigPath network variant false path.1 = false) :
    (∃ text, singlesigReceiveScript L network variant (some path) = .ok (script, text) ∧
        ShowsPath path.1 text) ↔
      FitsField (receivePathHeading (walletIsExpectedSinglesigPath network variant true path.1))
        path.1 := by
  obtain ⟨derived, hderived, hbuild⟩ := hbuilds
  have hpath : signerPath (some path) = some path.1 := by simp [signerPath, hne]
  rw [singlesigReceiveScript, hpath]
  constructor
  · rintro ⟨text, hrun, -⟩
    obtain ⟨warning, hwarning, -⟩ := bind_eq_ok.1 hrun
    exact ((receivePathWarning_eq_ok h).1 hwarning).1
  · intro hfits
    let heading := receivePathHeading (walletIsExpectedSinglesigPath network variant true path.1)
    refine ⟨pathWarning heading path.1,
      bind_eq_ok.2 ⟨_, (receivePathWarning_eq_ok h).2 ⟨hfits, rfl⟩, ?_⟩, heading, rfl⟩
    rw [hderived]
    dsimp only
    rw [hbuild]
    rfl

/-- The heading in front of the path of an output. -/
def signingPathHeading (isChange : Bool) : String :=
  "Unusual " ++ (if isChange then "change" else "receive") ++ " path: "

theorem singlesigEntryScript_iff {network : Network} {variant : ScriptVariant} {isChange : Bool}
    {path : PathArray} {script : Bytes} (hbuilds : BuildsSinglesig L network variant path.1 script)
    (h : walletIsExpectedSinglesigPath network variant isChange path.1 = false) :
    (∃ text, singlesigEntryScript L.toScriptLib network variant isChange path.1 =
        .ok (script, text) ∧ ShowsPath path.1 text) ↔
      FitsField (signingPathHeading isChange) path.1 := by
  obtain ⟨derived, hderived, hbuild⟩ := hbuilds
  rw [singlesigEntryScript]
  constructor
  · rintro ⟨text, hrun, -⟩
    obtain ⟨warning, hwarning, -⟩ := bind_eq_ok.1 hrun
    exact ((singlesigWarning_eq_ok h).1 hwarning).1
  · intro hfits
    refine ⟨pathWarning (signingPathHeading isChange) path.1,
      bind_eq_ok.2 ⟨_, (singlesigWarning_eq_ok h).2 ⟨hfits, rfl⟩, ?_⟩, signingPathHeading isChange,
      rfl⟩
    rw [hderived]
    dsimp only
    rw [hbuild]
    rfl

end Callers

section Psbt

variable {K : Type} (W : Wallet K) (records : Records)

theorem updateSinglesigOutput_iff {network : Network} {variant : ScriptVariant}
    {flags : SigningFlags} {iter : KeyIter K} {path : PathArray} {txScript : Bytes}
    {info : OutputInfo} (hflags : flags.singlesig = true)
    (hvariant : (W.scriptType txScript).bind getSinglesigVariantFromScriptType = some variant)
    (hmatches : verifySinglesigScriptMatches W network variant (W.pubKey iter.hdkey) txScript =
      .ok true)
    (h : walletIsExpectedSinglesigPath network variant (isChangePath path.1) path.1 = false) :
    (∃ info', updateSinglesigOutput W network flags iter path.1 txScript info = .ok info' ∧
        ShowsPath path.1 info'.message) ↔ FitsField "Unusual receive path: " path.1 := by
  rw [updateSinglesigOutput, hflags, hvariant]
  simp only [Bool.not_true, Bool.false_eq_true, if_false, hmatches, ok_bind, if_true, h]
  constructor
  · rintro ⟨info', hrun, -⟩
    obtain ⟨warning, hwarning, -⟩ := bind_eq_ok.1 hrun
    exact ((outputWarning_eq_ok path.2).1 hwarning).1
  · intro hfits
    exact ⟨_, bind_eq_ok.2 ⟨_, (outputWarning_eq_ok path.2).2 ⟨hfits, rfl⟩, rfl⟩, _, rfl⟩

theorem updateMultisigOutput_iff {network : Network} {record : SuitableRecord} {iter : KeyIter K}
    {path : PathArray} {txScript : Bytes} {info : OutputInfo}
    (hmatches : record.verifies W records network iter path.1 txScript = .ok true)
    (h : walletIsExpectedMultisigPath iter.keyIndex (isChangePath path.1)
      (path.1.drop (pathGetUnhardenedTailIndex path.1)) = false) :
    (∃ info', updateMultisigOutput W records network (some record) iter path.1 txScript info =
        .ok info' ∧ ShowsPath path.1 info'.message) ↔
      FitsField "Unusual change path suffix: " path.1 := by
  rw [updateMultisigOutput]
  simp only [hmatches, ok_bind, if_true, h, Bool.false_eq_true, if_false]
  constructor
  · rintro ⟨info', hrun, -⟩
    obtain ⟨warning, hwarning, -⟩ := bind_eq_ok.1 hrun
    exact ((outputWarning_eq_ok path.2).1 hwarning).1
  · intro hfits
    exact ⟨_, bind_eq_ok.2 ⟨_, (outputWarning_eq_ok path.2).2 ⟨hfits, rfl⟩, rfl⟩, _, rfl⟩

end Psbt

/-! ### A receive address -/

section Run

variable {K : Type} (L : AddressLib K)

theorem singlesigReceiveScript_shows {network : Network} {variant : ScriptVariant}
    {path : PathArray} {result : Bytes × String}
    (h : walletIsExpectedSinglesigPath network variant false path.1 = false)
    (hrun : singlesigReceiveScript L network variant (some path) = .ok result) :
    ShowsPath path.1 result.2 := by
  rw [singlesigReceiveScript] at hrun
  cases hpath : signerPath (some path) with
  | none =>
      rw [hpath] at hrun
      cases hrun
  | some path' =>
      obtain rfl : path.1 = path' := by
        rw [signerPath] at hpath
        split at hpath
        · cases hpath
        · exact Option.some.inj hpath
      rw [hpath] at hrun
      obtain ⟨warning, hwarning, hrun⟩ := bind_eq_ok.1 hrun
      obtain ⟨-, rfl⟩ := (receivePathWarning_eq_ok h).1 hwarning
      cases hderived : walletGetHdkey L.toSignerLib path.1 with
      | none =>
          rw [hderived] at hrun
          cases hrun
      | some derived =>
          rw [hderived] at hrun
          obtain ⟨script, -, hrun⟩ := bind_eq_ok.1 hrun
          cases script with
          | none => cases hrun
          | some script =>
              obtain rfl := Except.ok.inj hrun
              exact ⟨_, rfl⟩

/-- What a request for the address of a single key comes to. -/
theorem receiveScript_shows {network : Network} {confidential : Bool}
    {params : ReceiveAddressParams} {variant : ScriptVariant} {path : PathArray}
    {receive : ReceiveScript} (hmultisig : params.multisigName = none)
    (hdescriptor : params.descriptorName = none)
    (hvariant : getScriptVariant params.variant = some variant)
    (hsinglesig : isSinglesig variant = true) (hpath : params.path = some path)
    (h : walletIsExpectedSinglesigPath network variant false path.1 = false)
    (hrun : receiveScript L network confidential params = .ok receive) :
    ShowsPath path.1 receive.warning := by
  rw [receiveScript, hmultisig, hdescriptor] at hrun
  dsimp only at hrun
  rw [variantReceiveScript, hvariant, hpath] at hrun
  have hbuilt : ∃ script, singlesigReceiveScript L network variant (some path) =
      .ok (script, receive.warning) := by
    cases variant <;> simp only [isSinglesig, Bool.false_eq_true] at hsinglesig <;>
      simp only [isSinglesig, if_true] at hrun <;>
      obtain ⟨built, hbuilt, hrun⟩ := bind_eq_ok.1 hrun <;>
      obtain rfl := Except.ok.inj hrun <;>
      exact ⟨built.1, hbuilt⟩
  obtain ⟨script, hbuilt⟩ := hbuilt
  exact singlesigReceiveScript_shows L h hbuilt

/-- **A path that is not as expected.**  For each caller the warning with the complete path is there
exactly when heading and path fit the field.  An address that is sent after a request with such a
path has been shown with the warning, and so has every output that is displayed. -/
theorem unusualPath_iff (records : Records) (network : Network) (variant : ScriptVariant)
    (path : PathArray) :
    (∀ script, path.1 ≠ [] → BuildsSinglesig L network variant path.1 script →
      walletIsExpectedSinglesigPath network variant false path.1 = false →
        ((∃ text, singlesigReceiveScript L network variant (some path) = .ok (script, text) ∧
            ShowsPath path.1 text) ↔
          FitsField (receivePathHeading
            (walletIsExpectedSinglesigPath network variant true path.1)) path.1)) ∧
      (∀ script isChange, BuildsSinglesig L network variant path.1 script →
        walletIsExpectedSinglesigPath network variant isChange path.1 = false →
          ((∃ text, singlesigEntryScript L.toScriptLib network variant isChange path.1 =
              .ok (script, text) ∧ ShowsPath path.1 text) ↔
            FitsField (signingPathHeading isChange) path.1)) ∧
      (∀ (flags : SigningFlags) (iter : KeyIter K) txScript info, flags.singlesig = true →
        (L.wallet.scriptType txScript).bind getSinglesigVariantFromScriptType = some variant →
        verifySinglesigScriptMatches L.wallet network variant (L.wallet.pubKey iter.hdkey)
          txScript = .ok true →
        walletIsExpectedSinglesigPath network variant (isChangePath path.1) path.1 = false →
          ((∃ info', updateSinglesigOutput L.wallet network flags iter path.1 txScript info =
              .ok info' ∧ ShowsPath path.1 info'.message) ↔
            FitsField "Unusual receive path: " path.1)) ∧
      (∀ (record : SuitableRecord) (iter : KeyIter K) txScript info,
        record.verifies L.wallet records network iter path.1 txScript = .ok true →
        walletIsExpectedMultisigPath iter.keyIndex (isChangePath path.1)
          (path.1.drop (pathGetUnhardenedTailIndex path.1)) = false →
          ((∃ info', updateMultisigOutput L.wallet records network (some record) iter path.1
              txScript info = .ok info' ∧ ShowsPath path.1 info'.message) ↔
            FitsField "Unusual change path suffix: " path.1)) ∧
      (∀ (user : AddressScreen → Bool) (params : ReceiveAddressParams),
        params.multisigName = none → params.descriptorName = none →
        getScriptVariant params.variant = some variant → isSinglesig variant = true →
        params.path = some path →
        walletIsExpectedSinglesigPath network variant false path.1 = false →
          Sat (getReceiveAddressProcess L user network params)
            (fun _ t => ∃ text answer, (AddressScreen.message text, answer) ∈ t.answers ∧
              ShowsPath path.1 text) (fun _ _ => True) {}) ∧
      ∀ (user : User) (hasAssetInfo : Bytes → Bool) (tx : Tx) (infos : List OutputInfo) log,
        Sat (showBtcTransactionOutputsActivity user tx (some infos))
            (fun ok log' => ok = true → AcceptedWarnings tx infos (fun _ => True) WarnsAbout log')
            (fun _ _ => True) log ∧
          Sat (showElementsTransactionOutputsActivity user hasAssetInfo tx infos)
            (fun ok log' => ok = true →
              AcceptedWarnings tx infos (fun out => out.script ≠ []) WarnsAboutElements log')
            (fun _ _ => True) log := by
  refine ⟨fun script hne hbuilds h => singlesigReceiveScript_iff L hne hbuilds h,
    fun script isChange hbuilds h => singlesigEntryScript_iff L hbuilds h,
    fun flags iter txScript info hflags hvariant hmatches h =>
      updateSinglesigOutput_iff L.wallet hflags hvariant hmatches h,
    fun record iter txScript info hmatches h =>
      updateMultisigOutput_iff L.wallet records hmatches h, ?_,
    fun user hasAssetInfo tx infos log =>
      ⟨sat_showBtcTransactionOutputs_message user tx infos log,
        sat_showElementsTransactionOutputs_message user hasAssetInfo tx infos log⟩⟩
  intro user params hmultisig hdescriptor hvariant hsinglesig hpath h
  refine (sat_getReceiveAddressProcess L user network params {}).mono ?_ (fun _ _ h => h)
  rintro _ t ⟨receive, blindingKey, hreceive, -, hwarned, -⟩
  have hshows := receiveScript_shows L hmultisig hdescriptor hvariant hsinglesig hpath h hreceive
  obtain ⟨answer, hmem⟩ := hwarned hshows.ne_empty
  exact ⟨receive.warning, answer, hmem, hshows⟩

end Run

/-! ### A long path -/

/-- A wallet with one key, on which nothing is registered. -/
def pairAddressLib : AddressLib Unit where
  toMultisigLib := { singleMultisigLib with wallet := pairWallet }
  chainCode _ := []
  bip32PathStrIsHardened _ := some false
  multisigs _ := none
  descriptors _ := none
  descriptorToScript _ _ _ _ _ := none
  masterUnblindingKey := []
  publicBlindingKey _ _ := none

/-- The script of that wallet. -/
def pairScript : Bytes := 0 :: 20 :: 2 :: List.replicate 19 1

theorem pairAddressLib_builds (path : List UInt32) :
    BuildsSinglesig pairAddressLib .bitcoin .p2wpkh path pairScript := by
  refine ⟨(), ?_, rfl⟩
  rw [walletGetHdkey]
  split
  · rfl
  · rfl

/-- Sixteen elements of ten digits, all hardened. -/
def longPath : PathArray := ⟨List.replicate 16 0xffffffff, by decide⟩

theorem unusualPath_iff_root :
    ∃ text, singlesigReceiveScript pairAddressLib .bitcoin .p2wpkh (some ⟨[7], by decide⟩) =
      .ok (pairScript, text) ∧ ShowsPath [7] text :=
  ((unusualPath_iff pairAddressLib pairDevice.records .bitcoin .p2wpkh ⟨[7], by decide⟩).1 _
    (by decide) (pairAddressLib_builds _) rfl).2 (by decide)

/-- The three callers stop at the long path. -/
theorem unusualPath_long :
    singlesigReceiveScript pairAddressLib .bitcoin .p2wpkh (some longPath) =
        .error (.fault .assert) ∧
      (∀ isChange, singlesigEntryScript pairAddressLib.toScriptLib .bitcoin .p2wpkh isChange
        longPath.1 = .error (.fault .assert)) ∧
      outputWarning "Unusual receive path: " longPath.1 = .error .assert ∧
      outputWarning "Unusual change path suffix: " longPath.1 = .error .assert := by
  have hlength : (pathString longPath.1).length = 193 := by decide +kernel
  have hfield : ∀ heading, ¬FitsField heading longPath.1 := by
    intro heading hfits
    rw [FitsField, hlength] at hfits
    omega
  have hpath : walletBip32PathAsStr longPath.1 (maxPathStrLen MAX_PATH_LEN) false =
      some (pathString longPath.1) := walletBip32PathAsStr_eq longPath.2
  refine ⟨?_, ?_, outputWarning_eq_error longPath.2 (hfield _),
    outputWarning_eq_error longPath.2 (hfield _)⟩
  · have hwarning : receivePathWarning .bitcoin .p2wpkh longPath.1 = .error (.fault .assert) := by
      rw [receivePathWarning, hpath]
      exact messageField_eq_error (hfield _)
    rw [singlesigReceiveScript]
    change (receivePathWarning .bitcoin .p2wpkh longPath.1 >>= _) = _
    rw [hwarning]
    rfl
  · intro isChange
    have hwarning : singlesigWarning .bitcoin .p2wpkh isChange longPath.1 =
        .error (.fault .assert) := by
      have hunexpected :
          walletIsExpectedSinglesigPath .bitcoin .p2wpkh isChange longPath.1 = false := by
        cases isChange <;> rfl
      rw [singlesigWarning, hunexpected, hpath]
      exact messageField_eq_error (hfield _)
    rw [singlesigEntryScript, hwarning]
    rfl

end Jade
