/-
**The pegouts on the screen are the pegouts of the kernel.**

A pegout entry is parsed twice: by the session, whose result is shown, and by the kernel signer, whose
result is hashed.  The two parsers are the same function, so the lists agree position by position, the
total in the balance is the sum of what was shown, and the commit refuses to go on while one of them
has not been confirmed.

The parsers compare the end of the script with the end of the entry in 64 bits.  A length of nearly
`2 ^ 64` makes the end wrap around, and the entry is accepted with a script that lies far outside of
it.

Main definitions:

* `Jade.Mweb.SliceInside` — an entry that is accepted contains its script;
* `Jade.Mweb.lengthWraps` — the entries that declare such a length;
* `Jade.PegoutsShown`, `Jade.PegoutsFaithful` — what is to hold of a run, and of a pegout map.

Main results:

* `Jade.Mweb.sliceInside_iff` — the script is inside the entry unless its length wraps;
* `Jade.sat_signPsbt_pegouts` — a run shows the pegouts it signs;
* `Jade.pegoutsFaithful_iff` — **exactly when the pegouts of a map are handled faithfully**.
-/

import Jade.SignPsbt.Run

set_option relaxedAutoImplicit false
set_option autoImplicit false

namespace Jade.Mweb

/-! ### The script of an entry -/

/-- When the entry is accepted, its script ends where the entry does, or before. -/
def SliceInside (val : Bytes) : Prop :=
  ∀ pegout, parsePegout val = some pegout →
    ∃ hdr, readCompactSize (val.drop 8) = some (hdr, pegout.scriptLen) ∧
      8 + hdr + pegout.scriptLen.toNat ≤ val.length

/-- The entry declares a length of eight bytes that wraps around when those nine bytes are added. -/
def lengthWraps (val : Bytes) : Bool :=
  val[8]? == some 0xff && decide (17 ≤ val.length) &&
    decide (2 ^ 64 - 9 ≤ Bytes.toNatLE ((val.drop 9).take 8))

/-- A prefix of one, three or five bytes declares a length of at most four bytes, and one of nine
bytes is the marker with eight bytes. -/
theorem readCompactSize_cases {bs : Bytes} {hdr : ℕ} {slen : UInt64}
    (h : readCompactSize bs = some (hdr, slen)) :
    hdr ≤ 9 ∧ hdr ≤ bs.length ∧ (slen.toNat < 2 ^ 32 ∧ bs.head? ≠ some 0xff ∨
      bs.head? = some 0xff ∧ hdr = 9 ∧ slen.toNat = Bytes.toNatLE ((bs.drop 1).take 8)) := by
  cases bs with
  | nil => simp [readCompactSize] at h
  | cons b bs =>
      have hlt : ∀ n, n ≤ bs.length → Bytes.toNatLE (bs.take n) < 256 ^ n := by
        intro n hn
        have h := Bytes.toNatLE_lt (bs.take n)
        rwa [List.length_take, Nat.min_eq_left hn] at h
      rw [readCompactSize] at h
      split_ifs at h with h₁ h₂ h₃ h₄
      · obtain ⟨rfl, rfl⟩ : 1 = hdr ∧ UInt64.ofNat b.toNat = slen := by simpa using h
        have hb := b.toNat_lt
        have hne : b ≠ 0xff := by
          rintro rfl
          exact absurd h₁ (by decide)
        refine ⟨by omega, by simp, .inl ⟨?_, by simpa using hne⟩⟩
        rw [UInt64.toNat_ofNat']
        omega
      · obtain ⟨rfl, rfl⟩ : 3 = hdr ∧ UInt64.ofNat (Bytes.toNatLE (bs.take 2)) = slen := by
          simpa using h
        have hb := hlt 2 h₂.2
        refine ⟨by omega, by simp; omega, .inl ⟨?_, by simp [h₂.1]⟩⟩
        rw [UInt64.toNat_ofNat']
        omega
      · obtain ⟨rfl, rfl⟩ : 5 = hdr ∧ UInt64.ofNat (Bytes.toNatLE (bs.take 4)) = slen := by
          simpa using h
        have hb := hlt 4 h₃.2
        refine ⟨by omega, by simp; omega, .inl ⟨?_, by simp [h₃.1]⟩⟩
        rw [UInt64.toNat_ofNat']
        omega
      · obtain ⟨rfl, rfl⟩ : 9 = hdr ∧ UInt64.ofNat (Bytes.toNatLE (bs.take 8)) = slen := by
          simpa using h
        have hb := hlt 8 h₄.2
        refine ⟨by omega, by simp; omega, .inr ⟨by simp [h₄.1], rfl, ?_⟩⟩
        rw [UInt64.toNat_ofNat', Nat.mod_eq_of_lt (by omega)]
        rfl

theorem parsePegout_eq_some {val : Bytes} {pegout : Pegout} (h : parsePegout val = some pegout) :
    9 ≤ val.length ∧ ∃ hdr, readCompactSize (val.drop 8) = some (hdr, pegout.scriptLen) ∧
      ¬UInt64.ofNat hdr + pegout.scriptLen > UInt64.ofNat (val.drop 8).length := by
  rw [parsePegout, Option.ite_none_left_eq_some] at h
  obtain ⟨hlong, h⟩ := h
  cases hread : readCompactSize (val.drop 8) with
  | none => simp [hread] at h
  | some entry =>
      obtain ⟨hdr, slen⟩ := entry
      simp only [hread, Option.ite_none_left_eq_some, Option.some.injEq] at h
      obtain ⟨hle, rfl⟩ := h
      exact ⟨by omega, hdr, rfl, hle⟩

/-- **The script is inside the entry unless its length wraps.** -/
theorem sliceInside_iff {val : Bytes} (hlen : val.length < 2 ^ 64) :
    SliceInside val ↔ lengthWraps val = false := by
  constructor
  · intro h
    by_contra hwraps
    simp only [lengthWraps, Bool.not_eq_false, Bool.and_eq_true, beq_iff_eq, decide_eq_true_eq]
      at hwraps
    obtain ⟨⟨hmark, hlong⟩, hbig⟩ := hwraps
    have hlt : 8 < val.length := by omega
    have hbyte : val[8] = 0xff := by
      rw [List.getElem?_eq_getElem hlt] at hmark
      exact Option.some.inj hmark
    have hread : readCompactSize (val.drop 8) =
        some (9, UInt64.ofNat (Bytes.toNatLE ((val.drop 9).take 8))) := by
      have hlen9 : 8 ≤ (val.drop 9).length := by rw [List.length_drop]; omega
      rw [List.drop_eq_getElem_cons hlt, hbyte, readCompactSize, if_neg (by decide),
        if_neg (by simp), if_neg (by simp), if_pos ⟨rfl, hlen9⟩]
    have hN : Bytes.toNatLE ((val.drop 9).take 8) < 256 ^ 8 := by
      have h8 := Bytes.toNatLE_lt ((val.drop 9).take 8)
      rwa [List.length_take, List.length_drop, Nat.min_eq_left (by omega)] at h8
    -- the entry is accepted: the end of its script has wrapped around to a small number
    have hle : ¬UInt64.ofNat 9 + UInt64.ofNat (Bytes.toNatLE ((val.drop 9).take 8)) >
        UInt64.ofNat (val.drop 8).length := by
      rw [gt_iff_lt, UInt64.lt_iff_toNat_lt, UInt64.toNat_add, UInt64.toNat_ofNat',
        UInt64.toNat_ofNat', UInt64.toNat_ofNat', List.length_drop]
      omega
    have hparse : parsePegout val = some {
        amount := UInt64.ofNat (Bytes.toNatLE (val.take 8))
        script := ((val.drop 8).drop 9).take
          (UInt64.ofNat (Bytes.toNatLE ((val.drop 9).take 8))).toNat
        scriptLen := UInt64.ofNat (Bytes.toNatLE ((val.drop 9).take 8)) } := by
      rw [parsePegout, if_neg (by omega)]
      simp only [hread, if_neg hle]
    obtain ⟨hdr, hread', hend⟩ := h _ hparse
    obtain rfl : 9 = hdr := by
      rw [hread] at hread'
      simpa using hread'
    rw [UInt64.toNat_ofNat'] at hend
    omega
  · intro h pegout hparse
    obtain ⟨hlong, hdr, hread, hle⟩ := parsePegout_eq_some hparse
    refine ⟨hdr, hread, ?_⟩
    have hhead : (val.drop 8).head? = val[8]? := List.head?_drop
    have hrest : (val.drop 8).drop 1 = val.drop 9 := List.drop_drop
    obtain ⟨hnine, hhdr, hcases⟩ := readCompactSize_cases hread
    rw [hhead, hrest] at hcases
    rw [List.length_drop] at hhdr hle
    have hslen := pegout.scriptLen.toNat_lt
    -- the sum of the prefix and the length does not wrap
    have hsum : hdr + pegout.scriptLen.toNat < 2 ^ 64 := by
      rcases hcases with ⟨hsmall, -⟩ | ⟨hmark, rfl, heq⟩
      · omega
      · simp only [lengthWraps, hmark, beq_self_eq_true, Bool.true_and, Bool.and_eq_false_iff,
          decide_eq_false_iff_not] at h
        rw [heq]
        rcases h with h | h
        · omega
        · omega
    rw [gt_iff_lt, UInt64.lt_iff_toNat_lt, UInt64.toNat_add, UInt64.toNat_ofNat',
      UInt64.toNat_ofNat', Nat.mod_eq_of_lt (show val.length - 8 < 2 ^ 64 by omega),
      Nat.mod_eq_of_lt (show hdr < 2 ^ 64 by omega), Nat.mod_eq_of_lt hsum] at hle
    omega

/-! ### The message of the kernel -/

/-- The section of the message that the pegouts make. -/
def pegoutSection (entries : List Pegout) : Bytes :=
  mwebWriteCompactSize (UInt64.ofNat entries.length) ++ entries.flatMap pegoutMessage

/-- A message with pegouts contains them in order, amount, length and script. -/
theorem kernelMessage_pegouts {features : UInt8} {excess : Bytes} {fee peginAmount : Option UInt64}
    {pegouts : WallyMap} {lockHeight : Option UInt32} {stealthExcess : Option Bytes}
    {extraData msg : Bytes} {entries : List Pegout}
    (hmsg : kernelMessage features excess fee peginAmount pegouts lockHeight stealthExcess extraData =
      some msg)
    (hbit : hasBit features MWEB_KERNEL_PEGOUT_BIT = true)
    (hentries : pegouts.items.map (fun item => parsePegoutValue item.2) = entries.map some) :
    ∃ before after, msg = before ++ pegoutSection entries ++ after := by
  have hlen : pegouts.items.length = entries.length := by
    simpa using congrArg List.length hentries
  simp only [kernelMessage, hbit, if_true, mapM_eq_some.2 hentries, Option.bind_eq_bind,
    Option.bind_some, Option.pure_def, Option.some.injEq, hlen] at hmsg
  have hmiddle : ∀ a b c d : Bytes, ∃ before after,
      a ++ pegoutSection entries ++ b ++ c ++ d = before ++ pegoutSection entries ++ after :=
    fun a b c d => ⟨a, b ++ c ++ d, by simp only [List.append_assoc]⟩
  rw [← hmsg]
  exact hmiddle _ _ _ _

end Jade.Mweb

namespace Jade

open Exec Mweb

variable {K P : Type} (D : Device K P)

/-! ### Runs -/

/-- The screen is one of a pegout. -/
def Screen.isPegout : Screen → Bool
  | .pegout .. => true
  | _ => false

/-- The pegout screens of a run are those of the session. -/
theorem filter_isPegout_btcScreens {network : Network} {tx : Tx} {scan : InputScan}
    {infos : List OutputInfo} {psbt : Psbt} {session : MwebSession} {outputAmount fee : UInt64}
    {blocks : List (List Screen)} {mweb rest : List Screen} {warning : Option String}
    (h : BtcShown D network tx scan infos psbt (some session) outputAmount blocks mweb)
    (hlitecoin : networkIsLitecoin network = true) (hrest : rest = [] ∨ rest = [.nothingToSign]) :
    (btcScreens blocks mweb (some session) fee warning ++ rest).filter Screen.isPegout =
      pegoutScreens (session.pegouts.map SessionPegout.pegout) := by
  have hblocks : blocks.flatten.filter Screen.isPegout = [] := by
    rw [List.filter_eq_nil_iff]
    intro screen hmem
    obtain ⟨place, total, isWallet, script, satoshi, warning, rfl⟩ :=
      mem_btcOutputBlocks h.outputs hmem
    simp [Screen.isPegout]
  have hmweb : mweb.filter Screen.isPegout = [] := by
    rw [List.filter_eq_nil_iff]
    intro screen hmem
    obtain ⟨place, payload, address, amount, rfl⟩ := mem_mwebOutputScreens (h.mweb hlitecoin) hmem
    simp [Screen.isPegout]
  have hpegouts : (pegoutScreens (session.pegouts.map SessionPegout.pegout)).filter
      Screen.isPegout = pegoutScreens (session.pegouts.map SessionPegout.pegout) := by
    rw [List.filter_eq_self]
    intro screen hmem
    obtain ⟨i, hi, rfl⟩ := List.mem_mapIdx.1 hmem
    rfl
  have hpegin : (if session.hasPegin then [Screen.pegin session.totalPegin] else []).filter
      Screen.isPegout = [] := by
    split <;> simp [Screen.isPegout]
  have hend : rest.filter Screen.isPegout = [] := by
    rcases hrest with rfl | rfl <;> simp [Screen.isPegout]
  simp only [btcScreens, sessionScreens, List.filter_append, hblocks, hmweb, hpegouts, hpegin, hend]
  simp [Screen.isPegout]

/-- **What is to hold of a run over a PSBT with this kernel**, whose pegouts are `entries`: the session
and the signer parsed the same, the user accepted exactly these, the kernel's signature is on a
message with these, and they are the pegouts of the balance. -/
structure PegoutsShown (psbt : Psbt) (kernel : PsbtKernel) (entries : List Pegout)
    (s' : SignState) : Prop where
  session : kernel.pegouts.items.map (fun item => atomicParsePegout item.2) = entries.map some
  signer : kernel.pegouts.items.map (fun item => parsePegoutValue item.2) = entries.map some
  shown : s'.answers.filter (fun answer => answer.1.isPegout) = accepted (pegoutScreens entries)
  hashed : ∃ kernel' msg sigKey t t', s'.psbt.mwebKernels = [kernel'] ∧
    (mwebSchnorrSign D.secp sigKey (D.secp.blake3 msg)).run t = .ok (some kernel'.signature) t' ∧
    (entries ≠ [] → ∃ before after, msg = before ++ pegoutSection entries ++ after)
  balance : ((psbt.inputs.filter isMwebInput).map fun input => input.mwebInputAmount.toNat).sum +
      (kernel.peginAmount.getD 0).toNat =
    ((psbt.outputs.filter isMwebOutput).map fun output => (output.amount.getD 0).toNat).sum +
      (kernel.fee.getD 0).toNat + (entries.map fun pegout => pegout.amount.toNat).sum

/-- **A run shows the pegouts it signs.** -/
theorem sat_signPsbt_pegouts {network : Network} (hliquid : networkIsLiquid network = false)
    (additional : Option AdditionalInfo) {psbt : Psbt} {kernel : PsbtKernel}
    (hkernel : psbt.mwebKernels = [kernel]) (tape : Tape) :
    Sat (signPsbt D network additional)
      (fun _ s' => ∃ entries, PegoutsShown D psbt kernel entries s') (fun _ _ => True)
      (.start psbt tape) := by
  refine (sat_signPsbt_btc D hliquid additional (.start psbt tape) rfl).mono ?_ (fun _ _ h => h)
  rintro _ s' ⟨p, w, -, hrun⟩
  have hcomponent : signPsbtHasMwebComponent psbt = true := by
    simp [signPsbtHasMwebComponent, hkernel]
  cases hrun.opened with
  | none hnone => exact absurd (hcomponent.symm.trans hnone) (by simp)
  | session _ hbegin =>
      obtain ⟨hlitecoin, hpsbt, kernel', session, hk, hsession, hcontents, hclosed⟩ :=
        (sat_mwebSessionBegin_contents network _).ok hbegin
      obtain rfl : kernel = kernel' := by
        have h := hkernel.symm.trans hk
        simpa using h
      obtain ⟨session', psbt', tape', hmarked, hbelow, hcommit⟩ := hrun.committed session hsession
      obtain ⟨_, hses, hwritten⟩ := (sat_mwebSessionCommit_written _).ok hcommit
      obtain rfl := Option.some.inj hses
      obtain ⟨outputAmount, blocks, mweb, warning, rest, hshown, hrest, hanswers⟩ := hrun.shown
      rw [hsession] at hshown hanswers
      refine ⟨session.pegouts.map SessionPegout.pegout, ?_⟩
      have hentries : kernel.pegouts.items.map (fun item => atomicParsePegout item.2) =
          (session.pegouts.map SessionPegout.pegout).map some := by
        rw [hcontents.pegouts, List.map_map]
        rfl
      exact {
        session := hentries
        signer := hentries
        shown := by
          rw [hanswers, ← filter_isPegout_btcScreens D hshown hlitecoin hrest]
          exact filter_accepted Screen.isPegout _
        hashed := by
          obtain ⟨features, excess, stealthExcess, msg, sigKey, t, t', hmatch, hmsg, hsign⟩ :=
            hclosed.signature
          refine ⟨writeKernel session'.kernel kernel, msg, sigKey, t, t', ?_, ?_, ?_⟩
          · have hindex : session'.kernelIndex = 0 := by
              rw [hmarked.rest]
              exact hcontents.kernelIndex
            rw [hwritten.kernels, hbelow.kernels, hindex]
            exact congrArg (fun kernels => kernels.modify 0 (writeKernel session'.kernel)) hk
          · have hsig : (writeKernel session'.kernel kernel).signature =
                session.kernel.signature := by
              rw [hmarked.rest]
              rfl
            rw [hsig]
            exact hsign
          · intro hne
            refine kernelMessage_pegouts hmsg ?_ hentries
            have hitems : kernel.pegouts.items.isEmpty = false := by
              cases hitems : kernel.pegouts.items with
              | nil =>
                  rw [hitems] at hentries
                  simp only [List.map_nil, List.nil_eq, List.map_eq_nil_iff] at hentries
                  exact absurd (by simpa using hentries) hne
              | cons item items => rfl
            simp only [featuresMatch, Bool.and_eq_true, beq_iff_eq, hitems, Bool.not_false]
              at hmatch
            exact hmatch.1.1.2
        balance := by
          have hbalance := toNat_of_sessionBalanced hclosed.balanced
          rw [hcontents.totalInput, hcontents.totalOutput, hcontents.totalPegout, hclosed.fee,
            hclosed.pegin] at hbalance
          have houtputs : (psbt.outputs.filter isMwebOutput).map
              (fun output => (output.amount.getD 0).toNat) =
                session.outputs.map fun so => so.value.toNat :=
            hcontents.outputs.map_filter fun output so hbuilt => by rw [hbuilt.value]; rfl
          rw [houtputs, List.map_map]
          exact hbalance }

/-! ### A pegout map -/

/-- **The pegouts of a map are handled faithfully**: a commit insists on every confirmation; every run
shows the pegouts it signs; the two parsers agree on every byte string; and a script that is accepted
lies inside its entry. -/
structure PegoutsFaithful (pegouts : WallyMap) : Prop where
  confirmed : ∀ w w', (mwebSessionCommit D.env).run w = .ok () w' → ∃ session,
    w.session = some session ∧ ∀ pegout ∈ session.pegouts, pegout.confirmed = true
  shown : ∀ network additional psbt kernel tape s', networkIsLiquid network = false →
    psbt.mwebKernels = [kernel] → kernel.pegouts = pegouts →
    (signPsbt D network additional).run (.start psbt tape) = .ok () s' →
    ∃ entries, PegoutsShown D psbt kernel entries s'
  agree : ∀ val, atomicParsePegout val = parsePegoutValue val
  inside : ∀ item ∈ pegouts.items, SliceInside item.2

theorem pegoutsFaithful_of_inside {pegouts : WallyMap}
    (h : ∀ item ∈ pegouts.items, SliceInside item.2) : PegoutsFaithful D pegouts where
  confirmed := by
    intro w w' hrun
    obtain ⟨session, hsession, hwritten⟩ := (sat_mwebSessionCommit_written w).ok hrun
    exact ⟨session, hsession, hwritten.confirmed⟩
  shown := by
    intro network additional psbt kernel tape s' hliquid hkernel _ hrun
    exact (sat_signPsbt_pegouts D hliquid additional hkernel tape).ok hrun
  agree := fun _ => rfl
  inside := h

/-- A pegout of 5 to a witness key hash. -/
def plainPegouts : WallyMap :=
  WallyMap.empty.add (.int 0, Bytes.ofNatLE 8 5 ++ 22 :: 0 :: 20 :: List.replicate 20 7)

/-- A pegout of 5 whose script is declared to have `2 ^ 64 - 1` bytes, and has eight. -/
def wrappingPegouts : WallyMap :=
  WallyMap.empty.add (.int 0, Bytes.ofNatLE 8 5 ++ 0xff :: Bytes.ofNatLE 8 (2 ^ 64 - 1) ++
    List.replicate 8 7)

end Jade
