/-
**The names of records (`storage.c`).**

Registered wallets and one-time password records are stored under names the user chooses.  A name is
checked, used as a key of the flash library, whose keys have at most 15 characters, and copied into
slots of 16 bytes when the records are listed.  The check lets a name of 16 characters pass.

Main definitions:

* `Jade.keyNameLoop` — the check, character by character;
* `Jade.Nvs`, `Jade.Nvs.Lawful` — the flash library and what is relied on;
* `Jade.storeRecord`, `Jade.readRecord`, `Jade.keyNameExists`, `Jade.getAllKeyNames` — the functions
  of `storage.c`;
* `Jade.NameWorks` — a record is stored under its name, listed and found again.

Main results:

* `Jade.keyNameLoop_eq` — what the check accepts;
* `Jade.nameWorks_iff` — a record works exactly under a name of at most 15 characters;
* `Jade.acceptedName_iff` — **exactly which accepted names work**.
-/

import Jade.Keychain.Storage
import Jade.Lib.CText
import Jade.Wallet.Script

set_option relaxedAutoImplicit false
set_option autoImplicit false

namespace Jade

open Exec

/-! ### The check -/

/-- The loop of `storage_key_name_valid`, with the number of characters passed. -/
def keyNameLoop : ℕ → Bytes → Bool
  | passed, [] => decide (0 < passed)
  | passed, c :: cs =>
      if NVS_KEY_NAME_MAX_SIZE ≤ passed then false
      else if !isGraph c then false
      else keyNameLoop (passed + 1) cs

theorem keyNameLoop_iff (passed : ℕ) (name : Bytes) :
    keyNameLoop passed name = true ↔
      0 < passed + name.length ∧ (name = [] ∨ passed + name.length ≤ NVS_KEY_NAME_MAX_SIZE) ∧
        name.all isGraph = true := by
  induction name generalizing passed with
  | nil => simp [keyNameLoop]
  | cons c cs ih =>
      rw [keyNameLoop]
      by_cases hlong : NVS_KEY_NAME_MAX_SIZE ≤ passed
      · rw [if_pos hlong]
        simp only [Bool.false_eq_true, List.length_cons, reduceCtorEq, false_or, false_iff]
        intro h
        omega
      · rw [if_neg hlong]
        cases hgraph : isGraph c with
        | false => simp [hgraph]
        | true =>
            simp only [Bool.not_true, Bool.false_eq_true, if_false]
            rw [ih]
            simp only [List.length_cons, List.all_cons, hgraph, Bool.true_and, reduceCtorEq, false_or]
            constructor
            · intro h
              refine ⟨by omega, ?_, h.2.2⟩
              rcases h.2.1 with rfl | hle
              · simp only [List.length_nil]
                omega
              · omega
            · intro h
              exact ⟨by omega, .inr (by omega), h.2.2⟩

/-- What the check accepts. -/
theorem keyNameLoop_eq (name : Bytes) : keyNameLoop 0 name = storageKeyNameValid name := by
  rw [Bool.eq_iff_iff, keyNameLoop_iff, storageKeyNameValid]
  cases name with
  | nil => simp
  | cons c cs => simp

/-- Names of one to sixteen graphic characters. -/
theorem storageKeyNameValid_iff (name : Bytes) :
    storageKeyNameValid name = true ↔
      1 ≤ name.length ∧ name.length ≤ 16 ∧ name.all isGraph = true := by
  rw [← keyNameLoop_eq, keyNameLoop_iff]
  cases name with
  | nil => simp
  | cons c cs => simp [NVS_KEY_NAME_MAX_SIZE]

/-! ### The flash library -/

/-- The flash library, with its state. -/
structure Nvs (S : Type) where
  /-- `nvs_open`, `nvs_set_blob` and `nvs_commit`: namespace, key, data -/
  setBlob : S → Bytes → Bytes → Bytes → Option S
  /-- `nvs_open` and `nvs_get_blob` -/
  getBlob : S → Bytes → Bytes → Option Bytes
  /-- the keys of the blobs of a namespace, as `nvs_entry_find` and `nvs_entry_next` give them -/
  entries : S → Bytes → List Bytes
  /-- there are free entries for the data -/
  HasRoom : S → Bytes → Prop

/-- What is relied on: a key has at most 15 characters, data are stored under it while there is room,
and what is stored is there. -/
structure Nvs.Lawful {S : Type} (N : Nvs S) : Prop where
  setBlob_isSome : ∀ s ns key data, 1 ≤ key.length → key.length ≤ 15 → N.HasRoom s data →
    (N.setBlob s ns key data).isSome = true
  setBlob_tooLong : ∀ s ns key data, 15 < key.length → N.setBlob s ns key data = none
  getBlob_setBlob : ∀ s ns key data s', N.setBlob s ns key data = some s' →
    N.getBlob s' ns key = some data
  mem_entries_setBlob : ∀ s ns key data s', N.setBlob s ns key data = some s' →
    key ∈ N.entries s' ns
  length_entries : ∀ s ns, ∀ key ∈ N.entries s ns, key.length ≤ 15

/-- The kinds of records with a name. -/
inductive RecordKind
  | multisig
  | descriptor
  | otp
  deriving DecidableEq, Repr

/-- `MULTISIG_NAMESPACE`, `DESCRIPTOR_NAMESPACE` and `OTP_NAMESPACE` -/
def RecordKind.namespaceName : RecordKind → Bytes
  | .multisig => ascii "MULTISIGS"
  | .descriptor => ascii "DESCRIPTORS"
  | .otp => ascii "OTP"

section Model

variable {S : Type} (N : Nvs S)

/-- `store_blob`, of `storage_set_multisig_registration`, … -/
def storeRecord (s : S) (kind : RecordKind) (name data : Bytes) : Except Fault (Option S) := do
  jadeVerify (decide (0 < data.length))
  return N.setBlob s kind.namespaceName name data

/-- `read_blob`, of `storage_get_multisig_registration`, …, into a buffer of `len` bytes -/
def readRecord (s : S) (kind : RecordKind) (name : Bytes) (len : ℕ) : Except Fault (Option Bytes) := do
  jadeVerify (decide (0 < len))
  return (N.getBlob s kind.namespaceName name).filter fun data => data.length ≤ len

/-- `key_name_exists`, of `storage_multisig_name_exists`, … -/
def keyNameExists (s : S) (kind : RecordKind) (name : Bytes) : Bool :=
  (N.entries s kind.namespaceName).any (· == name)

/-- `strcpy` into a slot of the list: the characters and their NUL. -/
def copyToSlot (key : Bytes) : Except Fault Bytes := do
  let slot ← put NVS_KEY_NAME_MAX_SIZE [] (key ++ [0])
  return slot.cstr

/-- `get_all_key_names`, of `storage_get_all_multisig_registration_names`, … -/
def getAllKeyNames (s : S) (kind : RecordKind) (numNames : ℕ) : Except Fault (List Bytes) := do
  jadeVerify (decide (0 < numNames))
  ((N.entries s kind.namespaceName).take numNames).mapM copyToSlot

/-- A record is stored under its name, which is then among the names listed, whole, into slots enough;
and the record is found under it, by whoever has a buffer for it. -/
def NameWorks (s : S) (kind : RecordKind) (name data : Bytes) : Prop :=
  ∃ s', storeRecord N s kind name data = .ok (some s') ∧
    keyNameExists N s' kind name = true ∧
    (∀ numNames, 0 < numNames → ∃ names, getAllKeyNames N s' kind numNames = .ok names ∧
      ((N.entries s' kind.namespaceName).length ≤ numNames → name ∈ names)) ∧
    ∀ len, data.length ≤ len → readRecord N s' kind name len = .ok (some data)

variable {N}

/-! ### Listing -/

theorem copyToSlot_eq {key : Bytes} (hlen : key.length ≤ 15) :
    copyToSlot key = .ok (Bytes.cstr (key ++ [0])) := by
  rw [copyToSlot, put_eq_ok]
  · rfl
  · simp only [List.length_nil, List.length_append, List.length_singleton, NVS_KEY_NAME_MAX_SIZE]
    omega

theorem mapM_copyToSlot {keys : List Bytes} (hlen : ∀ key ∈ keys, key.length ≤ 15) :
    keys.mapM copyToSlot = .ok (keys.map fun key => Bytes.cstr (key ++ [0])) := by
  induction keys with
  | nil => rfl
  | cons key keys ih =>
      rw [List.mapM_cons, copyToSlot_eq (hlen key List.mem_cons_self), ok_bind,
        ih fun k hk => hlen k (List.mem_cons_of_mem _ hk)]
      rfl

/-- No listing writes past a slot. -/
theorem getAllKeyNames_eq (hN : N.Lawful) (s : S) (kind : RecordKind) {numNames : ℕ}
    (hpos : 0 < numNames) :
    getAllKeyNames N s kind numNames = .ok
      (((N.entries s kind.namespaceName).take numNames).map fun key => Bytes.cstr (key ++ [0])) := by
  rw [getAllKeyNames, jadeVerify_bind (decide_eq_true hpos)]
  exact mapM_copyToSlot fun key hkey => hN.length_entries s _ key (List.mem_of_mem_take hkey)

/-! ### Storing, listing and finding -/

/-- A record works exactly under a name of at most 15 characters. -/
theorem nameWorks_iff (hN : N.Lawful) {s : S} {kind : RecordKind} {name data : Bytes}
    (hpos : 1 ≤ name.length) (hnul : (0 : UInt8) ∉ name) (hdata : 0 < data.length)
    (hroom : N.HasRoom s data) : NameWorks N s kind name data ↔ name.length ≤ 15 := by
  constructor
  · intro h
    obtain ⟨s', hstore, -⟩ := h
    by_contra hlong
    rw [storeRecord, jadeVerify_bind (decide_eq_true hdata),
      hN.setBlob_tooLong s _ name data (by omega)] at hstore
    cases hstore
  · intro hle
    obtain ⟨s', hs'⟩ := Option.isSome_iff_exists.1
      (hN.setBlob_isSome s kind.namespaceName name data hpos hle hroom)
    have hmem := hN.mem_entries_setBlob _ _ _ _ _ hs'
    refine ⟨s', ?_, ?_, ?_, ?_⟩
    · rw [storeRecord, jadeVerify_bind (decide_eq_true hdata), hs']
      rfl
    · exact List.any_eq_true.2 ⟨name, hmem, beq_self_eq_true name⟩
    · intro numNames hnum
      refine ⟨_, getAllKeyNames_eq hN s' kind hnum, ?_⟩
      intro hslots
      rw [List.take_of_length_le hslots]
      exact List.mem_map.2 ⟨name, hmem, cstr_append_nul hnul⟩
    · intro len hlen
      rw [readRecord, jadeVerify_bind (decide_eq_true (by omega)),
        hN.getBlob_setBlob _ _ _ _ _ hs']
      simp [Option.filter, hlen, pure, Except.pure]

/-! ### A flash library -/

/-- A store of records by namespace and key, whose keys have at most 15 characters. -/
def ToyStore : Type := { entries : List ((Bytes × Bytes) × Bytes) // ∀ e ∈ entries, e.1.2.length ≤ 15 }

/-- The new record comes first; there is room for 378 of them. -/
def toyNvs : Nvs ToyStore where
  setBlob s ns key data :=
    if h : key.length ≤ 15 then
      if s.1.length < 378 then
        some ⟨((ns, key), data) :: s.1.filter (·.1 ≠ (ns, key)), by
          intro e he
          rcases List.mem_cons.1 he with rfl | he
          · exact h
          · exact s.2 e (List.mem_of_mem_filter he)⟩
      else none
    else none
  getBlob s ns key := (s.1.find? (·.1 = (ns, key))).map Prod.snd
  entries s ns := (s.1.filter (·.1.1 = ns)).map (·.1.2)
  HasRoom s _ := s.1.length < 378

theorem toyNvs_lawful : toyNvs.Lawful where
  setBlob_isSome s ns key data _ hlen hroom := by
    simp only [toyNvs] at hroom ⊢
    rw [dif_pos hlen, if_pos hroom]
    rfl
  setBlob_tooLong s ns key data hlen := dif_neg (by omega)
  getBlob_setBlob s ns key data s' h := by
    simp only [toyNvs] at h ⊢
    split_ifs at h
    obtain rfl := Option.some.inj h
    simp
  mem_entries_setBlob s ns key data s' h := by
    simp only [toyNvs] at h ⊢
    split_ifs at h
    obtain rfl := Option.some.inj h
    simp
  length_entries s ns key h := by
    obtain ⟨e, he, rfl⟩ := List.mem_map.1 h
    exact s.2 e (List.mem_of_mem_filter he)

/-- Sixteen letters. -/
def longName : Bytes := List.replicate 16 97

/-- The name is accepted, and nothing is stored under it. -/
theorem longName_accepted :
    ¬ (storageKeyNameValid longName = true →
      NameWorks toyNvs ⟨[], by simp⟩ .multisig longName [1]) := by
  intro h
  have hle := (nameWorks_iff toyNvs_lawful (by decide) (by decide) (by decide)
    (by show 0 < 378; decide)).1 (h (by decide))
  exact absurd hle (by decide)

/-! ### The result -/

/-- **Exactly which accepted names work.**  An accepted name, under which a record is then stored, listed
whole and found again, and has at most 15 graphic characters: this holds of every name but those of
exactly 16 graphic characters, which are accepted although no record can be stored under them. -/
theorem acceptedName_iff (hN : N.Lawful) (s : S) (kind : RecordKind) {name data : Bytes}
    (hnul : (0 : UInt8) ∉ name) (hdata : 0 < data.length) (hroom : N.HasRoom s data) :
    ((storageKeyNameValid name = true → NameWorks N s kind name data) ∧
      (storageKeyNameValid name = true ↔
        1 ≤ name.length ∧ name.length ≤ 15 ∧ name.all isGraph = true)) ↔
      ¬ (name.length = 16 ∧ name.all isGraph = true) := by
  rw [storageKeyNameValid_iff]
  constructor
  · intro h hlong
    have hle := (h.2.1 ⟨by omega, by omega, hlong.2⟩).2.1
    omega
  · intro hshort
    have hle : 1 ≤ name.length ∧ name.length ≤ 16 ∧ name.all isGraph = true →
        name.length ≤ 15 := by
      intro h
      have hne : name.length ≠ 16 := fun hlen => hshort ⟨hlen, h.2.2⟩
      omega
    refine ⟨fun h => (nameWorks_iff hN h.1 hnul hdata hroom).2 (hle h), ?_⟩
    constructor
    · intro h
      exact ⟨h.1, hle h, h.2.2⟩
    · intro h
      exact ⟨h.1, by omega, h.2.2⟩

/-- Fifteen letters. -/
theorem acceptedName_iff_fifteen :
    ((0 : UInt8) ∉ List.replicate 15 97 ∧ 0 < [(1 : UInt8)].length ∧
      toyNvs.HasRoom ⟨[], by simp⟩ [1]) ∧
    (storageKeyNameValid (List.replicate 15 97) = true →
      NameWorks toyNvs ⟨[], by simp⟩ .otp (List.replicate 15 97) [1]) :=
  ⟨⟨by decide, by decide, by show 0 < 378; decide⟩,
    ((acceptedName_iff toyNvs_lawful ⟨[], by simp⟩ .otp (by decide) (by decide)
      (by show 0 < 378; decide)).2 (by decide)).1⟩

end Model

end Jade
