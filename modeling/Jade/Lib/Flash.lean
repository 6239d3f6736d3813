/-
**A key/value store whose commits can be refused or cut by a power loss.**

The persistent memory of a device is a key/value store, and a commit changes one record, or several
at once.  Commits are atomic: each either takes effect or does not.  Between any two of them the device may lose
power, which discards everything held in volatile memory and keeps the store; the next thing that
runs is then the boot code.

A program of the device is an `EStateM` computation over the store, the volatile memory and a
*schedule*, the list of the fates of the commits it is going to make.  Losing power is an
exception, and so is a failed assertion, which restarts the device as well.  A log that nothing
can read keeps the history: every commit that took effect, in the same step, and the events the
program notes.

Main definitions:

* `Flash.Fate`, `Flash.Stop`, `Flash.Entry`, `Flash.Dev` — the fate of a commit, the two ways a
  program is stopped, an entry of the log, and the device;
* `Flash.write`, `Flash.erase`, `Flash.transaction`, `Flash.read`, `Flash.note` — the operations of
  the store and of the log;
* `Flash.runOp` — one operation under a schedule, followed by a restart when it was stopped.

Main results:

* `Flash.sat_commit`, `Flash.sat_transaction`, `Flash.sat_commit_result` — the rules for a commit: one obligation for each
  fate, and what a commit that returns has done;
* `Flash.keeps_commit`, `Flash.keeps_modifyRam`, … — the same for a predicate of the store and
  the log alone;
* `Flash.runOp_of_sat` — what an operation leaves behind, the restart included;
* `Flash.runOp_stable` — such a predicate survives an operation, the restart included, when the
  operation and the boot code keep it.
-/

import Jade.Lib.Exec

set_option relaxedAutoImplicit false
set_option autoImplicit false

namespace Flash

open Exec

/-! ### The device -/

/-- What becomes of a commit: it takes effect, the store refuses it, or the power is lost just
before or just after it takes effect. -/
inductive Fate
  | done
  | refused
  | cutBefore
  | cutAfter
  deriving DecidableEq, Repr

/-- Why a program stopped before its end. -/
inductive Stop
  | power
  | assert
  deriving DecidableEq, Repr

/-- The contents of the persistent memory. -/
abbrev Store (K : Type) : Type := K → Option (List UInt8)

/-- An entry of the log: a commit that took effect, or an event noted by the program. -/
inductive Entry (K γ : Type)
  | wrote (k : K) (v : Option (List UInt8))
  | event (e : γ)
  deriving DecidableEq, Repr

/-- The device: the store, the volatile memory, the fates of the commits to come and the log. -/
structure Dev (K ρ γ : Type) where
  store : Store K
  ram : ρ
  fates : List Fate
  log : List (Entry K γ)

/-- A program of the device. -/
abbrev Prog (K ρ γ α : Type) : Type := EStateM Stop (Dev K ρ γ) α

variable {K ρ γ α : Type}

/-- The fate of the next commit; commits beyond the schedule take effect. -/
def Dev.fate (d : Dev K ρ γ) : Fate := d.fates.headD .done

/-- The device after the record at `k` has become `v`. -/
def Dev.put [DecidableEq K] (d : Dev K ρ γ) (k : K) (v : Option (List UInt8)) : Dev K ρ γ :=
  { d with store := Function.update d.store k v, log := d.log ++ [.wrote k v] }

/-- Change one record atomically; the result says whether the change was accepted. -/
def commit [DecidableEq K] (k : K) (v : Option (List UInt8)) : Prog K ρ γ Bool := fun d =>
  let d' := { d with fates := d.fates.tail }
  match d.fate with
  | .done => .ok true (d'.put k v)
  | .refused => .ok false d'
  | .cutBefore => .error .power d'
  | .cutAfter => .error .power (d'.put k v)

/-- Set the record at `k`. -/
def write [DecidableEq K] (k : K) (v : List UInt8) : Prog K ρ γ Bool := commit k (some v)

/-- Remove the record at `k`. -/
def erase [DecidableEq K] (k : K) : Prog K ρ γ Bool := commit k none

/-- The device after several records have changed. -/
def Dev.putAll [DecidableEq K] (d : Dev K ρ γ) (kvs : List (K × Option (List UInt8))) : Dev K ρ γ :=
  kvs.foldl (fun d kv => d.put kv.1 kv.2) d

/-- Change several records in one commit: all of them, or none. -/
def transaction [DecidableEq K] (kvs : List (K × Option (List UInt8))) : Prog K ρ γ Bool := fun d =>
  let d' := { d with fates := d.fates.tail }
  match d.fate with
  | .done => .ok true (d'.putAll kvs)
  | .refused => .ok false d'
  | .cutBefore => .error .power d'
  | .cutAfter => .error .power (d'.putAll kvs)

/-- The record at `k`. -/
def read (k : K) : Prog K ρ γ (Option (List UInt8)) := do
  return (← get).store k

/-- Append an event to the log. -/
def note (e : γ) : Prog K ρ γ PUnit :=
  modify fun d => { d with log := d.log ++ [.event e] }

/-- The volatile memory. -/
def getRam : Prog K ρ γ ρ := do
  return (← get).ram

/-- Change the volatile memory. -/
def modifyRam (f : ρ → ρ) : Prog K ρ γ PUnit := modify fun d => { d with ram := f d.ram }

/-- Restart the device unless the condition holds. -/
def assert (c : Bool) : Prog K ρ γ Unit := check c .assert

@[simp] theorem Dev.putAll_ram [DecidableEq K] (d : Dev K ρ γ)
    (kvs : List (K × Option (List UInt8))) : (d.putAll kvs).ram = d.ram := by
  induction kvs generalizing d with
  | nil => rfl
  | cons kv kvs ih => exact ih (d.put kv.1 kv.2)

/-! ### The rules of the operations -/

section Rules

variable {E : Stop → Dev K ρ γ → Prop} {d : Dev K ρ γ}

/-- The rule for a commit: one obligation for each fate. -/
theorem sat_commit [DecidableEq K] {Q : Bool → Dev K ρ γ → Prop} (k : K)
    (v : Option (List UInt8)) :
    Sat (commit k v) Q E d ↔
      (d.fate = .done → Q true ({ d with fates := d.fates.tail }.put k v)) ∧
      (d.fate = .refused → Q false { d with fates := d.fates.tail }) ∧
      (d.fate = .cutBefore → E .power { d with fates := d.fates.tail }) ∧
      (d.fate = .cutAfter → E .power ({ d with fates := d.fates.tail }.put k v)) := by
  simp only [sat_iff, EStateM.run, commit]
  cases d.fate <;> simp

/-- The rule for several records in one commit. -/
theorem sat_transaction [DecidableEq K] {Q : Bool → Dev K ρ γ → Prop}
    (kvs : List (K × Option (List UInt8))) :
    Sat (transaction kvs) Q E d ↔
      (d.fate = .done → Q true ({ d with fates := d.fates.tail }.putAll kvs)) ∧
      (d.fate = .refused → Q false { d with fates := d.fates.tail }) ∧
      (d.fate = .cutBefore → E .power { d with fates := d.fates.tail }) ∧
      (d.fate = .cutAfter → E .power ({ d with fates := d.fates.tail }.putAll kvs)) := by
  simp only [sat_iff, EStateM.run, transaction]
  cases d.fate <;> simp

/-- What a commit that returns has done; only a power loss keeps it from returning. -/
theorem sat_commit_result [DecidableEq K] (k : K) (v : Option (List UInt8)) :
    Sat (commit k v) (fun ok d' => d'.ram = d.ram ∧
        (ok = true → d'.store = Function.update d.store k v ∧ d'.log = d.log ++ [.wrote k v]) ∧
        (ok = false → d'.store = d.store ∧ d'.log = d.log))
      (fun stop _ => stop = .power) d := by
  refine (sat_commit k v).2 ⟨fun _ => ?_, fun _ => ?_, fun _ => rfl, fun _ => rfl⟩
  · exact ⟨rfl, fun _ => ⟨rfl, rfl⟩, fun h => by simp at h⟩
  · exact ⟨rfl, fun h => by simp at h, fun _ => ⟨rfl, rfl⟩⟩

@[simp] theorem sat_read {Q : Option (List UInt8) → Dev K ρ γ → Prop} (k : K) :
    Sat (read k) Q E d ↔ Q (d.store k) d := sat_iff

@[simp] theorem sat_note {Q : PUnit → Dev K ρ γ → Prop} (e : γ) :
    Sat (note e) Q E d ↔ Q ⟨⟩ { d with log := d.log ++ [.event e] } := sat_iff

@[simp] theorem sat_getRam {Q : ρ → Dev K ρ γ → Prop} : Sat getRam Q E d ↔ Q d.ram d := sat_iff

@[simp] theorem sat_modifyRam {Q : PUnit → Dev K ρ γ → Prop} (f : ρ → ρ) :
    Sat (modifyRam f) Q E d ↔ Q ⟨⟩ { d with ram := f d.ram } := sat_iff

@[simp] theorem sat_assert {Q : Unit → Dev K ρ γ → Prop} (c : Bool) :
    Sat (assert c) Q E d ↔ (c = true → Q () d) ∧ (c = false → E .assert d) := sat_check c Stop.assert

end Rules

/-! ### Predicates that survive -/

section Keeps

variable {I : Dev K ρ γ → Prop}

theorem keeps_read (k : K) : Keeps I (read k : Prog K ρ γ _) := fun _ hd => (sat_read k).2 hd

theorem keeps_getRam : Keeps I (getRam : Prog K ρ γ ρ) := fun _ hd => sat_getRam.2 hd

theorem keeps_assert (c : Bool) : Keeps I (assert c : Prog K ρ γ Unit) :=
  Keeps.check c Stop.assert

end Keeps

/-- A predicate of the store and the log, read as a predicate of the device: neither the volatile
memory nor the schedule matters to it. -/
def Stable (J : Store K → List (Entry K γ) → Prop) (d : Dev K ρ γ) : Prop := J d.store d.log

variable {J : Store K → List (Entry K γ) → Prop}

theorem keeps_commit [DecidableEq K] {k : K} {v : Option (List UInt8)}
    (hJ : ∀ st log, J st log → J (Function.update st k v) (log ++ [.wrote k v])) :
    Keeps (Stable J) (commit k v : Prog K ρ γ Bool) := fun _ hd =>
  (sat_commit k v).2 ⟨fun _ => hJ _ _ hd, fun _ => hd, fun _ => hd, fun _ => hJ _ _ hd⟩

theorem keeps_modifyRam (f : ρ → ρ) : Keeps (Stable J) (modifyRam f : Prog K ρ γ PUnit) :=
  fun _ hd => (sat_modifyRam f).2 hd

/-! ### One operation and the restart after it -/

/-- Restart: the volatile memory is lost, the store is kept, and the boot code runs. -/
def restart (ram₀ : ρ) (boot : Prog K ρ γ Unit) (d : Dev K ρ γ) : Dev K ρ γ :=
  match boot.run { d with ram := ram₀, fates := [] } with
  | .ok _ d' => d'
  | .error _ d' => d'

/-- One operation under the schedule `fates`, followed by a restart when it was stopped. -/
def runOp (ram₀ : ρ) (boot : Prog K ρ γ Unit) (p : Prog K ρ γ α) (fates : List Fate)
    (d : Dev K ρ γ) : Dev K ρ γ :=
  match p.run { d with fates := fates } with
  | .ok _ d' => d'
  | .error _ d' => restart ram₀ boot d'

theorem restart_of_sat {ram₀ : ρ} {boot : Prog K ρ γ Unit} {Q : Dev K ρ γ → Prop} {d : Dev K ρ γ}
    (hboot : Sat boot (fun _ => Q) (fun _ => Q) { d with ram := ram₀, fates := [] }) :
    Q (restart ram₀ boot d) := by
  unfold restart
  split
  · next _ _ heq => exact hboot.ok heq
  · next _ _ heq => exact hboot.error heq

/-- What an operation leaves behind: `Q` when it ends, and `Q` again when it is stopped where `J`
holds and the boot code leads from `J` to `Q`. -/
theorem runOp_of_sat {ram₀ : ρ} {boot : Prog K ρ γ Unit} {Q J : Dev K ρ γ → Prop}
    {p : Prog K ρ γ α} {fates : List Fate} {d : Dev K ρ γ}
    (hp : Sat p (fun _ => Q) (fun _ => J) { d with fates := fates })
    (hboot : ∀ d, J d → Sat boot (fun _ => Q) (fun _ => Q) { d with ram := ram₀, fates := [] }) :
    Q (runOp ram₀ boot p fates d) := by
  unfold runOp
  split
  · next _ _ heq => exact hp.ok heq
  · next _ _ heq => exact restart_of_sat (hboot _ (hp.error heq))

theorem restart_stable {ram₀ : ρ} {boot : Prog K ρ γ Unit} (hboot : Keeps (Stable J) boot)
    {d : Dev K ρ γ} (hd : Stable J d) : Stable J (restart ram₀ boot d) :=
  restart_of_sat (hboot { d with ram := ram₀, fates := [] } hd)

/-- A predicate of the store and the log survives an operation, the restart included, as soon as
the program and the boot code keep it. -/
theorem runOp_stable {ram₀ : ρ} {boot : Prog K ρ γ Unit} (hboot : Keeps (Stable J) boot)
    {p : Prog K ρ γ α} {fates : List Fate} {d : Dev K ρ γ}
    (hp : Sat p (fun _ => Stable J) (fun _ => Stable J) { d with fates := fates }) :
    Stable J (runOp ram₀ boot p fates d) :=
  runOp_of_sat hp fun d hd => hboot { d with ram := ram₀, fates := [] } hd

end Flash
