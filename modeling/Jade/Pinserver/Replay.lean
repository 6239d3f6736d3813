/-
**No question to the PIN oracle is asked twice (`pinclient.c`, `storage_get_replay_counter`).**

Every question carries the value of a counter that is kept in flash, so that an oracle can tell a
new question from one that was recorded on the way and is played again. The value is taken out, and
the next one committed, before anything is sent; a commit that fails or is cut off, a retry, a power
loss at any point can skip values, and never lets one be used again. At the end of its range the
device restarts rather than begin again.

A run is any sequence of calls of `pinclient_get` and `pinclient_set`, each with its own messages
from the host, answers of the user, random bytes and fates of its commits; between them everything
else in the flash may change. Only the counter must stay: nothing but a factory reset erases it.

Main definitions:

* `Jade.Pinclient.AskOp`, `Jade.Pinclient.WireOp`, `Jade.Pinclient.wireStep` — a run;
* `Jade.Pinclient.sent` — the requests of a run;
* `Jade.Pinclient.Numbered` — the invariant.

Main results:

* `Jade.Pinclient.wireStep_numbered` — what one step preserves;
* `Jade.Pinclient.oracle_takes_no_replay` — **an oracle that wants the numbers to grow takes each
  question at most once, in order, and every new one**.
-/

import Jade.Bip85.Digests
import Jade.Lib.Replay
import Jade.Lib.Run
import Jade.Pinserver.Oracle

set_option relaxedAutoImplicit false
set_option autoImplicit false

namespace Jade.Pinclient

open Exec Flash

/-! ### Runs -/

/-- A call, with all that comes from outside: the message at hand and those to come, the user's
answers, the random bytes, the fates of the commits. -/
structure AskOp (V : Type) where
  document : Document
  pin : Bytes
  retries : List Bool
  current : Option (Incoming V)
  inbox : List (Incoming V)
  random : ℕ → UInt8
  keychain : Ram
  fates : List Fate

/-- What became of a call. -/
structure Outcome (V : Type) where
  ask : Ask
  events : List (Dialogue.Event (Incoming V) PinScreen (Outgoing PinReply))
  key : Option Bytes

/-- The flash, and what has become of the calls so far. -/
structure Wire (V : Type) where
  store : Store ClientKey
  outcomes : List (Outcome V) := []

/-- A call, or a change elsewhere in the flash. -/
inductive WireOp (V : Type)
  | call (o : AskOp V)
  | elsewhere (records : Store OracleKey)

section Runs

variable {V : Type} (W : PinWally) (C : TinyCborStrings V)

/-- Entropy goes with a new PIN. -/
def AskOp.ask (o : AskOp V) : Ask where
  pin := o.pin
  document := o.document
  passClientEntropy := decide (o.document = .setPin)

/-- The device at the start of a call. -/
def AskOp.start (o : AskOp V) (st : Store ClientKey) : ClientDev V where
  store := st
  ram := {
    keychain := o.keychain
    talk := { inbox := o.inbox, current := o.current }
    random := o.random }
  fates := o.fates
  log := []

/-- The function that is called. -/
def AskOp.prog (o : AskOp V) : ClientM V (Option Bytes) :=
  match o.document with
  | .getPin => pinclientGet W C o.pin o.retries
  | .setPin => pinclientSet W C o.pin o.retries

/-- What is left of a call that ends or is stopped. -/
def Wire.after (w : Wire V) (o : AskOp V) : EStateM.Result Stop (ClientDev V) (Option Bytes) → Wire V
  | .ok key d =>
      { store := d.store
        outcomes := w.outcomes ++ [{ ask := o.ask, events := d.ram.talk.events, key := key }] }
  | .error _ d =>
      { store := d.store
        outcomes := w.outcomes ++ [{ ask := o.ask, events := d.ram.talk.events, key := none }] }

/-- The flash with other settings, and the same counter. -/
def withSettings (st : Store ClientKey) (records : Store OracleKey) : Store ClientKey
  | .settings k => records k
  | k => st k

def wireStep (w : Wire V) : WireOp V → Wire V
  | .call o => w.after o ((o.prog W C).run (o.start w.store))
  | .elsewhere records => { w with store := withSettings w.store records }

/-- The requests of a run, oldest first. -/
def sent (w : Wire V) : List HttpRequest := w.outcomes.flatMap fun o => requests o.events

variable {W C}

/-- What a call does. -/
theorem wireStep_call (w : Wire V) (o : AskOp V) :
    ∃ d' key, wireStep W C w (.call o) =
        { store := d'.store
          outcomes := w.outcomes ++ [{ ask := o.ask, events := d'.ram.talk.events, key := key }] } ∧
      Concluded W C o.ask (o.start w.store) d' key := by
  have hprog : o.prog W C =
      getPinserverAeskey W C o.pin o.document (decide (o.document = .setPin)) o.retries := by
    unfold AskOp.prog
    cases o.document with
    | getPin => rfl
    | setPin => rfl
  have hsat := sat_getPinserverAeskey (W := W) (C := C) (d := o.start w.store) o.ask o.retries
  rw [wireStep, hprog]
  cases hrun : (getPinserverAeskey W C o.pin o.document (decide (o.document = .setPin))
      o.retries).run (o.start w.store) with
  | ok key d' => exact ⟨d', key, rfl, hsat.ok hrun⟩
  | error stop d' => exact ⟨d', none, rfl, hsat.error hrun⟩

end Runs

/-! ### The numbers -/

section Numbers

variable {V : Type} (W : PinWally)

/-- The number of a request. -/
def number (r : HttpRequest) : ℕ := (wireCounter W r).getD 0

/-- **The invariant**: the numbers of the requests increase from `least` on, and the one in the
flash is above them all. -/
structure Numbered (least : ℕ) (w : Wire V) : Prop where
  grown : least ≤ floorOf w.store
  increasing : (sent w).Pairwise fun r r' => number W r < number W r'
  bounds : ∀ r ∈ sent w, wireCounter W r = some (number W r) ∧ least ≤ number W r ∧
    number W r < floorOf w.store

variable {W} {C : TinyCborStrings V} {w : Wire V} {least : ℕ}

/-- Requests with numbers of their own. -/
theorem number_of_question (hW : W.Lawful) {st : Store ClientKey} {ask : Ask} {j : ℕ}
    {keys : PinKeys} {r : HttpRequest} (h : Question W st ask j keys r) :
    number W r = j ∧ wireCounter W r = some (number W r) := by
  have hcounter := wireCounter_of_question hW h
  have hnumber : number W r = j := by rw [number, hcounter, Option.getD_some]
  exact ⟨hnumber, by rw [hcounter, hnumber]⟩

/-- The numbers of requests that come with increasing values. -/
theorem increasing_of_forall₂ (hW : W.Lawful) {st : Store ClientKey} {ask : Ask}
    {rs : List HttpRequest} {js : List ℕ}
    (h : List.Forall₂ (fun r j => ∃ keys, Question W st ask j keys r) rs js) :
    rs.map (number W) = js ∧ ∀ r ∈ rs, wireCounter W r = some (number W r) := by
  induction h with
  | nil => exact ⟨rfl, fun r hr => absurd hr List.not_mem_nil⟩
  | @cons r j rs js hq _ ih =>
      obtain ⟨keys, hq⟩ := hq
      obtain ⟨hnumber, hcounter⟩ := number_of_question hW hq
      refine ⟨by rw [List.map_cons, hnumber, ih.1], ?_⟩
      intro r' hr'
      rcases List.mem_cons.1 hr' with rfl | hr'
      · exact hcounter
      · exact ih.2 r' hr'

/-- **What one step preserves.** -/
theorem wireStep_numbered (hW : W.Lawful) (h : Numbered W least w) (op : WireOp V) :
    Numbered W least (wireStep W C w op) := by
  cases op with
  | elsewhere records => exact ⟨h.grown, h.increasing, h.bounds⟩
  | call o =>
      obtain ⟨d', key, hstep, hconcluded⟩ := wireStep_call (W := W) (C := C) w o
      have hprogress := hconcluded.progress
      obtain ⟨es, js, hevents, hpair, hbounds, hasked⟩ := hprogress.asked
      have hes : d'.ram.talk.events = es := hevents
      obtain ⟨hnumbers, hcounters⟩ := increasing_of_forall₂ hW hasked
      have hsent : sent (wireStep W C w (.call o)) = sent w ++ requests es := by
        rw [hstep, sent, List.flatMap_append, sent]
        simp [hes]
      have hstore : (wireStep W C w (.call o)).store = d'.store := by rw [hstep]
      have hfloor : floorOf w.store ≤ floorOf d'.store := hprogress.kept.floor
      have hmem : ∀ r ∈ requests es, floorOf w.store ≤ number W r ∧ number W r < floorOf d'.store := by
        intro r hr
        have hj : number W r ∈ js := by
          rw [← hnumbers]
          exact List.mem_map_of_mem hr
        exact hbounds _ hj
      refine ⟨?_, ?_, ?_⟩
      · rw [hstore]
        exact h.grown.trans hfloor
      · rw [hsent]
        refine List.pairwise_append.2 ⟨h.increasing, ?_, ?_⟩
        · rw [← hnumbers] at hpair
          exact List.pairwise_map.1 hpair
        · intro r hr r' hr'
          exact Nat.lt_of_lt_of_le (h.bounds r hr).2.2 (hmem r' hr').1
      · intro r hr
        rw [hsent] at hr
        rw [hstore]
        rcases List.mem_append.1 hr with hr | hr
        · obtain ⟨hcounter, hleast, hlt⟩ := h.bounds r hr
          exact ⟨hcounter, hleast, Nat.lt_of_lt_of_le hlt hfloor⟩
        · exact ⟨hcounters r hr, h.grown.trans (hmem r hr).1, (hmem r hr).2⟩

/-- **No question is asked twice**: along every run the numbers of the requests increase, from the
value that was in the flash on and below the one that is in it now. So an oracle that wants the
numbers to grow takes each request at most once and in the order in which they were sent, however
often and in whatever order they reach it; and it takes a new one, whatever of those before it has
reached it. -/
theorem oracle_takes_no_replay (hW : W.Lawful) (C : TinyCborStrings V) (st : Store ClientKey)
    (ops : List (WireOp V)) :
    let w := Run.run (wireStep W C) { store := st } ops
    (sent w).Pairwise (fun r r' => number W r < number W r') ∧
    (∀ r ∈ sent w, wireCounter W r = some (number W r) ∧ floorOf st ≤ number W r ∧
      number W r < floorOf w.store) ∧
    (∀ delivered : List HttpRequest, (∀ r ∈ delivered, r ∈ sent w) →
      (Replay.deliverAll (number W) {} delivered).accepted.Sublist (sent w)) ∧
    ∀ (before after delivered : List HttpRequest) (r : HttpRequest),
      sent w = before ++ r :: after → (∀ r' ∈ delivered, r' ∈ before) →
        r ∈ (Replay.deliver (number W) (Replay.deliverAll (number W) {} delivered) r).accepted := by
  intro w
  have hstart : Numbered W (floorOf st) ({ store := st } : Wire V) := by
    refine ⟨le_rfl, List.Pairwise.nil, ?_⟩
    intro r hr
    exact absurd hr List.not_mem_nil
  have hend : Numbered W (floorOf st) w :=
    Run.run_invariant (I := Numbered W (floorOf st)) (fun _ op h => wireStep_numbered hW h op)
      hstart ops
  refine ⟨hend.increasing, hend.bounds, fun _ => Replay.accepted_sublist hend.increasing, ?_⟩
  intro before after delivered r hsent hdelivered
  have hincreasing := hend.increasing
  rw [hsent] at hincreasing
  exact Replay.accepted_new hincreasing hdelivered

end Numbers

/-! ### A run with a power loss -/

/-- The host's messages: a question is started, and what it is told is that there was no answer. -/
def toyAuthUser : Incoming Bytes where
  source := 2
  value := toyRequestHead "auth_user" ++ [0xa0]

def toyPinMessage : Incoming Bytes where
  source := 2
  value := [0xa2] ++ shortText "id" ++ shortText "2" ++ shortText "method" ++ shortText "pin"

/-- A call with two tries. -/
def toyCall (document : Document) (fates : List Fate) : AskOp Bytes where
  document := document
  pin := [1, 2, 3, 4, 5, 6]
  retries := [true, false]
  current := some toyAuthUser
  inbox := [toyPinMessage, toyPinMessage]
  random := fun i => UInt8.ofNat (i * 7 + 1)
  keychain := .init
  fates := fates

/-- A new PIN, with two tries; a login that is cut off right after its counter was committed; and
another login, with other settings. -/
def toyWire : Wire Bytes :=
  Run.run (wireStep toyPinWally tinyCborStrings) { store := fun _ => none }
    [.call (toyCall .setPin []), .call (toyCall .getPin [.cutAfter]), .elsewhere (fun _ => none),
      .call (toyCall .getPin [])]

/-- The value of the login that was cut off is skipped; and of the requests in reverse order only
the last one is taken. -/
theorem oracle_takes_no_replay_toy :
    (sent toyWire).map (number toyPinWally) = [0, 1, 3, 4] ∧
    ((Replay.deliverAll (number toyPinWally) {} (sent toyWire).reverse).accepted.map
      (number toyPinWally)) = [4] ∧
    (Replay.deliverAll (number toyPinWally) {} (sent toyWire).reverse).accepted.Sublist
      (sent toyWire) := by
  have h := oracle_takes_no_replay toyPinWally_lawful tinyCborStrings (fun _ => none)
    [.call (toyCall .setPin []), .call (toyCall .getPin [.cutAfter]), .elsewhere (fun _ => none),
      .call (toyCall .getPin [])]
  exact ⟨by decide +kernel, by decide +kernel,
    h.2.2.1 (sent toyWire).reverse fun r hr => List.mem_reverse.1 hr⟩

end Jade.Pinclient
