import Mathlib.Data.List.DropRight
import RadioModem.Proofs.Calibration

/-!
# Pins over time

What a bank of pins is after any calls. Each pin has the direction that it was last turned to. The
level that it was last driven to is forgotten when it is turned to an output, and stays out of
sight while it is an input. A line reports and drives the pins of its node in just this way.
-/
namespace RadioModem

namespace Pins
open Calibration (lastWritten lastWritten_concat verdictText)

/-- What is asked of a bank of pins. -/
inductive PinCall
  | turn (index : Nat) (d : PinDirection)
  | drive (index level : Nat)
  deriving DecidableEq, Repr

def PinCall.index : PinCall → Nat
  | turn index _ | drive index _ => index

def PinCall.turn? : PinCall → Option (Nat × PinDirection)
  | turn index d => some (index, d)
  | drive _ _ => none

def PinCall.drive? : PinCall → Option (Nat × Nat)
  | turn _ _ => none
  | drive index level => some (index, level)

def step (b : Pins) : PinCall → Pins
  | .turn index d => b.setDirection index d
  | .drive index level => (b.setValue index level).1

def after (b : Pins) (calls : List PinCall) : Pins := calls.foldl step b

/-- Only a level can be turned down. -/
def takes (b : Pins) : PinCall → Bool
  | .turn _ _ => true
  | .drive index level => (b.setValue index level).2

/-- The calls that are taken in the course of some calls. -/
def taken (b : Pins) : List PinCall → List PinCall
  | [] => []
  | call :: calls => (if b.takes call then [call] else []) ++ (b.step call).taken calls

/-! ### What the calls tell of a pin -/

/-- The last direction that a pin was given; at first it is an output. -/
def lastDirection (history : List PinCall) (index : Nat) : PinDirection :=
  (lastWritten (history.filterMap PinCall.turn?) index).getD .output

/-- The calls since a pin was last turned to an output. -/
def sinceOutput (history : List PinCall) (index : Nat) : List PinCall :=
  history.rtakeWhile (· ≠ .turn index .output)

/-- The last level that a pin was driven to since it was last turned to an output. -/
def lastLevel (history : List PinCall) (index : Nat) : Nat :=
  (lastWritten ((sinceOutput history index).filterMap PinCall.drive?) index).getD 0

lemma lastDirection_turn (history : List PinCall) (turned : Nat) (d : PinDirection) (index : Nat) :
    lastDirection (history ++ [.turn turned d]) index =
      if turned = index then d else lastDirection history index := by
  have hcalls : (history ++ [PinCall.turn turned d]).filterMap PinCall.turn? =
      history.filterMap PinCall.turn? ++ [(turned, d)] := List.filterMap_append
  rw [lastDirection, hcalls, lastWritten_concat, apply_ite (Option.getD · PinDirection.output)]
  rfl

lemma lastDirection_drive (history : List PinCall) (driven level index : Nat) :
    lastDirection (history ++ [.drive driven level]) index = lastDirection history index := by
  have hcalls : (history ++ [PinCall.drive driven level]).filterMap PinCall.turn? =
      history.filterMap PinCall.turn? := List.filterMap_append.trans (List.append_nil _)
  rw [lastDirection, hcalls, ← lastDirection]

lemma lastLevel_turn (history : List PinCall) (turned : Nat) (d : PinDirection) (index : Nat) :
    lastLevel (history ++ [.turn turned d]) index =
      if turned = index ∧ d = .output then 0 else lastLevel history index := by
  rw [lastLevel, sinceOutput, List.rtakeWhile_concat]
  by_cases hsame : turned = index ∧ d = .output
  · -- Nothing has been driven since this very call.
    rw [if_neg (by simp [hsame]), if_pos hsame]
    rfl
  · have hother : PinCall.turn turned d ≠ .turn index .output := by simpa using hsame
    have hcalls : (sinceOutput history index ++ [PinCall.turn turned d]).filterMap
        PinCall.drive? = (sinceOutput history index).filterMap PinCall.drive? :=
      List.filterMap_append.trans (List.append_nil _)
    rw [if_pos (decide_eq_true hother), if_neg hsame, ← sinceOutput, hcalls, ← lastLevel]

lemma lastLevel_drive (history : List PinCall) (driven level index : Nat) :
    lastLevel (history ++ [.drive driven level]) index =
      if driven = index then level else lastLevel history index := by
  have hother : PinCall.drive driven level ≠ .turn index .output := nofun
  have hcalls : (sinceOutput history index ++ [PinCall.drive driven level]).filterMap
      PinCall.drive? = (sinceOutput history index).filterMap PinCall.drive? ++ [(driven, level)] :=
    List.filterMap_append
  rw [lastLevel, sinceOutput, List.rtakeWhile_concat, if_pos (decide_eq_true hother),
    ← sinceOutput, hcalls, lastWritten_concat, apply_ite (Option.getD · 0)]
  rfl

/-- Directions are never turned down. -/
lemma lastDirection_taken (b : Pins) (calls : List PinCall) (index : Nat) :
    lastDirection (b.taken calls) index = lastDirection calls index := by
  have hturns : (b.taken calls).filterMap PinCall.turn? = calls.filterMap PinCall.turn? := by
    induction calls generalizing b with
    | nil => rfl
    | cons call calls ih =>
      rw [taken, List.filterMap_append, ih]
      cases call with
      | turn turned d => rfl
      | drive driven level =>
        rw [takes]
        cases (b.setValue driven level).2 <;> rfl
  rw [lastDirection, hturns, ← lastDirection]

/-! ### Single calls -/

variable {b : Pins} {s : PinSettings} {history : List PinCall}

lemma setDirection_getElem? (b : Pins) (turned : Nat) (d : PinDirection) (index : Nat) :
    (b.setDirection turned d).pins[index]? =
      if turned = index then b.pins[index]?.map (·.turn d) else b.pins[index]? := by
  rw [setDirection, List.getElem?_modify]
  split
  · rfl
  · exact Option.map_id'

lemma setValue_getElem? (b : Pins) (driven level index : Nat) :
    (b.setValue driven level).1.pins[index]? =
      if (b.setValue driven level).2 = true ∧ driven = index then
        b.pins[index]?.map ({ · with level })
      else b.pins[index]? := by
  unfold setValue
  split
  · simp only [List.getElem?_modify, true_and]
    split
    · rfl
    · exact Option.map_id'
  · simp

lemma setValue_taken_iff (b : Pins) (index level : Nat) :
    (b.setValue index level).2 = true ↔
      index < b.count ∧ b.direction index = .output ∧ level ≤ 1 := by
  have htaken : (b.setValue index level).2 = b.pins[index]?.any (·.drives level) := by
    unfold setValue
    split
    · next h => exact h.symm
    · next h => exact (Bool.eq_false_iff.mpr h).symm
  rw [htaken, direction]
  cases hpin : b.pins[index]? with
  | none =>
    have hindex : b.count ≤ index := List.getElem?_eq_none_iff.mp hpin
    simp only [Option.any_none, Bool.false_eq_true, false_iff]
    omega
  | some pin =>
    obtain ⟨hindex, -⟩ := List.getElem?_eq_some_iff.mp hpin
    simp [Pin.drives, count, hindex]

/-- A bank of pins and the calls that it took. A level is kept with a pin that is an input too,
where it is of no effect. -/
structure Holds (s : PinSettings) (b : Pins) (history : List PinCall) : Prop where
  count : b.count = s.count
  pin : ∀ index < s.count, b.pins[index]? =
    some ⟨lastDirection history index, lastLevel history index, s.inputs[index]?.getD 0⟩

lemma holds_ofSettings (s : PinSettings) : Holds s (ofSettings s) [] where
  count := by simp [Pins.count, ofSettings]
  pin index hindex := by
    rw [ofSettings, List.getElem?_map, List.getElem?_range hindex]
    rfl

lemma Holds.step (h : Holds s b history) (call : PinCall) :
    Holds s (b.step call) (history ++ if b.takes call then [call] else []) := by
  cases call with
  | turn turned d =>
    rw [Pins.step, takes, if_pos rfl]
    refine ⟨(setDirection_count ..).trans h.count, fun index hindex => ?_⟩
    rw [setDirection_getElem?, h.pin index hindex, lastDirection_turn, lastLevel_turn]
    by_cases hsame : turned = index
    · cases d <;> simp [hsame, Pin.turn]
    · simp [hsame]
  | drive driven level =>
    refine ⟨(setValue_count ..).trans h.count, fun index hindex => ?_⟩
    rw [Pins.step, setValue_getElem?, h.pin index hindex, takes]
    cases (b.setValue driven level).2 with
    | true =>
      -- Both the pin and its history take the level; of the other pins neither changes.
      rw [if_pos rfl, lastDirection_drive, lastLevel_drive]
      by_cases hsame : driven = index <;> simp [hsame]
    | false => simp

theorem Holds.after (h : Holds s b history) (calls : List PinCall) :
    Holds s (b.after calls) (history ++ b.taken calls) := by
  induction calls generalizing b history with
  | nil => simpa [taken, Pins.after] using h
  | cons call calls ih =>
    rw [taken, ← List.append_assoc]
    exact ih (h.step call)

lemma holds_after (s : PinSettings) (calls : List PinCall) :
    Holds s ((ofSettings s).after calls) ((ofSettings s).taken calls) :=
  (holds_ofSettings s).after calls

/-! ### What is read of a pin -/

lemma Holds.direction (h : Holds s b history) {index : Nat} (hindex : index < s.count) :
    b.direction index = lastDirection history index := by
  rw [Pins.direction, h.pin index hindex]
  rfl

lemma Holds.value (h : Holds s b history) {index : Nat} (hindex : index < s.count) :
    b.value index = match lastDirection history index with
      | .output => lastLevel history index
      | .input => s.inputs[index]?.getD 0 := by
  rw [Pins.value, h.pin index hindex]
  rfl

lemma Holds.absent (h : Holds s b history) {index : Nat} (hindex : s.count ≤ index) :
    b.pins[index]? = none := List.getElem?_eq_none (h.count.trans_le hindex)

lemma read_of_absent {index : Nat} (h : b.pins[index]? = none) :
    b.direction index = .input ∧ b.value index = 0 := by
  rw [Pins.direction, Pins.value, h]
  exact ⟨rfl, rfl⟩

lemma step_of_absent {call : PinCall} (h : b.pins[call.index]? = none) : b.step call = b := by
  cases call with
  | turn turned d =>
    have hpins : b.pins.modify turned (·.turn d) = b.pins :=
      List.modify_eq_self (List.getElem?_eq_none_iff.mp h)
    rw [step, setDirection, hpins]
  | drive driven level =>
    have hnone : b.pins[driven]? = none := h
    simp [step, setValue, hnone]

/-- A call leaves every other pin alone. -/
lemma step_getElem?_of_ne {call : PinCall} {index : Nat} (h : call.index ≠ index) :
    (b.step call).pins[index]? = b.pins[index]? := by
  cases call with
  | turn turned d =>
    have hother : turned ≠ index := h
    rw [step, setDirection_getElem?, if_neg hother]
  | drive driven level => rw [step, setValue_getElem?, if_neg fun hsame => h hsame.2]

/-- The text that answers a command for a pin. -/
def told (b : Pins) (index : Nat) : PinAction → String
  | .output | .input => verdictText (index < b.count)
  | .read =>
    if index < b.count ∧ b.direction index = .input then "val:" ++ toString (b.value index)
    else errorText
  | .write level => verdictText (b.setValue index level).2

end Pins

/-! ### Lines -/

open Pins

/-- The call that a command makes of a bank of pins. -/
def PinAction.call? (index : Nat) : PinAction → Option PinCall
  | output => some (.turn index .output)
  | input => some (.turn index .input)
  | read => none
  | write level => some (.drive index level)

namespace Request

def pinCall? : Request → Option PinCall
  | here (.ok (.pin index action)) => action.call? index
  | _ => none

/-- The calls that some lines make of the pins of their node. -/
def pinCalls (lines : List String) : List PinCall :=
  lines.filterMap fun line => (parse line).pinCall?

lemma pinCalls_cons (line : String) (lines : List String) :
    pinCalls (line :: lines) = (parse line).pinCall?.toList ++ pinCalls lines :=
  filterMap_cons_append _ _ _

end Request

lemma Pins.afterRequest_eq (b : Pins) (r : Request) :
    b.afterRequest r = r.pinCall?.elim b b.step := by
  cases r with
  | ignored | remote => rfl
  | here command =>
    cases command with
    | error r => rfl
    | ok command =>
      cases command with
      | pin index action => cases action <;> rfl
      | attention | factoryReset | save | forceUpdate | testMode | extended | info | pinList
      | readRegister | writeRegister | online | reset => rfl

namespace Node
variable {c : Configuration} {n : Node} {f : Features} {t : TestMode}

/-- The pins behind some lines are the pins behind their calls. -/
theorem afterLines_pins (f : Features) (n : Node) (t : TestMode) (lines : List String) :
    (n.afterLines f t lines).1.pins = n.pins.after (Request.pinCalls lines) := by
  induction lines generalizing n t with
  | nil => rfl
  | cons line lines ih =>
    have hrun : (Dispatch.run f n t line).board.pins = n.pins.afterRequest (.parse line) :=
      congrArg Node.pins (run_after f n t line).1
    rw [afterLines, ih, hrun, Pins.afterRequest_eq, Request.pinCalls_cons]
    cases (Request.parse line).pinCall? <;> rfl

lemma texts_pin (f : Features) (n : Node) (index : Nat) (action : PinAction) :
    (Request.here (.ok (.pin index action))).texts f n = [n.pins.told index action] := by
  have hrefusal : (Request.here (.ok (.pin index action))).refusal? f n =
      if index < n.pins.count then action.refusal? n index
      else some (.outOfRange index n.pins.count) := rfl
  rw [Request.texts, hrefusal]
  cases action with
  | output | input => exact judged_texts decide_eq_true_iff _
  | read =>
    by_cases hindex : index < n.pins.count
    · rw [if_pos hindex, told]
      cases hdirection : n.pins.direction index with
      | input => simp [PinAction.refusal?, Command.texts, hindex, hdirection]
      | output => simp [PinAction.refusal?, hdirection]
    · simp [told, hindex]
  | write level =>
    have htaken := n.pins.setValue_taken_iff index level
    by_cases hindex : index < n.pins.count
    · rw [if_pos hindex]
      exact judged_texts (htaken.trans (and_iff_right hindex)) _
    · have hrefused : (n.pins.setValue index level).2 = false :=
        Bool.eq_false_iff.mpr fun h => hindex (htaken.mp h).1
      rw [if_neg hindex, told, hrefused]
      rfl

/-- Behind some lines a node has the pins that their calls leave, lists them as they are, and
answers for each of them. -/
lemma lines_pin (h : ofConfiguration c = .ok n) (f : Features) (t : TestMode)
    (lines : List String) :
    let behind := n.afterLines f t lines
    let bank := (Pins.ofSettings c.pins).after (Request.pinCalls lines)
    behind.1.pins = bank ∧
      (∀ line, Request.parse line = .here (.ok .pinList) →
        (Dispatch.run f behind.1 behind.2 line).reply = frames c.identity.node bank.texts) ∧
      ∀ line index action, Request.parse line = .here (.ok (.pin index action)) →
        (Dispatch.run f behind.1 behind.2 line).reply =
          frame c.identity.node (bank.told index action) := by
  intro behind bank
  have hfresh : n.pins = .ofSettings c.pins := by
    obtain ⟨blank, registers, -, -, -, rfl⟩ := ofConfiguration_built h
    rfl
  have hpins : behind.1.pins = bank :=
    (afterLines_pins f n t lines).trans (congrArg (·.after (Request.pinCalls lines)) hfresh)
  have hidentity : behind.1.identity = c.identity := identity_behind h f t lines
  refine ⟨hpins, fun line hline => ?_, fun line index action hline => ?_⟩
  · rw [run_reply, hline, hidentity, ← hpins]
    rfl
  · rw [run_reply, hline, texts_pin, hidentity, hpins, frames_singleton]

end Node

namespace Pins

/-- What a pin has is told by the calls to its bank that were for it, and a pin that the bank does
not have stays away from them all. The lines of a node tell it of its pins in the same way. -/
theorem told_by_history :
    (∀ (s : PinSettings) (calls : List PinCall),
      let bank := (ofSettings s).after calls
      (∀ index < s.count, bank.direction index = lastDirection calls index ∧
        bank.value index = match bank.direction index with
          | .output => lastLevel ((ofSettings s).taken calls) index
          | .input => s.inputs[index]?.getD 0) ∧
      (∀ index level, (bank.setValue index level).2 = true ↔
        index < s.count ∧ bank.direction index = .output ∧ level ≤ 1) ∧
      (∀ (call : PinCall) (index : Nat), call.index ≠ index →
        (bank.step call).pins[index]? = bank.pins[index]?) ∧
      ∀ index, s.count ≤ index → bank.direction index = .input ∧ bank.value index = 0 ∧
        ∀ call : PinCall, call.index = index → bank.step call = bank) ∧
    ∀ (c : Configuration) (node : Node), Node.ofConfiguration c = .ok node →
      ∀ (f : Features) (t : TestMode) (lines : List String),
      let behind := node.afterLines f t lines
      let bank := (ofSettings c.pins).after (Request.pinCalls lines)
      behind.1.pins = bank ∧
      (∀ line, Request.parse line = .here (.ok .pinList) →
        (Dispatch.run f behind.1 behind.2 line).reply = frames c.identity.node bank.texts) ∧
      ∀ line index action, Request.parse line = .here (.ok (.pin index action)) →
        (Dispatch.run f behind.1 behind.2 line).reply =
          frame c.identity.node (bank.told index action) := by
  refine ⟨fun s calls => ?_, fun c node h f t lines => Node.lines_pin h f t lines⟩
  have hholds := holds_after s calls
  refine ⟨fun index hindex => ?_, fun index level => ?_, fun call index => step_getElem?_of_ne,
    fun index hindex => ?_⟩
  · rw [← lastDirection_taken (ofSettings s), hholds.direction hindex]
    exact ⟨rfl, hholds.value hindex⟩
  · rw [setValue_taken_iff, hholds.count]
  · have habsent := hholds.absent hindex
    obtain ⟨hdirection, hvalue⟩ := read_of_absent habsent
    refine ⟨hdirection, hvalue, ?_⟩
    rintro call rfl
    exact step_of_absent habsent

/-- Three pins, of which one has a reading. -/
def three : Configuration := { Configuration.standard with pins := ⟨3, [0, 640]⟩ }

def driven : Pins :=
  (ofSettings three.pins).after
    [.drive 0 1, .drive 2 1, .drive 2 2, .turn 1 .input, .drive 1 1, .turn 0 .output,
      .turn 3 .output]

/-- A level is forgotten, a reading is not driven, and a fourth pin is not there. -/
theorem told_by_history_three :
    (driven.value 0 = 0 ∧ (driven.direction 1 = .input ∧ driven.value 1 = 640) ∧
      driven.value 2 = 1 ∧ driven.direction 3 = .input ∧
      (driven.step (.drive 2 0)).pins[1]? = driven.pins[1]?) ∧
    ∃ node, Node.ofConfiguration three = .ok node ∧
      let behind := node.afterLines .basic .clear ["ATPI=1", "ATPC=0,1"]
      (Dispatch.run .basic behind.1 behind.2 "ATPP").reply =
        "[0] Pin:0 Output Val: 1\n[0] Pin:1 Input  Val: 640\n[0] Pin:2 Output Val: 0\n" ∧
      (Dispatch.run .basic behind.1 behind.2 "ATPR=1").reply = "[0] val:640\n" ∧
      (Dispatch.run .basic behind.1 behind.2 "ATPC=1,1").reply = "[0] ERROR\n" := by
  obtain ⟨hbanks, hlines⟩ := told_by_history
  obtain ⟨hpins, -, hothers, habsent⟩ := hbanks three.pins _
  obtain ⟨node, hnode⟩ : ∃ node, Node.ofConfiguration three = .ok node := ⟨_, rfl⟩
  obtain ⟨-, hlist, hpin⟩ := hlines three node hnode .basic .clear ["ATPI=1", "ATPC=0,1"]
  refine ⟨⟨?_, ⟨?_, ?_⟩, ?_, (habsent 3 (by decide)).1, hothers (.drive 2 0) 1 (by decide)⟩,
    node, hnode, (hlist "ATPP" rfl).trans ?_, (hpin "ATPR=1" 1 .read rfl).trans ?_,
    (hpin "ATPC=1,1" 1 (.write 1) rfl).trans ?_⟩
  · exact (hpins 0 (by decide)).2.trans (by decide)
  · exact (hpins 1 (by decide)).1.trans (by decide)
  · exact (hpins 1 (by decide)).2.trans (by decide)
  · exact (hpins 2 (by decide)).2.trans (by decide)
  · decide +kernel
  · decide +kernel
  · decide +kernel

end Pins

end RadioModem
