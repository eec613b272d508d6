import RadioModem.Proofs.Node

/-!
# What a line changes

What a line makes of a node, store by store. Each store is changed by the commands that name it, in
the way of the store, and a change that the store turns down is no change.
-/
namespace RadioModem

/-! ### Stores -/

def Registers.afterRequest (r : Registers) : Request → Registers
  | .here (.ok .factoryReset) => r.reset
  | .here (.ok .save) => r.save
  | .here (.ok (.writeRegister index value)) => (r.set index value).1
  | _ => r

def Pins.afterRequest (b : Pins) : Request → Pins
  | .here (.ok (.pin index .output)) => b.setDirection index .output
  | .here (.ok (.pin index .input)) => b.setDirection index .input
  | .here (.ok (.pin index (.write level))) => (b.setValue index level).1
  | _ => b

lemma Pins.afterRequest_out_of_range {b : Pins} {index : Nat} (h : b.count ≤ index)
    (action : PinAction) : b.afterRequest (.here (.ok (.pin index action))) = b := by
  have hturn (d : PinDirection) : b.setDirection index d = b := by
    rw [Pins.setDirection, List.modify_eq_self h]
  cases action with
  | output | input => exact hturn _
  | read => rfl
  | write level =>
    have hnone : b.pins[index]? = none := List.getElem?_eq_none h
    simp [Pins.afterRequest, Pins.setValue, hnone]

/-- What the extended commands make of a calibration area. -/
def Calibration.afterExtended (c : Calibration) : Extended → Calibration
  | .writeChannel channel value => (c.set channel (UInt8.ofNat value)).1
  | .lockCalibration => c.lock.1
  | .power _ | .readChannel _ => c

def RelayQueue.afterRequest (q : RelayQueue) : Request → RelayQueue
  | .remote (.ok d) command => q.forward d command
  | _ => q

def TestMode.afterRequest (t : TestMode) : Request → TestMode
  | .here (.ok (.testMode change)) => change.apply t
  | _ => t

/-- The extended command that a line gives to a board that has them. -/
def Request.extended? (f : Features) : Request → Option Extended
  | .here (.ok (.extended request)) => if f.extendedCommands then some request else none
  | _ => none

lemma Request.extended?_eq_some {f : Features} {r : Request} {request : Extended}
    (h : r.extended? f = some request) :
    r = .here (.ok (.extended request)) ∧ f.extendedCommands = true := by
  unfold extended? at h
  split at h
  · split at h
    · next hf =>
      obtain rfl := Option.some.inj h
      exact ⟨rfl, hf⟩
    · cases h
  · cases h

/-- The power level that a line sets. -/
def Request.pwm? (f : Features) (r : Request) : Option UInt8 :=
  match r.extended? f with
  | some (.power pwm) => some (UInt8.ofNat pwm)
  | _ => none

namespace Node

/-- What a line makes of a node: nothing but its stores and its power stage changes. -/
def afterRequest (f : Features) (n : Node) (r : Request) : Node :=
  { n with
    registers := n.registers.afterRequest r
    calibration := n.calibration.map fun area => (r.extended? f).elim area area.afterExtended
    pins := n.pins.afterRequest r
    relay := n.relay.afterRequest r
    power := (r.pwm? f).getD n.power
    diversity := n.diversity && (r.pwm? f).isNone }

variable {f : Features} {n : Node} {t : TestMode}

lemma afterRequest_plain {r : Request} (h : r.extended? f = none) : n.afterRequest f r =
    { n with
      registers := n.registers.afterRequest r
      pins := n.pins.afterRequest r
      relay := n.relay.afterRequest r } := by
  simp [afterRequest, Request.pwm?, h]

open Dispatch

/-! ### Handlers -/

lemma settled_after {a : Attempt (Handled Node)} {b : Node} (h : ∃ d, a = .ok d ∧ d.board = b) :
    (settled n t a).board = b ∧ (settled n t a).tests = t := by
  obtain ⟨⟨b, answer, journal⟩, rfl, rfl⟩ := h
  cases answer <;> exact ⟨rfl, rfl⟩

/-- On a board that has extended commands, the calibration area or the power stage changes. -/
lemma afterRequest_extended (hf : f.extendedCommands = true) (request : Extended) :
    n.afterRequest f (.here (.ok (.extended request))) =
      match request with
      | .power pwm => { n with power := UInt8.ofNat pwm, diversity := false }
      | _ => { n with calibration := n.calibration.map (·.afterExtended request) } := by
  cases request <;>
    simp [afterRequest, Request.pwm?, Request.extended?, hf, Registers.afterRequest,
      Pins.afterRequest, RelayQueue.afterRequest, Calibration.afterExtended]

lemma calibrated_after {run : Node → Handled Node} {change : Calibration → Calibration}
    (h : ∀ area, n.calibration = some area →
      (run n).board = { n with calibration := some (change area) }) :
    (withCalibration n run).board = { n with calibration := n.calibration.map change } := by
  cases ha : n.calibration with
  | none =>
    have hnode : n = { n with calibration := none } := by rw [← ha]
    simp only [withCalibration, Board.hasCalibration, ha]
    exact hnode
  | some area =>
    simp only [withCalibration, Board.hasCalibration, ha]
    exact h area ha

lemma extended_after (request : Extended) :
    (extended f n request).board = n.afterRequest f (.here (.ok (.extended request))) := by
  cases hf : f.extendedCommands with
  | false =>
    have hnone : (Request.here (.ok (.extended request))).extended? f = none := by
      simp [Request.extended?, hf]
    rw [afterRequest_plain hnone]
    simp only [extended, hf]
    rfl
  | true =>
    rw [afterRequest_extended hf]
    simp only [extended, hf, if_true]
    cases request with
    | power pwm => rfl
    | readChannel channel =>
      refine calibrated_after fun area ha => ?_
      have hnode : n = { n with calibration := some area } := by rw [← ha]
      exact hnode
    | writeChannel channel value =>
      refine calibrated_after fun area ha => ?_
      simp [Board.setChannel, setChannel, ha, judged_board, Calibration.afterExtended]
    | lockCalibration =>
      refine calibrated_after fun area ha => ?_
      simp [Board.lockCalibration, lockCalibration, ha, judged_board, Calibration.afterExtended]

lemma pin_after (index : Nat) (action : PinAction) : ∃ d, pin n index action = .ok d ∧
    d.board = n.afterRequest f (.here (.ok (.pin index action))) := by
  rw [afterRequest_plain rfl]
  unfold pin
  split
  · cases action with
    | output | input => exact ⟨_, rfl, rfl⟩
    | write level => exact ⟨_, rfl, judged_board _ _⟩
    | read =>
      have hdirection : Board.pinDirection n index = .ok (n.pins.direction index) := rfl
      rw [hdirection]
      cases n.pins.direction index <;> exact ⟨_, rfl, rfl⟩
  · next hi =>
    have hcount : n.pins.count ≤ index := Nat.le_of_not_lt hi
    rw [Pins.afterRequest_out_of_range hcount]
    exact ⟨_, rfl, rfl⟩

lemma writeRegister_after (index value : Nat) : ∃ d, writeRegister n index value = .ok d ∧
    d.board = n.afterRequest f (.here (.ok (.writeRegister index value))) := by
  have hafter : n.afterRequest f (.here (.ok (.writeRegister index value))) =
      (n.setRegister index value).1 := afterRequest_plain rfl
  have hkept (h : Registers.writable index value = false) : (n.setRegister index value).1 = n := by
    simp [setRegister, Registers.set, h]
  rw [hafter]
  unfold writeRegister
  split
  · split
    · next hzero => exact ⟨_, rfl, (hkept (by simp [Registers.writable, hzero])).symm⟩
    · exact ⟨_, rfl, judged_board _ _⟩
  · next hi =>
    have hnone : Registers.info? index = none := List.getElem?_eq_none (Nat.le_of_not_lt hi)
    exact ⟨_, rfl, (hkept (by simp [Registers.writable, hnone])).symm⟩

/-! ### Lines -/

lemma execute_after (command : Command) :
    (execute f n t command).board = n.afterRequest f (.here (.ok command)) ∧
      (execute f n t command).tests = t.afterRequest (.here (.ok command)) := by
  cases command with
  | attention | forceUpdate | testMode change | online | reset | factoryReset | save =>
    rw [afterRequest_plain rfl]
    exact ⟨rfl, rfl⟩
  | extended request => exact settled_after ⟨_, rfl, extended_after request⟩
  | info query =>
    obtain ⟨text, htold⟩ := info_told n query
    rw [afterRequest_plain rfl]
    exact settled_after ⟨_, htold, rfl⟩
  | pinList =>
    obtain ⟨text, htold⟩ := pinList_told n
    rw [afterRequest_plain rfl]
    exact settled_after ⟨_, htold, rfl⟩
  | pin index action => exact settled_after (pin_after index action)
  | readRegister index =>
    obtain ⟨d, hd⟩ := readRegister_ok n index
    rw [afterRequest_plain rfl]
    exact settled_after ⟨d, hd, (readRegister_reads hd).1⟩
  | writeRegister index value => exact settled_after (writeRegister_after index value)

/-- What a line makes of its node and of the test modes is told from the line, store by store. -/
theorem run_after (f : Features) (n : Node) (t : TestMode) (line : String) :
    (Dispatch.run f n t line).board = n.afterRequest f (.parse line) ∧
      (Dispatch.run f n t line).tests = t.afterRequest (.parse line) := by
  simp only [Dispatch.run]
  cases Request.parse line with
  | ignored =>
    rw [afterRequest_plain rfl]
    exact ⟨rfl, rfl⟩
  | remote destination command =>
    rw [afterRequest_plain rfl]
    cases destination <;> exact ⟨rfl, rfl⟩
  | here command =>
    cases command with
    | ok command => exact execute_after command
    | error r =>
      rw [afterRequest_plain rfl]
      exact ⟨rfl, rfl⟩

end Node

end RadioModem
