import RadioModem.Proofs.Node

/-!
# Refusals

When a line is answered by `ERROR`, told from the line and the node alone, and what it does then:
every refusal is found before anything is changed, or by the store that was asked for the change.
-/
namespace RadioModem

/-! ### What is refused -/

def PinAction.refusal? (n : Node) (index : Nat) : PinAction → Option Refusal
  | output | input => none
  | read => if n.pins.direction index = .input then none else some (.rejected .pinDirection)
  | write level =>
    if n.pins.direction index = .output ∧ level ≤ 1 then none else some (.rejected .pin)

def Extended.refusal? (n : Node) : Extended → Option Refusal
  | power _ => none
  | readChannel _ => n.calibration.elim (some .unsupported) fun _ => none
  | writeChannel channel _ => n.calibration.elim (some .unsupported) fun area =>
    if area.locked = false ∧ channel < area.values.length then none
    else some (.rejected .calibrationStore)
  | lockCalibration => n.calibration.elim (some .unsupported) fun area =>
    if unwritten ∉ area.values then none else some (.rejected .calibrationStore)

/-- Why a node turns a command down, if it does. -/
def Command.refusal? (f : Features) (n : Node) : Command → Option Refusal
  | extended request => if f.extendedCommands then request.refusal? n else some .unsupported
  | pin index action =>
    if index < n.pins.count then action.refusal? n index
    else some (.outOfRange index n.pins.count)
  | readRegister index =>
    if index < Registers.count then none else some (.outOfRange index Registers.count)
  | writeRegister index value =>
    if index < Registers.count then
      if index = 0 then some (.readOnly index)
      else if Registers.writable index value then none
      else some (.rejected .parameterStore)
    else some (.outOfRange index Registers.count)
  | _ => none

/-- A command for another node is never refused by this one. -/
def Request.refusal? (f : Features) (n : Node) : Request → Option Refusal
  | here (.ok command) => command.refusal? f n
  | here (.error r) => some r
  | _ => none

/-! ### Stores that turn a change down -/

lemma Calibration.complete_iff {area : Calibration} :
    area.complete = true ↔ unwritten ∉ area.values := by
  simp only [complete, List.all_eq_true, bne_iff_ne]
  exact ⟨fun h hmem => h _ hmem rfl, fun h x hx he => h (he ▸ hx)⟩

namespace Node
variable {n : Node}

/-- What a store took is said by a condition, and a change that it did not take is no change. -/
structure Judges (n : Node) (taken : Prop) (change : Node × Bool) : Prop where
  taken_iff : change.2 = true ↔ taken
  kept : change.2 = false → change.1 = n
  identity : change.1.identity = n.identity

lemma setRegister_judges (n : Node) (index value : Nat) :
    Judges n (Registers.writable index value = true) (n.setRegister index value) := by
  simp only [setRegister, Registers.set]
  split
  · next h => exact ⟨by simp [h], by simp, rfl⟩
  · next h => exact ⟨by simp [h], fun _ => rfl, rfl⟩

lemma setChannel_judges {area : Calibration} (ha : n.calibration = some area) (channel : Nat)
    (value : UInt8) :
    Judges n (area.locked = false ∧ channel < area.values.length)
      (n.setChannel channel value) := by
  simp only [setChannel, ha, Calibration.set]
  split
  · next h => exact ⟨by simpa using h, by simp, rfl⟩
  · next h => exact ⟨by simpa using h, fun _ => by simp [← ha], rfl⟩

lemma lockCalibration_judges {area : Calibration} (ha : n.calibration = some area) :
    Judges n (unwritten ∉ area.values) (n.lockCalibration.1, n.lockCalibration.2.1) := by
  simp only [lockCalibration, ha, Calibration.lock]
  split
  · next h => exact ⟨by simpa using Calibration.complete_iff.mp h, by simp, rfl⟩
  · next h =>
    exact ⟨by simpa using mt Calibration.complete_iff.mpr h, fun _ => by simp [← ha], rfl⟩

lemma setPin_judges {index : Nat} (hi : index < n.pins.count) (level : Nat) :
    Judges n (n.pins.direction index = .output ∧ level ≤ 1) (n.setPin index level) := by
  have hpin : n.pins.pins[index]? = some n.pins.pins[index] := List.getElem?_eq_getElem hi
  simp only [setPin, Pins.setValue, Pins.direction, hpin]
  split
  · next h => exact ⟨by simpa [Pin.drives] using h, by simp, rfl⟩
  · next h => exact ⟨by simpa [Pin.drives] using h, fun _ => rfl, rfl⟩

/-! ### Handlers -/

open Dispatch

/-- What a handler makes of a command, by the reason to refuse it. No handler counts an error. -/
inductive Made (n : Node) : Option Refusal → Handled Node → Prop
  | refused (r : Refusal) {journal : Journal} (hj : journal.total .errors = 0) :
      Made n (some r) ⟨n, .error r, journal⟩
  | told (text : String) {journal : Journal} (hj : journal.total .errors = 0) :
      Made n none ⟨n, .ok text, journal⟩
  | changed {b : Node} {journal : Journal} (hb : b.identity = n.identity)
      (hj : journal.total .errors = 0) : Made n none ⟨b, .ok (reply n okText), journal⟩

lemma Made.with_journal {refusal : Option Refusal} {h : Handled Node} (hm : Made n refusal h)
    {journal : Journal} (hj : journal.total .errors = 0) :
    Made n refusal { h with journal } := by
  cases hm with
  | refused r => exact .refused r hj
  | told text => exact .told text hj
  | changed hb => exact .changed hb hj

lemma reply_of_identity {b : Node} (hb : b.identity = n.identity) (text : String) :
    reply b text = reply n text := by
  simp only [reply, Board.node, Board.identity, hb]

lemma made_accepted {b : Node} (hb : b.identity = n.identity) : Made n none (accepted b) := by
  rw [accepted, answered, reply_of_identity hb]
  exact .changed hb rfl

lemma Judges.made {taken : Prop} [Decidable taken] {b : Node} {accepts : Bool}
    (h : Judges n taken (b, accepts)) (source : Rejector) :
    Made n (if taken then none else some (.rejected source)) (judged source b accepts) := by
  cases accepts with
  | true =>
    rw [if_pos (h.taken_iff.mp rfl)]
    exact made_accepted h.identity
  | false =>
    obtain rfl : b = n := h.kept rfl
    rw [if_neg (mt h.taken_iff.mpr (by simp))]
    exact .refused _ rfl

variable {f : Features} {t : TestMode}

lemma calibrated_made {run : Node → Handled Node} {refusal : Calibration → Option Refusal}
    (h : ∀ area, n.calibration = some area → Made n (refusal area) (run n)) :
    Made n (n.calibration.elim (some .unsupported) refusal) (withCalibration n run) := by
  cases ha : n.calibration with
  | none =>
    simp only [withCalibration, Board.hasCalibration, ha]
    exact .refused _ rfl
  | some area =>
    simp only [withCalibration, Board.hasCalibration, ha]
    exact h area ha

lemma lockJournal_total (n : Node) : n.lockCalibration.2.2.total .errors = 0 := by
  cases ha : n.calibration with
  | none => simp only [lockCalibration, ha, Journal.total_empty]
  | some area =>
    simp only [lockCalibration, ha, Calibration.lockJournal]
    split <;> rfl

lemma extended_made (request : Extended) :
    Made n (if f.extendedCommands then request.refusal? n else some .unsupported)
      (extended f n request) := by
  unfold extended
  split
  · cases request with
    | power pwm =>
      have hset : Made n none
          (accepted { n with power := UInt8.ofNat pwm, diversity := false }) := made_accepted rfl
      exact hset.with_journal (Journal.total_note _ _ _)
    | readChannel channel => exact calibrated_made fun area ha => .told _ rfl
    | writeChannel channel value =>
      exact calibrated_made fun area ha => (setChannel_judges ha channel _).made _
    | lockCalibration =>
      exact calibrated_made fun area ha =>
        ((lockCalibration_judges ha).made _).with_journal (lockJournal_total n)
  · exact .refused _ rfl

lemma pin_made (index : Nat) (action : PinAction) : ∃ h, pin n index action = .ok h ∧
    Made n (if index < n.pins.count then action.refusal? n index
      else some (.outOfRange index n.pins.count)) h := by
  unfold pin
  by_cases hi : index < n.pins.count
  · have hcount : index < Board.pinCount n := hi
    rw [if_pos hi, if_pos hcount]
    cases action with
    | output | input => exact ⟨_, rfl, made_accepted rfl⟩
    | read =>
      have hdirection : Board.pinDirection n index = .ok (n.pins.direction index) := rfl
      rw [hdirection, PinAction.refusal?]
      cases n.pins.direction index with
      | input => exact ⟨_, rfl, .told _ rfl⟩
      | output => exact ⟨_, rfl, .refused _ rfl⟩
    | write level => exact ⟨_, rfl, (setPin_judges hi level).made _⟩
  · have hcount : ¬index < Board.pinCount n := hi
    rw [if_neg hi, if_neg hcount]
    exact ⟨_, rfl, .refused _ rfl⟩

lemma readRegister_made (index : Nat) : ∃ h, readRegister n index = .ok h ∧
    Made n (if index < Registers.count then none
      else some (.outOfRange index Registers.count)) h := by
  unfold readRegister
  have hcount : Board.registerCount n = Registers.count := rfl
  rw [hcount]
  split
  · exact ⟨_, rfl, .told _ rfl⟩
  · exact ⟨_, rfl, .refused _ rfl⟩

lemma writeRegister_made (index value : Nat) : ∃ h, writeRegister n index value = .ok h ∧
    Made n (if index < Registers.count then
      if index = 0 then some (.readOnly index)
      else if Registers.writable index value then none else some (.rejected .parameterStore)
      else some (.outOfRange index Registers.count)) h := by
  unfold writeRegister
  have hcount : Board.registerCount n = Registers.count := rfl
  rw [hcount]
  split
  · split
    · exact ⟨_, rfl, .refused _ rfl⟩
    · exact ⟨_, rfl, (setRegister_judges n index value).made _⟩
  · exact ⟨_, rfl, .refused _ rfl⟩

lemma told_made {a : Attempt (Handled Node)} (ha : ∃ text, a = .ok (answered n text)) :
    ∃ h, a = .ok h ∧ Made n none h := by
  obtain ⟨text, rfl⟩ := ha
  exact ⟨_, rfl, .told text rfl⟩

/-! ### Lines -/

/-- What a line comes to, by the reason to refuse it. Errors are counted where they are said. -/
inductive Answered (n : Node) (t : TestMode) : Option Refusal → Outcome Node → Prop
  | refused (r : Refusal) {journal : Journal} (hj : journal.total .errors = 1) :
      Answered n t (some r) ⟨n, t, reply n errorText, .stay, journal⟩
  | told (text : String) {journal : Journal} (hj : journal.total .errors = 0) :
      Answered n t none ⟨n, t, text, .stay, journal⟩
  | changed {b : Node} {journal : Journal} (hb : b.identity = n.identity)
      (hj : journal.total .errors = 0) :
      Answered n t none ⟨b, t, reply n okText, .stay, journal⟩
  | silent {b : Node} {later : TestMode} {effect : Effect} {journal : Journal}
      (hj : journal.total .errors = 0) : Answered n t none ⟨b, later, "", effect, journal⟩

variable {refusal : Option Refusal}

lemma Answered.behind {o : Outcome Node} (h : Answered n t refusal o) {journal : Journal}
    (hj : journal.total .errors = 0) :
    Answered n t refusal { o with journal := journal ++ o.journal } := by
  cases h with
  | refused r ho => exact .refused r (by simp [hj, ho])
  | told text ho => exact .told text (by simp [hj, ho])
  | changed hb ho => exact .changed hb (by simp [hj, ho])
  | silent ho => exact .silent (by simp [hj, ho])

lemma failed_answered (r : Refusal) {journal : Journal} (hj : journal.total .errors = 0) :
    Answered n t (some r) (failed n t r journal) :=
  .refused r (by simp [hj, Journal.total_count])

lemma settled_answered {a : Attempt (Handled Node)} (ha : ∃ h, a = .ok h ∧ Made n refusal h) :
    Answered n t refusal (settled n t a) := by
  obtain ⟨h, rfl, hm⟩ := ha
  cases hm with
  | refused r hj => exact failed_answered r hj
  | told text hj => exact .told text hj
  | changed hb hj => exact .changed hb hj

lemma halt_total (n : Node) (reason : HaltReason) : (n.halt reason).2.total .errors = 0 := by
  unfold halt
  split <;> rfl

lemma halting_answered (reason : HaltReason) {journal : Journal}
    (hj : journal.total .errors = 0) : Answered n t none (halting n t reason journal) :=
  .silent (by rw [Journal.total_append, hj, Nat.zero_add]; exact halt_total n reason)

theorem execute_answered (command : Command) :
    Answered n t (command.refusal? f n) (execute f n t command) := by
  cases command with
  | attention => exact settled_answered ⟨_, rfl, made_accepted rfl⟩
  | factoryReset =>
    have hreset : Made n none (accepted { n with registers := n.registers.reset }) :=
      made_accepted rfl
    exact settled_answered ⟨_, rfl, hreset⟩
  | save =>
    have hsaved : Made n none (accepted { n with registers := n.registers.save }) :=
      made_accepted rfl
    exact settled_answered ⟨_, rfl, hsaved.with_journal (Journal.total_note _ _ _)⟩
  | forceUpdate | reset => exact halting_answered _ rfl
  | testMode change | online => exact .silent rfl
  | extended request => exact settled_answered ⟨_, rfl, extended_made request⟩
  | info query => exact settled_answered (told_made (info_told n query))
  | pinList => exact settled_answered (told_made (pinList_told n))
  | pin index action => exact settled_answered (pin_made index action)
  | readRegister index => exact settled_answered (readRegister_made index)
  | writeRegister index value => exact settled_answered (writeRegister_made index value)

lemma forwardJournal_total (q : RelayQueue) (d : Destination) (command : String) :
    (q.forwardJournal d command).total .errors = 0 := by
  rw [RelayQueue.forwardJournal, Journal.total_append, Journal.total_note, Nat.zero_add]
  unfold RelayQueue.dropJournal
  split <;> rfl

/-- A line is refused for the reason that is told from it and the node, or not at all. -/
theorem run_answered (f : Features) (n : Node) (t : TestMode) (line : String) :
    Answered n t ((Request.parse line).refusal? f n) (Dispatch.run f n t line) := by
  refine Answered.behind (o := answer f n t (.parse line)) ?_ (Journal.total_note _ _ _)
  cases Request.parse line with
  | ignored => exact .silent rfl
  | remote destination command =>
    cases destination with
    | ok d =>
      have hcount : (Journal.count (.relayed d.reach) 1).total .errors = 0 := by
        simp [Journal.total_count]
      refine .silent ?_
      rw [Journal.total_append, hcount, Nat.zero_add]
      exact forwardJournal_total _ _ _
    | error r => exact .silent rfl
  | here command =>
    cases command with
    | ok command =>
      exact (execute_answered command).behind (by simp [Journal.total_count])
    | error r => exact failed_answered r rfl

/-- Every error is counted once, and only where there is a reason to refuse. -/
lemma Answered.errors {o : Outcome Node} (h : Answered n t refusal o) :
    o.journal.total .errors = if refusal.isSome then 1 else 0 := by
  cases h with
  | refused r hj => exact hj
  | told text hj => exact hj
  | changed hb hj => exact hj
  | silent hj => exact hj

lemma frame_inj {node : Address} {a b : String} (h : frame node a = frame node b) : a = b := by
  simpa [frame] using h

lemma frame_eq_iff {node : Address} {a b : String} : frame node a = frame node b ↔ a = b :=
  ⟨frame_inj, congrArg _⟩

lemma frame_ne_empty (node : Address) (text : String) : frame node text ≠ "" := by
  simp [frame]

/-- Where `ERROR` is said or counted, nothing else is said and nothing is changed. -/
lemma Answered.unchanged {o : Outcome Node} (h : Answered n t refusal o)
    (he : o.journal.total .errors ≠ 0 ∨ o.reply = frame n.identity.node errorText) :
    o.reply = frame n.identity.node errorText ∧ o.effect = .stay ∧ o.board = n ∧
      o.tests = t := by
  cases h with
  | refused r hj => exact ⟨rfl, rfl, rfl, rfl⟩
  | told text hj =>
    rcases he with he | he
    · exact absurd hj he
    · -- A banner may read like an error; to ask for it changes nothing either.
      exact ⟨he, rfl, rfl, rfl⟩
  | changed hb hj =>
    rcases he with he | he
    · exact absurd hj he
    · exact absurd (frame_inj he) (by decide)
  | silent hj =>
    rcases he with he | he
    · exact absurd hj he
    · exact absurd he.symm (frame_ne_empty _ _)

/-- A line is answered by an error exactly where there is a reason to refuse it, and then the error
is all that it does. -/
theorem error_changes_nothing (f : Features) (n : Node) (t : TestMode) (line : String) :
    let o := Dispatch.run f n t line
    (o.journal.total .errors ≠ 0 ↔ ∃ r, (Request.parse line).refusal? f n = some r) ∧
    (o.journal.total .errors ≠ 0 ∨ o.reply = frame n.identity.node errorText →
      o.reply = frame n.identity.node errorText ∧ o.effect = .stay ∧ o.board = n ∧
        o.tests = t) := by
  intro o
  have hanswered : Answered n t _ o := run_answered f n t line
  refine ⟨?_, hanswered.unchanged⟩
  rw [hanswered.errors, ← Option.isSome_iff_exists]
  cases ((Request.parse line).refusal? f n).isSome <;> simp

/-- A node with two channels of calibration, of which one has been written. -/
def halfCalibrated : Except SetupError Node := do
  let n ← ofConfiguration { Configuration.standard with calibration := ⟨true, 2⟩ }
  return (Dispatch.run ⟨true, false⟩ n .clear "AT+C0=7").board

theorem error_changes_nothing_halfCalibrated : ∃ n, halfCalibrated = .ok n ∧
    (Dispatch.run ⟨true, false⟩ n .clear "AT+L").reply = "[0] ERROR\n" ∧
    (Dispatch.run ⟨true, false⟩ n .clear "AT+L").board.calibration =
      some ⟨[7, unwritten], false⟩ := by
  have hrefused (n : Node) := (error_changes_nothing ⟨true, false⟩ n .clear "AT+L").2
  refine ⟨_, rfl, (hrefused _ (.inl ?_)).1.trans ?_, ?_⟩
  · decide +kernel
  · decide +kernel
  · rw [(hrefused _ (.inl (by decide +kernel))).2.2.1]
    decide +kernel

end Node

end RadioModem
