import RadioModem.Node.Basic
import RadioModem.Proofs.Dispatch

/-!
# Lines on a node

What a line leaves alone on the board of a simulated node, how it may stop one, and the record by
which the journal tells that a line was run: each run leaves exactly one.
-/
namespace RadioModem

/-- The tag that opens the records of a node. -/
def nodeTag (node : Address) : String := "[" ++ toString node.toNat ++ "] "

/-- The record of a line that is handed over to be run. -/
def runRecord (node : Address) (line : String) : Record :=
  ⟨.debug, nodeTag node ++ ("dispatch " ++ Text.quoted line)⟩

def Record.isRun (node : Address) (r : Record) : Bool :=
  r.level = .debug && (nodeTag node ++ "dispatch ").toList.isPrefixOf r.message.toList

/-- A request that asks the board to stop. -/
def Request.Stops (r : Request) : Prop := r = .here (.ok .forceUpdate) ∨ r = .here (.ok .reset)

/-- The command that halts a board for some reason. -/
def HaltReason.command : HaltReason → Command
  | reset => .reset
  | flashFault => .forceUpdate

lemma Request.stops_iff {r : Request} :
    r.Stops ↔ ∃ reason : HaltReason, r = .here (.ok reason.command) := by
  constructor
  · rintro (rfl | rfl)
    · exact ⟨.flashFault, rfl⟩
    · exact ⟨.reset, rfl⟩
  · rintro ⟨reason, rfl⟩
    cases reason
    · exact .inr rfl
    · exact .inl rfl

namespace Journal

/-- The records of lines that were run, in order. -/
def runs (node : Address) (j : Journal) : List Record := j.records.filter (Record.isRun node)

variable {node : Address}

@[simp] lemma runs_empty : empty.runs node = [] := rfl

@[simp] lemma runs_count (c : Counter) (n : Nat) : (count c n).runs node = [] := rfl

@[simp] lemma runs_append (a b : Journal) : (a ++ b).runs node = a.runs node ++ b.runs node := by
  simp [runs]

lemma runs_note_of_level {level : Level} (h : level ≠ .debug) (message : String) :
    (note level message).runs node = [] := by
  simp [runs, note, Record.isRun, h]

/-- Records of a node's own open with a bracket. -/
lemma runs_note_of_head {message : String} {c : Char} (h : message.toList.head? = some c)
    (hc : c ≠ '[') (level : Level) : (note level message).runs node = [] := by
  obtain ⟨rest, hm⟩ := List.head?_eq_some_iff.mp h
  simp [runs, note, Record.isRun, nodeTag, hm, List.isPrefixOf, hc.symm]

lemma runs_error (message : String) (level : Level) :
    (note level (nodeTag node ++ ("ERROR: " ++ message))).runs node = [] := by
  simp [runs, note, Record.isRun]

lemma runs_runRecord (line : String) :
    runs node ⟨[runRecord node line], []⟩ = [runRecord node line] := by
  simp [runs, Record.isRun, runRecord]

end Journal

namespace Node
variable {n : Node} {t : TestMode} {f : Features}

/-- What nothing that a line can do changes about a node. -/
structure Keeps (before after : Node) : Prop where
  identity : after.identity = before.identity
  link : after.link = before.link
  watchdog : after.watchdog = before.watchdog
  onHalt : after.onHalt = before.onHalt

lemma keeps_refl (n : Node) : Keeps n n := ⟨rfl, rfl, rfl, rfl⟩

lemma Keeps.trans {a b c : Node} (h : Keeps a b) (g : Keeps b c) : Keeps a c :=
  ⟨g.identity.trans h.identity, g.link.trans h.link, g.watchdog.trans h.watchdog,
    g.onHalt.trans h.onHalt⟩

lemma setChannel_keeps (n : Node) (index : Nat) (value : UInt8) :
    Keeps n (n.setChannel index value).1 := by
  unfold setChannel
  split <;> exact ⟨rfl, rfl, rfl, rfl⟩

lemma lockCalibration_keeps (n : Node) : Keeps n n.lockCalibration.1 := by
  unfold lockCalibration
  split <;> exact ⟨rfl, rfl, rfl, rfl⟩

lemma keeps_steady (n : Node) : Board.Steady (Keeps n) where
  setRegister hb he := by
    cases he
    exact hb.trans ⟨rfl, rfl, rfl, rfl⟩
  saveRegisters hb := hb.trans ⟨rfl, rfl, rfl, rfl⟩
  resetRegisters hb := hb.trans ⟨rfl, rfl, rfl, rfl⟩
  setChannel hb := hb.trans (setChannel_keeps _ _ _)
  lockCalibration hb := hb.trans (lockCalibration_keeps _)
  setPinDirection hb he := by
    cases he
    exact hb.trans ⟨rfl, rfl, rfl, rfl⟩
  setPin hb he := by
    cases he
    exact hb.trans ⟨rfl, rfl, rfl, rfl⟩
  forward hb := hb.trans ⟨rfl, rfl, rfl, rfl⟩
  setPower hb := hb.trans ⟨rfl, rfl, rfl, rfl⟩
  setDiversity hb := hb.trans ⟨rfl, rfl, rfl, rfl⟩

/-- What a board built from a configuration starts with. -/
structure Fresh (c : Configuration) (n : Node) : Prop where
  identity : n.identity = c.identity
  relay : n.relay = .empty
  watchdog : n.watchdog = c.modem.features.watchdog
  onHalt : n.onHalt = .report

/-- What a board is built of: its registers are the file of its node with the start-up values, and
the other parts follow from the configuration. -/
lemma ofConfiguration_built {c : Configuration} (h : ofConfiguration c = .ok n) :
    ∃ blank registers, Registers.forNode c.identity.node = .ok blank ∧
      blank.override c.parameters = (registers, none) ∧
      registers.get nodeIdIndex = c.identity.node.toNat ∧
      n = {
        identity := c.identity
        registers
        calibration :=
          if c.calibration.enabled then some (.ofChannels c.calibration.channels) else none
        pins := .ofSettings c.pins
        relay := .empty
        link := c.diagnostics
        watchdog := c.modem.features.watchdog
        power := 0
        diversity := true
        onHalt := .report } := by
  obtain ⟨blank, hblank, h⟩ := bind_ok h
  split at h
  · cases h
  · next registers hoverride =>
    dsimp only at h
    split at h
    · cases h
    · next hheld =>
      have hn := (Except.ok.inj h).symm
      exact ⟨blank, registers, hblank, hoverride, not_not.mp hheld, hn⟩

lemma fresh_ofConfiguration {c : Configuration} (h : ofConfiguration c = .ok n) : Fresh c n := by
  obtain ⟨blank, registers, -, -, -, rfl⟩ := ofConfiguration_built h
  exact ⟨rfl, rfl, rfl, rfl⟩

theorem run_keeps (f : Features) (n : Node) (t : TestMode) (line : String) :
    Keeps n (Dispatch.run f n t line).board :=
  Dispatch.run_steady (keeps_steady n) (keeps_refl n) line

/-! ### The records of one line -/

open Dispatch

lemma halt_runs (n : Node) (reason : HaltReason) :
    (n.halt reason).2.runs n.identity.node = [] := by
  unfold halt
  split
  · exact Journal.runs_note_of_head (c := 'b') (by rw [String.toList_append]; rfl) (by decide) _
  · rfl

lemma failed_runs (n : Node) (t : TestMode) (r : Refusal) {journal : Journal}
    (h : journal.runs n.identity.node = []) :
    (failed n t r journal).journal.runs n.identity.node = [] := by
  have he : (Journal.note .debug (tagged n ("ERROR: " ++ r.message))).runs n.identity.node = [] :=
    Journal.runs_error _ _
  simp only [failed, Journal.runs_append, Journal.runs_count, h, he, List.append_nil]

lemma settled_runs {a : Attempt (Handled Node)} (hk : ∀ d, a = .ok d → Keeps n d.board)
    (hj : ∀ d, a = .ok d → d.journal.runs n.identity.node = []) :
    (settled n t a).journal.runs n.identity.node = [] := by
  cases a with
  | error how => rfl
  | ok d =>
    have hn : d.board.identity = n.identity := (hk d rfl).identity
    have hd := hj d rfl
    rw [← hn] at hd ⊢
    obtain ⟨c, answer, journal⟩ := d
    cases answer with
    | ok text => exact hd
    | error r => exact failed_runs c t r hd

lemma extended_runs (request : Extended) :
    (extended f n request).journal.runs n.identity.node = [] := by
  unfold extended
  split
  · cases request with
    | power pwm =>
      exact Journal.runs_note_of_head (c := 'p') (by rw [String.toList_append]; rfl) (by decide) _
    | readChannel channel =>
      simp only [withCalibration]
      split <;> rfl
    | writeChannel channel value =>
      simp only [withCalibration]
      split
      · rw [judged_journal]
        rfl
      · rfl
    | lockCalibration =>
      simp only [withCalibration]
      split
      · simp only [Board.lockCalibration, lockCalibration]
        split
        · rfl
        · unfold Calibration.lockJournal
          split
          · rfl
          · exact Journal.runs_note_of_level (by decide) _
      · rfl
  · rfl

lemma forwardJournal_runs (q : RelayQueue) (d : Destination) (command : String) (node : Address) :
    (q.forwardJournal d command).runs node = [] := by
  have hd : q.dropJournal.runs node = [] := by
    unfold RelayQueue.dropJournal
    split
    · exact Journal.runs_note_of_level (by decide) _
    · rfl
  rw [RelayQueue.forwardJournal, Journal.runs_append, hd, List.append_nil]
  exact Journal.runs_note_of_level (by decide) _

lemma execute_runs (command : Command) :
    (execute f n t command).journal.runs n.identity.node = [] := by
  have hP := (keeps_steady n).toLocallySteady
  have hn := keeps_refl n
  cases command with
  | attention | factoryReset | online => rfl
  | save => exact Journal.runs_note_of_head (c := 's') (by simp) (by decide) _
  | testMode change =>
    exact Journal.runs_note_of_head (c := 't') (by rw [String.toList_append]; rfl) (by decide) _
  | forceUpdate | reset =>
    simp only [execute, halting, Journal.runs_append]
    rw [Journal.runs_note_of_level (by decide)]
    exact halt_runs n _
  | extended request =>
    refine settled_runs (fun d he => ?_) (fun d he => ?_)
    · cases he
      exact extended_steady hP hn request
    · cases he
      exact extended_runs request
  | info query =>
    exact settled_runs (fun d he => (info_reads he).1 ▸ hn)
      (fun d he => by rw [(info_reads he).2, Journal.runs_empty])
  | pinList =>
    exact settled_runs (fun d he => (pinList_reads he).1 ▸ hn)
      (fun d he => by rw [(pinList_reads he).2, Journal.runs_empty])
  | pin index action =>
    exact settled_runs (fun d he => pin_steady hP hn he)
      (fun d he => by rw [(pin_cases he).1, Journal.runs_empty])
  | readRegister index =>
    exact settled_runs (fun d he => (readRegister_reads he).1 ▸ hn)
      (fun d he => by rw [(readRegister_reads he).2, Journal.runs_empty])
  | writeRegister index value =>
    exact settled_runs (fun d he => writeRegister_steady hP hn he)
      (fun d he => by rw [(writeRegister_cases he).1, Journal.runs_empty])

/-- One line leaves one record of being run. -/
theorem run_runs (f : Features) (n : Node) (t : TestMode) (line : String) :
    (Dispatch.run f n t line).journal.runs n.identity.node = [runRecord n.identity.node line] := by
  have ha : (answer f n t (.parse line)).journal.runs n.identity.node = [] := by
    cases Request.parse line with
    | ignored => rfl
    | remote destination command =>
      cases destination with
      | ok d => exact forwardJournal_runs n.relay d command n.identity.node
      | error r => exact Journal.runs_note_of_level (by decide) _
    | here command =>
      cases command with
      | ok command =>
        simp only [answer, Journal.runs_append, Journal.runs_count, List.nil_append]
        exact execute_runs command
      | error r => exact failed_runs n t r rfl
  simp only [Dispatch.run, Journal.runs_append, ha, List.append_nil]
  exact Journal.runs_runRecord line

/-! ### How a line stops a node -/

lemma mapM_ok {α γ : Type} {g : α → Attempt γ} (h : ∀ x, ∃ y, g x = .ok y) (xs : List α) :
    ∃ ys, xs.mapM g = .ok ys := by
  induction xs with
  | nil => exact ⟨[], rfl⟩
  | cons x xs ih =>
    obtain ⟨y, hy⟩ := h x
    obtain ⟨ys, hys⟩ := ih
    refine ⟨y :: ys, ?_⟩
    rw [List.mapM_cons, hy, hys]
    rfl

lemma info_told (n : Node) (q : Query) : ∃ text, info n q = .ok (answered n text) := by
  cases q with
  | parameters =>
    obtain ⟨lines, hl⟩ := mapM_ok (g := Board.registerLine n (Board.node n)) (fun _ => ⟨_, rfl⟩)
      (List.range (Board.registerCount n))
    exact ⟨_, by rw [info, parameters, hl]; rfl⟩
  | banner | version | boardId | frequency | bootloader | timing | signal | sync => exact ⟨_, rfl⟩

lemma pinList_told (n : Node) : ∃ text, pinList n = .ok (answered n text) := by
  obtain ⟨lines, hl⟩ := mapM_ok (g := pinLine n) (fun _ => ⟨_, rfl⟩) (List.range (Board.pinCount n))
  exact ⟨_, by rw [pinList, hl]; rfl⟩

lemma pin_ok (n : Node) (index : Nat) (action : PinAction) : ∃ d, pin n index action = .ok d := by
  unfold pin
  split
  · cases action with
    | output | input | write level => exact ⟨_, rfl⟩
    | read =>
      have hd : Board.pinDirection n index = .ok (n.pins.direction index) := rfl
      rw [hd]
      cases n.pins.direction index <;> exact ⟨_, rfl⟩
  · exact ⟨_, rfl⟩

lemma readRegister_ok (n : Node) (index : Nat) : ∃ d, readRegister n index = .ok d := by
  unfold readRegister
  split <;> exact ⟨_, rfl⟩

lemma writeRegister_ok (n : Node) (index value : Nat) :
    ∃ d, writeRegister n index value = .ok d := by
  unfold writeRegister
  split
  · split <;> exact ⟨_, rfl⟩
  · exact ⟨_, rfl⟩

lemma settled_stays {a : Attempt (Handled Node)} (ha : ∃ d, a = .ok d) :
    (settled n t a).effect = .stay := by
  obtain ⟨⟨b, answer, journal⟩, rfl⟩ := ha
  cases answer <;> rfl

lemma execute_stops_iff (command : Command) :
    (∃ how, (execute f n t command).effect = .stop how) ↔
      command = .forceUpdate ∨ command = .reset := by
  have hstays {a : Attempt (Handled Node)} (ha : ∃ d, a = .ok d) :
      ¬∃ how, (settled n t a).effect = .stop how := by
    rw [settled_stays ha]
    exact nofun
  cases command with
  | forceUpdate => exact iff_of_true ⟨_, rfl⟩ (.inl rfl)
  | reset => exact iff_of_true ⟨_, rfl⟩ (.inr rfl)
  | testMode change | online => exact iff_of_false nofun (by simp)
  | attention | factoryReset | save | extended request =>
    exact iff_of_false (hstays ⟨_, rfl⟩) (by simp)
  | info query =>
    obtain ⟨text, htold⟩ := info_told n query
    exact iff_of_false (hstays ⟨_, htold⟩) (by simp)
  | pinList =>
    obtain ⟨text, htold⟩ := pinList_told n
    exact iff_of_false (hstays ⟨_, htold⟩) (by simp)
  | pin index action => exact iff_of_false (hstays (pin_ok n index action)) (by simp)
  | readRegister index => exact iff_of_false (hstays (readRegister_ok n index)) (by simp)
  | writeRegister index value =>
    exact iff_of_false (hstays (writeRegister_ok n index value)) (by simp)

/-- Whether a line stops a node is up to the line alone. -/
theorem run_stops_iff (line : String) :
    (∃ how, (Dispatch.run f n t line).effect = .stop how) ↔ (Request.parse line).Stops := by
  simp only [Dispatch.run]
  cases Request.parse line with
  | ignored => exact iff_of_false (by rintro ⟨_, ⟨⟩⟩) (by simp [Request.Stops])
  | remote destination command =>
    cases destination <;> exact iff_of_false (by rintro ⟨_, ⟨⟩⟩) (by simp [Request.Stops])
  | here command =>
    cases command with
    | ok command => simpa [answer, Request.Stops] using execute_stops_iff command
    | error r => exact iff_of_false (by rintro ⟨_, ⟨⟩⟩) (by simp [Request.Stops])

variable {how : Stop}

/-- A command that halts a node does nothing else. -/
lemma run_halting (hn : n.onHalt = .report) {reason : HaltReason} {line : String}
    (h : Request.parse line = .here (.ok reason.command)) (f : Features) (t : TestMode) :
    ∃ journal, Dispatch.run f n t line = ⟨n, t, "", .stop (.halted reason), journal⟩ := by
  cases reason <;>
    simp [Dispatch.run, h, HaltReason.command, answer, execute, halting, Board.halt, halt, hn]

/-- A node that reports its halts stops in no other way. -/
theorem run_stop (hn : n.onHalt = .report) {line : String}
    (h : (Dispatch.run f n t line).effect = .stop how) : ∃ reason, how = .halted reason := by
  obtain ⟨reason, hparse⟩ := Request.stops_iff.mp ((run_stops_iff line).mp ⟨how, h⟩)
  obtain ⟨journal, hrun⟩ := run_halting hn hparse f t
  rw [hrun] at h
  cases h
  exact ⟨reason, rfl⟩

end Node

end RadioModem
