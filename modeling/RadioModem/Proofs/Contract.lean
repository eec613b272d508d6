import RadioModem.Bench
import RadioModem.Proofs.Calls
import RadioModem.Proofs.Node

/-!
# The contract of a board

A board may stop on an index beyond its count, and need not be ready for its calibration or its
power to be asked for. No line puts it to the test: whatever a board with fixed counts answers, each
call is within the contract. So a board that stops there only, such as the bench board, is stopped
by the two commands that halt it and by nothing else.
-/
namespace RadioModem

variable {f : Features} {registers pins : Nat} {r : Request}

/-- What a board has to expect from a request under the features that are on. No request asks for
the watchdog. -/
def Call.Within (f : Features) (registers pins : Nat) (r : Request) : Call → Prop
  | register index | registerLine _ index => index < registers
  | setRegister index _ => index < registers ∧ index ≠ 0
  | pinDirection index | setPinDirection index _ | pinValue index | setPin index _ => index < pins
  | hasCalibration | channel _ | setChannel _ _ | lockCalibration | setPower _ | setDiversity _ =>
    f.extendedCommands = true
  | setWatchdog _ => False
  | halt reason => r = .here (.ok reason.command)
  | identity | registerCount | saveRegisters | resetRegisters | pinCount | forward _ _
  | timingReport _ | signalReport _ | syncState => True

/-- The counts are told as they are, and all else is answered at will. -/
def Call.Told (registers pins : Nat) : (c : Call) → c.Answer → Prop
  | registerCount, count => count = registers
  | pinCount, count => count = pins
  | _, _ => True

namespace Script
variable {α ω : Type}

/-- Every call of a script is within the contract, whatever it is answered. -/
def Within (f : Features) (registers pins : Nat) (r : Request) : Script α → Prop
  | done _ => True
  | note _ s => s.Within f registers pins r
  | call c next => c.Within f registers pins r ∧
    ∀ answer, c.Told registers pins answer → (next answer).Within f registers pins r

lemma Within.bind {s : Script α} (hs : s.Within f registers pins r) {next : α → Script ω}
    (hnext : ∀ a, (next a).Within f registers pins r) :
    (s >>= next).Within f registers pins r := by
  change (s.bind next).Within f registers pins r
  induction s with
  | done a => exact hnext a
  | note journal s ih => exact ih hs
  | call c answered ih => exact ⟨hs.1, fun answer htold => ih answer (hs.2 answer htold)⟩

lemma Within.ask (c : Call) (hc : c.Within f registers pins r) {next : c.Answer → Script α}
    (hnext : ∀ answer, c.Told registers pins answer → (next answer).Within f registers pins r) :
    (Script.ask c >>= next).Within f registers pins r := ⟨hc, hnext⟩

lemma Within.write {journal : Journal} {next : Unit → Script α}
    (hnext : (next ()).Within f registers pins r) :
    (Script.write journal >>= next).Within f registers pins r := hnext

/-! ### The commands keep to the contract -/

lemma within_framed (text : String) : (framed text).Within f registers pins r :=
  ⟨trivial, fun _ _ => trivial⟩

lemma within_told (text : String) : (told text).Within f registers pins r :=
  ⟨trivial, fun _ _ => trivial⟩

lemma within_judged (source : Rejector) (taken : Bool) :
    (judged source taken).Within f registers pins r := by
  unfold judged
  split
  · exact within_told _
  · trivial

lemma within_extended (request : Extended) : (extended f request).Within f registers pins r := by
  unfold extended
  split
  · next hf =>
    have hcalibration {s : Script Answer} (hs : s.Within f registers pins r) :
        (withCalibration s).Within f registers pins r := by
      refine ⟨hf, fun has _ => ?_⟩
      cases has
      · trivial
      · exact hs
    cases request with
    | power pwm => exact ⟨hf, fun _ _ => ⟨hf, fun _ _ => within_told _⟩⟩
    | readChannel channel => exact hcalibration ⟨hf, fun _ _ => within_told _⟩
    | writeChannel channel value => exact hcalibration ⟨hf, fun _ _ => within_judged _ _⟩
    | lockCalibration => exact hcalibration ⟨hf, fun _ _ => within_judged _ _⟩
  · trivial

lemma within_listed {count : Nat} {line : Nat → Script String}
    (h : ∀ index < count, (line index).Within f registers pins r) :
    (listed count line).Within f registers pins r := by
  have hlines (indices : List Nat) (hi : ∀ index ∈ indices, index < count) :
      (indices.mapM' line).Within f registers pins r := by
    induction indices with
    | nil => trivial
    | cons index indices ih =>
      rw [List.mapM'_cons]
      obtain ⟨hindex, hindices⟩ := List.forall_mem_cons.mp hi
      exact .bind (h index hindex) fun _ => .bind (ih hindices) fun _ => trivial
  exact .bind (hlines _ fun index hi => List.mem_range.mp hi) fun _ => trivial

lemma within_info (q : Query) : (info q).Within f registers pins r := by
  cases q with
  | banner | version | boardId | frequency | bootloader =>
    exact ⟨trivial, fun _ _ => within_told _⟩
  | parameters =>
    refine ⟨trivial, fun count hcount => ⟨trivial, fun _ _ => within_listed fun index hi => ?_⟩⟩
    obtain rfl := hcount
    exact ⟨hi, fun _ _ => trivial⟩
  | timing | signal => exact ⟨trivial, fun _ _ => ⟨trivial, fun _ _ => trivial⟩⟩
  | sync =>
    have htext : syncText.Within f registers pins r := by
      unfold syncText
      refine .bind (s := node) ⟨trivial, fun _ _ => trivial⟩ fun node => ?_
      split
      · trivial
      · exact ⟨trivial, fun _ _ => trivial⟩
    exact .bind htext fun _ => within_told _

lemma within_pinList : pinList.Within f registers pins r := by
  refine ⟨trivial, fun count hcount => within_listed fun index hi => ?_⟩
  obtain rfl := hcount
  exact ⟨hi, fun _ _ => ⟨hi, fun _ _ => within_framed _⟩⟩

lemma within_pin (index : Nat) (action : PinAction) :
    (pin index action).Within f registers pins r := by
  unfold pin
  refine .ask .pinCount trivial fun count hcount => ?_
  obtain rfl := hcount
  split
  · next hi =>
    cases action with
    | output | input => exact ⟨hi, fun _ _ => within_told _⟩
    | read =>
      refine ⟨hi, fun direction _ => ?_⟩
      cases direction with
      | input => exact ⟨hi, fun _ _ => within_told _⟩
      | output => trivial
    | write level => exact ⟨hi, fun _ _ => within_judged _ _⟩
  · trivial

lemma within_readRegister (index : Nat) : (readRegister index).Within f registers pins r := by
  unfold readRegister
  refine .ask .registerCount trivial fun count hcount => ?_
  obtain rfl := hcount
  split
  · next hi => exact ⟨hi, fun _ _ => within_told _⟩
  · trivial

lemma within_writeRegister (index value : Nat) :
    (writeRegister index value).Within f registers pins r := by
  unfold writeRegister
  refine .ask .registerCount trivial fun count hcount => ?_
  obtain rfl := hcount
  split
  · next hi =>
    split
    · trivial
    · next hzero => exact ⟨⟨hi, hzero⟩, fun _ _ => within_judged _ _⟩
  · trivial

/-! ### So do the lines -/

variable {t : TestMode}

lemma within_failed (refusal : Refusal) : (failed t refusal).Within f registers pins r :=
  ⟨trivial, fun _ _ => ⟨trivial, fun _ _ => trivial⟩⟩

lemma within_settled {s : Script Answer} (hs : s.Within f registers pins r) :
    (settled t s).Within f registers pins r := by
  refine .bind hs fun answer => ?_
  cases answer with
  | ok text => trivial
  | error refusal => exact within_failed refusal

lemma within_execute (command : Command) :
    (execute f t command).Within f registers pins (.here (.ok command)) := by
  cases command with
  | attention => exact within_settled (within_told _)
  | factoryReset | save => exact within_settled ⟨trivial, fun _ _ => within_told _⟩
  | forceUpdate => exact ⟨rfl, nofun⟩
  | testMode change | online => trivial
  | extended request => exact within_settled (within_extended request)
  | info query => exact within_settled (within_info query)
  | pinList => exact within_settled within_pinList
  | pin index action => exact within_settled (within_pin index action)
  | readRegister index => exact within_settled (within_readRegister index)
  | writeRegister index value => exact within_settled (within_writeRegister index value)
  | reset => exact ⟨trivial, fun _ _ => ⟨rfl, nofun⟩⟩

/-- Whatever is answered, each call of a line is within the contract. -/
theorem within_ofLine (line : String) :
    (ofLine f t line).Within f registers pins (.parse line) := by
  refine ⟨trivial, fun _ _ => .write ?_⟩
  cases Request.parse line with
  | ignored => trivial
  | remote destination command =>
    cases destination with
    | ok d => exact .write ⟨trivial, fun _ _ => trivial⟩
    | error refusal => trivial
  | here command =>
    cases command with
    | ok command => exact .write (within_execute command)
    | error refusal => exact within_failed refusal

end Script

/-! ### Boards with fixed counts -/

section
variable {β : Type} [Board β] {P : β → Prop} {b : β}

/-- A property of boards that settles their counts, and that no operation called for a line takes
away. -/
structure Board.Counted (registers pins : Nat) (P : β → Prop) : Prop extends Board.Steady P where
  registerCount {b : β} : P b → Board.registerCount b = registers
  pinCount {b : β} : P b → Board.pinCount b = pins

/-- The board behind a call within the contract has the same counts, and tells them if asked. -/
lemma Board.Counted.answered (hP : Board.Counted registers pins P) (hb : P b) {asked : Call}
    (hasked : asked.Within f registers pins r) {c : β} {answer : asked.Answer} {journal : Journal}
    (h : asked.on b = (.ok (c, answer), journal)) : P c ∧ asked.Told registers pins answer := by
  obtain ⟨h, -⟩ := Prod.mk.inj h
  cases asked with
  | identity | hasCalibration | channel index | timingReport node | signalReport node | syncState =>
    cases h
    exact ⟨hb, trivial⟩
  | registerCount =>
    cases h
    exact ⟨hb, hP.registerCount hb⟩
  | pinCount =>
    cases h
    exact ⟨hb, hP.pinCount hb⟩
  | register index | registerLine node index | pinDirection index | pinValue index =>
    obtain ⟨x, -, hx⟩ := map_ok h
    cases hx
    exact ⟨hb, trivial⟩
  | setRegister index value => exact ⟨hP.setRegister hb h, trivial⟩
  | setPin index level => exact ⟨hP.setPin hb h, trivial⟩
  | setPinDirection index d =>
    obtain ⟨x, hset, hx⟩ := map_ok h
    cases hx
    exact ⟨hP.setPinDirection hb hset, trivial⟩
  | saveRegisters =>
    cases h
    exact ⟨hP.saveRegisters hb, trivial⟩
  | resetRegisters =>
    cases h
    exact ⟨hP.resetRegisters hb, trivial⟩
  | setChannel index value =>
    obtain rfl := congrArg Prod.fst (Except.ok.inj h)
    exact ⟨hP.setChannel hb, trivial⟩
  | lockCalibration =>
    cases h
    exact ⟨hP.lockCalibration hb, trivial⟩
  | forward d command =>
    cases h
    exact ⟨hP.forward hb, trivial⟩
  | setPower pwm =>
    cases h
    exact ⟨hP.setPower hb, trivial⟩
  | setDiversity enabled =>
    cases h
    exact ⟨hP.setDiversity hb, trivial⟩
  | setWatchdog enabled => exact hasked.elim
  | halt reason => cases h

namespace Script
variable {α : Type} {s : Script α}

lemma Within.mem_calls (hs : s.Within f registers pins r) (hP : Board.Counted registers pins P)
    (hb : P b) : ∀ c ∈ s.calls b, c.Within f registers pins r := by
  induction s generalizing b with
  | done a => nofun
  | note journal s ih => exact ih hs hb
  | call c next ih =>
    rw [calls]
    refine List.forall_mem_cons.mpr ⟨hs.1, ?_⟩
    split
    · nofun
    · next b' answer journal hon =>
      obtain ⟨hb', htold⟩ := hP.answered hb hs.1 hon
      exact ih answer (hs.2 answer htold) hb'

/-- A board that stops has been asked for what it stops at. -/
lemma Within.stopped (hs : s.Within f registers pins r) (hP : Board.Counted registers pins P)
    (hb : P b) {how : Stop} (h : (s.on b).result = .error how) :
    ∃ (asked : Call) (c : β), P c ∧ asked.Within f registers pins r ∧
      (asked.on c).1 = .error how := by
  induction s generalizing b with
  | done a => cases h
  | note journal s ih => exact ih hs hb h
  | call c next ih =>
    rw [on] at h
    split at h
    · next how' journal hon =>
      cases h
      exact ⟨c, b, hb, hs.1, by rw [hon]⟩
    · next b' answer journal hon =>
      obtain ⟨hb', htold⟩ := hP.answered hb hs.1 hon
      exact ih answer (hs.2 answer htold) hb' h

end Script

end

/-! ### The bench board -/

namespace Bench
variable {b : Bench}

/-- A bench board keeps the registers and the pins that it is made with. -/
structure Sized (b : Bench) : Prop where
  registers : b.registers.length = registerDefaults.length
  pins : b.pins.length = 2

lemma sized_ofNode (node : Address) : (ofNode node).Sized := ⟨rfl, rfl⟩

lemma read_ok {α : Type} {items : List α} {index : Nat} (h : index < items.length) :
    read items index = .ok items[index] := by
  rw [read, List.getElem?_eq_getElem h]

lemma setRegister_ok {index : Nat} (h : index < b.registers.length) (value : Nat) :
    ∃ made, b.setRegister index value = .ok made := by
  unfold setRegister
  rw [read_ok h]
  split <;> exact ⟨_, rfl⟩

lemma setPin_ok {index : Nat} (h : index < b.pins.length) (level : Nat) :
    ∃ made, b.setPin index level = .ok made := by
  unfold setPin
  rw [read_ok h]
  simp only [bind, Except.bind]
  split <;> exact ⟨_, rfl⟩

lemma setRegister_sized (hb : b.Sized) {c : Bench} {index value : Nat} {taken : Bool}
    (h : b.setRegister index value = .ok (c, taken)) : c.Sized := by
  unfold setRegister at h
  split at h
  · cases h
    exact hb
  · obtain ⟨_, -, h⟩ := bind_ok h
    cases h
    exact ⟨(List.length_set ..).trans hb.registers, hb.pins⟩

lemma setPinDirection_sized (hb : b.Sized) {c : Bench} {index : Nat} {d : PinDirection}
    (h : b.setPinDirection index d = .ok c) : c.Sized := by
  obtain ⟨_, -, h⟩ := bind_ok h
  cases h
  exact ⟨hb.registers, (List.length_set ..).trans hb.pins⟩

lemma setPin_sized (hb : b.Sized) {c : Bench} {index level : Nat} {taken : Bool}
    (h : b.setPin index level = .ok (c, taken)) : c.Sized := by
  obtain ⟨⟨direction, _⟩, -, h⟩ := bind_ok h
  dsimp only at h
  split at h
  · cases h
    exact ⟨hb.registers, (List.length_set ..).trans hb.pins⟩
  · cases h
    exact hb

lemma setChannel_sized (hb : b.Sized) (index : Nat) (value : UInt8) :
    (b.setChannel index value).1.Sized := by
  unfold setChannel
  split
  · exact hb
  · split
    · exact ⟨hb.registers, hb.pins⟩
    · exact hb

lemma counted_sized : Board.Counted registerDefaults.length 2 Sized where
  setRegister hb h := setRegister_sized hb h
  saveRegisters hb := ⟨hb.registers, hb.pins⟩
  resetRegisters hb := ⟨rfl, hb.pins⟩
  setChannel hb := setChannel_sized hb _ _
  lockCalibration hb := ⟨hb.registers, hb.pins⟩
  setPinDirection hb h := setPinDirection_sized hb h
  setPin hb h := setPin_sized hb h
  setPower hb := ⟨hb.registers, hb.pins⟩
  setDiversity hb := ⟨hb.registers, hb.pins⟩
  forward hb := ⟨hb.registers, hb.pins⟩
  registerCount hb := hb.registers
  pinCount _ := rfl

/-- Within the contract, a bench board is stopped by a halt only. -/
lemma Sized.halted (hb : b.Sized) {asked : Call} {how : Stop}
    (hasked : asked.Within f registerDefaults.length 2 r) (h : (asked.on b).1 = .error how) :
    ∃ reason : HaltReason, r = .here (.ok reason.command) ∧
      how = .crashed (haltMessage reason) := by
  have hregister {index : Nat} (hi : index < registerDefaults.length) :
      index < b.registers.length := hb.registers ▸ hi
  have hpin {index : Nat} (hi : index < 2) : index < b.pins.length := hb.pins ▸ hi
  cases asked with
  | register index =>
    have hread := read_ok (hregister hasked)
    simp [Call.on, Board.register, hread] at h
  | registerLine node index =>
    have hread := read_ok (hregister hasked)
    simp [Call.on, Board.registerLine, registerLine, hread] at h
  | setRegister index value =>
    obtain ⟨made, hmade⟩ := setRegister_ok (hregister hasked.1) value
    cases hmade.symm.trans h
  | pinDirection index =>
    have hread := read_ok (hpin hasked)
    simp [Call.on, Board.pinDirection, hread] at h
  | pinValue index =>
    have hread := read_ok (hpin hasked)
    simp [Call.on, Board.pinValue, hread] at h
  | setPinDirection index d =>
    have hread := read_ok (hpin hasked)
    simp [Call.on, Board.setPinDirection, setPinDirection, hread] at h
  | setPin index level =>
    obtain ⟨made, hmade⟩ := setPin_ok (hpin hasked) level
    cases hmade.symm.trans h
  | halt reason =>
    cases h
    exact ⟨reason, hasked, rfl⟩
  | _ => cases h

end Bench

namespace Dispatch

/-- To run a line is to play its script, whatever the board, and on a board with fixed counts every
call of the script is within the contract. So a bench board, which checks no index, is stopped by
the two commands that halt it, with their messages, and by no other line. -/
theorem run_within_contract (f : Features) (t : TestMode) (line : String) :
    (∀ {β : Type} [Board β] {P : β → Prop} {registers pins : Nat} {b : β},
      Board.Counted registers pins P → P b →
        ((Script.ofLine f t line).on b).outcome t = run f b t line ∧
        ∀ c ∈ (Script.ofLine f t line).calls b, c.Within f registers pins (.parse line)) ∧
    ∀ b : Bench, b.Sized → (run f b t line).board.Sized ∧
      ∀ how, (run f b t line).effect = .stop how ↔ ∃ reason : HaltReason,
        Request.parse line = .here (.ok reason.command) ∧
        how = .crashed (Bench.haltMessage reason) := by
  refine ⟨fun hP hb => ⟨Script.on_ofLine line, (Script.within_ofLine line).mem_calls hP hb⟩,
    fun b hb => ⟨run_steady Bench.counted_sized.toSteady hb line, fun how => ⟨fun h => ?_, ?_⟩⟩⟩
  · rw [← Script.on_ofLine] at h
    obtain ⟨asked, c, hc, hasked, hstop⟩ := (Script.within_ofLine line).stopped
      Bench.counted_sized hb (Played.outcome_stop_iff.mp h)
    exact hc.halted hasked hstop
  · rintro ⟨reason, hparse, rfl⟩
    simp only [run, hparse]
    cases reason <;> rfl

/-- The list of the registers asks for each of them, and for no more. -/
theorem run_within_contract_listing :
    let calls := (Script.ofLine .basic .clear "ATI5").calls (Bench.ofNode 3)
    calls = [.identity, .registerCount, .identity, .registerLine 3 0, .registerLine 3 1,
      .registerLine 3 2, .registerLine 3 3] ∧
    (∀ c ∈ calls, c.Within .basic 4 2 (.parse "ATI5")) ∧
    ∀ how, (run .basic (Bench.ofNode 3) .clear "ATI5").effect ≠ .stop how := by
  obtain ⟨hcalls, hstop⟩ := run_within_contract .basic .clear "ATI5"
  have hsized := Bench.sized_ofNode 3
  refine ⟨by decide +kernel, (hcalls Bench.counted_sized hsized).2, fun how h => ?_⟩
  obtain ⟨reason, hparse, -⟩ := ((hstop _ hsized).2 how).mp h
  cases reason <;> cases hparse

end Dispatch

end RadioModem
