import RadioModem.Proofs.Changes
import RadioModem.Proofs.Replies

/-!
# Parts of a node and who may change them

A node and its test modes fall into parts: every register, pin and calibration channel is one of its
own. Each line owns a few of them and changes no other, and what it owns it changes only where it is
taken.
-/
namespace RadioModem

inductive Part
  | identity
  | factory
  | live (index : Nat)
  | saved
  | channel (index : Nat)
  | lock
  | pin (index : Nat)
  | relay
  | link
  | watchdog
  | power
  | diversity
  | onHalt
  | tests
  deriving DecidableEq

namespace Part

/-- A part is as it was. What lies beyond the last register, pin or channel is a part too: a store
whose parts are as they were has kept its size. -/
def Same (before after : Node × TestMode) : Part → Prop
  | identity => after.1.identity = before.1.identity
  | factory => after.1.registers.factory = before.1.registers.factory
  | live index => after.1.registers.live[index]? = before.1.registers.live[index]?
  | saved => after.1.registers.saved = before.1.registers.saved
  | channel index => (after.1.calibration.map fun area => area.values[index]?) =
      before.1.calibration.map fun area => area.values[index]?
  | lock => after.1.calibration.map Calibration.locked = before.1.calibration.map Calibration.locked
  | pin index => after.1.pins.pins[index]? = before.1.pins.pins[index]?
  | relay => after.1.relay = before.1.relay
  | link => after.1.link = before.1.link
  | watchdog => after.1.watchdog = before.1.watchdog
  | power => after.1.power = before.1.power
  | diversity => after.1.diversity = before.1.diversity
  | onHalt => after.1.onHalt = before.1.onHalt
  | tests => after.2 = before.2

instance Same.decidable (before after : Node × TestMode) :
    (part : Part) → Decidable (part.Same before after)
  | identity | factory | live _ | saved | channel _ | lock | pin _ | relay | link | watchdog
  | power | diversity | onHalt | tests => inferInstanceAs (Decidable (_ = _))

lemma same_refl (state : Node × TestMode) (part : Part) : part.Same state state := by
  cases part <;> rfl

lemma calibration_ext {a b : Option Calibration}
    (hvalues : ∀ index : Nat, (a.map fun area => area.values[index]?) =
      b.map fun area => area.values[index]?)
    (hlock : a.map Calibration.locked = b.map Calibration.locked) : a = b := by
  cases a with
  | none =>
    cases b with
    | none => rfl
    | some y => cases hlock
  | some x =>
    cases b with
    | none => cases hlock
    | some y =>
      obtain ⟨values, locked⟩ := x
      obtain rfl : values = y.values :=
        List.ext_getElem? fun index => Option.some.inj (hvalues index)
      obtain rfl : locked = y.locked := Option.some.inj hlock
      rfl

/-- The parts make up the whole. -/
lemma eq_of_same {before after : Node × TestMode} (h : ∀ part : Part, part.Same before after) :
    after = before := by
  obtain ⟨⟨identity, ⟨factory, live, saved⟩, calibration, ⟨pins⟩, relay, link, watchdog, power,
    diversity, onHalt⟩, tests⟩ := after
  obtain ⟨n, t⟩ := before
  obtain rfl : identity = n.identity := h .identity
  obtain rfl : factory = n.registers.factory := h .factory
  obtain rfl : live = n.registers.live := List.ext_getElem? fun index => h (.live index)
  obtain rfl : saved = n.registers.saved := h .saved
  obtain rfl : calibration = n.calibration :=
    calibration_ext (fun index => h (.channel index)) (h .lock)
  obtain rfl : pins = n.pins.pins := List.ext_getElem? fun index => h (.pin index)
  obtain rfl : relay = n.relay := h .relay
  obtain rfl : link = n.link := h .link
  obtain rfl : watchdog = n.watchdog := h .watchdog
  obtain rfl : power = n.power := h .power
  obtain rfl : diversity = n.diversity := h .diversity
  obtain rfl : onHalt = n.onHalt := h .onHalt
  obtain rfl : tests = t := h .tests
  rfl

end Part

namespace Request

/-- The parts that a line may change. -/
inductive Owns (f : Features) : Request → Part → Prop
  | reset (index : Nat) : Owns f (.here (.ok .factoryReset)) (.live index)
  | save : Owns f (.here (.ok .save)) .saved
  | register (index value : Nat) : Owns f (.here (.ok (.writeRegister index value))) (.live index)
  | pin {index : Nat} {action : PinAction} (h : action ≠ .read) :
      Owns f (.here (.ok (.pin index action))) (.pin index)
  | channel {index value : Nat} (h : f.extendedCommands = true) :
      Owns f (.here (.ok (.extended (.writeChannel index value)))) (.channel index)
  | lock (h : f.extendedCommands = true) : Owns f (.here (.ok (.extended .lockCalibration))) .lock
  | power {pwm : Nat} (h : f.extendedCommands = true) :
      Owns f (.here (.ok (.extended (.power pwm)))) .power
  | diversity {pwm : Nat} (h : f.extendedCommands = true) :
      Owns f (.here (.ok (.extended (.power pwm)))) .diversity
  | relay (d : Destination) (command : String) : Owns f (.remote (.ok d) command) .relay
  | tests (change : TestChange) : Owns f (.here (.ok (.testMode change))) .tests

/-- Questions, attention, the ways out of command mode and what is no command. -/
inductive Passive : Request → Prop
  | ignored : Passive .ignored
  | malformed (r : Refusal) : Passive (.here (.error r))
  | unaddressed (r : Refusal) (command : String) : Passive (.remote (.error r) command)
  | attention : Passive (.here (.ok .attention))
  | online : Passive (.here (.ok .online))
  | reset : Passive (.here (.ok .reset))
  | forceUpdate : Passive (.here (.ok .forceUpdate))
  | info (query : Query) : Passive (.here (.ok (.info query)))
  | pinList : Passive (.here (.ok .pinList))
  | pinRead (index : Nat) : Passive (.here (.ok (.pin index .read)))
  | readRegister (index : Nat) : Passive (.here (.ok (.readRegister index)))
  | readChannel (channel : Nat) : Passive (.here (.ok (.extended (.readChannel channel))))

variable {f : Features} {r : Request} {part : Part}

lemma Passive.owns_nothing (h : r.Passive) (part : Part) : ¬r.Owns f part := by
  intro howns
  cases h with
  | pinRead index =>
    cases howns with
    | pin h => exact h rfl
  | ignored | malformed | unaddressed | attention | online | reset | forceUpdate | info | pinList
  | readRegister | readChannel => cases howns

/-! ### What is not owned stays -/

lemma live_same {index : Nat} (h : ¬r.Owns f (.live index)) (file : Registers) :
    (file.afterRequest r).live[index]? = file.live[index]? := by
  unfold Registers.afterRequest
  split
  · exact absurd (.reset index) h
  · rfl
  · next written value =>
    have hne : written ≠ index := by
      rintro rfl
      exact h (.register _ _)
    unfold Registers.set
    split
    · exact List.getElem?_set_ne hne
    · rfl
  · rfl

lemma saved_same (h : ¬r.Owns f .saved) (file : Registers) :
    (file.afterRequest r).saved = file.saved := by
  unfold Registers.afterRequest
  split
  · rfl
  · exact absurd .save h
  · unfold Registers.set
    split <;> rfl
  · rfl

lemma factory_same (r : Request) (file : Registers) :
    (file.afterRequest r).factory = file.factory := by
  unfold Registers.afterRequest
  split
  · rfl
  · rfl
  · unfold Registers.set
    split <;> rfl
  · rfl

lemma pin_same {index : Nat} (h : ¬r.Owns f (.pin index)) (b : Pins) :
    (b.afterRequest r).pins[index]? = b.pins[index]? := by
  have hother {named : Nat} {action : PinAction} (hr : r = .here (.ok (.pin named action)))
      (ha : action ≠ .read) : named ≠ index := by
    rintro rfl
    exact h (hr ▸ .pin ha)
  unfold Pins.afterRequest
  split
  · exact List.getElem?_modify_ne _ _ (hother rfl (by simp))
  · exact List.getElem?_modify_ne _ _ (hother rfl (by simp))
  · unfold Pins.setValue
    split
    · exact List.getElem?_modify_ne _ _ (hother rfl (by simp))
    · rfl
  · rfl

lemma channel_same {index : Nat} (h : ¬r.Owns f (.channel index)) (area : Calibration) :
    ((r.extended? f).elim area area.afterExtended).values[index]? = area.values[index]? := by
  cases hr : r.extended? f with
  | none => rfl
  | some request =>
    obtain ⟨rfl, hf⟩ := extended?_eq_some hr
    cases request with
    | power | readChannel => rfl
    | lockCalibration =>
      simp only [Option.elim_some, Calibration.afterExtended, Calibration.lock]
      split <;> rfl
    | writeChannel written value =>
      have hne : written ≠ index := by
        rintro rfl
        exact h (.channel hf)
      simp only [Option.elim_some, Calibration.afterExtended, Calibration.set]
      split
      · exact List.getElem?_set_ne hne
      · rfl

lemma lock_same (h : ¬r.Owns f .lock) (area : Calibration) :
    ((r.extended? f).elim area area.afterExtended).locked = area.locked := by
  cases hr : r.extended? f with
  | none => rfl
  | some request =>
    obtain ⟨rfl, hf⟩ := extended?_eq_some hr
    cases request with
    | power | readChannel => rfl
    | lockCalibration => exact absurd (.lock hf) h
    | writeChannel written value =>
      simp only [Option.elim_some, Calibration.afterExtended, Calibration.set]
      split <;> rfl

/-- The power stage is changed as a whole or not at all. -/
lemma pwm?_eq_none (h : ¬r.Owns f .power ∨ ¬r.Owns f .diversity) : r.pwm? f = none := by
  cases hr : r.extended? f with
  | none => simp [pwm?, hr]
  | some request =>
    obtain ⟨rfl, hf⟩ := extended?_eq_some hr
    cases request with
    | power pwm => exact (h.elim (· (.power hf)) (· (.diversity hf))).elim
    | readChannel | writeChannel | lockCalibration => simp [pwm?, hr]

lemma relay_same (h : ¬r.Owns f .relay) (q : RelayQueue) : q.afterRequest r = q := by
  unfold RelayQueue.afterRequest
  split
  · exact absurd (.relay _ _) h
  · rfl

lemma tests_same (h : ¬r.Owns f .tests) (t : TestMode) : t.afterRequest r = t := by
  unfold TestMode.afterRequest
  split
  · exact absurd (.tests _) h
  · rfl

/-- A line changes no part that it does not own. -/
lemma same_of_not_owned (h : ¬r.Owns f part) (n : Node) (t : TestMode) :
    part.Same (n, t) (n.afterRequest f r, t.afterRequest r) := by
  cases part with
  | identity | link | watchdog | onHalt => rfl
  | factory => exact factory_same r _
  | live index => exact live_same h _
  | saved => exact saved_same h _
  | channel index =>
    simp only [Part.Same, Node.afterRequest, Option.map_map]
    exact Option.map_congr fun area _ => channel_same h area
  | lock =>
    simp only [Part.Same, Node.afterRequest, Option.map_map]
    exact Option.map_congr fun area _ => lock_same h area
  | pin index => exact pin_same h _
  | relay => exact relay_same h _
  | power => simp [Part.Same, Node.afterRequest, pwm?_eq_none (.inl h)]
  | diversity => simp [Part.Same, Node.afterRequest, pwm?_eq_none (.inr h)]
  | tests => exact tests_same h t

/-- What is owned and taken is answered by `OK`; to relay a line and to switch a report is not
answered at all. -/
lemma Owns.texts {n : Node} (h : r.Owns f part) (ht : r.refusal? f n = none) :
    part = .relay ∨ part = .tests ∨ r.texts f n = [okText] := by
  cases h with
  | relay d command => exact .inl rfl
  | tests change => exact .inr (.inl rfl)
  | @pin index action ha =>
    have htexts : Request.texts f n (.here (.ok (.pin index action))) =
        (Command.pin index action).texts n := texts_taken ht
    refine .inr (.inr (htexts.trans ?_))
    cases action with
    | read => exact absurd rfl ha
    | output | input | write => rfl
  | reset | save | register | channel | lock | power | diversity =>
    exact .inr (.inr (texts_taken ht))

end Request

namespace Node

/-- A line changes only parts that it owns, and only where it is taken; a line that only asks
changes nothing, and the watchdog is not for lines to change. -/
theorem touches_own_parts (f : Features) (n : Node) (t : TestMode) (line : String) :
    let o := Dispatch.run f n t line
    (∀ part : Part, ¬part.Same (n, t) (o.board, o.tests) →
      (Request.parse line).Owns f part ∧
        (part = .relay ∨ part = .tests ∨ o.reply = frame n.identity.node okText)) ∧
    ((Request.parse line).Passive → o.board = n ∧ o.tests = t) ∧
    o.board.watchdog = n.watchdog := by
  intro o
  obtain ⟨hboard, htests⟩ := run_after f n t line
  have hafter : (o.board, o.tests) =
      (n.afterRequest f (.parse line), t.afterRequest (.parse line)) := Prod.ext hboard htests
  have howned {part : Part} (h : ¬part.Same (n, t) (o.board, o.tests)) :
      (Request.parse line).Owns f part := by
    by_contra hnot
    exact h (hafter ▸ Request.same_of_not_owned hnot n t)
  refine ⟨fun part hpart => ⟨howned hpart, ?_⟩, fun hpassive => ?_, ?_⟩
  · cases hr : (Request.parse line).refusal? f n with
    | none =>
      have htexts := (howned hpart).texts hr
      refine htexts.imp_right (.imp_right fun htexts => ?_)
      rw [show o.reply = _ from run_reply f n t line, htexts, frames_singleton]
    | some refusal =>
      -- A refused line has changed nothing.
      have hanswered : Answered n t (some refusal) o := hr ▸ run_answered f n t line
      obtain ⟨-, -, hb, ht⟩ := hanswered.unchanged (.inl (by simp [hanswered.errors]))
      rw [hb, ht] at hpart
      exact absurd (Part.same_refl _ _) hpart
  · have hsame : (o.board, o.tests) = (n, t) :=
      Part.eq_of_same fun part => by_contra fun h => hpassive.owns_nothing part (howned h)
    exact ⟨congrArg Prod.fst hsame, congrArg Prod.snd hsame⟩
  · exact (congrArg Node.watchdog hboard).trans rfl

theorem touches_own_parts_halfCalibrated : ∃ n, halfCalibrated = .ok n ∧
    (Request.parse "AT+C1=9").Owns ⟨true, false⟩ (.channel 1) ∧
    (Dispatch.run ⟨true, false⟩ n .clear "AT+C1=9").reply = "[0] OK\n" ∧
    (Dispatch.run ⟨true, false⟩ n .clear "AT+C1?").board = n := by
  have hasked : Request.parse "AT+C1?" = .here (.ok (.extended (.readChannel 1))) := rfl
  obtain ⟨n, hn⟩ : ∃ n, halfCalibrated = .ok n := ⟨_, rfl⟩
  have hchanged : ¬(Part.channel 1).Same (n, .clear)
      ((Dispatch.run ⟨true, false⟩ n .clear "AT+C1=9").board,
        (Dispatch.run ⟨true, false⟩ n .clear "AT+C1=9").tests) := by
    cases hn
    decide +kernel
  obtain ⟨howns, hreply⟩ := (touches_own_parts _ n .clear "AT+C1=9").1 (.channel 1) hchanged
  refine ⟨n, hn, howns, ?_, ?_⟩
  · have hnode : n.identity.node = 0 := by
      cases hn
      rfl
    obtain h | h | h := hreply
    · cases h
    · cases h
    · exact h.trans (by rw [hnode]; rfl)
  · exact ((touches_own_parts _ n .clear "AT+C1?").2.1 (hasked ▸ .readChannel 1)).1

end Node

end RadioModem
