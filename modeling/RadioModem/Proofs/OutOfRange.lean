import RadioModem.Proofs.CalibrationLock

/-!
# Numbers that are out of range

Registers, pins and calibration channels are named by number, and a node has so many of each. A
command that names one beyond is an error, but for one: a channel that is not there reads like one
that was never written.
-/
namespace RadioModem

/-- What a command names by number. -/
inductive Place
  | register
  | pin
  | channel
  deriving DecidableEq, Repr

/-- How many there are on a node of a configuration. -/
def Place.count (c : Configuration) : Place → Nat
  | register => Registers.count
  | pin => c.pins.count
  | channel => c.calibration.channels

def Command.place? : Command → Option (Place × Nat)
  | readRegister index | writeRegister index _ => some (.register, index)
  | pin index _ => some (.pin, index)
  | extended (.readChannel channel) | extended (.writeChannel channel _) => some (.channel, channel)
  | _ => none

/-- A line reads a channel that a calibrated node does not have. -/
def ReadsBeyond (c : Configuration) (line : String) : Prop :=
  c.calibration.enabled = true ∧ ∃ channel,
    Request.parse line = .here (.ok (.extended (.readChannel channel))) ∧
      c.calibration.channels ≤ channel

lemma Calibration.afterExtended_length (area : Calibration) (request : Extended) :
    (area.afterExtended request).values.length = area.values.length := by
  cases request with
  | power | readChannel => rfl
  | writeChannel channel value =>
    rcases area.set_cases channel (UInt8.ofNat value) with ⟨-, -, hset⟩ | ⟨-, hset⟩
    · rw [afterExtended, hset, List.length_set]
    · rw [afterExtended, hset]
  | lockCalibration =>
    rcases area.lock_cases with ⟨-, hlock⟩ | ⟨-, hlock⟩
    · rw [afterExtended, hlock]
    · rw [afterExtended, hlock]

namespace Node

/-- A line that names what its node does not have is an error, and what can be read of a channel
could have been written. -/
structure RefusesBeyond (c : Configuration) (f : Features) (n : Node) (t : TestMode)
    (line : String) : Prop where
  refused : ∀ command place index, Request.parse line = .here (.ok command) →
    command.place? = some (place, index) → place.count c ≤ index →
    (Dispatch.run f n t line).reply = frame c.identity.node errorText
  readable : ∀ channel, Request.parse line = .here (.ok (.extended (.readChannel channel))) →
    (Dispatch.run f n t line).reply ≠ frame c.identity.node errorText →
    ∀ (m : Node) (area : Calibration), m.Reachable c → m.calibration = some area →
      area.locked = false → ∀ (u : TestMode) (write : String) (value : Nat),
      Request.parse write = .here (.ok (.extended (.writeChannel channel value))) →
      (Dispatch.run f m u write).reply = frame c.identity.node okText

variable {c : Configuration} {n : Node} {f : Features}

/-- A node keeps the channels of its configuration. -/
lemma Reachable.channels (h : n.Reachable c) : n.calibration.map (·.values.length) =
    if c.calibration.enabled then some c.calibration.channels else none := by
  induction h with
  | fresh h =>
    obtain ⟨blank, registers, -, -, -, rfl⟩ := ofConfiguration_built h
    cases c.calibration.enabled <;> simp [Calibration.ofChannels]
  | @line n h f t line ih =>
    rw [← ih, (run_after f _ t line).1, afterRequest, Option.map_map]
    refine congrArg (Option.map · n.calibration) (funext fun area => ?_)
    cases (Request.parse line).extended? f with
    | none => rfl
    | some request => exact area.afterExtended_length request
  | switched h enabled ih => exact ih
  | drained h ih => exact ih

lemma Reachable.uncalibrated (h : n.Reachable c) (hoff : c.calibration.enabled = false) :
    n.calibration = none := by
  have hchannels := h.channels
  rw [hoff] at hchannels
  exact Option.map_eq_none_iff.mp hchannels

lemma Reachable.calibrated {area : Calibration} (h : n.Reachable c)
    (ha : n.calibration = some area) :
    c.calibration.enabled = true ∧ area.values.length = c.calibration.channels := by
  have hchannels := h.channels
  rw [ha, Option.map_some] at hchannels
  exact (Option.some_eq_ite_none_right.mp hchannels).imp_right Option.some.inj

/-- What is beyond a node is refused, unless it is a channel that is read. -/
lemma Reachable.refusal?_beyond {command : Command} {place : Place} {index : Nat}
    (h : n.Reachable c) (hplace : command.place? = some (place, index))
    (hindex : place.count c ≤ index)
    (hread : ∀ channel, command = .extended (.readChannel channel) →
      ¬c.calibration.enabled = true) :
    ∃ r, command.refusal? f n = some r := by
  cases command with
  | readRegister i | writeRegister i value =>
    cases hplace
    exact ⟨_, if_neg (not_lt.mpr hindex)⟩
  | pin i action =>
    cases hplace
    have hcount : n.pins.count ≤ index := h.pins.trans_le hindex
    exact ⟨_, if_neg (not_lt.mpr hcount)⟩
  | extended request =>
    rw [Command.refusal?]
    cases f.extendedCommands with
    | false => exact ⟨_, rfl⟩
    | true =>
      cases request with
      | power | lockCalibration => cases hplace
      | readChannel channel =>
        -- No range is looked at here: it is an error only where there is no area at all.
        have hnone := h.uncalibrated (Bool.eq_false_iff.mpr (hread channel rfl))
        exact ⟨_, by rw [if_pos rfl, Extended.refusal?, hnone, Option.elim_none]⟩
      | writeChannel channel value =>
        cases hplace
        cases ha : n.calibration with
        | none => exact ⟨_, by rw [if_pos rfl, Extended.refusal?, ha, Option.elim_none]⟩
        | some area =>
          have hbeyond : area.values.length ≤ index := (h.calibrated ha).2.trans_le hindex
          have hfull : ¬(area.locked = false ∧ index < area.values.length) :=
            fun hroom => absurd hroom.2 (not_lt.mpr hbeyond)
          exact ⟨_, by rw [if_pos rfl, Extended.refusal?, ha, Option.elim_some, if_neg hfull]⟩
  | attention | factoryReset | save | forceUpdate | testMode | info | pinList | online | reset =>
    cases hplace

/-- A channel that is not there reads like one that was never written. -/
lemma Reachable.reply_beyond (h : n.Reachable c) (hf : f.extendedCommands = true) {line : String}
    (hread : ReadsBeyond c line) (t : TestMode) :
    (Dispatch.run f n t line).reply = frame c.identity.node "255" := by
  obtain ⟨henabled, channel, hline, hbeyond⟩ := hread
  have hchannels := h.channels
  rw [if_pos henabled] at hchannels
  obtain ⟨area, ha, hlength⟩ := Option.map_eq_some_iff.mp hchannels
  have hcall : (Request.parse line).call? f = some (.get channel) :=
    Request.call?_of_parse hf hline
  have hnone : area.values[channel]? = none := List.getElem?_eq_none (hlength.trans_le hbeyond)
  rw [reply_call ha hcall, h.identity, Calibration.told, Calibration.get, hnone]
  rfl

/-- A channel in range is written on every node of the configuration whose area is not locked. -/
lemma Reachable.writes_channel {area : Calibration} (h : n.Reachable c)
    (hf : f.extendedCommands = true) (ha : n.calibration = some area)
    (hfree : area.locked = false) {line : String} {channel value : Nat}
    (hline : Request.parse line = .here (.ok (.extended (.writeChannel channel value))))
    (hchannel : channel < c.calibration.channels) (t : TestMode) :
    (Dispatch.run f n t line).reply = frame c.identity.node okText := by
  have hcall : (Request.parse line).call? f = some (.set channel (UInt8.ofNat value)) :=
    Request.call?_of_parse hf hline
  have htaken : (area.set channel (UInt8.ofNat value)).2 = true := by
    rcases area.set_cases channel (UInt8.ofNat value) with ⟨-, -, hset⟩ | ⟨hlocked | hbeyond, -⟩
    · rw [hset]
    · cases hfree.symm.trans hlocked
    · exact absurd hchannel (not_lt.mpr ((h.calibrated ha).2.symm.trans_le hbeyond))
  rw [reply_call ha hcall, h.identity, Calibration.told, htaken]
  rfl

/-- Every command that names what its node does not have is an error, and channels are read only
where they could have been written, unless the line reads a channel beyond the ones of a calibrated
node: that is answered like a channel that was never written. -/
theorem refusesBeyond_iff (h : n.Reachable c) (hf : f.extendedCommands = true) (t : TestMode)
    (line : String) :
    (RefusesBeyond c f n t line ↔ ¬ReadsBeyond c line) ∧
      (ReadsBeyond c line → (Dispatch.run f n t line).reply = frame c.identity.node "255") := by
  refine ⟨⟨?_, fun hgood => ⟨?_, ?_⟩⟩, fun hread => h.reply_beyond hf hread t⟩
  · intro hrefuses hread
    have hreply := h.reply_beyond hf hread t
    obtain ⟨-, channel, hline, hbeyond⟩ := hread
    have herror := hrefuses.refused _ .channel channel hline rfl hbeyond
    exact absurd (frame_inj (hreply.symm.trans herror)) (by decide)
  · intro command place index hline hplace hindex
    have hread : ∀ channel, command = .extended (.readChannel channel) →
        ¬c.calibration.enabled = true := by
      rintro channel rfl henabled
      cases hplace
      exact hgood ⟨henabled, _, hline, hindex⟩
    obtain ⟨r, hr⟩ := h.refusal?_beyond (f := f) hplace hindex hread
    rw [← h.identity]
    exact (reply_refused ((congrArg (Request.refusal? f n) hline).trans hr) t).1
  · intro channel hline htold m area hm ha hfree u write value hwrite
    have henabled : c.calibration.enabled = true := (hm.calibrated ha).1
    have hchannel : channel < c.calibration.channels :=
      Nat.lt_of_not_le fun hbeyond => hgood ⟨henabled, channel, hline, hbeyond⟩
    exact hm.writes_channel hf ha hfree hwrite hchannel u

/-- The second channel of a node with one is not written, and is read like erased memory. -/
theorem refusesBeyond_iff_single : ∃ n, ofConfiguration single = .ok n ∧
    let f : Features := ⟨true, false⟩
    RefusesBeyond single f n .clear "ATS19?" ∧
    (Dispatch.run f n .clear "AT+C1=7").reply = "[0] ERROR\n" ∧
    ¬RefusesBeyond single f n .clear "AT+C1?" ∧
    (Dispatch.run f n .clear "AT+C1?").reply = "[0] 255\n" := by
  obtain ⟨n, hn⟩ : ∃ n, ofConfiguration single = .ok n := ⟨_, rfl⟩
  have hrefuses := refusesBeyond_iff (f := ⟨true, false⟩) (.fresh hn) rfl .clear
  have hread : ReadsBeyond single "AT+C1?" := ⟨rfl, 1, rfl, by decide⟩
  have hregister : ¬ReadsBeyond single "ATS19?" := by
    rintro ⟨-, channel, hline, -⟩
    cases hline
  have hwrite : ¬ReadsBeyond single "AT+C1=7" := by
    rintro ⟨-, channel, hline, -⟩
    cases hline
  refine ⟨n, hn, (hrefuses "ATS19?").1.mpr hregister, ?_, ?_, ?_⟩
  · exact ((hrefuses "AT+C1=7").1.mpr hwrite).refused (.extended (.writeChannel 1 7)) .channel 1 rfl
      rfl (by decide)
  · exact fun h => (hrefuses "AT+C1?").1.mp h hread
  · exact (hrefuses "AT+C1?").2 hread

/-- A channel beyond the ones of a node is read. -/
theorem channel_read_beyond : ¬∀ (c : Configuration) (n : Node) (f : Features) (t : TestMode)
    (line : String), c.validated = .ok c → n.Reachable c → f.extendedCommands = true →
      RefusesBeyond c f n t line := by
  intro h
  obtain ⟨n, hn, hreply⟩ : ∃ n, ofConfiguration single = .ok n ∧
      (Dispatch.run ⟨true, false⟩ n .clear "AT+C1?").reply = frame 0 "255" :=
    ⟨_, rfl, by decide +kernel⟩
  have hrefuses := h single n ⟨true, false⟩ .clear "AT+C1?" rfl (.fresh hn) rfl
  have herror := hrefuses.refused (.extended (.readChannel 1)) .channel 1 rfl rfl (by decide)
  exact absurd (frame_inj (hreply.symm.trans herror)) (by decide)

end Node

end RadioModem
