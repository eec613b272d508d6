import RadioModem.Proofs.Calibration

/-!
# When the calibration area can be locked

An area is to be locked once each of its channels has been written. What tells a channel that was
never written is the value of erased memory, and that value can be written like any other: then the
channel looks erased, and the area cannot be locked until the channel is given another one.
-/
namespace RadioModem

namespace Calibration

/-- The write of a channel that a line asks for, if it is answered by `OK`. -/
def writeAnswered? (node : Address) (line reply : String) : Option (Nat × Nat) :=
  match Request.parse line with
  | .here (.ok (.extended (.writeChannel channel value))) =>
    if reply = frame node okText then some (channel, value) else none
  | _ => none

/-- Each of the channels has been written. -/
def Written (channels : Nat) (writes : List (Nat × Nat)) : Prop :=
  ∀ n < channels, ∃ value, (n, value) ∈ writes

/-- The last byte that was written to one of the channels is the byte of erased memory. -/
def Erased (channels : Nat) (writes : List (Nat × Nat)) : Prop :=
  ∃ n < channels, ∃ value, lastWritten writes n = some value ∧ value % 256 = 255

lemma ofNat_eq_unwritten {value : Nat} : UInt8.ofNat value = unwritten ↔ value % 256 = 255 := by
  rw [← UInt8.toNat_inj, UInt8.toNat_ofNat']
  rfl

lemma written_iff {channels : Nat} {writes : List (Nat × Nat)} :
    Written channels writes ↔ ∀ n < channels, lastWritten writes n ≠ none := by
  refine forall₂_congr fun n _ => ?_
  rw [Ne, lastWritten_eq_none_iff, not_forall_not]

/-- A channel looks erased if it was never written, or last like that. -/
lemma Holds.lock_taken_iff_written {channels : Nat} {area : Calibration}
    {writes : List (Nat × Nat)}
    (h : Holds channels area (writes.map (Prod.map id UInt8.ofNat))) :
    area.lock.2 = true ↔ Written channels writes ∧ ¬Erased channels writes := by
  have hget (n : Nat) : area.get n ≠ unwritten ↔ lastWritten writes n ≠ none ∧
      ∀ value, lastWritten writes n = some value → value % 256 ≠ 255 := by
    rw [h.value, lastWritten_map]
    cases lastWritten writes n with
    | none => simp
    | some value => simp [ofNat_eq_unwritten]
  simp only [h.lock_taken_iff, hget, written_iff, Erased]
  constructor
  · intro hall
    refine ⟨fun n hn => (hall n hn).1, ?_⟩
    rintro ⟨n, hn, value, hlast, hvalue⟩
    exact (hall n hn).2 value hlast hvalue
  · rintro ⟨hwritten, herased⟩ n hn
    exact ⟨hwritten n hn, fun value hlast hvalue => herased ⟨n, hn, value, hlast, hvalue⟩⟩

end Calibration

namespace Node

open Calibration

/-- The writes of channels that are answered by `OK` in the course of some lines. -/
def writes (f : Features) (n : Node) (t : TestMode) : List String → List (Nat × Nat)
  | [] => []
  | line :: lines =>
    (writeAnswered? n.identity.node line (Dispatch.run f n t line).reply).toList ++
      (Dispatch.run f n t line).board.writes f (Dispatch.run f n t line).tests lines

/-- To lock the area behind some lines is allowed once each channel has been written, and refused
before. -/
structure LocksOnceWritten (c : Configuration) (f : Features) (n : Node) (t : TestMode)
    (lines : List String) (line : String) : Prop where
  allowed : Written c.calibration.channels (n.writes f t lines) →
    (Dispatch.run f (n.afterLines f t lines).1 (n.afterLines f t lines).2 line).reply =
      frame c.identity.node okText
  refused : ¬Written c.calibration.channels (n.writes f t lines) →
    (Dispatch.run f (n.afterLines f t lines).1 (n.afterLines f t lines).2 line).reply =
      frame c.identity.node errorText

variable {c : Configuration} {n : Node} {area : Calibration} {f : Features} {t : TestMode}

/-- The writes that are answered by `OK` are the ones that the area takes. -/
lemma writeAnswered_eq (ha : n.calibration = some area) (hf : f.extendedCommands = true)
    (t : TestMode) (line : String) :
    (writeAnswered? n.identity.node line (Dispatch.run f n t line).reply).map
        (Prod.map id UInt8.ofNat) =
      ((Request.parse line).call? f).bind area.taken? := by
  by_cases hwrite : ∃ channel value,
      Request.parse line = .here (.ok (.extended (.writeChannel channel value)))
  · obtain ⟨channel, value, hparse⟩ := hwrite
    have hcall : (Request.parse line).call? f = some (.set channel (UInt8.ofNat value)) :=
      Request.call?_of_parse hf hparse
    rw [reply_call ha hcall, hcall, writeAnswered?, hparse]
    simp only [frame_eq_iff, told, verdictText_eq_ok_iff, Option.bind_some, taken?]
    split <;> rfl
  · have hnone : writeAnswered? n.identity.node line (Dispatch.run f n t line).reply = none := by
      unfold writeAnswered?
      split
      · next channel value hparse => exact absurd ⟨channel, value, hparse⟩ hwrite
      · rfl
    rw [hnone, Request.call?]
    cases hrequest : (Request.parse line).extended? f with
    | none => rfl
    | some request =>
      have hparse := (Request.extended?_eq_some hrequest).1
      cases request with
      | power | readChannel | lockCalibration => rfl
      | writeChannel channel value => exact absurd ⟨channel, value, hparse⟩ hwrite

theorem writes_eq_taken (ha : n.calibration = some area) (hf : f.extendedCommands = true)
    (t : TestMode) (lines : List String) :
    (n.writes f t lines).map (Prod.map id UInt8.ofNat) = area.taken (Request.calls f lines) := by
  -- Each line hands its node and the area on it to the next; both histories grow at the front.
  induction lines generalizing n t area with
  | nil => rfl
  | cons line lines ih =>
    have hrun : (Dispatch.run f n t line).board.calibration = _ := run_calibration ha line
    have hline := writeAnswered_eq ha hf t line
    rw [writes, List.map_append, ih hrun, ← Option.toList_map, hline, Request.calls_cons]
    cases (Request.parse line).call? f <;> rfl

/-- What a request to lock the area is answered behind some lines. -/
lemma lock_reply (h : ofConfiguration c = .ok n) (henabled : c.calibration.enabled = true)
    (hf : f.extendedCommands = true) (t : TestMode) (lines : List String) {line : String}
    (hline : Request.parse line = .here (.ok (.extended .lockCalibration))) :
    ∃ taken : Bool,
      (Dispatch.run f (n.afterLines f t lines).1 (n.afterLines f t lines).2 line).reply =
        frame c.identity.node (verdictText taken) ∧
      (taken = true ↔ Written c.calibration.channels (n.writes f t lines) ∧
        ¬Erased c.calibration.channels (n.writes f t lines)) := by
  have hcall : (Request.parse line).call? f = some .lock := Request.call?_of_parse hf hline
  have hholds := holds_after c.calibration.channels (Request.calls f lines)
  rw [← writes_eq_taken (calibration_ofConfiguration h henabled) hf t lines] at hholds
  exact ⟨_, (lines_calibrate h henabled f t lines).2 line .lock hcall,
    hholds.lock_taken_iff_written⟩

/-- An area is locked once each of its channels has been written, unless one of them was last
written the value of erased memory. -/
theorem locksOnceWritten_iff (h : ofConfiguration c = .ok n)
    (henabled : c.calibration.enabled = true) (hf : f.extendedCommands = true) (t : TestMode)
    (lines : List String) {line : String}
    (hline : Request.parse line = .here (.ok (.extended .lockCalibration))) :
    let behind := n.afterLines f t lines
    let reply := (Dispatch.run f behind.1 behind.2 line).reply
    let written := Written c.calibration.channels (n.writes f t lines)
    let erased := Erased c.calibration.channels (n.writes f t lines)
    (LocksOnceWritten c f n t lines line ↔ ¬(written ∧ erased)) ∧
    (reply = frame c.identity.node okText ↔ written ∧ ¬erased) ∧
    (reply = frame c.identity.node errorText ↔ ¬written ∨ erased) := by
  intro behind reply written erased
  obtain ⟨taken, hreply, htaken⟩ : ∃ taken : Bool,
      reply = frame c.identity.node (verdictText taken) ∧ (taken = true ↔ written ∧ ¬erased) :=
    lock_reply h henabled hf t lines hline
  have hok : reply = frame c.identity.node okText ↔ written ∧ ¬erased := by
    rw [hreply, frame_eq_iff, verdictText_eq_ok_iff, htaken]
  have herror : reply = frame c.identity.node errorText ↔ ¬written ∨ erased := by
    rw [hreply, frame_eq_iff, verdictText_eq_error_iff, ← Bool.not_eq_true, htaken, not_and_or,
      not_not]
  refine ⟨⟨?_, fun hgood => ⟨fun hwritten => ?_, fun hno => herror.mpr (.inl hno)⟩⟩, hok, herror⟩
  · rintro hlocks ⟨hwritten, herased⟩
    exact (hok.mp (hlocks.allowed hwritten)).2 herased
  · exact hok.mpr ⟨hwritten, fun herased => hgood ⟨hwritten, herased⟩⟩

/-- One channel of calibration. -/
def single : Configuration := { Configuration.standard with calibration := ⟨true, 1⟩ }

lemma written_single {value : Nat} {writes : List (Nat × Nat)} :
    Written 1 ((0, value) :: writes) := by
  intro n hn
  obtain rfl : n = 0 := Nat.lt_one_iff.mp hn
  exact ⟨value, List.mem_cons_self⟩

/-- The value 511 is kept like erased memory; to write 7 behind it makes up for it. -/
theorem locksOnceWritten_iff_single : ∃ n, ofConfiguration single = .ok n ∧
    let f : Features := ⟨true, false⟩
    LocksOnceWritten single f n .clear [] "AT+L" ∧
    ¬LocksOnceWritten single f n .clear ["AT+C0=511"] "AT+L" ∧
    LocksOnceWritten single f n .clear ["AT+C0=511", "AT+C0=7"] "AT+L" ∧
    let written := n.afterLines f .clear ["AT+C0=511", "AT+C0=7"]
    (Dispatch.run f written.1 written.2 "AT+L").reply = frame 0 okText := by
  obtain ⟨n, hn, hfirst, hboth⟩ : ∃ n, ofConfiguration single = .ok n ∧
      n.writes ⟨true, false⟩ .clear ["AT+C0=511"] = [(0, 511)] ∧
      n.writes ⟨true, false⟩ .clear ["AT+C0=511", "AT+C0=7"] = [(0, 511), (0, 7)] :=
    ⟨_, rfl, by decide +kernel, by decide +kernel⟩
  have hlocks (lines : List String) :=
    locksOnceWritten_iff (f := ⟨true, false⟩) hn rfl rfl .clear lines
      (rfl : Request.parse "AT+L" = .here (.ok (.extended .lockCalibration)))
  have hrepaired : ¬Erased 1 [(0, 511), (0, 7)] := by
    rintro ⟨n, hn, value, hlast, hvalue⟩
    obtain rfl : n = 0 := Nat.lt_one_iff.mp hn
    obtain rfl : 7 = value := Option.some.inj hlast
    exact absurd hvalue (by decide)
  refine ⟨n, hn, (hlocks []).1.mpr ?_, ?_, (hlocks _).1.mpr ?_, (hlocks _).2.1.mpr ?_⟩
  · rintro ⟨-, n, -, value, hlast, -⟩
    cases hlast
  · rw [(hlocks _).1, hfirst, not_not]
    exact ⟨written_single, 0, by decide, 511, rfl, by decide⟩
  · rw [hboth]
    exact fun h => hrepaired h.2
  · rw [hboth]
    exact ⟨written_single, hrepaired⟩

/-- A channel that was written like erased memory keeps its area from being locked. -/
theorem written_channel_erased : ¬∀ (c : Configuration) (n : Node) (f : Features) (t : TestMode)
    (lines : List String) (line : String), c.validated = .ok c → ofConfiguration c = .ok n →
      c.calibration.enabled = true → f.extendedCommands = true →
      Request.parse line = .here (.ok (.extended .lockCalibration)) →
      LocksOnceWritten c f n t lines line := by
  intro h
  obtain ⟨n, hn, hwrites, hreply⟩ : ∃ n, ofConfiguration single = .ok n ∧
      n.writes ⟨true, false⟩ .clear ["AT+C0=255"] = [(0, 255)] ∧
      let behind := n.afterLines ⟨true, false⟩ .clear ["AT+C0=255"]
      (Dispatch.run ⟨true, false⟩ behind.1 behind.2 "AT+L").reply = frame 0 errorText :=
    ⟨_, rfl, by decide +kernel, by decide +kernel⟩
  have hlocks := h single n ⟨true, false⟩ .clear ["AT+C0=255"] "AT+L" rfl hn rfl rfl rfl
  have hwritten : Written 1 (n.writes ⟨true, false⟩ .clear ["AT+C0=255"]) := by
    rw [hwrites]
    exact written_single
  have hok := hlocks.allowed hwritten
  rw [hreply] at hok
  exact absurd (frame_inj hok) (by decide)

end Node

end RadioModem
