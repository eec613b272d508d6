import RadioModem.Proofs.Relay
import RadioModem.Proofs.UsableSettings

/-!
# Halts

The line that halts a board is left in its buffer, and whatever comes next runs it once more. Only a
completed escape puts another line in its place.
-/
namespace RadioModem

variable {reason : HaltReason} {n : Node}

namespace Modem
variable {m : Modem}

/-- A line waits that halts the board for some reason. -/
structure HaltsFor (m : Modem) (reason : HaltReason) : Prop where
  ready : m.ready = true
  line : Request.parse m.text = .here (.ok reason.command)

lemma HaltsFor.poll (h : m.HaltsFor reason) (hn : n.onHalt = .report) :
    ∃ journal, m.poll n = ⟨m, n, "", .error (.halted reason), journal⟩ := by
  obtain ⟨journal, hrun⟩ := Node.run_halting hn h.line m.features m.tests
  have houtcome : m.outcome n = ⟨n, m.tests, "", .stop (.halted reason), journal⟩ := hrun
  exact ⟨journal, by rw [poll_ready h.ready, runLine_eq, houtcome]⟩

lemma poll_halts_iff (hn : n.onHalt = .report) :
    (m.poll n).ran = .error (.halted reason) ↔ m.HaltsFor reason := by
  constructor
  · intro hran
    obtain ⟨hready, hstops⟩ := (poll_polled m n).stops_iff.mp ⟨_, hran⟩
    obtain ⟨other, hline⟩ := Request.stops_iff.mp hstops
    have hother : m.HaltsFor other := ⟨hready, hline⟩
    obtain ⟨journal, hpoll⟩ := hother.poll hn
    rw [hpoll] at hran
    cases hran
    exact hother
  · intro h
    obtain ⟨journal, hpoll⟩ := h.poll hn
    rw [hpoll]

end Modem

namespace Moment
variable {x : Moment}

lemma halts_iff (hn : x.session.node.onHalt = .report) :
    x.stop? = some (.halted reason) ↔ x.stepped.modem.HaltsFor reason :=
  stop?_eq.trans (Modem.poll_halts_iff (x.stepped_onHalt.trans hn))

lemma haltsFor_iff : x.stepped.modem.HaltsFor reason ↔
    ∃ line, x.line? = some line ∧ Request.parse line = .here (.ok reason.command) := by
  constructor
  · intro h
    exact ⟨_, line?_of_ready h.ready, h.line⟩
  · rintro ⟨line, hline, hparse⟩
    cases hr : x.stepped.modem.ready with
    | false => cases (line?_of_idle hr).symm.trans hline
    | true =>
      obtain rfl := Option.some.inj ((line?_of_ready hr).symm.trans hline)
      exact ⟨hr, hparse⟩

/-- The line that has halted the board still waits. -/
lemma next_halting (hn : x.session.node.onHalt = .report)
    (h : x.stop? = some (.halted reason)) : x.next.modem.HaltsFor reason := by
  have hstepped := (halts_iff hn).mp h
  obtain ⟨journal, hpoll⟩ := hstepped.poll (x.stepped_onHalt.trans hn)
  rwa [next, polled, hpoll]

end Moment

namespace Session
variable {s : Session} {e : SessionEvent}

/-! ### The event that halts -/

lemma handleBytes_stop_iff {bytes : List UInt8} {how : Stop} :
    (handleBytes s.modem s.node bytes).stop = some how ↔
      ∃ x ∈ s.byteMoments bytes, x.stop? = some how := by
  refine ⟨handleBytes_stopped, ?_⟩
  induction s, bytes using bytes_induct with
  | nil s => simp [byteMoments]
  | stop s byte bytes other hstop =>
    rw [handleBytes_stop hstop, byteMoments_stop hstop, handleByte_eq]
    rintro ⟨x, hx, hhow⟩
    rwa [List.mem_singleton.mp hx] at hhow
  | go s byte bytes hstop ih =>
    rw [handleBytes_go hstop, byteMoments_go hstop]
    rintro ⟨x, hx, hhow⟩
    obtain rfl | hx := List.mem_cons.mp hx
    · cases hstop.symm.trans hhow
    · exact ih ⟨x, hx, hhow⟩

/-- An event halts in one of its moments. -/
lemma halt?_iff : (s.turn e).halt? = some reason ↔
    ∃ x ∈ s.moments e, x.stop? = some (.halted reason) := by
  cases e with
  | tick =>
    rw [turn, onTick_eq, moments, Turn.halt?]
    cases hstop : Moment.stop? ⟨s, .tick⟩ with
    | none => simp [hstop]
    | some how => cases how <;> simp [hstop]
  | serial bytes =>
    rw [moments, ← handleBytes_stop_iff, turn, onSerial, Turn.halt?]
    cases hstop : (handleBytes s.modem s.node bytes).stop with
    | none => simp [drained]
    | some how => cases how <;> simp [drained]

lemma handleBytes_halting (hn : s.node.onHalt = .report) {bytes : List UInt8}
    (h : (handleBytes s.modem s.node bytes).stop = some (.halted reason)) :
    (handleBytes s.modem s.node bytes).modem.HaltsFor reason := by
  induction s, bytes using bytes_induct with
  | nil s => cases h
  | stop s byte bytes how hstop =>
    rw [handleBytes_stop hstop, handleByte_eq] at h ⊢
    exact Moment.next_halting hn h
  | go s byte bytes hstop ih =>
    rw [handleBytes_go hstop] at h ⊢
    exact ih ((Moment.next_onHalt _).trans hn) h

lemma turn_halting (hn : s.node.onHalt = .report) (h : (s.turn e).halt? = some reason) :
    (s.turn e).session.modem.HaltsFor reason := by
  cases e with
  | tick =>
    obtain ⟨x, hx, hstop⟩ := halt?_iff.mp h
    obtain rfl := List.mem_singleton.mp hx
    rw [tick_session]
    exact Moment.next_halting hn hstop
  | serial bytes =>
    have hstop := handleBytes_stop_iff.mpr (halt?_iff.mp h)
    have hwaits := handleBytes_halting hn hstop
    rw [turn, onSerial, hstop]
    exact hwaits

/-! ### Halted sessions -/

/-- Between two events of a session that a command has halted. -/
structure HaltedFor (s : Session) (reason : HaltReason) : Prop where
  sound : s.modem.Sound
  waits : s.modem.HaltsFor reason
  relay : s.node.relay = .empty
  onHalt : s.node.onHalt = .report

/-- The same session with a detector that has heard other signals. -/
def hearing (s : Session) (d : EscapeDetector) : Session :=
  { s with modem := { s.modem with escape := d } }

/-- All that comes out of a halted session is the halt, and nothing where nothing goes in. -/
def haltedOutput (reason : HaltReason) (e : SessionEvent) : SessionOutput :=
  ⟨"", [], [], if e = .serial [] then none else some reason⟩

lemma HaltedFor.hearing (h : s.HaltedFor reason) (d : EscapeDetector) :
    (s.hearing d).HaltedFor reason where
  sound := ⟨h.sound.line, h.sound.capacity, h.sound.ready_mode, h.sound.data_empty⟩
  waits := ⟨h.waits.ready, h.waits.line⟩
  relay := h.relay
  onHalt := h.onHalt

lemma HaltedFor.poll (h : s.HaltedFor reason) (d : EscapeDetector) : ∃ journal,
    { s.modem with escape := d }.poll s.node =
      ⟨{ s.modem with escape := d }, s.node, "", .error (.halted reason), journal⟩ :=
  (h.hearing d).waits.poll h.onHalt

lemma HaltedFor.drain (h : s.HaltedFor reason) : s.drain = s := by
  rw [Session.drain, ← h.relay]

lemma HaltedFor.turn_bytes (h : s.HaltedFor reason) (byte : UInt8) (bytes : List UInt8) :
    (s.turn (.serial (byte :: bytes))).output = .ok ⟨"", [], [], some reason⟩ ∧
      (s.turn (.serial (byte :: bytes))).session =
        s.hearing (s.modem.escape.onByte byte) := by
  obtain ⟨journal, hpoll⟩ := h.poll (s.modem.escape.onByte byte)
  have hwaiting : s.modem.onByte byte = _ :=
    Modem.onByte_waiting (h.sound.ready_mode h.waits.ready) h.waits.ready
  -- The byte is dropped, and the poll behind it runs the line that waits; no other byte is looked at.
  obtain ⟨journal, hbyte⟩ : ∃ journal, handleByte s.modem s.node byte =
      ⟨{ s.modem with escape := s.modem.escape.onByte byte }, s.node, "", [],
        some (.halted reason), journal⟩ :=
    ⟨_, by simp only [handleByte, hwaiting, hpoll]; rfl⟩
  have hbytes : handleBytes s.modem s.node (byte :: bytes) = _ :=
    (handleBytes_cons_stop (by rw [hbyte]) bytes).trans hbyte
  simp only [turn, onSerial, hbytes, drained, h.relay]
  exact ⟨rfl, congrArg (Session.hearing · _) h.drain⟩

lemma HaltedFor.turn_nothing (h : s.HaltedFor reason) :
    (s.turn (.serial [])).output = .ok ⟨"", [], [], none⟩ ∧
      (s.turn (.serial [])).session = s := by
  have hout : (s.turn (.serial [])).output = .ok ⟨"", [], s.node.relay.waiting, none⟩ := rfl
  refine ⟨?_, h.drain⟩
  rw [hout, h.relay]
  rfl

lemma HaltedFor.turn_tick (h : s.HaltedFor reason) (hf : s.modem.escape.fires = false) :
    (s.turn .tick).output = .ok ⟨"", [], [], some reason⟩ ∧
      (s.turn .tick).session = s.hearing s.modem.escape.onTick := by
  obtain ⟨journal, hpoll⟩ := h.poll s.modem.escape.onTick
  have hquiet : s.modem.onTick s.node = _ := Modem.onTick_quiet hf
  obtain ⟨journal, hturn⟩ : ∃ journal, s.onTick =
      ⟨s.hearing s.modem.escape.onTick, .ok ⟨"", [], [], some reason⟩, journal⟩ :=
    ⟨_, by simp only [onTick, hquiet, hpoll]; rfl⟩
  rw [Session.turn, hturn]
  exact ⟨rfl, rfl⟩

/-- Up to the next escape an event that finds the session halted leaves it so. -/
lemma HaltedFor.turn (h : s.HaltedFor reason) (hq : ∀ x ∈ s.moments e, x.escapes = false) :
    (s.turn e).output = .ok (haltedOutput reason e) ∧
      ∃ d, (s.turn e).session = s.hearing d := by
  match e with
  | .serial [] => exact ⟨h.turn_nothing.1, s.modem.escape, h.turn_nothing.2⟩
  | .serial (byte :: bytes) => exact ⟨(h.turn_bytes byte bytes).1, _, (h.turn_bytes byte bytes).2⟩
  | .tick =>
    have hf : s.modem.escape.fires = false := hq ⟨s, .tick⟩ (List.mem_singleton.mpr rfl)
    exact ⟨(h.turn_tick hf).1, _, (h.turn_tick hf).2⟩

theorem HaltedFor.run (h : s.HaltedFor reason) (es : List SessionEvent)
    (hq : ∀ x ∈ s.history es, x.escapes = false) :
    (s.turns es).map Turn.output = es.map (fun e => .ok (haltedOutput reason e)) ∧
      ∃ d, s.after es = s.hearing d := by
  induction es generalizing s with
  | nil => exact ⟨rfl, s.modem.escape, rfl⟩
  | cons e es ih =>
    obtain ⟨hfirst, hothers⟩ := List.forall_mem_append.mp hq
    obtain ⟨hout, d, hsession⟩ := h.turn hfirst
    rw [hsession] at hothers
    obtain ⟨houts, d', hend⟩ := ih (h.hearing d) hothers
    refine ⟨?_, d', ?_⟩
    · rw [turns, List.map_cons, List.map_cons, hout, hsession, houts]
    · rw [after, hsession, hend]
      rfl

/-! ### Runs -/

lemma Cleared.after (h : s.Cleared) (hn : s.node.onHalt = .report) (es : List SessionEvent) :
    (s.after es).Cleared := by
  induction es generalizing s with
  | nil => exact h
  | cons e es ih => exact ih (turn_relayed h hn e).2 ((s.turn_trace e).node.1.2.trans hn)

/-- The event that halts a session leaves it halted. -/
lemma haltedFor_turn (hs : s.modem.Sound) (hc : s.Cleared) (hn : s.node.onHalt = .report)
    (h : (s.turn e).halt? = some reason) : (s.turn e).session.HaltedFor reason where
  sound := ((s.turn_trace e).sound hs).1
  waits := turn_halting hn h
  relay := (turn_relayed hc hn e).2.relay
  onHalt := (s.turn_trace e).node.1.2.trans hn

/-- Where no line waits, a tick never halts, and any other event does so only by a line of its
own. -/
lemma halts_first (hr : s.modem.ready = false) (hn : s.node.onHalt = .report) (e : SessionEvent)
    (reason : HaltReason) :
    (s.turn e).halt? = some reason ↔ (∃ bytes, e = .serial bytes) ∧
      ∃ x ∈ s.moments e, ∃ line, x.line? = some line ∧
        Request.parse line = .here (.ok reason.command) := by
  have hmoment (x : Moment) (hx : x ∈ s.moments e) : x.stop? = some (.halted reason) ↔
      ∃ line, x.line? = some line ∧ Request.parse line = .here (.ok reason.command) :=
    (Moment.halts_iff (((s.turn_trace e).node.2 x hx).2.trans hn)).trans Moment.haltsFor_iff
  rw [halt?_iff]
  constructor
  · rintro ⟨x, hx, hstop⟩
    refine ⟨?_, x, hx, (hmoment x hx).mp hstop⟩
    cases e with
    | serial bytes => exact ⟨bytes, rfl⟩
    | tick =>
      obtain rfl := List.mem_singleton.mp hx
      have hquiet : Moment.stop? ⟨s, .tick⟩ = none := (Moment.quiet hr (by simp)).1
      cases hquiet.symm.trans hstop
  · rintro ⟨-, x, hx, hline⟩
    exact ⟨x, hx, (hmoment x hx).mpr hline⟩

/-- The first halt of a run comes from a line of a serial event. From then on every tick and every
byte finds the session halted for the same reason, with nothing written and nothing changed but what
the detector hears, until an escape is complete and acknowledged. -/
theorem halted_until_escape {c : Configuration} (hc : c.validated = .ok c)
    (h : ofConfiguration c = .ok s) (es : List SessionEvent) :
    ((∀ t ∈ s.turns es, t.halt? = none) → ∀ (e : SessionEvent) (reason : HaltReason),
      ((s.after es).turn e).halt? = some reason ↔ (∃ bytes, e = .serial bytes) ∧
        ∃ x ∈ (s.after es).moments e, ∃ line, x.line? = some line ∧
          Request.parse line = .here (.ok reason.command)) ∧
    ∀ (e : SessionEvent) (reason : HaltReason), ((s.after es).turn e).halt? = some reason →
      ∀ later : List SessionEvent, let halted := ((s.after es).turn e).session
        (∀ x ∈ halted.history later, x.escapes = false) →
          (halted.turns later).map Turn.output =
            later.map (fun e => .ok (haltedOutput reason e)) ∧
          (∃ d, halted.after later = halted.hearing d) ∧
          ((halted.after later).modem.escape.fires = true →
            (halted.after later).Acknowledges c.identity.node) := by
  obtain ⟨hcleared, hn⟩ := cleared_ofConfiguration h
  have hedited : s.Edited [] := edited_ofConfiguration hc h
  have htrace := s.history_trace es
  have hn' : (s.after es).node.onHalt = .report := htrace.node.1.2.trans hn
  have hsound := (htrace.sound hedited.sound).1
  constructor
  · intro hnone e reason
    obtain ⟨-, -, hstop, -⟩ := run_settled hedited hcleared.relay hn hnone
    obtain ⟨-, -, rest, hend⟩ := htrace.lines hedited hstop
    exact halts_first hend.ready hn' e reason
  · intro e reason hhalt later halted hquiet
    have hhalted : halted.HaltedFor reason :=
      haltedFor_turn hsound (hcleared.after hn es) hn' hhalt
    obtain ⟨hout, d, hend⟩ := hhalted.run later hquiet
    refine ⟨hout, ⟨d, hend⟩, fun hfires => ?_⟩
    have hwhole := htrace.append ((turn_trace _ e).append (history_trace halted later))
    obtain ⟨node, hnode, rfl⟩ := ofConfiguration_ok h
    have hreach : Modem.Reachable c.modem (halted.after later).modem :=
      (hwhole.reachable .fresh).1
    have hroom : 2 ≤ (halted.after later).modem.settings.capacity := by
      rw [hreach.settings_eq]
      exact (Configuration.validated_iff.mp hc).1
    have hidentity : (halted.after later).node.identity = c.identity :=
      hwhole.node.1.1.trans (Node.fresh_ofConfiguration hnode).identity
    rw [← hidentity]
    exact acknowledges_of_fires hreach.sound hroom hfires

/-- An escape, a reset with a line behind it, and an escape that comes in sign by sign. -/
def resetting : List SessionEvent := [.tick, .serial "+++".toUTF8.toList, .tick]

def signBySign : List SessionEvent :=
  [.serial "AT\r".toUTF8.toList, .tick, .serial [], .serial [escapeByte], .serial [escapeByte],
    .serial [escapeByte]]

theorem halted_until_escape_resetting : ∃ s, ofConfiguration alert = .ok s ∧
    let reset := (s.after resetting).turn (.serial "ATZ\rATS3?\r".toUTF8.toList)
    (∀ t ∈ s.turns resetting, t.halt? = none) ∧ reset.halt? = some .reset ∧
    (∃ x ∈ (s.after resetting).moments (.serial "ATZ\rATS3?\r".toUTF8.toList),
      ∃ line, x.line? = some line ∧ Request.parse line = .here (.ok .reset)) ∧
    (reset.session.turns signBySign).map Turn.output =
      signBySign.map (fun e => .ok (haltedOutput .reset e)) ∧
    (reset.session.after signBySign).Acknowledges 0 := by
  obtain ⟨s, hs⟩ : ∃ s, ofConfiguration alert = .ok s := ⟨_, rfl⟩
  obtain ⟨hfirst, huntil⟩ := halted_until_escape rfl hs resetting
  have hnone : ∀ t ∈ s.turns resetting, t.halt? = none := by
    cases hs
    decide +kernel
  have hhalt : ((s.after resetting).turn (.serial "ATZ\rATS3?\r".toUTF8.toList)).halt? =
      some .reset := by
    cases hs
    decide +kernel
  obtain ⟨hout, -, hescape⟩ := huntil _ _ hhalt signBySign (by cases hs; decide +kernel)
  exact ⟨s, hs, hnone, hhalt, ((hfirst hnone _ _).mp hhalt).2, hout,
    hescape (by cases hs; decide +kernel)⟩

end Session

end RadioModem
