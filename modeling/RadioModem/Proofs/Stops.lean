import RadioModem.Proofs.Countdown
import RadioModem.Proofs.Session

/-!
# Stopped sessions

Two commands stop a board, whichever it is, and their line stays in the buffer. No other line waits
between two moments, so a session is either stopped or has nothing to run, and then its detector is
at rest unless the last byte that came in was a plus sign.
-/
namespace RadioModem

def SessionEvent.bytes : SessionEvent → List UInt8
  | serial bytes => bytes
  | tick => []

/-- The bytes that came in, looked at or not. -/
def received (es : List SessionEvent) : List UInt8 := es.flatMap SessionEvent.bytes

namespace Modem
variable {m : Modem}

lemma Polled.stops_iff {n : Node} {p : PollStep Node} (h : Polled m n p) :
    (∃ how, p.ran = .error how) ↔ m.ready = true ∧ (Request.parse m.text).Stops := by
  rw [← Node.run_stops_iff (f := m.features) (n := n) (t := m.tests)]
  cases h with
  | idle hr => exact iff_of_false nofun (by simp [hr])
  | stopped hr he => exact iff_of_true ⟨_, rfl⟩ ⟨hr, _, he⟩
  | stayed hr he | left hr he =>
    refine iff_of_false nofun ?_
    rintro ⟨-, how, hstop⟩
    cases he.symm.trans hstop

/-- A line that stopped the board waits for the next poll. -/
lemma Polled.line_waits {β : Type} [Board β] {b : β} {p : PollStep β} (h : Polled m b p)
    {how : Stop} (hp : p.ran = .error how) : p.modem.ready = true ∧ p.modem.text = m.text := by
  cases h with
  | idle | stayed | left => cases hp
  | stopped hr => exact ⟨hr, rfl⟩

/-- What is so between two moments, when these bytes have come in. -/
structure Heard (m : Modem) (bytes : List UInt8) : Prop where
  waits : m.ready = true → (Request.parse m.text).Stops
  rests : m.ready = false → bytes.getLast? ≠ some escapeByte → m.escape.Resting

lemma heard_ofSettings (settings : ModemSettings) : (ofSettings settings).Heard [] :=
  ⟨nofun, fun _ _ => .inl rfl⟩

end Modem

namespace Moment
variable {x : Moment} {bytes : List UInt8}

/-- Bytes behind one that stopped the board are not looked at. -/
lemma heard_of_stop {how : Stop} (hstop : x.stop? = some how) : x.next.modem.Heard bytes := by
  have hpolled := Modem.poll_polled x.stepped.modem x.stepped.board
  have hran := stop?_eq.mp hstop
  obtain ⟨hready, htext⟩ := hpolled.line_waits hran
  refine ⟨fun _ => ?_, fun hidle => ?_⟩
  · rw [next, polled, htext]
    exact (hpolled.stops_iff.mp ⟨how, hran⟩).2
  · cases hidle.symm.trans hready

lemma next_not_ready (hstop : x.stop? = none) : x.next.modem.ready = false := by
  cases hr : x.stepped.modem.ready with
  | false => rwa [next, polled_idle hr]
  | true =>
    cases hran : x.polled.ran with
    | ok ran => exact ((Modem.poll_polled _ _).finished hr hran).1
    | error how => cases (stop?_eq.mpr hran).symm.trans hstop

variable {s : Session}

lemma byte_heard {byte : UInt8} (hstop : stop? ⟨s, .byte byte⟩ = none) :
    (next ⟨s, .byte byte⟩).modem.Heard (bytes ++ [byte]) := by
  have hready := next_not_ready hstop
  refine ⟨fun hr => ?_, fun _ hlast => ?_⟩
  · cases hready.symm.trans hr
  · have hrests : (s.modem.escape.onByte byte).Resting :=
      EscapeDetector.resting_onByte fun hplus => hlast (by simp [hplus])
    rw [← Modem.onByte_escape] at hrests
    rcases (Modem.poll_polled (s.modem.onByte byte).modem s.node).escape with he | he
    · rwa [next, polled, stepped, he]
    · rw [next, polled, stepped, he]
      exact hrests

lemma tick_heard (h : s.modem.Heard bytes) (hstop : stop? ⟨s, .tick⟩ = none) :
    (next ⟨s, .tick⟩).modem.Heard bytes := by
  have hready := next_not_ready hstop
  refine ⟨fun hr => ?_, fun _ hlast => ?_⟩
  · cases hready.symm.trans hr
  · cases hf : s.modem.escape.fires with
    | true =>
      obtain ⟨running, hmodem, -⟩ := polled_escape hf
      rw [next, hmodem]
      exact .inl rfl
    | false =>
      cases hr : s.modem.ready with
      | true =>
        -- The line that waits would be run by this tick, and stop the board.
        obtain ⟨how, hran⟩ := (Modem.poll_polled { s.modem with escape := s.modem.escape.onTick }
          s.node).stops_iff.mpr ⟨hr, h.waits hr⟩
        have hstopped : stop? ⟨s, .tick⟩ = some how :=
          stop?_eq.mpr (by rwa [polled, stepped, Modem.onTick_quiet hf])
        cases hstopped.symm.trans hstop
      | false =>
        rw [next, polled_quiet hf hr]
        exact (h.rests hr hlast).onTick

end Moment

namespace Session
variable {s : Session} {earlier : List UInt8}

/-- The line that waits stops the board, and does so again each time. -/
def Halted (s : Session) : Prop := ∃ how, (s.modem.poll s.node).ran = .error how

lemma not_halted_of_idle (hr : s.modem.ready = false) : ¬s.Halted := by
  rintro ⟨how, hran⟩
  rw [Modem.poll_idle hr] at hran
  cases hran

lemma not_ready_of_heard (h : s.modem.Heard earlier) (hh : ¬s.Halted) :
    s.modem.ready = false :=
  Bool.eq_false_iff.mpr fun hready =>
    hh ((Modem.poll_polled _ _).stops_iff.mpr ⟨hready, h.waits hready⟩)

lemma handleBytes_heard (h : s.modem.Heard earlier) (bytes : List UInt8) :
    (handleBytes s.modem s.node bytes).modem.Heard (earlier ++ bytes) := by
  induction s, bytes using bytes_induct generalizing earlier with
  | nil s => rwa [List.append_nil]
  | stop s byte bytes how hstop =>
    rw [handleBytes_stop hstop, handleByte_eq]
    exact Moment.heard_of_stop hstop
  | go s byte bytes hstop ih =>
    rw [handleBytes_go hstop, ← List.singleton_append, ← List.append_assoc]
    exact ih (Moment.byte_heard hstop)

lemma turn_heard (h : s.modem.Heard earlier) (e : SessionEvent) :
    (s.turn e).session.modem.Heard (earlier ++ e.bytes) := by
  cases e with
  | serial bytes =>
    have hbytes := handleBytes_heard h bytes
    simp only [turn, onSerial]
    split <;> exact hbytes
  | tick =>
    rw [turn, onTick_eq, SessionEvent.bytes, List.append_nil]
    cases hstop : Moment.stop? ⟨s, .tick⟩ with
    | none => exact Moment.tick_heard h hstop
    | some how => exact Moment.heard_of_stop hstop

theorem after_heard (h : s.modem.Heard earlier) (es : List SessionEvent) :
    (s.after es).modem.Heard (earlier ++ received es) := by
  induction es generalizing s earlier with
  | nil => rwa [received, List.flatMap_nil, List.append_nil]
  | cons e es ih =>
    rw [received, List.flatMap_cons, ← List.append_assoc]
    exact ih (turn_heard h e)

end Session

end RadioModem
