import RadioModem.Proofs.Session

/-!
# The data path

Outside command mode a byte goes straight to the radio data: it moves the escape detector and
nothing else. In command mode no byte gets there.
-/
namespace RadioModem

namespace Moment

/-- The byte of a moment in data mode. -/
def arrived (x : Moment) : List UInt8 :=
  match x.signal with
  | .byte byte => if x.session.modem.commandMode then [] else [byte]
  | .tick => []

lemma payload_eq (x : Moment) : x.payload = x.arrived := by
  obtain ⟨s, signal⟩ := x
  cases signal with
  | tick => rfl
  | byte byte =>
    simp only [payload, arrived, (Modem.onByte_received _ _).route]
    cases s.modem.commandMode <;> rfl

variable {s : Session} {byte : UInt8}

lemma arrived_data (hc : s.modem.commandMode = false) : arrived ⟨s, .byte byte⟩ = [byte] := by
  simp [arrived, hc]

lemma polled_data (hs : s.modem.Sound) (hc : s.modem.commandMode = false) :
    polled ⟨s, .byte byte⟩ =
      ⟨{ s.modem with escape := s.modem.escape.onByte byte }, s.node, "", .ok false, .empty⟩ := by
  have hstepped : stepped ⟨s, .byte byte⟩ = _ := stepped_data hc
  have hidle : (stepped ⟨s, .byte byte⟩).modem.ready = false := by
    rw [hstepped]
    exact hs.not_ready hc
  rw [polled_idle hidle, hstepped]

lemma stop_data (hs : s.modem.Sound) (hc : s.modem.commandMode = false) :
    stop? ⟨s, .byte byte⟩ = none := by rw [stop?, polled_data hs hc]

lemma next_data (hs : s.modem.Sound) (hc : s.modem.commandMode = false) :
    next ⟨s, .byte byte⟩ =
      { s with modem := { s.modem with escape := s.modem.escape.onByte byte } } := by
  rw [next, polled_data hs hc]
  rfl

lemma text_data (hs : s.modem.Sound) (hc : s.modem.commandMode = false) :
    text ⟨s, .byte byte⟩ = "" := by
  have hecho : echo ⟨s, .byte byte⟩ = "" := by simp [echo, Modem.onByte_data hc]
  rw [text, hecho, polled_data hs hc]
  rfl

/-- The answer to an escape that a tick completes, where the line has room for the command. -/
def acknowledgement (x : Moment) : String :=
  if x.session.modem.escape.fires ∧ 2 ≤ x.session.modem.line.capacity then
    Dispatch.reply x.session.node okText
  else ""

/-- A tick in data mode does not stop, and takes nothing from what the reports tell. -/
lemma tick_data (hs : s.modem.Sound) (hc : s.modem.commandMode = false) :
    (polled ⟨s, .tick⟩).reply = acknowledgement ⟨s, .tick⟩ ∧ stop? ⟨s, .tick⟩ = none ∧
      (next ⟨s, .tick⟩).testReports = s.testReports := by
  cases hf : s.modem.escape.fires with
  | false =>
    have hpolled := polled_quiet hf (hs.not_ready hc)
    refine ⟨by simp [hpolled, acknowledgement, hf], by rw [stop?, hpolled], ?_⟩
    rw [next, hpolled]
    rfl
  | true =>
    obtain ⟨running, hmodem, hboard, hreply, hran⟩ := polled_escape hf
    refine ⟨by simp [hreply, acknowledgement, hf], by rw [stop?, hran], ?_⟩
    rw [next, hmodem, hboard]
    rfl

/-- The reports of a tick, by the count that it brings the session to. -/
def reported (x : Moment) : String :=
  if { x.session with ticks := x.session.ticks + 1 : Session }.reportsDue then x.session.testReports
  else ""

lemma text_tick (hs : s.modem.Sound) (hc : s.modem.commandMode = false) :
    text ⟨s, .tick⟩ = acknowledgement ⟨s, .tick⟩ ++ reported ⟨s, .tick⟩ := by
  obtain ⟨hreply, hstop, htests⟩ := tick_data hs hc
  have hreports : reports ⟨s, .tick⟩ = reported ⟨s, .tick⟩ := by
    have hticks : (next ⟨s, .tick⟩).reportsDue =
        ({ s with ticks := s.ticks + 1 } : Session).reportsDue := by
      simp [Session.reportsDue, next, ticks, hstop]
    simp [reports, reported, hstop, htests, hticks]
  have hecho : echo ⟨s, .tick⟩ = "" := rfl
  rw [text, hecho, hreply, hreports, String.empty_append]

end Moment

namespace Session
variable {s : Session}

lemma byteMoments_data {bytes : List UInt8} (hs : s.modem.Sound)
    (hc : s.modem.commandMode = false) : ∀ x ∈ s.byteMoments bytes, x.stop? = none := by
  induction s, bytes using bytes_induct with
  | nil s => simp [byteMoments]
  | stop s byte bytes how hstop => cases hstop.symm.trans (Moment.stop_data hs hc)
  | go s byte bytes hstop ih =>
    have hnext : Moment.next ⟨s, .byte byte⟩ = _ := Moment.next_data hs hc
    rw [byteMoments_go hstop]
    refine List.forall_mem_cons.mpr ⟨hstop, ih (Moment.next_sound hs) ?_⟩
    rw [hnext]
    exact hc

/-- A run of bytes that stops the board has not come to the data. -/
lemma arrived_of_stop {bytes : List UInt8} (hs : s.modem.Sound)
    (hstop : ∃ x ∈ s.byteMoments bytes, x.stop? ≠ none) :
    (s.byteMoments bytes).flatMap Moment.arrived = [] := by
  induction s, bytes using bytes_induct with
  | nil s => rfl
  | stop s byte bytes how hone =>
    cases hc : s.modem.commandMode with
    | false => cases hone.symm.trans (Moment.stop_data hs hc)
    | true => simp [byteMoments_stop hone, Moment.arrived, hc]
  | go s byte bytes hone ih =>
    cases hc : s.modem.commandMode with
    | false =>
      obtain ⟨x, hx, hne⟩ := hstop
      exact absurd (byteMoments_data hs hc x hx) hne
    | true =>
      have hfirst : Moment.arrived ⟨s, .byte byte⟩ = [] := by simp [Moment.arrived, hc]
      rw [byteMoments_go hone] at hstop ⊢
      obtain ⟨x, hx, hne⟩ := hstop
      rw [List.flatMap_cons, hfirst, List.nil_append]
      rcases List.mem_cons.mp hx with rfl | hx
      · exact absurd hone hne
      · exact ih (Moment.next_sound hs) ⟨x, hx, hne⟩

/-- The data of a turn is what arrived in data mode, even where the turn crashes. -/
lemma turn_data (hs : s.modem.Sound) (e : SessionEvent) :
    (s.turn e).data = (s.moments e).flatMap Moment.arrived := by
  have harrived : (s.moments e).flatMap Moment.payload = (s.moments e).flatMap Moment.arrived :=
    List.flatMap_congr fun x _ => x.payload_eq
  cases ho : (s.turn e).output with
  | ok o =>
    obtain ⟨-, hdata⟩ := turn_text ho
    rw [Turn.data, ho, ← harrived]
    exact hdata
  | error message =>
    rw [Turn.data, ho]
    cases e with
    | tick => rfl
    | serial bytes =>
      rcases s.turn_cases (.serial bytes) with ⟨o, hok, -⟩ | ⟨-, -, -, o, -, hok, -⟩ |
        ⟨x, hx, message, hcrash, -⟩
      · cases ho.symm.trans hok
      · cases ho.symm.trans hok
      · exact (arrived_of_stop hs ⟨x, hx, by simp [hcrash]⟩).symm

lemma turns_data (h : s.Reachable) (es : List SessionEvent) :
    (s.turns es).flatMap Turn.data = (s.history es).flatMap Moment.arrived := by
  induction es generalizing s with
  | nil => rfl
  | cons e es ih =>
    rw [turns, history, List.flatMap_cons, List.flatMap_append, turn_data h.sound, ih (h.turn e)]

/-- Bytes that arrive in data mode make up the data of a run, all of them and in order; they change
nothing but the detector. All that is written in data mode are answers to escapes and reports. -/
theorem data_path (h : s.Reachable) (es : List SessionEvent) :
    (∀ x ∈ s.history es, ∀ byte, x.signal = .byte byte → x.session.modem.commandMode = false →
      x.payload = [byte] ∧ x.text = "" ∧ x.stop? = none ∧
      x.next = { x.session with
        modem := { x.session.modem with escape := x.session.modem.escape.onByte byte } }) ∧
    (∀ x ∈ s.history es, x.session.modem.commandMode = true → x.payload = []) ∧
    (s.turns es).flatMap Turn.data = (s.history es).flatMap Moment.arrived ∧
    (∀ x ∈ s.history es, x.signal = .tick → x.session.modem.commandMode = false →
      x.text = x.acknowledgement ++ x.reported) ∧
    (∀ e, ((s.after es).moments e).map Moment.signal <+: e.signals ∧
      ((∀ x ∈ (s.after es).moments e, x.stop? = none) →
        ((s.after es).moments e).map Moment.signal = e.signals) ∧
      ((s.after es).turn e).data = ((s.after es).moments e).flatMap Moment.arrived ∧
      ∀ o, ((s.after es).turn e).output = .ok o →
        o.reply = String.join (((s.after es).moments e).map Moment.text)) := by
  obtain ⟨-, hsound⟩ := (s.history_trace es).sound h.sound
  refine ⟨?_, ?_, turns_data h es, ?_, ?_⟩
  · intro x hx byte hb hc
    have hs := hsound x hx
    obtain ⟨t, signal⟩ := x
    obtain rfl : signal = .byte byte := hb
    have hpayload : Moment.payload ⟨t, .byte byte⟩ = [byte] := by
      rw [Moment.payload_eq, Moment.arrived_data hc]
    exact ⟨hpayload, Moment.text_data hs hc,
      Moment.stop_data hs hc, Moment.next_data hs hc⟩
  · intro x _ hc
    rw [Moment.payload_eq, Moment.arrived]
    split
    · rw [hc, if_pos rfl]
    · rfl
  · intro x hx ht hc
    have hs := hsound x hx
    obtain ⟨t, signal⟩ := x
    obtain rfl : signal = .tick := ht
    exact Moment.text_tick hs hc
  · intro e
    have hs := (h.after es).sound
    exact ⟨(s.after es).moments_signals e, moments_all, turn_data hs e,
      fun o ho => (turn_text ho).1⟩

/-- An escape between two stretches of data, and a command that shares a chunk with the second. -/
def interrupted : List SessionEvent :=
  [.serial "hi".toUTF8.toList, .tick, .serial "+++".toUTF8.toList, .tick,
    .serial "ATO\rbye\r".toUTF8.toList, .tick]

theorem data_path_interrupted : ∃ s, ofConfiguration alert = .ok s ∧ s.Reachable ∧
    (s.turns interrupted).flatMap Turn.data = "hi+++bye\r".toUTF8.toList := by
  have hreach : Reachable _ := reachable_ofConfiguration (c := alert) rfl
  refine ⟨_, rfl, hreach, ?_⟩
  rw [(data_path hreach interrupted).2.2.1]
  decide +kernel

end Session

end RadioModem
