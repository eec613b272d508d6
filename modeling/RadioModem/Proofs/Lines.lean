import RadioModem.Proofs.ModemInvariant
import RadioModem.Proofs.Records

/-!
# Lines that are run

A reference for the lines of a session: what was typed since the line before ends with a carriage
return, and an escape answers itself with the attention command. It knows of no buffer and of
no line that waits; the session runs exactly its lines, each before it looks at another byte.
-/
namespace RadioModem

/-- The line that a moment has to run and the keys typed after it. -/
def lineDue (keys : List UInt8) (x : Moment) : Option String × List UInt8 :=
  match x.signal with
  | .tick => if x.session.modem.escape.fires then (some Modem.attentionLine, []) else (none, keys)
  | .byte byte =>
    if !x.session.modem.commandMode then (none, keys)
    else if byte = 0x0D then (some (typed keys), [])
    else (none, keys ++ [byte])

def linesDue (keys : List UInt8) : List Moment → List (Option String)
  | [] => []
  | x :: xs => (lineDue keys x).1 :: linesDue (lineDue keys x).2 xs

/-- The poll of a moment hands its line to the dispatcher, or does nothing where there is none. -/
def Moment.Dispatches (f : Features) (x : Moment) : Prop :=
  match x.line? with
  | some line =>
    Modem.Dispatched (Dispatch.run f x.stepped.board x.stepped.modem.tests line) x.polled
  | none => x.polled = ⟨x.stepped.modem, x.stepped.board, "", .ok false, .empty⟩

/-- Between two moments no line waits, and in command mode the buffer holds the line that the keys
leave. -/
structure Session.Edited (s : Session) (keys : List UInt8) : Prop where
  sound : s.modem.Sound
  room : 2 ≤ s.modem.line.capacity
  ready : s.modem.ready = false
  follows : s.modem.commandMode = true →
    s.modem.line.bytes.map charOfByte = keys.foldl strike []

namespace Modem
variable {m : Modem} {keys : List UInt8}

lemma text_of_follows (hs : m.Sound) (h : m.line.bytes.map charOfByte = keys.foldl strike []) :
    m.text = typed keys := by
  rw [text, hs.line.text, h]
  rfl

end Modem

namespace Moment
variable {x : Moment} {keys : List UInt8}

lemma dispatches {f : Features} (hf : x.session.modem.features = f) : x.Dispatches f := by
  have hfeatures : x.stepped.modem.features = f := by
    rwa [Modem.features, stepped_settings]
  cases hr : x.stepped.modem.ready with
  | false =>
    rw [Dispatches, line?_of_idle hr]
    exact polled_idle hr
  | true =>
    rw [Dispatches, line?_of_ready hr, ← hfeatures]
    exact (Modem.poll_polled _ _).dispatched hr

lemma next_room (h : x.session.Edited keys) : 2 ≤ x.next.modem.line.capacity := by
  have hsound := next_sound h.sound
  rw [hsound.capacity, next_settings, ← h.sound.capacity]
  exact h.room

lemma edited_of_run (h : x.session.Edited keys) (hr : x.stepped.modem.ready = true)
    (hstop : x.stop? = none) : x.next.Edited [] := by
  obtain ⟨ran, hran⟩ : ∃ ran, x.polled.ran = .ok ran := by
    cases hran : x.polled.ran with
    | ok ran => exact ⟨ran, rfl⟩
    | error how => simp [stop?, hran] at hstop
  obtain ⟨hready, hline⟩ := (Modem.poll_polled _ _).finished hr hran
  refine ⟨next_sound h.sound, next_room h, hready, fun _ => ?_⟩
  have hempty : x.next.modem.line.bytes = [] := congrArg LineBuffer.bytes hline
  rw [hempty]
  rfl

lemma edited_of_idle (h : x.session.Edited keys) (hr : x.stepped.modem.ready = false)
    {later : List UInt8} (hf : x.stepped.modem.commandMode = true →
      x.stepped.modem.line.bytes.map charOfByte = later.foldl strike []) :
    x.next.Edited later := by
  have hmodem : x.next.modem = x.stepped.modem := by rw [next, polled_idle hr]
  exact ⟨next_sound h.sound, next_room h, by rwa [hmodem], by rwa [hmodem]⟩

variable {s : Session}

lemma data_due {byte : UInt8} (h : s.Edited keys) (hc : s.modem.commandMode = false) :
    line? ⟨s, .byte byte⟩ = none ∧ (next ⟨s, .byte byte⟩).Edited keys := by
  have hstepped : stepped ⟨s, .byte byte⟩ = _ := stepped_data hc
  have hidle : (stepped ⟨s, .byte byte⟩).modem.ready = false := by
    rw [hstepped]
    exact h.ready
  -- Keys are not followed outside command mode.
  exact ⟨line?_of_idle hidle, edited_of_idle h hidle (by simp [hstepped, hc])⟩

lemma return_due (h : s.Edited keys) (hc : s.modem.commandMode = true)
    (hstop : stop? ⟨s, .byte 0x0D⟩ = none) :
    line? ⟨s, .byte 0x0D⟩ = some (typed keys) ∧ (next ⟨s, .byte 0x0D⟩).Edited [] := by
  have htyped : s.modem.text = typed keys := Modem.text_of_follows h.sound (h.follows hc)
  have hstepped : (stepped ⟨s, .byte 0x0D⟩).modem =
      { s.modem with escape := s.modem.escape.onByte 0x0D, ready := true } := by
    simp [stepped, Modem.onByte_return hc h.ready]
  have hready : (stepped ⟨s, .byte 0x0D⟩).modem.ready = true := by rw [hstepped]
  have htext : (stepped ⟨s, .byte 0x0D⟩).modem.text = typed keys := by
    rw [hstepped]
    exact htyped
  exact ⟨by rw [line?_of_ready hready, htext], edited_of_run h hready hstop⟩

lemma key_due {byte : UInt8} (h : s.Edited keys) (hc : s.modem.commandMode = true)
    (hcr : byte ≠ 0x0D) :
    line? ⟨s, .byte byte⟩ = none ∧ (next ⟨s, .byte byte⟩).Edited (keys ++ [byte]) := by
  have hr := h.ready
  have hk := s.modem.line.key_stroke byte
  cases he : (s.modem.line.key byte).event with
  | lineReady => exact absurd (hk.return_iff.mp he) hcr
  | pending =>
    have hstepped : (stepped ⟨s, .byte byte⟩).modem =
        { s.modem with
          escape := s.modem.escape.onByte byte, line := (s.modem.line.key byte).line } := by
      simp [stepped, Modem.onByte_typed hc hr he]
    have hidle : (stepped ⟨s, .byte byte⟩).modem.ready = false := by rw [hstepped, hr]
    rw [he] at hk
    refine ⟨line?_of_idle hidle, edited_of_idle h hidle fun _ => ?_⟩
    rw [hstepped, List.foldl_append, ← h.follows hc]
    exact hk.follows
  | overflow =>
    -- The line is gone with command mode, so nothing that was typed is ever run.
    have hstepped := Modem.onByte_overflow hc hr he
    have hidle : (stepped ⟨s, .byte byte⟩).modem.ready = false := by simp [stepped, hstepped, hr]
    exact ⟨line?_of_idle hidle, edited_of_idle h hidle (by simp [stepped, hstepped])⟩

lemma byte_due {byte : UInt8} (h : s.Edited keys) (hstop : stop? ⟨s, .byte byte⟩ = none) :
    line? ⟨s, .byte byte⟩ = (lineDue keys ⟨s, .byte byte⟩).1 ∧
      (next ⟨s, .byte byte⟩).Edited (lineDue keys ⟨s, .byte byte⟩).2 := by
  cases hc : s.modem.commandMode with
  | false =>
    have hdue : lineDue keys ⟨s, .byte byte⟩ = (none, keys) := by simp [lineDue, hc]
    rw [hdue]
    exact data_due h hc
  | true =>
    by_cases hcr : byte = 0x0D
    · subst hcr
      have hdue : lineDue keys ⟨s, .byte 0x0D⟩ = (some (typed keys), []) := by simp [lineDue, hc]
      rw [hdue]
      exact return_due h hc hstop
    · have hdue : lineDue keys ⟨s, .byte byte⟩ = (none, keys ++ [byte]) := by
        simp [lineDue, hc, hcr]
      rw [hdue]
      exact key_due h hc hcr

lemma tick_due (h : s.Edited keys) (hstop : stop? ⟨s, .tick⟩ = none) :
    line? ⟨s, .tick⟩ = (lineDue keys ⟨s, .tick⟩).1 ∧
      (next ⟨s, .tick⟩).Edited (lineDue keys ⟨s, .tick⟩).2 := by
  cases he : s.modem.escape.fires with
  | false =>
    have hdue : lineDue keys ⟨s, .tick⟩ = (none, keys) := by simp [lineDue, he]
    have hstepped : (stepped ⟨s, .tick⟩).modem =
        { s.modem with escape := s.modem.escape.onTick } := by
      rw [stepped, Modem.onTick_quiet he]
    have hidle : (stepped ⟨s, .tick⟩).modem.ready = false := by rw [hstepped, h.ready]
    rw [hdue]
    refine ⟨line?_of_idle hidle, edited_of_idle h hidle fun hc => ?_⟩
    rw [hstepped] at hc ⊢
    exact h.follows hc
  | true =>
    have hdue : lineDue keys ⟨s, .tick⟩ = (some Modem.attentionLine, []) := by simp [lineDue, he]
    have hstepped := (Modem.onTick_fires (b := s.node) he).1
    have hready : (stepped ⟨s, .tick⟩).modem.ready = true := by rw [stepped, hstepped]
    have htext : (stepped ⟨s, .tick⟩).modem.text = Modem.attentionLine := by
      rw [stepped, hstepped]
      exact Modem.text_attention h.room
    rw [hdue]
    exact ⟨by rw [line?_of_ready hready, htext], edited_of_run h hready hstop⟩

/-- Every moment that does not stop the board runs the line that is due. -/
theorem runs_due (h : x.session.Edited keys) (hstop : x.stop? = none) :
    x.line? = (lineDue keys x).1 ∧ x.next.Edited (lineDue keys x).2 := by
  obtain ⟨s, signal⟩ := x
  cases signal with
  | byte byte => exact byte_due h hstop
  | tick => exact tick_due h hstop

end Moment

namespace Trace
variable {s s' : Session} {xs : List Moment} {keys : List UInt8}

/-- A run that nothing stops runs the lines that are due, and no line waits in it. -/
theorem lines (h : Trace s xs s') (he : s.Edited keys) (hstop : ∀ x ∈ xs, x.stop? = none) :
    xs.map Moment.line? = linesDue keys xs ∧ (∀ x ∈ xs, x.session.modem.ready = false) ∧
      ∃ rest, s'.Edited rest := by
  induction h generalizing keys with
  | nil => exact ⟨rfl, by simp, keys, he⟩
  | @moment s s' signal xs rest ih =>
    obtain ⟨hfirst, hothers⟩ := List.forall_mem_cons.mp hstop
    obtain ⟨hline, hnext⟩ := Moment.runs_due (x := ⟨s, signal⟩) he hfirst
    obtain ⟨hlines, hready, hend⟩ := ih hnext hothers
    refine ⟨?_, List.forall_mem_cons.mpr ⟨he.ready, hready⟩, hend⟩
    rw [List.map_cons, linesDue, hline, hlines]
  | drained rest ih => exact ih ⟨he.sound, he.room, he.ready, he.follows⟩ hstop

theorem records (h : Trace s xs s') :
    xs.map (fun x => x.journal.runs s.node.identity.node) =
      (xs.map Moment.line?).map (recordsOf s.node.identity.node) := by
  obtain ⟨-, hnode⟩ := h.node
  rw [List.map_map]
  refine List.map_congr_left fun x hx => ?_
  exact Moment.journal_runs (by rw [(hnode x hx).1])

end Trace

namespace Session
variable {s : Session} {keys : List UInt8}

lemma tick_relay (h : s.Edited keys) : (Moment.next ⟨s, .tick⟩).node.relay = s.node.relay := by
  cases hf : s.modem.escape.fires with
  | false => rw [Moment.next, Moment.polled_quiet hf h.ready]
  | true =>
    obtain ⟨running, -, hboard, -⟩ := Moment.polled_escape hf
    rw [Moment.next, hboard]

/-- A turn that does not halt handles all its bytes and leaves nothing behind. -/
lemma turn_settled {e : SessionEvent} (he : s.Edited keys) (hr : s.node.relay = .empty)
    (hn : s.node.onHalt = .report) (hh : (s.turn e).halt? = none) :
    (∃ o, (s.turn e).output = .ok o) ∧ (s.moments e).map Moment.signal = e.signals ∧
      (∀ x ∈ s.moments e, x.stop? = none) ∧ (s.turn e).session.node.relay = .empty := by
  obtain ⟨returned, hok⟩ := turn_returns hn e
  rcases s.turn_cases e with ⟨o, ho, -, hsignals, hstop⟩ | ⟨x, -, reason, o, -, ho, hhalt⟩ |
    ⟨-, -, message, -, hcrash⟩
  · refine ⟨⟨o, ho⟩, hsignals, hstop, ?_⟩
    cases e with
    | serial bytes => exact serial_relay ho
    | tick =>
      rw [turn, onTick_eq]
      exact (tick_relay he).trans hr
  · cases hhalt.symm.trans ((Turn.halt?_of_returned ho).symm.trans hh)
  · cases hok.symm.trans hcrash

lemma run_settled {es : List SessionEvent} (he : s.Edited keys) (hr : s.node.relay = .empty)
    (hn : s.node.onHalt = .report) (hh : ∀ t ∈ s.turns es, t.halt? = none) :
    (∀ t ∈ s.turns es, ∃ o, t.output = .ok o) ∧
      (s.history es).map Moment.signal = es.flatMap SessionEvent.signals ∧
      (∀ x ∈ s.history es, x.stop? = none) ∧ (s.after es).node.relay = .empty := by
  induction es generalizing s keys with
  | nil => exact ⟨by simp [turns], rfl, by simp [history], hr⟩
  | cons e es ih =>
    obtain ⟨hfirst, hothers⟩ := List.forall_mem_cons.mp hh
    obtain ⟨hok, hsignals, hstop, hrelay⟩ := turn_settled he hr hn hfirst
    have htrace := s.turn_trace e
    obtain ⟨-, -, rest, hedited⟩ := htrace.lines he hstop
    have hnext : (s.turn e).session.node.onHalt = .report := htrace.node.1.2.trans hn
    obtain ⟨ihok, ihsignals, ihstop, ihrelay⟩ := ih hedited hrelay hnext hothers
    refine ⟨List.forall_mem_cons.mpr ⟨hok, ihok⟩, ?_, ?_, ihrelay⟩
    · rw [history, List.map_append, hsignals, ihsignals, List.flatMap_cons]
    · exact List.forall_mem_append.mpr ⟨hstop, ihstop⟩

lemma history_runs (s : Session) (es : List SessionEvent) (node : Address) :
    (s.turns es).flatMap (fun t => t.journal.runs node) =
      (s.history es).flatMap fun x => x.journal.runs node := by
  induction es generalizing s with
  | nil => rfl
  | cons e es ih => rw [turns, history, List.flatMap_cons, List.flatMap_append, turn_runs, ih]

lemma edited_ofConfiguration {c : Configuration} (hc : c.validated = .ok c)
    (h : ofConfiguration c = .ok s) : s.Edited [] := by
  have hsound := (reachable_ofConfiguration h).sound
  obtain ⟨node, -, rfl⟩ := ofConfiguration_ok h
  exact ⟨hsound, (Configuration.validated_iff.mp hc).1, rfl, fun _ => rfl⟩

/-- As long as no event halts, the session hands exactly the lines that are due to the dispatcher,
in order, each before the next byte is looked at, and nothing is left waiting. -/
theorem lines_run_once {c : Configuration} (hc : c.validated = .ok c)
    (h : ofConfiguration c = .ok s) (es : List SessionEvent)
    (hh : ∀ t ∈ s.turns es, t.halt? = none) :
    (∀ t ∈ s.turns es, ∃ o, t.output = .ok o) ∧
    (s.after es).modem.ready = false ∧ (s.after es).node.relay = .empty ∧
    (s.history es).map Moment.signal = es.flatMap SessionEvent.signals ∧
    (∀ x ∈ s.history es, x.session.modem.ready = false) ∧
    (s.history es).map Moment.line? = linesDue [] (s.history es) ∧
    (∀ x ∈ s.history es, x.Dispatches c.modem.features) ∧
    (s.turns es).flatMap (fun t => t.journal.runs c.identity.node) =
      (linesDue [] (s.history es)).flatMap (recordsOf c.identity.node) := by
  have he := edited_ofConfiguration hc h
  have hfresh : Node.Fresh c s.node := by
    obtain ⟨node, hn, rfl⟩ := ofConfiguration_ok h
    exact Node.fresh_ofConfiguration hn
  obtain ⟨hok, hsignals, hstop, hrelay⟩ := run_settled he hfresh.relay hfresh.onHalt hh
  have htrace := s.history_trace es
  obtain ⟨hlines, hready, rest, hend⟩ := htrace.lines he hstop
  have hsettings : s.modem.settings = c.modem := by
    obtain ⟨node, -, rfl⟩ := ofConfiguration_ok h
    rfl
  refine ⟨hok, hend.ready, hrelay, hsignals, hready, hlines, fun x hx => ?_, ?_⟩
  · exact Moment.dispatches (congrArg ModemSettings.features
      ((htrace.settings x hx).trans hsettings))
  have hrecords := htrace.records
  rw [hfresh.identity, hlines] at hrecords
  rw [history_runs, List.flatMap_def, hrecords, ← List.flatMap_def]

/-- A line abandoned by an overflow, a half-typed line under a second escape, and lines that share a
chunk with what comes after them; the last of them leaves command mode. -/
def eventful : List SessionEvent :=
  [.tick, .serial "+++".toUTF8.toList, .tick, .serial "ATS3?XYAT\r".toUTF8.toList,
    .tick, .serial "+++".toUTF8.toList, .tick, .serial "ATS".toUTF8.toList,
    .tick, .serial "+++".toUTF8.toList, .tick, .serial "ats3?\rATX\x08O\rAT\r".toUTF8.toList]

theorem lines_run_once_eventful : ∃ s, ofConfiguration alert = .ok s ∧
    (s.after eventful).modem.ready = false ∧
    ((s.history eventful).map Moment.line?).filterMap id =
      ["AT", "AT", "AT", "ATS3?", "ATO"] := by
  obtain ⟨-, hready, -, -, -, hlines, -, -⟩ :=
    lines_run_once (c := alert) rfl rfl eventful (by decide +kernel)
  refine ⟨_, rfl, hready, ?_⟩
  rw [hlines]
  decide +kernel

end Session

end RadioModem
