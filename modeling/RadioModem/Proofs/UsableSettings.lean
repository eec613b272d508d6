import RadioModem.Proofs.CompleteEscape
import RadioModem.Proofs.Lines
import RadioModem.Proofs.Stops
import RadioModem.Proofs.Watchdog

/-!
# Usable settings

With a guard window of at least a tick and room for the attention line, the settings that a
configuration may have, a session is always one escape away from an answer. With any other settings
the dispatcher never writes anything.
-/
namespace RadioModem

/-- The events of an escape on the serial line, with this much silence around the signs. -/
def escapeTurns (lead trail : Nat) : List SessionEvent :=
  List.replicate lead .tick ++
    .serial [escapeByte, escapeByte, escapeByte] :: List.replicate trail .tick

lemma escapeTurns_signals (lead trail : Nat) :
    (escapeTurns lead trail).flatMap SessionEvent.signals = Signal.escape lead trail := by
  have hticks (n : Nat) :
      (List.replicate n SessionEvent.tick).flatMap SessionEvent.signals = Signal.silence n := by
    induction n with
    | zero => rfl
    | succ n ih => rw [List.replicate_succ, List.flatMap_cons, ih, Signal.silence_cons]; rfl
  rw [escapeTurns, List.flatMap_append, List.flatMap_cons, hticks, hticks, Signal.escape,
    List.append_assoc]
  rfl

namespace Configuration

/-- What a configuration asks of the front end's settings. -/
theorem accepted_iff (settings : ModemSettings) :
    (∃ c : Configuration, c.modem = settings ∧ c.validated = .ok c) ↔
      1 ≤ settings.guardTicks ∧ 2 ≤ settings.capacity := by
  constructor
  · rintro ⟨c, rfl, hc⟩
    obtain ⟨hcapacity, hguard, -⟩ := validated_iff.mp hc
    exact ⟨hguard, hcapacity⟩
  · rintro ⟨hguard, hcapacity⟩
    have hpins : PinSettings.standard.count ≤ pinLimit := by decide
    exact ⟨{ standard with modem := settings }, rfl,
      validated_iff.mpr ⟨hcapacity, hguard, hpins⟩⟩

end Configuration

/-! ### Moments that run no line of an operator's -/

namespace Modem
variable {m : Modem} {settings : ModemSettings}

lemma Received.not_ready {byte : UInt8} {s : ByteStep} (h : Received m byte s)
    (hr : m.ready = false) (hcr : byte ≠ 0x0D) : s.modem.ready = false := by
  cases h with
  | data | waiting | typed | overflowed => exact hr
  | ended hc hr hb => exact absurd hb hcr

lemma kept_data_mode (hg : settings.guardTicks = 0) :
    Kept settings (·.commandMode = false) where
  fresh := rfl
  byte byte _ hm := Bool.eq_false_iff.mpr fun hon => by
    simp [(onByte_received _ byte).commandMode hon] at hm
  tick b h hm := by
    have hquiet {d : EscapeDetector} (hd : d.countdown ≤ 0) : d.fires = false := by
      simp [EscapeDetector.fires, EscapeDetector.elapses, Nat.le_zero.mp hd]
    have hbounded := h.wound.bounded
    rw [h.guard, hg] at hbounded
    rw [onTick_quiet (hquiet hbounded)]
    exact hm
  poll b _ hm := Bool.eq_false_iff.mpr fun hon => by
    simp [(poll_polled _ b).commandMode hon] at hm

/-- Without a guard window command mode is never entered. -/
lemma Reachable.data_mode (h : Reachable settings m) (hg : settings.guardTicks = 0) :
    m.commandMode = false := (kept_data_mode hg).holds h

/-- A line of one character is no command. -/
lemma ignored_of_small (hs : m.Sound) (hc : m.settings.capacity < 2) :
    Request.parse m.text = .ignored := by
  have hsize : m.line.bytes.length ≤ m.line.capacity := hs.line.bounded
  rw [hs.capacity] at hsize
  rw [text, hs.line.text, Request.parse, String.toList_ofList]
  cases hb : m.line.bytes with
  | nil => simp
  | cons _ rest =>
    cases rest with
    | nil => simp
    | cons _ _ =>
      rw [hb] at hsize
      simp at hsize
      omega

end Modem

namespace Moment
variable {x : Moment} {settings : ModemSettings}

/-- A byte that ends no line or a tick: the board does not stop, and the detector goes on. -/
lemma quiet (hr : x.session.modem.ready = false) (hcr : x.signal ≠ .byte 0x0D) :
    x.stop? = none ∧ x.next.modem.ready = false ∧
      x.next.modem.escape = x.session.modem.escape.next x.signal ∧
      x.escapes = x.session.modem.escape.firesOn x.signal := by
  obtain ⟨s, signal⟩ := x
  cases signal with
  | byte byte =>
    have hidle : (stepped ⟨s, .byte byte⟩).modem.ready = false :=
      (Modem.onByte_received _ byte).not_ready hr fun h => hcr (congrArg Signal.byte h)
    have hpolled := polled_idle hidle
    refine ⟨by rw [stop?, hpolled], by rwa [next, hpolled], ?_, rfl⟩
    rw [next, hpolled]
    exact Modem.onByte_escape s.modem byte
  | tick =>
    cases hf : s.modem.escape.fires with
    | false =>
      have hpolled := polled_quiet hf hr
      refine ⟨by rw [stop?, hpolled], by rwa [next, hpolled], ?_, rfl⟩
      rw [next, hpolled]
      rfl
    | true =>
      obtain ⟨running, hmodem, -, -, hran⟩ := polled_escape hf
      refine ⟨by rw [stop?, hran], by rw [next, hmodem], ?_, rfl⟩
      rw [next, hmodem]
      exact (EscapeDetector.onTick_of_fires hf).symm

lemma stepped_reachable (h : Modem.Reachable settings x.session.modem) :
    Modem.Reachable settings x.stepped.modem := by
  obtain ⟨s, signal⟩ := x
  cases signal with
  | byte byte => exact .byte byte h
  | tick => exact .tick s.node h

lemma next_reachable (h : Modem.Reachable settings x.session.modem) :
    Modem.Reachable settings x.next.modem := .poll x.stepped.board (stepped_reachable h)

/-- Where there is no window or no room, no line is run that could be answered. -/
lemma reply_unusable (h : Modem.Reachable settings x.session.modem)
    (hu : settings.guardTicks = 0 ∨ settings.capacity < 2) : x.polled.reply = "" := by
  have hstepped := stepped_reachable h
  cases hr : x.stepped.modem.ready with
  | false => rw [polled_idle hr]
  | true =>
    have hcapacity : x.stepped.modem.settings.capacity < 2 := by
      rcases hu with hg | hc
      · exact absurd (hstepped.sound.ready_mode hr) (by simp [hstepped.data_mode hg])
      · rwa [hstepped.settings_eq]
    have hignored := Modem.ignored_of_small hstepped.sound hcapacity
    rw [polled, ((Modem.poll_polled _ _).dispatches hr).1, Modem.outcome, Dispatch.run, hignored]
    rfl

end Moment

namespace Trace
variable {s s' : Session} {xs : List Moment} {settings : ModemSettings}

lemma reachable (h : Trace s xs s') (hs : Modem.Reachable settings s.modem) :
    Modem.Reachable settings s'.modem ∧ ∀ x ∈ xs, Modem.Reachable settings x.session.modem :=
  Trace.keeps (P := (Modem.Reachable settings ·.modem)) (fun _ => Moment.next_reachable)
    (fun _ hs => hs) h hs

/-- As long as no line is ended, a session does to its detector what the signals do. -/
theorem quiet (h : Trace s xs s') (hr : s.modem.ready = false)
    (hcr : ∀ x ∈ xs, x.signal ≠ .byte 0x0D) :
    (∀ x ∈ xs, x.stop? = none) ∧ s'.modem.ready = false ∧
      s'.modem.escape = s.modem.escape.after (xs.map Moment.signal) ∧
      xs.map Moment.escapes = s.modem.escape.firings (xs.map Moment.signal) := by
  induction h with
  | nil => exact ⟨by simp, hr, rfl, rfl⟩
  | @moment s s' signal xs rest ih =>
    obtain ⟨hfirst, hothers⟩ := List.forall_mem_cons.mp hcr
    obtain ⟨hstop, hready, hescape, hfires⟩ := Moment.quiet (x := ⟨s, signal⟩) hr hfirst
    obtain ⟨ihstop, ihready, ihescape, ihfires⟩ := ih hready hothers
    rw [hescape] at ihescape ihfires
    refine ⟨List.forall_mem_cons.mpr ⟨hstop, ihstop⟩, ihready, ihescape, ?_⟩
    rw [List.map_cons, List.map_cons, EscapeDetector.firings, hfires, ihfires]
  | drained rest ih => exact ih hr hcr

end Trace

namespace Session
variable {s : Session} {settings : ModemSettings} {node : Node}

/-- The tick that this session is about to handle completes an escape: the attention line is run
and answered before anything else, and nothing is left of it. -/
structure Acknowledges (s : Session) (node : Address) : Prop where
  completes : Moment.escapes ⟨s, .tick⟩ = true
  line : Moment.line? ⟨s, .tick⟩ = some Modem.attentionLine
  reply : (Moment.polled ⟨s, .tick⟩).reply = frame node okText
  output : (s.turn .tick).output = .ok ⟨frame node okText ++
    (if (s.turn .tick).session.reportsDue then (s.turn .tick).session.testReports else ""),
      [], [], none⟩
  commandMode : (s.turn .tick).session.modem.commandMode = true
  empty : (s.turn .tick).session.modem.line.bytes = []
  ready : (s.turn .tick).session.modem.ready = false

lemma tick_session (s : Session) : (s.turn .tick).session = Moment.next ⟨s, .tick⟩ := by
  rw [turn, onTick_eq]

lemma acknowledges_of_fires (hs : s.modem.Sound) (hc : 2 ≤ s.modem.settings.capacity)
    (hf : s.modem.escape.fires = true) : s.Acknowledges s.node.identity.node := by
  have hroom : 2 ≤ s.modem.line.capacity := by rwa [hs.capacity]
  have hstepped : (Moment.stepped ⟨s, .tick⟩).modem = _ :=
    (Modem.onTick_fires (b := s.node) hf).1
  obtain ⟨running, hmodem, hboard, hreply, hran⟩ := Moment.polled_escape hf
  have hanswer : (Moment.polled ⟨s, .tick⟩).reply = frame s.node.identity.node okText := by
    rw [hreply, if_pos hroom]
    rfl
  have hstop : Moment.stop? ⟨s, .tick⟩ = none := by rw [Moment.stop?, hran]
  refine ⟨hf, ?_, hanswer, ?_, ?_, ?_, ?_⟩
  · rw [Moment.line?_of_ready (by rw [hstepped]), hstepped]
    exact congrArg some (Modem.text_attention hroom)
  · rw [turn, onTick_eq]
    simp [hstop, Moment.text, Moment.echo, Moment.reports, hanswer]
  · rw [tick_session, Moment.next, hmodem]
  · rw [tick_session, Moment.next, hmodem]
    rfl
  · rw [tick_session, Moment.next, hmodem]

lemma history_signals_mem {es : List SessionEvent} {x : Moment} (hx : x ∈ s.history es) :
    x.signal ∈ es.flatMap SessionEvent.signals := by
  induction es generalizing s with
  | nil => cases hx
  | cons e es ih =>
    rcases List.mem_append.mp hx with hx | hx
    · have hsignal := (s.moments_signals e).subset (List.mem_map_of_mem hx)
      exact List.mem_append_left _ hsignal
    · exact List.mem_append_right _ (ih hx)

/-- A run that no moment stops handles every byte and tick, and every turn returns. -/
lemma history_all {es : List SessionEvent} (h : ∀ x ∈ s.history es, x.stop? = none) :
    (s.history es).map Moment.signal = es.flatMap SessionEvent.signals ∧
      ∀ t ∈ s.turns es, ∃ o, t.output = .ok o ∧ o.halt = none := by
  induction es generalizing s with
  | nil => exact ⟨rfl, by simp [turns]⟩
  | cons e es ih =>
    obtain ⟨hfirst, hothers⟩ := List.forall_mem_append.mp h
    obtain ⟨hsignals, hturns⟩ := ih hothers
    refine ⟨?_, List.forall_mem_cons.mpr ⟨?_, hturns⟩⟩
    · rw [history, List.map_append, moments_all hfirst, hsignals, List.flatMap_cons]
    · rcases s.turn_cases e with ⟨o, ho, hnone, -⟩ | ⟨x, hx, reason, -, hstop, -⟩ |
        ⟨x, hx, message, hstop, -⟩
      · exact ⟨o, ho, hnone⟩
      · cases (hfirst x hx).symm.trans hstop
      · cases (hfirst x hx).symm.trans hstop

/-- From rest an escape is acknowledged on its last tick, and nothing comes of it before. -/
theorem acknowledges_escape {lead : Nat} (hm : Modem.Reachable settings s.modem)
    (hg : 1 ≤ settings.guardTicks) (hc : 2 ≤ settings.capacity) (hr : s.modem.ready = false)
    (hrest : s.modem.escape.Resting) (hlead : settings.guardTicks ≤ lead) :
    (∀ t ∈ s.turns (escapeTurns lead (settings.guardTicks - 1)),
      ∃ o, t.output = .ok o ∧ o.halt = none) ∧
    (s.history (escapeTurns lead (settings.guardTicks - 1))).map Moment.signal =
      Signal.escape lead (settings.guardTicks - 1) ∧
    (∀ x ∈ s.history (escapeTurns lead (settings.guardTicks - 1)), x.escapes = false) ∧
    (s.after (escapeTurns lead (settings.guardTicks - 1))).Acknowledges s.node.identity.node := by
  have htrace := s.history_trace (escapeTurns lead (settings.guardTicks - 1))
  have hcr : ∀ x ∈ s.history (escapeTurns lead (settings.guardTicks - 1)),
      x.signal ≠ .byte 0x0D := by
    intro x hx hreturn
    have hsignal := history_signals_mem hx
    rw [escapeTurns_signals, hreturn] at hsignal
    simp [Signal.escape, Signal.silence, Signal.signs, Signal.plus, escapeByte] at hsignal
  obtain ⟨hstop, -, hescape, hfires⟩ := htrace.quiet hr hcr
  obtain ⟨hsignals, hturns⟩ := history_all hstop
  rw [escapeTurns_signals] at hsignals
  obtain ⟨hbefore, hlast⟩ := EscapeDetector.firings_escape (n := lead) hm.wound
    (by rwa [hm.guard]) hrest (by rwa [hm.guard])
  rw [hm.guard, ← hsignals, ← hfires] at hbefore
  rw [hm.guard, ← hsignals, ← hescape] at hlast
  have hend := (htrace.reachable hm).1
  refine ⟨hturns, hsignals, fun x hx => ?_, ?_⟩
  · exact Bool.eq_false_iff.mpr fun hon => hbefore (hon ▸ List.mem_map_of_mem hx)
  · rw [← htrace.node.1.1]
    exact acknowledges_of_fires hend.sound (by rwa [hend.settings_eq]) hlast

/-- The settings that a configuration may have are the usable ones. With them a session that is not
halted acknowledges every escape behind a window of any length, unless it comes after a plus sign;
with any others no run makes the dispatcher write anything. -/
theorem usable_settings (settings : ModemSettings) (node : Node) :
    ((∃ c : Configuration, c.modem = settings ∧ c.validated = .ok c) ↔
      1 ≤ settings.guardTicks ∧ 2 ≤ settings.capacity) ∧
    (1 ≤ settings.guardTicks → 2 ≤ settings.capacity → ∀ (es : List SessionEvent) (lead : Nat),
      let s := (ofParts (.ofSettings settings) node).after es
      let before := escapeTurns lead (settings.guardTicks - 1)
      ¬s.Halted → (received es).getLast? ≠ some escapeByte → settings.guardTicks ≤ lead →
        (∀ t ∈ s.turns before, ∃ o, t.output = .ok o ∧ o.halt = none) ∧
        (s.history before).map Moment.signal = Signal.escape lead (settings.guardTicks - 1) ∧
        (∀ x ∈ s.history before, x.escapes = false) ∧
        (s.after before).Acknowledges node.identity.node) ∧
    (settings.guardTicks = 0 ∨ settings.capacity < 2 → ∀ es : List SessionEvent,
      ∀ x ∈ (ofParts (.ofSettings settings) node).history es, x.polled.reply = "") := by
  have hfresh : Modem.Reachable settings (ofParts (.ofSettings settings) node).modem := .fresh
  refine ⟨Configuration.accepted_iff settings, ?_, ?_⟩
  · intro hg hc es lead s before hh hlast hlead
    have htrace := history_trace (ofParts (.ofSettings settings) node) es
    have hreach : Modem.Reachable settings s.modem := (htrace.reachable hfresh).1
    have hheard : s.modem.Heard ([] ++ received es) :=
      after_heard (Modem.heard_ofSettings settings) es
    have hready := not_ready_of_heard hheard hh
    have hnode : s.node.identity = node.identity := htrace.node.1.1
    rw [← hnode]
    exact acknowledges_escape hreach hg hc hready (hheard.rests hready hlast) hlead
  · intro hu es x hx
    exact Moment.reply_unusable ((history_trace _ es).reachable hfresh |>.2 x hx) hu

/-- An escape, and a line that is not ended. -/
def halfTyped : List SessionEvent :=
  [.tick, .serial "+++".toUTF8.toList, .tick, .serial "ATS3".toUTF8.toList]

theorem usable_settings_halfTyped : ∃ node, Node.ofConfiguration alert = .ok node ∧
    ((ofParts (.ofSettings alert.modem) node).after halfTyped).modem.text = "ATS3" ∧
    (((ofParts (.ofSettings alert.modem) node).after halfTyped).after
      (escapeTurns 3 0)).Acknowledges 0 ∧
    ∀ x ∈ (ofParts (.ofSettings ⟨1, 1, .basic⟩) node).history halfTyped, x.polled.reply = "" := by
  refine ⟨_, rfl, by decide +kernel, ?_, ?_⟩
  · exact ((usable_settings alert.modem _).2.1 (by decide) (by decide) halfTyped 3
      (not_halted_of_idle (by decide +kernel)) (by decide +kernel) (by decide)).2.2.2
  · exact (usable_settings ⟨1, 1, .basic⟩ _).2.2 (.inr (by decide)) halfTyped

end Session

end RadioModem
