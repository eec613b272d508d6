import RadioModem.Proofs.Session

/-!
# The watchdog

The watchdog is meant to run in data mode and to pause in command mode. It is switched by the tick
that enters command mode and by the line that leaves it; an overflow leaves command mode too, and
switches nothing. So the watchdog tells the mode up to the first overflow after an escape.
-/
namespace RadioModem

namespace Moment

/-- A byte finds the line full and takes the modem out of command mode. -/
def overflows (x : Moment) : Bool :=
  match x.signal with
  | .byte byte =>
    x.session.modem.commandMode && !x.session.modem.ready &&
      decide ((x.session.modem.line.key byte).event = .overflow)
  | .tick => false

def escapes (x : Moment) : Bool :=
  match x.signal with
  | .byte _ => false
  | .tick => x.session.modem.escape.fires

def abandons (abandoned : Bool) (x : Moment) : Bool :=
  if x.overflows then true else if x.escapes then false else abandoned

end Moment

/-- An overflow has happened, and no escape since. -/
def abandoned (xs : List Moment) : Bool := xs.foldl Moment.abandons false

namespace Session

/-- The watchdog is off in command mode, and after it in case it was abandoned. -/
structure Tracks (s : Session) (abandoned : Bool) : Prop where
  watchdog : s.node.watchdog = (!s.modem.commandMode && !abandoned)
  abandoned_mode : abandoned = true → s.modem.commandMode = false

lemma Tracks.not_abandoned {s : Session} {abandoned : Bool} (h : s.Tracks abandoned)
    (hc : s.modem.commandMode = true) : abandoned = false := by
  cases abandoned with
  | false => rfl
  | true => exact absurd (h.abandoned_mode rfl) (by simp [hc])

end Session

namespace Modem
variable {m : Modem} {n : Node}

lemma outcome_watchdog (m : Modem) (n : Node) : (m.outcome n).board.watchdog = n.watchdog :=
  (Node.run_keeps m.features n m.tests m.text).watchdog

/-- A line that is run from command mode switches the watchdog on if it leaves command mode. -/
lemma Polled.watchdog {p : PollStep Node} (h : Polled m n p) (hw : m.features.watchdog = true)
    (hc : m.commandMode = true) (hn : n.watchdog = false) :
    p.board.watchdog = !p.modem.commandMode := by
  have ho : (m.outcome n).board.watchdog = false := (outcome_watchdog m n).trans hn
  cases h with
  | idle => simp [hc, hn]
  | stopped => simp [hc, ho]
  | stayed => simp [hc, ho, Modem.finished]
  | left =>
    rw [watchdog_of_feature hw]
    rfl

lemma Polled.no_watchdog {p : PollStep Node} (h : Polled m n p)
    (hw : m.features.watchdog = false) : p.board.watchdog = n.watchdog := by
  have ho := outcome_watchdog m n
  cases h with
  | idle => rfl
  | stopped | stayed => exact ho
  | left => rw [watchdog_of_no_feature hw, ho]

end Modem

namespace Moment
variable {x : Moment} {left : Bool}

lemma tracks_of_command (hw : x.session.modem.features.watchdog = true)
    (hc : x.stepped.modem.commandMode = true) (hn : x.stepped.board.watchdog = false) :
    x.next.Tracks false := by
  have hf : x.stepped.modem.features.watchdog = true := by
    rwa [Modem.features, stepped_settings]
  exact ⟨by simpa [next, polled] using (Modem.poll_polled _ _).watchdog hf hc hn, by simp⟩

lemma tracks_of_idle (hr : x.stepped.modem.ready = false)
    (hm : x.stepped.modem.commandMode = false) (hn : x.stepped.board.watchdog = !left) :
    x.next.Tracks left := by
  refine ⟨?_, fun _ => ?_⟩
  · simp [next, polled_idle hr, hm, hn]
  · simp [next, polled_idle hr, hm]

lemma byte_tracks {s : Session} {byte : UInt8} (hs : s.modem.Sound)
    (hw : s.modem.features.watchdog = true) (ht : s.Tracks left) :
    (next ⟨s, .byte byte⟩).Tracks (abandons left ⟨s, .byte byte⟩) := by
  cases hc : s.modem.commandMode with
  | false =>
    have hready := hs.not_ready hc
    have hon : s.node.watchdog = !left := by simpa [hc] using ht.watchdog
    have hkeep : abandons left ⟨s, .byte byte⟩ = left := by
      simp [abandons, overflows, escapes, hc]
    rw [hkeep]
    exact tracks_of_idle (by rwa [stepped_data hc]) (by rwa [stepped_data hc])
      (by rwa [stepped_data hc])
  | true =>
    have hoff : s.node.watchdog = false := by simpa [hc] using ht.watchdog
    cases hov : overflows ⟨s, .byte byte⟩ with
    | true =>
      obtain ⟨hr, he⟩ : s.modem.ready = false ∧ (s.modem.line.key byte).event = .overflow := by
        simpa [overflows, hc] using hov
      have hmodem := Modem.onByte_overflow hc hr he
      have hlost : abandons left ⟨s, .byte byte⟩ = true := by simp [abandons, hov]
      rw [hlost]
      exact tracks_of_idle (by simp [stepped, hmodem, hr]) (by simp [stepped, hmodem]) hoff
    | false =>
      have hleft := ht.not_abandoned hc
      have hkeep : abandons left ⟨s, .byte byte⟩ = false := by
        simp [abandons, escapes, hov, hleft]
      have hstays : (s.modem.onByte byte).modem.commandMode = true :=
        (Modem.onByte_received _ _).stays hc fun hr he => by simp [overflows, hc, hr, he] at hov
      rw [hkeep]
      exact tracks_of_command hw hstays hoff

lemma tick_tracks {s : Session} (hs : s.modem.Sound) (hw : s.modem.features.watchdog = true)
    (ht : s.Tracks left) : (next ⟨s, .tick⟩).Tracks (abandons left ⟨s, .tick⟩) := by
  cases hf : s.modem.escape.fires with
  | true =>
    obtain ⟨hmodem, hboard⟩ := Modem.onTick_fires (b := s.node) hf
    have hclear : abandons left ⟨s, .tick⟩ = false := by simp [abandons, overflows, escapes, hf]
    rw [hclear]
    refine tracks_of_command hw ?_ ?_
    · simp [stepped, hmodem]
    · rw [stepped, hboard, Modem.watchdog_of_feature hw]
      rfl
  | false =>
    have hquiet := Modem.onTick_quiet (b := s.node) hf
    have hkeep : abandons left ⟨s, .tick⟩ = left := by simp [abandons, overflows, escapes, hf]
    rw [hkeep]
    cases hc : s.modem.commandMode with
    | false =>
      have hready := hs.not_ready hc
      have hon : s.node.watchdog = !left := by simpa [hc] using ht.watchdog
      exact tracks_of_idle (by rwa [stepped, hquiet]) (by rwa [stepped, hquiet])
        (by rwa [stepped, hquiet])
    | true =>
      have hoff : s.node.watchdog = false := by simpa [hc] using ht.watchdog
      rw [ht.not_abandoned hc]
      exact tracks_of_command hw (by rwa [stepped, hquiet]) (by rwa [stepped, hquiet])

lemma next_no_watchdog (hw : x.session.modem.features.watchdog = false) :
    x.next.node.watchdog = x.session.node.watchdog := by
  have hf : x.stepped.modem.features.watchdog = false := by rwa [Modem.features, stepped_settings]
  have hboard : x.stepped.board.watchdog = x.session.node.watchdog := by
    obtain ⟨s, signal⟩ := x
    cases signal with
    | byte byte => rfl
    | tick =>
      cases he : s.modem.escape.fires with
      | false => rw [stepped, Modem.onTick_quiet he]
      | true => rw [stepped, (Modem.onTick_fires he).2, Modem.watchdog_of_no_feature hw]
  exact ((Modem.poll_polled _ _).no_watchdog hf).trans hboard

end Moment

namespace Trace
variable {s s' : Session} {xs : List Moment}

theorem tracks (h : Trace s xs s') {left : Bool} (hs : s.modem.Sound)
    (hw : s.modem.features.watchdog = true) (ht : s.Tracks left) :
    s'.Tracks (xs.foldl Moment.abandons left) := by
  induction h generalizing left with
  | nil => exact ht
  | @moment s s' signal xs rest ih =>
    have hnext : (Moment.next ⟨s, signal⟩).Tracks (Moment.abandons left ⟨s, signal⟩) := by
      cases signal with
      | byte byte => exact Moment.byte_tracks hs hw ht
      | tick => exact Moment.tick_tracks hs hw ht
    have hw' : (Moment.next ⟨s, signal⟩).modem.features.watchdog = true := by
      rwa [Modem.features, Moment.next_settings]
    exact ih (Moment.next_sound hs) hw' hnext
  | drained rest ih => exact ih hs hw ⟨ht.watchdog, ht.abandoned_mode⟩

theorem no_watchdog (h : Trace s xs s') (hw : s.modem.features.watchdog = false) :
    s'.node.watchdog = s.node.watchdog := by
  have hmoment (x : Moment) (hx : x.session.modem.features.watchdog = false ∧
      x.session.node.watchdog = s.node.watchdog) :
      x.next.modem.features.watchdog = false ∧ x.next.node.watchdog = s.node.watchdog := by
    refine ⟨?_, (Moment.next_no_watchdog hx.1).trans hx.2⟩
    rw [Modem.features, x.next_settings]
    exact hx.1
  exact (Trace.keeps
    (P := fun t => t.modem.features.watchdog = false ∧ t.node.watchdog = s.node.watchdog)
    hmoment (fun _ hs => hs) h ⟨hw, rfl⟩).1.2

end Trace

namespace Session

lemma tracks_ofConfiguration {c : Configuration} {s : Session} (h : ofConfiguration c = .ok s)
    (hw : c.modem.features.watchdog = true) : s.Tracks false := by
  obtain ⟨node, hn, rfl⟩ := ofConfiguration_ok h
  have hfresh := (Node.fresh_ofConfiguration hn).watchdog
  exact ⟨hfresh.trans hw, by simp⟩

/-- On a board with the feature, the watchdog runs exactly in data mode as long as no overflow has
taken the modem there, and is off after one until the next escape. On others it never changes. -/
theorem watchdog_tracks_mode {c : Configuration} {s : Session} (h : ofConfiguration c = .ok s)
    (es : List SessionEvent) :
    (c.modem.features.watchdog = true →
      (((s.after es).node.watchdog = true ↔ (s.after es).modem.commandMode = false) ↔
        abandoned (s.history es) = false) ∧
      (abandoned (s.history es) = true →
        (s.after es).modem.commandMode = false ∧ (s.after es).node.watchdog = false)) ∧
    (c.modem.features.watchdog = false → (s.after es).node.watchdog = s.node.watchdog) := by
  have htrace := history_trace s es
  have hsettings : s.modem.settings = c.modem := by
    obtain ⟨node, -, rfl⟩ := ofConfiguration_ok h
    rfl
  refine ⟨?_, ?_⟩
  · intro hw
    have hfeature : s.modem.features.watchdog = true := by rwa [Modem.features, hsettings]
    obtain ⟨hwatch, hmode⟩ := htrace.tracks (reachable_ofConfiguration h).sound hfeature
      (tracks_ofConfiguration h hw)
    rw [← abandoned] at hwatch hmode
    cases hlost : abandoned (s.history es) with
    | true =>
      have hdata := hmode hlost
      simp [hwatch, hlost, hdata]
    | false => simp [hwatch, hlost]
  · intro hw
    exact htrace.no_watchdog (by rwa [Modem.features, hsettings])

/-- An escape and a line that is too long. -/
def overlong : List SessionEvent :=
  [.tick, .serial "+++".toUTF8.toList, .tick, .serial "ATS0000".toUTF8.toList]

theorem watchdog_tracks_mode_overlong : ∃ s, ofConfiguration alert = .ok s ∧
    ((s.after (overlong.take 3)).node.watchdog = true ↔
      (s.after (overlong.take 3)).modem.commandMode = false) ∧
    (s.after overlong).modem.commandMode = false ∧ (s.after overlong).node.watchdog = false := by
  refine ⟨_, rfl, ?_, ?_⟩
  · exact ((watchdog_tracks_mode (c := alert) rfl (overlong.take 3)).1 rfl).1.mpr
      (by decide +kernel)
  · exact ((watchdog_tracks_mode (c := alert) rfl overlong).1 rfl).2 (by decide +kernel)

/-- An overflow leaves command mode with the watchdog off. -/
theorem watchdog_lost_by_overflow : ¬∀ (c : Configuration) (s : Session) (es : List SessionEvent),
    c.validated = .ok c → ofConfiguration c = .ok s → c.modem.features.watchdog = true →
      ((s.after es).node.watchdog = true ↔ (s.after es).modem.commandMode = false) := by
  intro h
  exact absurd (h alert _ overlong rfl rfl rfl) (by decide +kernel)

end Session

end RadioModem
