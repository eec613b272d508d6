import RadioModem.Proofs.Changes
import RadioModem.Proofs.Modem
import RadioModem.Session

/-!
# Moments of a session

A moment handles one byte or one tick, and the line that it may finish. A run of a session is a
trace of moments, so an invariant has to be carried over single moments only.
-/
namespace RadioModem

/-- A session about to handle one byte or one tick. -/
structure Moment where
  session : Session
  signal : Signal
  deriving DecidableEq, Repr

namespace Moment

/-- The first half of a moment: the modem takes the byte or the tick. -/
def stepped (x : Moment) : TickStep Node :=
  match x.signal with
  | .byte byte =>
    let s := x.session.modem.onByte byte
    ⟨s.modem, x.session.node, s.journal⟩
  | .tick => x.session.modem.onTick x.session.node

/-- The second half: a line that is ready is run. -/
def polled (x : Moment) : PollStep Node := x.stepped.modem.poll x.stepped.board

def echo (x : Moment) : String :=
  match x.signal with
  | .byte byte => (x.session.modem.onByte byte).echo
  | .tick => ""

def payload (x : Moment) : List UInt8 :=
  match x.signal with
  | .byte byte => if (x.session.modem.onByte byte).route = .data then [byte] else []
  | .tick => []

def stop? (x : Moment) : Option Stop :=
  match x.polled.ran with
  | .ok _ => none
  | .error how => some how

/-- A tick is counted unless the board stopped on it. -/
def ticks (x : Moment) : UInt32 :=
  match x.signal, x.stop? with
  | .tick, none => x.session.ticks + 1
  | _, _ => x.session.ticks

def next (x : Moment) : Session := ⟨x.polled.modem, x.polled.board, x.ticks⟩

def reports (x : Moment) : String :=
  match x.signal, x.stop? with
  | .tick, none => if x.next.reportsDue then x.next.testReports else ""
  | _, _ => ""

def text (x : Moment) : String := x.echo ++ x.polled.reply ++ x.reports

def journal (x : Moment) : Journal := x.stepped.journal ++ x.polled.journal

/-- The line that is handed over to be run. -/
def line? (x : Moment) : Option String :=
  if x.stepped.modem.ready then some x.stepped.modem.text else none

end Moment

def Session.drain (s : Session) : Session := { s with node := { s.node with relay := .empty } }

/-- Moment follows moment; all that may happen in between is that the relay is drained. -/
inductive Trace : Session → List Moment → Session → Prop
  | nil (s : Session) : Trace s [] s
  | moment {s s' : Session} {signal : Signal} {xs : List Moment}
      (rest : Trace (Moment.next ⟨s, signal⟩) xs s') : Trace s (⟨s, signal⟩ :: xs) s'
  | drained {s s' : Session} {xs : List Moment} (rest : Trace s.drain xs s') : Trace s xs s'

lemma Trace.append {s t u : Session} {xs ys : List Moment} (h : Trace s xs t) (g : Trace t ys u) :
    Trace s (xs ++ ys) u := by
  induction h with
  | nil => exact g
  | moment rest ih => exact .moment (ih g)
  | drained rest ih => exact .drained (ih g)

/-- A run up to one of its moments. -/
lemma Trace.front {s s' : Session} {pre post : List Moment} {x : Moment}
    (h : Trace s (pre ++ x :: post) s') : Trace s pre x.session := by
  generalize hxs : pre ++ x :: post = xs at h
  induction h generalizing pre with
  | nil => exact absurd hxs (by simp)
  | drained rest ih => exact .drained (ih hxs)
  | moment rest ih =>
    cases pre with
    | nil =>
      obtain ⟨rfl, -⟩ := List.cons_eq_cons.mp hxs
      exact .nil _
    | cons y pre =>
      obtain ⟨rfl, htail⟩ := List.cons_eq_cons.mp hxs
      exact .moment (ih htail)

namespace Modem

lemma watchdog_board (m : Modem) (n : Node) (enabled : Bool) : ∃ running,
    (m.watchdog n enabled).1 = { n with watchdog := running } := by
  unfold watchdog
  split
  · exact ⟨enabled, rfl⟩
  · exact ⟨n.watchdog, rfl⟩

/-- A line that is run makes of its node what the line says, the watchdog apart. -/
lemma Polled.ran_line {m : Modem} {n : Node} {p : PollStep Node} (h : Polled m n p)
    (hr : m.ready = true) : ∃ running,
      p.board = { n.afterRequest m.features (.parse m.text) with watchdog := running } := by
  have hrun : (m.outcome n).board = n.afterRequest m.features (.parse m.text) :=
    (Node.run_after _ _ _ _).1
  cases h with
  | idle hidle => cases hidle.symm.trans hr
  | stopped | stayed => exact ⟨_, by rw [hrun]⟩
  | left =>
    rw [hrun]
    exact watchdog_board _ _ _

/-- On a node that reports its halts, a poll can stop in no other way. -/
lemma Polled.halted {m : Modem} {n : Node} {p : PollStep Node} (h : Polled m n p)
    (hn : n.onHalt = .report) {how : Stop} (hp : p.ran = .error how) :
    ∃ reason, how = .halted reason := by
  cases h with
  | idle | stayed | left => cases hp
  | stopped hr he =>
    cases hp
    exact Node.run_stop hn he

end Modem

namespace Moment
variable {x : Moment}

lemma stepped_sound (h : x.session.modem.Sound) : x.stepped.modem.Sound := by
  obtain ⟨s, signal⟩ := x
  cases signal with
  | byte byte => exact (Modem.onByte_received _ _).sound h
  | tick => exact h.onTick s.node

lemma next_sound (h : x.session.modem.Sound) : x.next.modem.Sound :=
  (Modem.poll_polled _ _).sound (stepped_sound h)

lemma stepped_settings (x : Moment) : x.stepped.modem.settings = x.session.modem.settings := by
  obtain ⟨s, signal⟩ := x
  cases signal <;> simp [stepped]

lemma next_settings (x : Moment) : x.next.modem.settings = x.session.modem.settings := by
  rw [next, polled, Modem.poll_settings, stepped_settings]

lemma polled_idle (hr : x.stepped.modem.ready = false) :
    x.polled = ⟨x.stepped.modem, x.stepped.board, "", .ok false, .empty⟩ := Modem.poll_idle hr

lemma stepped_data {s : Session} {byte : UInt8} (hc : s.modem.commandMode = false) :
    stepped ⟨s, .byte byte⟩ =
      ⟨{ s.modem with escape := s.modem.escape.onByte byte }, s.node,
        s.modem.escape.byteJournal byte⟩ := by
  simp [stepped, Modem.onByte_data hc]

lemma stepped_board (x : Moment) : ∃ enabled,
    x.stepped.board = { x.session.node with watchdog := enabled } := by
  obtain ⟨s, signal⟩ := x
  cases signal with
  | byte byte => exact ⟨s.node.watchdog, rfl⟩
  | tick =>
    cases hf : s.modem.escape.fires with
    | false => exact ⟨s.node.watchdog, by rw [stepped, Modem.onTick_quiet hf]⟩
    | true =>
      rw [stepped, (Modem.onTick_fires hf).2]
      exact Modem.watchdog_board _ _ _

lemma stepped_identity (x : Moment) : x.stepped.board.identity = x.session.node.identity := by
  obtain ⟨enabled, hb⟩ := x.stepped_board
  rw [hb]

lemma stepped_onHalt (x : Moment) : x.stepped.board.onHalt = x.session.node.onHalt := by
  obtain ⟨enabled, hb⟩ := x.stepped_board
  rw [hb]

lemma line?_of_ready (hr : x.stepped.modem.ready = true) :
    x.line? = some x.stepped.modem.text := by simp [line?, hr]

lemma line?_of_idle (hr : x.stepped.modem.ready = false) : x.line? = none := by simp [line?, hr]

/-- What a moment makes of its node is told from the line that it runs, the watchdog apart. -/
theorem next_after (x : Moment) : ∃ running, x.next.node =
    { x.line?.elim x.session.node fun line =>
        x.session.node.afterRequest x.stepped.modem.features (.parse line) with
      watchdog := running } := by
  obtain ⟨enabled, hboard⟩ := x.stepped_board
  cases hr : x.stepped.modem.ready with
  | false =>
    exact ⟨enabled, by rw [next, polled_idle hr, hboard, line?_of_idle hr, Option.elim_none]⟩
  | true =>
    obtain ⟨running, hran⟩ := (Modem.poll_polled x.stepped.modem x.stepped.board).ran_line hr
    rw [hboard] at hran
    refine ⟨running, ?_⟩
    rw [line?_of_ready hr, Option.elim_some, next, polled, hboard, hran]
    rfl

lemma next_identity (x : Moment) : x.next.node.identity = x.session.node.identity := by
  obtain ⟨running, hnext⟩ := x.next_after
  rw [hnext]
  cases x.line? <;> rfl

lemma next_onHalt (x : Moment) : x.next.node.onHalt = x.session.node.onHalt := by
  obtain ⟨running, hnext⟩ := x.next_after
  rw [hnext]
  cases x.line? <;> rfl

variable {s : Session}

lemma polled_quiet (hf : s.modem.escape.fires = false) (hr : s.modem.ready = false) :
    polled ⟨s, .tick⟩ =
      ⟨{ s.modem with escape := s.modem.escape.onTick }, s.node, "", .ok false, .empty⟩ := by
  have hquiet := Modem.onTick_quiet (b := s.node) hf
  have hidle : (stepped ⟨s, .tick⟩).modem.ready = false := by rwa [stepped, hquiet]
  rw [polled_idle hidle, stepped, hquiet]

/-- A tick that completes an escape runs the attention line at once. -/
theorem polled_escape (hf : s.modem.escape.fires = true) : ∃ running,
    (polled ⟨s, .tick⟩).modem =
        { s.modem with
          escape := s.modem.escape.idle
          line := s.modem.line.clear
          commandMode := true
          ready := false } ∧
      (polled ⟨s, .tick⟩).board = { s.node with watchdog := running } ∧
      (polled ⟨s, .tick⟩).reply =
        (if 2 ≤ s.modem.line.capacity then Dispatch.reply s.node okText else "") ∧
      (polled ⟨s, .tick⟩).ran = .ok true := by
  obtain ⟨running, hboard⟩ := stepped_board ⟨s, .tick⟩
  have hmodem : (stepped ⟨s, .tick⟩).modem = _ := (Modem.onTick_fires (b := s.node) hf).1
  have hready : (stepped ⟨s, .tick⟩).modem.ready = true := by rw [hmodem]
  have hline : (stepped ⟨s, .tick⟩).modem.line.bytes =
      LineBuffer.attentionBytes.take (stepped ⟨s, .tick⟩).modem.line.capacity := by
    rw [hmodem]
    rfl
  obtain ⟨hfinished, hkeeps, hreply, hran⟩ :=
    Modem.runLine_attention (b := (stepped ⟨s, .tick⟩).board) hline
  rw [polled, Modem.poll_ready hready, hfinished, hkeeps, hreply, hran, hboard, hmodem]
  exact ⟨running, rfl, rfl, rfl, rfl⟩

lemma stop?_eq {how : Stop} : x.stop? = some how ↔ x.polled.ran = .error how := by
  unfold stop?
  cases x.polled.ran <;> simp

lemma stop_halted (hn : x.session.node.onHalt = .report) {how : Stop} (h : x.stop? = some how) :
    ∃ reason, how = .halted reason :=
  (Modem.poll_polled _ _).halted (x.stepped_onHalt.trans hn) (stop?_eq.mp h)

end Moment

/-- What every moment keeps, and the relay has no part in, is kept by a run. -/
theorem Trace.keeps {P : Session → Prop} (hmoment : ∀ x : Moment, P x.session → P x.next)
    (hdrain : ∀ s : Session, P s → P s.drain) {s s' : Session} {xs : List Moment}
    (h : Trace s xs s') (hs : P s) : P s' ∧ ∀ x ∈ xs, P x.session := by
  induction h with
  | nil => exact ⟨hs, by simp⟩
  | @moment s s' signal xs rest ih =>
    obtain ⟨hend, hrest⟩ := ih (hmoment ⟨s, signal⟩ hs)
    exact ⟨hend, List.forall_mem_cons.mpr ⟨hs, hrest⟩⟩
  | drained rest ih => exact ih (hdrain _ hs)

lemma Trace.sound {s s' : Session} {xs : List Moment} (h : Trace s xs s') (hs : s.modem.Sound) :
    s'.modem.Sound ∧ ∀ x ∈ xs, x.session.modem.Sound :=
  Trace.keeps (P := (·.modem.Sound)) (fun _ => Moment.next_sound) (fun _ hs => hs) h hs

lemma Trace.settings {s s' : Session} {xs : List Moment} (h : Trace s xs s') :
    ∀ x ∈ xs, x.session.modem.settings = s.modem.settings :=
  (Trace.keeps (P := (·.modem.settings = s.modem.settings))
    (fun x hx => x.next_settings.trans hx) (fun _ hs => hs) h rfl).2

/-- The node of a session is the same one, and handles halts the same way, at every moment. -/
lemma Trace.node {s s' : Session} {xs : List Moment} (h : Trace s xs s') :
    (s'.node.identity = s.node.identity ∧ s'.node.onHalt = s.node.onHalt) ∧
      ∀ x ∈ xs, x.session.node.identity = s.node.identity ∧
        x.session.node.onHalt = s.node.onHalt := by
  refine Trace.keeps
    (P := fun t => t.node.identity = s.node.identity ∧ t.node.onHalt = s.node.onHalt)
    (fun x hx => ?_) (fun _ hs => hs) h ⟨rfl, rfl⟩
  rwa [x.next_identity, x.next_onHalt]

end RadioModem
