import Mathlib.Data.List.DropRight
import RadioModem.Proofs.Session

/-!
# Commands that leave with their event

Commands for other nodes wait in the relay queue and leave with the serial event that brought them.
The queue is bounded, so of a single event only the newest commands leave; as long as no event
brings more than the queue holds, none is lost and none leaves twice.
-/
namespace RadioModem

lemma rtake_of_length_le {α : Type} {xs : List α} {n : Nat} (h : xs.length ≤ n) :
    xs.rtake n = xs := by
  rw [List.rtake, Nat.sub_eq_zero_of_le h, List.drop_zero]

lemma length_rtake_le {α : Type} (xs : List α) (n : Nat) : (xs.rtake n).length ≤ n := by
  rw [List.rtake, List.length_drop]
  omega

/-- The newest of a list can be found from its own newest. -/
lemma rtake_rtake_append {α : Type} (xs ys : List α) (n : Nat) :
    (xs.rtake n ++ ys).rtake n = (xs ++ ys).rtake n := by
  simp only [List.rtake_eq_reverse_take_reverse, List.reverse_append, List.reverse_reverse,
    List.take_append, List.take_take]
  congr 3
  omega

/-- What a line gives to the relay: a remote command, if its address can be used. -/
def Request.relayed : Request → List Relayed
  | .remote (.ok d) command => [⟨d, command⟩]
  | _ => []

lemma RelayQueue.forward_waiting {q : RelayQueue} (h : q.size ≤ relayDepth) (d : Destination)
    (command : String) :
    (q.forward d command).waiting = (q.waiting ++ [Relayed.mk d command]).rtake relayDepth := by
  unfold forward
  cases hf : q.isFull with
  | false =>
    have hroom : q.size ≠ relayDepth := by simpa [isFull] using hf
    have hlength : (q.waiting ++ [Relayed.mk d command]).length ≤ relayDepth := by
      rw [List.length_append, List.length_singleton]
      exact Nat.lt_of_le_of_ne h hroom
    rw [rtake_of_length_le hlength]
    rfl
  | true =>
    have hfull : q.waiting.length = relayDepth := by simpa [isFull, size] using hf
    cases hq : q.waiting with
    | nil =>
      rw [hq] at hfull
      cases hfull
    | cons oldest rest =>
      rw [hq, List.length_cons] at hfull
      simp [List.rtake, hfull]

/-- A line puts what it relays behind what waits; the oldest make room. -/
lemma RelayQueue.afterRequest_waiting {q : RelayQueue} (h : q.size ≤ relayDepth) (r : Request) :
    (q.afterRequest r).waiting = (q.waiting ++ r.relayed).rtake relayDepth := by
  have hquiet : q.waiting = (q.waiting ++ []).rtake relayDepth := by
    rw [List.append_nil, rtake_of_length_le h]
  cases r with
  | ignored | here => exact hquiet
  | remote destination command =>
    cases destination with
    | ok d => exact forward_waiting h d command
    | error refusal => exact hquiet

namespace Node
variable {f : Features} {n : Node} {t : TestMode} {line : String}

/-- A line that stops the board has relayed nothing. -/
lemma run_stop_relayed {how : Stop} (h : (Dispatch.run f n t line).effect = .stop how) :
    (Request.parse line).relayed = [] := by
  rcases (run_stops_iff line).mp ⟨how, h⟩ with hp | hp
  · rw [hp]
    rfl
  · rw [hp]
    rfl

end Node

namespace Modem
variable {m : Modem} {n : Node} {p : PollStep Node}

/-- A line that still waits after a poll is one that stopped the board. -/
lemma Polled.waits (h : Polled m n p) (hp : p.modem.ready = true) :
    (Request.parse p.modem.text).relayed = [] := by
  cases h with
  | idle hr => cases hr.symm.trans hp
  | stopped hr he => exact Node.run_stop_relayed he
  | stayed | left => cases hp

/-- The line of an escape relays nothing, even where the buffer cuts it. -/
lemma attention_relayed (l : LineBuffer) :
    (Request.parse (l.set attentionLine).text).relayed = [] := by
  have hb : (l.set attentionLine).bytes = LineBuffer.attentionBytes.take l.capacity := rfl
  rw [LineBuffer.text, hb]
  rcases l.capacity with _ | _ | n
  · rfl
  · rfl
  · rw [List.take_of_length_le (by simp [LineBuffer.attentionBytes])]
    rfl

end Modem

namespace Moment
variable {x : Moment} {s : Session}

/-- What the line of a moment gives to the relay. -/
def relayed (x : Moment) : List Relayed :=
  x.line?.toList.flatMap fun line => (Request.parse line).relayed

lemma relayed_of_ready (hr : x.stepped.modem.ready = true) :
    x.relayed = (Request.parse x.stepped.modem.text).relayed := by simp [relayed, line?, hr]

lemma relayed_of_idle (hr : x.stepped.modem.ready = false) : x.relayed = [] := by
  simp [relayed, line?, hr]

lemma next_relay (h : x.session.node.relay.size ≤ relayDepth) :
    x.next.node.relay.waiting =
      (x.session.node.relay.waiting ++ x.relayed).rtake relayDepth := by
  obtain ⟨running, hnext⟩ := x.next_after
  rw [hnext, relayed]
  cases x.line? with
  | none =>
    rw [Option.toList_none, List.flatMap_nil, List.append_nil, rtake_of_length_le h]
    rfl
  | some line =>
    rw [Option.toList_some, List.flatMap_singleton]
    exact RelayQueue.afterRequest_waiting h _

lemma next_waits (h : x.next.modem.ready = true) :
    (Request.parse x.next.modem.text).relayed = [] := (Modem.poll_polled _ _).waits h

/-- A tick runs the line of an escape or one that has stopped the board before. -/
lemma tick_relayed (h : s.modem.ready = true → (Request.parse s.modem.text).relayed = []) :
    relayed ⟨s, .tick⟩ = [] := by
  cases hf : s.modem.escape.fires with
  | true =>
    have hmodem : (stepped ⟨s, .tick⟩).modem = _ := (Modem.onTick_fires (b := s.node) hf).1
    have hready : (stepped ⟨s, .tick⟩).modem.ready = true := by rw [hmodem]
    rw [relayed_of_ready hready, hmodem]
    exact Modem.attention_relayed s.modem.line
  | false =>
    have hstepped : stepped ⟨s, .tick⟩ = _ := Modem.onTick_quiet hf
    cases hr : s.modem.ready with
    | false => exact relayed_of_idle (by rwa [hstepped])
    | true =>
      rw [relayed_of_ready (by rwa [hstepped]), hstepped]
      exact h hr

end Moment

lemma Trace.waits {s s' : Session} {xs : List Moment} (h : Trace s xs s')
    (hs : s.modem.ready = true → (Request.parse s.modem.text).relayed = []) :
    s'.modem.ready = true → (Request.parse s'.modem.text).relayed = [] :=
  (Trace.keeps
    (P := fun t => t.modem.ready = true → (Request.parse t.modem.text).relayed = [])
    (fun _ _ => Moment.next_waits) (fun _ hs => hs) h hs).1

/-- The commands that a turn hands out; a crash hands out none. -/
def Turn.relayed (t : Turn) : List Relayed :=
  match t.output with
  | .ok o => o.relayed
  | .error _ => []

namespace Session
variable {s : Session}

/-- The moments of a run, event by event. -/
def episodes (s : Session) : List SessionEvent → List (List Moment)
  | [] => []
  | e :: es => s.moments e :: (s.turn e).session.episodes es

lemma episodes_flatten (s : Session) (es : List SessionEvent) :
    (s.episodes es).flatten = s.history es := by
  induction es generalizing s with
  | nil => rfl
  | cons e es ih => rw [episodes, history, List.flatten_cons, ih]

/-- Between two events nothing is queued, and no line waits that would relay something. -/
structure Cleared (s : Session) : Prop where
  relay : s.node.relay = .empty
  waits : s.modem.ready = true → (Request.parse s.modem.text).relayed = []

lemma Cleared.room (h : s.Cleared) : s.node.relay.size ≤ relayDepth := by
  rw [h.relay]
  exact Nat.zero_le _

lemma handleBytes_relay (h : s.node.relay.size ≤ relayDepth) (bytes : List UInt8) :
    (handleBytes s.modem s.node bytes).node.relay.waiting =
      (s.node.relay.waiting ++ (s.byteMoments bytes).flatMap Moment.relayed).rtake relayDepth := by
  induction s, bytes using bytes_induct with
  | nil s => rw [handleBytes, byteMoments, List.flatMap_nil, List.append_nil, rtake_of_length_le h]
  | stop s byte bytes how hstop =>
    rw [handleBytes_stop hstop, byteMoments_stop hstop, handleByte_eq, List.flatMap_singleton]
    exact Moment.next_relay h
  | go s byte bytes hstop ih =>
    have hnext := Moment.next_relay (x := ⟨s, .byte byte⟩) h
    have hsize : (Moment.next ⟨s, .byte byte⟩).node.relay.size ≤ relayDepth := by
      rw [RelayQueue.size, hnext]
      exact length_rtake_le _ _
    rw [handleBytes_go hstop, byteMoments_go hstop, List.flatMap_cons]
    simp only
    rw [ih hsize, hnext, rtake_rtake_append, List.append_assoc]

/-- A tick neither relays nor hands out anything. -/
lemma tick_cleared (h : s.Cleared) :
    s.onTick.relayed = [] ∧ Moment.relayed ⟨s, .tick⟩ = [] ∧
      s.onTick.session.node.relay = .empty := by
  have hnone := Moment.tick_relayed h.waits
  refine ⟨?_, hnone, ?_⟩
  · rw [Turn.relayed, onTick_eq]
    cases hstop : Moment.stop? ⟨s, .tick⟩ with
    | none => simp [hstop]
    | some how => cases how <;> simp [hstop]
  · have hnext := Moment.next_relay (x := ⟨s, .tick⟩) h.room
    rw [hnone, h.relay] at hnext
    rw [onTick_eq]
    exact congrArg RelayQueue.mk hnext

/-- An event hands out the newest of the commands that its lines relay, and leaves none behind. -/
theorem turn_relayed (h : s.Cleared) (hn : s.node.onHalt = .report) (e : SessionEvent) :
    (s.turn e).relayed = ((s.moments e).flatMap Moment.relayed).rtake relayDepth ∧
      (s.turn e).session.Cleared := by
  have hwaits := (s.turn_trace e).waits h.waits
  cases e with
  | tick =>
    obtain ⟨hout, hnone, hrelay⟩ := tick_cleared h
    refine ⟨?_, hrelay, hwaits⟩
    rw [turn, hout, moments, List.flatMap_singleton, hnone]
    rfl
  | serial bytes =>
    obtain ⟨o, ho⟩ := turn_returns hn (.serial bytes)
    have hbytes := handleBytes_relay h.room bytes
    rw [h.relay] at hbytes
    refine ⟨?_, serial_relay ho, hwaits⟩
    rw [Turn.relayed, ho]
    simp only [turn, onSerial] at ho
    split at ho
    · cases ho
      exact hbytes
    · cases ho
      exact hbytes
    · cases ho

lemma run_relayed (h : s.Cleared) (hn : s.node.onHalt = .report) (es : List SessionEvent) :
    (∀ t ∈ s.turns es, ∃ o, t.output = .ok o) ∧
      (s.turns es).map Turn.relayed =
        (s.episodes es).map fun xs => (xs.flatMap Moment.relayed).rtake relayDepth := by
  induction es generalizing s with
  | nil => exact ⟨by simp [turns], rfl⟩
  | cons e es ih =>
    obtain ⟨hrelayed, hcleared⟩ := turn_relayed h hn e
    have hnext : (s.turn e).session.node.onHalt = .report := (s.turn_trace e).node.1.2.trans hn
    obtain ⟨hok, hrest⟩ := ih hcleared hnext
    refine ⟨List.forall_mem_cons.mpr ⟨turn_returns hn e, hok⟩, ?_⟩
    rw [turns, episodes, List.map_cons, List.map_cons, hrelayed, hrest]

lemma cleared_ofConfiguration {c : Configuration} (h : ofConfiguration c = .ok s) :
    s.Cleared ∧ s.node.onHalt = .report := by
  obtain ⟨node, hn, rfl⟩ := ofConfiguration_ok h
  have hfresh := Node.fresh_ofConfiguration hn
  exact ⟨⟨hfresh.relay, fun hready => by cases hready⟩, hfresh.onHalt⟩

/-- Every event hands out the newest of the commands that its lines relay, as many as the queue
holds. If no event has more, the run hands out what its lines relay, in order and once each. -/
theorem relayed_by_events {c : Configuration} (h : ofConfiguration c = .ok s)
    (es : List SessionEvent) :
    (∀ t ∈ s.turns es, ∃ o, t.output = .ok o) ∧
    (s.episodes es).flatten = s.history es ∧
    (s.turns es).map Turn.relayed =
      ((s.episodes es).map fun xs => (xs.flatMap Moment.relayed).rtake relayDepth) ∧
    ((∀ xs ∈ s.episodes es, (xs.flatMap Moment.relayed).length ≤ relayDepth) →
      (s.turns es).flatMap Turn.relayed = (s.history es).flatMap Moment.relayed) := by
  obtain ⟨hcleared, hn⟩ := cleared_ofConfiguration h
  obtain ⟨hok, hrelayed⟩ := run_relayed hcleared hn es
  refine ⟨hok, s.episodes_flatten es, hrelayed, fun hroom => ?_⟩
  have hall : (s.episodes es).map (fun xs => (xs.flatMap Moment.relayed).rtake relayDepth) =
      (s.episodes es).map (List.flatMap Moment.relayed) :=
    List.map_congr_left fun xs hx => rtake_of_length_le (hroom xs hx)
  rw [List.flatMap_def, hrelayed, hall, ← episodes_flatten, List.flatMap_def, List.map_flatten,
    List.flatten_flatten, List.map_map]
  rfl

/-- An escape, and after it two chunks with remote lines that are cut in the middle of a line. -/
def relaying : List SessionEvent :=
  [.tick, .serial "+++".toUTF8.toList, .tick, .serial "RTI5,4\rRTA".toUTF8.toList,
    .serial "TZ\r".toUTF8.toList]

theorem relayed_by_events_relaying : ∃ s, ofConfiguration alert = .ok s ∧
    (∀ xs ∈ s.episodes relaying, (xs.flatMap Moment.relayed).length ≤ relayDepth) ∧
    (s.turns relaying).flatMap Turn.relayed = [⟨.node 4, "I5"⟩, ⟨.broadcast, "ATZ"⟩] := by
  obtain ⟨-, -, -, hall⟩ := relayed_by_events (c := alert) rfl relaying
  refine ⟨_, rfl, by decide +kernel, ?_⟩
  rw [hall (by decide +kernel)]
  decide +kernel

/-- An escape, and a chunk with one remote line more than the queue holds. -/
def crowded : List SessionEvent :=
  [.tick, .serial "+++".toUTF8.toList, .tick,
    .serial (List.replicate 33 "RTAT\r".toUTF8.toList).flatten]

/-- Of the lines of one chunk, the first is lost to the ones after it. -/
theorem relay_overflow : ¬∀ (c : Configuration) (s : Session) (es : List SessionEvent),
    c.validated = .ok c → ofConfiguration c = .ok s →
      (s.turns es).flatMap Turn.relayed = (s.history es).flatMap Moment.relayed := by
  intro h
  have hlength := congrArg List.length (h alert _ crowded rfl rfl)
  exact absurd hlength (by decide +kernel)

end Session

end RadioModem
