import RadioModem.Proofs.Alike
import RadioModem.Proofs.Session

/-!
# Bytes in chunks

The serial line hands over bytes in chunks of any size. Where a chunk is cut decides when waiting
remote commands leave, and so how full the relay queue is; no line can tell that from the board, so
the cut makes no difference to anything else.
-/
namespace RadioModem

namespace Node

/-- The same node, but for what waits to be relayed. -/
def SameButRelay (n m : Node) : Prop := ∃ q, m = { n with relay := q }

lemma SameButRelay.drained {n m : Node} (h : SameButRelay n m) :
    { n with relay := .empty } = { m with relay := .empty } := by
  obtain ⟨q, rfl⟩ := h
  rfl

lemma dropJournal_counts (q : RelayQueue) : q.dropJournal.counts = [] := by
  unfold RelayQueue.dropJournal
  split <;> rfl

/-- No operation of a node but the relay's own looks at the queue. -/
lemma alike_sameButRelay (f : Features) : Board.Alike f SameButRelay where
  identity h := by obtain ⟨q, rfl⟩ := h; rfl
  registerCount _ := rfl
  register h _ := by obtain ⟨q, rfl⟩ := h; rfl
  setRegister value h _ _ := by
    obtain ⟨q, rfl⟩ := h
    exact .ok ⟨⟨q, rfl⟩, rfl⟩
  registerLine node h _ := by obtain ⟨q, rfl⟩ := h; rfl
  saveRegisters h := by
    obtain ⟨q, rfl⟩ := h
    exact ⟨⟨q, rfl⟩, rfl⟩
  resetRegisters h := by
    obtain ⟨q, rfl⟩ := h
    exact ⟨q, rfl⟩
  hasCalibration _ h := by obtain ⟨q, rfl⟩ := h; rfl
  channel index _ h := by obtain ⟨q, rfl⟩ := h; rfl
  setChannel index value _ h := by
    obtain ⟨q, rfl⟩ := h
    simp only [Board.setChannel, setChannel]
    split <;> exact ⟨⟨q, rfl⟩, rfl⟩
  lockCalibration _ h := by
    obtain ⟨q, rfl⟩ := h
    simp only [Board.lockCalibration, lockCalibration]
    split <;> exact ⟨⟨q, rfl⟩, rfl, rfl⟩
  pinCount h := by obtain ⟨q, rfl⟩ := h; rfl
  pinDirection h _ := by obtain ⟨q, rfl⟩ := h; rfl
  setPinDirection d h _ := by
    obtain ⟨q, rfl⟩ := h
    exact .ok ⟨q, rfl⟩
  pinValue h _ := by obtain ⟨q, rfl⟩ := h; rfl
  setPin level h _ := by
    obtain ⟨q, rfl⟩ := h
    exact .ok ⟨⟨q, rfl⟩, rfl⟩
  forward d command h := by
    obtain ⟨q, rfl⟩ := h
    refine ⟨⟨_, rfl⟩, ?_⟩
    -- A full queue leaves one more record, but counts nothing.
    simp [Board.forward, RelayQueue.forwardJournal, dropJournal_counts]
  timingReport node h := by obtain ⟨q, rfl⟩ := h; rfl
  signalReport node h := by obtain ⟨q, rfl⟩ := h; rfl
  syncState h := by obtain ⟨q, rfl⟩ := h; rfl
  setWatchdog enabled h := by
    obtain ⟨q, rfl⟩ := h
    exact ⟨⟨q, rfl⟩, rfl⟩
  setPower pwm _ h := by
    obtain ⟨q, rfl⟩ := h
    exact ⟨⟨q, rfl⟩, rfl⟩
  setDiversity enabled _ h := by
    obtain ⟨q, rfl⟩ := h
    exact ⟨q, rfl⟩
  halt reason h := by
    obtain ⟨q, rfl⟩ := h
    exact ⟨rfl, rfl⟩

end Node

namespace Handling

/-- Two handlings in a row, as one. -/
def followed (h k : Handling) : Handling :=
  { k with
    reply := h.reply ++ k.reply
    data := h.data ++ k.data
    journal := h.journal ++ k.journal }

lemma followed_assoc (h k l : Handling) :
    (h.followed k).followed l = h.followed (k.followed l) := by
  simp [followed, String.append_assoc, Journal.append_assoc]

/-- Handlings that nothing tells apart but what waits to be relayed and the records. -/
structure Alike (h k : Handling) : Prop where
  modem : h.modem = k.modem
  node : Node.SameButRelay h.node k.node
  reply : h.reply = k.reply
  data : h.data = k.data
  stop : h.stop = k.stop
  counts : h.journal.counts = k.journal.counts

lemma Alike.followed {h k h' k' : Handling} (hh : Alike h h') (hk : Alike k k') :
    Alike (h.followed k) (h'.followed k') where
  modem := hk.modem
  node := hk.node
  reply := by simp only [Handling.followed, hh.reply, hk.reply]
  data := by simp only [Handling.followed, hh.data, hk.data]
  stop := hk.stop
  counts := by simp only [Handling.followed, Journal.counts_append, hh.counts, hk.counts]

end Handling

namespace Journal

lemma total_congr {j k : Journal} (h : j.counts = k.counts) (c : Counter) :
    j.total c = k.total c := by
  rw [total, total, h]

end Journal

/-- One turn does what two turns in a row do that give out `o` and `p`, except for when commands
leave for other nodes. -/
structure Turn.Joins (whole first second : Turn) (o p : SessionOutput) : Prop where
  session : whole.session = second.session
  output : ∃ relayed, whole.output = .ok ⟨o.reply ++ p.reply, o.data ++ p.data, relayed, p.halt⟩
  counted : ∀ c, whole.journal.total c = first.journal.total c + second.journal.total c

namespace Session
variable {m : Modem} {n n' : Node} {s : Session} {a b : List UInt8}

lemma passthroughJournal_total (data : List UInt8) (c : Counter) :
    (passthroughJournal data).total c = if c = .passthroughBytes then data.length else 0 := by
  unfold passthroughJournal
  split
  · next h => simp [List.isEmpty_iff.mp h]
  · simp [Journal.total_count, eq_comm]

lemma handleByte_alike (m : Modem) (h : Node.SameButRelay n n') (byte : UInt8) :
    Handling.Alike (handleByte m n byte) (handleByte m n' byte) := by
  obtain ⟨hmodem, hnode, hreply, hran, hcounts⟩ :=
    (m.onByte byte).modem.poll_alike (Node.alike_sameButRelay _) h
  exact ⟨hmodem, hnode, by simp only [handleByte, hreply], rfl, by simp only [handleByte, hran],
    by simp only [handleByte, Journal.counts_append, hcounts]⟩

lemma handleBytes_cons_go {byte : UInt8} (h : (handleByte m n byte).stop = none)
    (bytes : List UInt8) :
    handleBytes m n (byte :: bytes) =
      (handleByte m n byte).followed
        (handleBytes (handleByte m n byte).modem (handleByte m n byte).node bytes) := by
  simp only [handleBytes, h, Handling.followed]

lemma handleBytes_alike (m : Modem) (h : Node.SameButRelay n n') (bytes : List UInt8) :
    Handling.Alike (handleBytes m n bytes) (handleBytes m n' bytes) := by
  induction bytes generalizing m n n' with
  | nil => exact ⟨rfl, h, rfl, rfl, rfl, rfl⟩
  | cons byte bytes ih =>
    have hbyte := handleByte_alike m h byte
    cases hstop : (handleByte m n byte).stop with
    | some how =>
      rw [handleBytes_cons_stop hstop, handleBytes_cons_stop (hbyte.stop ▸ hstop)]
      exact hbyte
    | none =>
      rw [handleBytes_cons_go hstop, handleBytes_cons_go (hbyte.stop ▸ hstop), ← hbyte.modem]
      exact hbyte.followed (ih _ hbyte.node)

/-- Bytes after one that stopped the board are not looked at. -/
lemma handleBytes_append_stop {how : Stop} (h : (handleBytes m n a).stop = some how)
    (b : List UInt8) : handleBytes m n (a ++ b) = handleBytes m n a := by
  induction a generalizing m n with
  | nil => cases h
  | cons byte a ih =>
    rw [List.cons_append]
    cases hstop : (handleByte m n byte).stop with
    | some how => rw [handleBytes_cons_stop hstop, handleBytes_cons_stop hstop]
    | none =>
      rw [handleBytes_cons_go hstop] at h
      rw [handleBytes_cons_go hstop, handleBytes_cons_go hstop, ih h]

lemma handleBytes_append_go (h : (handleBytes m n a).stop = none) (b : List UInt8) :
    handleBytes m n (a ++ b) =
      (handleBytes m n a).followed
        (handleBytes (handleBytes m n a).modem (handleBytes m n a).node b) := by
  induction a generalizing m n with
  | nil => simp [handleBytes, Handling.followed]
  | cons byte a ih =>
    rw [List.cons_append]
    cases hstop : (handleByte m n byte).stop with
    | some how =>
      rw [handleBytes_cons_stop hstop] at h
      cases hstop.symm.trans h
    | none =>
      rw [handleBytes_cons_go hstop] at h
      rw [handleBytes_cons_go hstop, handleBytes_cons_go hstop, ih h, Handling.followed_assoc]
      rfl

/-- The turn that a handling ends in. -/
def ended (ticks : UInt32) (h : Handling) : Turn :=
  match h.stop with
  | none => drained ticks h none
  | some (.halted reason) => drained ticks h (some reason)
  | some (.crashed message) => ⟨⟨h.modem, h.node, ticks⟩, .error message, h.journal⟩

lemma onSerial_eq_ended (s : Session) (bytes : List UInt8) :
    s.onSerial bytes = ended s.ticks (handleBytes s.modem s.node bytes) := rfl

lemma onSerial_of_go (h : (handleBytes s.modem s.node a).stop = none) :
    s.onSerial a = drained s.ticks (handleBytes s.modem s.node a) none := by
  simp only [onSerial, h]

lemma stop_of_returned {o : SessionOutput} (ho : (s.onSerial a).output = .ok o)
    (hhalt : o.halt = none) : (handleBytes s.modem s.node a).stop = none := by
  simp only [onSerial] at ho
  split at ho
  · assumption
  · cases ho
    cases hhalt
  · cases ho

lemma drained_total (ticks : UInt32) (h : Handling) (halt : Option HaltReason) (c : Counter) :
    (drained ticks h halt).journal.total c =
      h.journal.total c + if c = .passthroughBytes then h.data.length else 0 := by
  rw [drained, Journal.total_append, passthroughJournal_total]

lemma drained_followed (ticks : UInt32) (h : Handling) {k k' : Handling} (hk : k.Alike k')
    (halt : Option HaltReason) :
    (drained ticks (h.followed k) halt).Joins (drained ticks h none) (drained ticks k' halt)
      ⟨h.reply, h.data, h.node.relay.waiting, none⟩
      ⟨k'.reply, k'.data, k'.node.relay.waiting, halt⟩ where
  session := by simp only [drained, RelayQueue.drain, Handling.followed, hk.modem, hk.node.drained]
  output := ⟨k.node.relay.waiting, by
    simp only [drained, RelayQueue.drain, Handling.followed, hk.reply, hk.data]⟩
  counted c := by
    -- The bytes of data are counted once for each chunk, and once for the whole.
    simp only [drained_total, Handling.followed, Journal.total_append, List.length_append,
      hk.data, Journal.total_congr hk.counts]
    split <;> omega

/-- Two handlings in a row end as the second does, whatever commands it found waiting, with what
the first brought put before. -/
lemma ended_followed (ticks : UInt32) (h : Handling) {k k' : Handling} (hk : k.Alike k') :
    (∀ p, (ended ticks k').output = .ok p →
      (ended ticks (h.followed k)).Joins (drained ticks h none) (ended ticks k')
        ⟨h.reply, h.data, h.node.relay.waiting, none⟩ p) ∧
    ∀ message, (ended ticks k').output = .error message →
      (ended ticks (h.followed k)).output = .error message := by
  have hstop : (h.followed k).stop = k'.stop := hk.stop
  unfold ended
  rw [hstop]
  rcases k'.stop with _ | reason | message
  · refine ⟨fun p hp => ?_, nofun⟩
    cases hp
    exact drained_followed ticks h hk none
  · refine ⟨fun p hp => ?_, nofun⟩
    cases hp
    exact drained_followed ticks h hk (some reason)
  · exact ⟨nofun, fun _ hm => hm⟩

/-- Two chunks in a row come to what they come to as one, unless the first stops the board; then
the second is not looked at. -/
theorem onSerial_append (s : Session) (a b : List UInt8) :
    (s.node.onHalt = .report →
      (∃ o, (s.onSerial a).output = .ok o) ∧
        ∃ p, ((s.onSerial a).session.onSerial b).output = .ok p) ∧
    (∀ o, (s.onSerial a).output = .ok o → o.halt = none →
      (∀ p, ((s.onSerial a).session.onSerial b).output = .ok p →
        (s.onSerial (a ++ b)).Joins (s.onSerial a) ((s.onSerial a).session.onSerial b) o p) ∧
      ∀ message, ((s.onSerial a).session.onSerial b).output = .error message →
        (s.onSerial (a ++ b)).output = .error message) ∧
    ((∀ o, (s.onSerial a).output = .ok o → o.halt ≠ none) →
      s.onSerial (a ++ b) = s.onSerial a) := by
  refine ⟨fun hn => ⟨?_, ?_⟩, fun o ho hhalt => ?_, fun hhalt => ?_⟩
  · exact turn_returns hn (.serial a)
  · exact turn_returns ((s.turn_trace (.serial a)).node.1.2.trans hn) (.serial b)
  · have hstop := stop_of_returned ho hhalt
    have hfirst := onSerial_of_go hstop
    rw [hfirst] at ho ⊢
    cases ho
    rw [onSerial_eq_ended, onSerial_eq_ended, handleBytes_append_go hstop]
    exact ended_followed s.ticks _ (handleBytes_alike _ ⟨.empty, rfl⟩ b)
  · cases hstop : (handleBytes s.modem s.node a).stop with
    | none => exact absurd rfl (hhalt _ (congrArg Turn.output (onSerial_of_go hstop)))
    | some how => rw [onSerial_eq_ended, handleBytes_append_stop hstop, onSerial_eq_ended]

/-- A modem in command mode, its escape complete. -/
def commanding : List SessionEvent := [.tick, .serial "+++".toUTF8.toList, .tick]

/-- A line is cut in two before one that resets the board; what follows is not looked at. -/
theorem onSerial_append_cut : ∃ s, ofConfiguration alert = .ok s ∧
    let t := s.after commanding
    let a := "RTATZ\rATS3".toUTF8.toList
    let b := "?\rATZ\rATO\r".toUTF8.toList
    (∃ relayed, (t.onSerial (a ++ b)).output =
      .ok ⟨"RTATZ\nATS3" ++ "?\n[0] 25\nATZ\n", [], relayed, some .reset⟩) ∧
    t.onSerial (a ++ b ++ a) = t.onSerial (a ++ b) := by
  refine ⟨_, rfl, ?_, ?_⟩
  · refine (((onSerial_append _ _ _).2.1 ⟨"RTATZ\nATS3", [], [⟨.broadcast, "ATZ"⟩], none⟩ ?_ rfl).1
      ⟨"?\n[0] 25\nATZ\n", [], [], some .reset⟩ ?_).output
    · decide +kernel
    · decide +kernel
  · refine (onSerial_append _ _ _).2.2 fun o ho hnone => ?_
    exact absurd ((Turn.halt?_of_returned ho).trans hnone) (by decide +kernel)

end Session

end RadioModem
