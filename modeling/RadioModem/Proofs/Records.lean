import RadioModem.Proofs.Session

/-!
# Records of the lines that are run

No byte, no tick and no switch leaves a record that looks like that of a line, so the journal of a
session tells which lines were run.
-/
namespace RadioModem

/-- The record by which the journal tells of a line, if one was run. -/
def recordsOf (node : Address) (line : Option String) : List Record :=
  line.toList.map (runRecord node)

lemma EscapeDetector.byteJournal_runs (d : EscapeDetector) (byte : UInt8) (node : Address) :
    (d.byteJournal byte).runs node = [] := by
  unfold byteJournal
  split
  · exact Journal.runs_note_of_level (by decide) _
  · rfl

lemma EscapeDetector.tickJournal_runs (d : EscapeDetector) (node : Address) :
    d.tickJournal.runs node = [] := by
  unfold tickJournal
  split
  · exact Journal.runs_note_of_level (by decide) _
  · rfl

lemma LineBuffer.key_runs (l : LineBuffer) (byte : UInt8) (node : Address) :
    (l.key byte).journal.runs node = [] := by
  have hstruck := l.key_struck byte
  generalize l.key byte = k at hstruck
  cases hstruck with
  | ended | erased | passed | added => rfl
  | overflowed => exact Journal.runs_note_of_level (by decide) _

namespace Modem
lemma Received.runs {m : Modem} {byte : UInt8} {s : ByteStep} (h : Received m byte s)
    (node : Address) : s.journal.runs node = [] := by
  have hescape := m.escape.byteJournal_runs byte node
  have hkey := m.line.key_runs byte node
  cases h with
  | data | ended => exact hescape
  | waiting =>
    rw [Journal.runs_append, hescape, List.nil_append]
    exact Journal.runs_note_of_level (by decide) _
  | typed => rw [Journal.runs_append, hescape, hkey, List.nil_append]
  | overflowed =>
    simp only [Journal.runs_append, Journal.runs_count, hescape, hkey, List.nil_append]
    exact Journal.runs_note_of_level (by decide) _

lemma watchdog_runs (m : Modem) (n : Node) (enabled : Bool) (node : Address) :
    (m.watchdog n enabled).2.runs node = [] := by
  unfold watchdog
  split
  · exact Journal.runs_note_of_head (c := 'w') (by rw [String.toList_append]; rfl) (by decide) _
  · rfl

lemma onTick_runs (m : Modem) (n : Node) (node : Address) :
    (m.onTick n).journal.runs node = [] := by
  cases hf : m.escape.fires with
  | false => rw [onTick_quiet hf, EscapeDetector.tickJournal_runs]
  | true =>
    simp only [onTick, hf, if_true, enterCommandMode, Journal.runs_append, Journal.runs_count,
      List.append_nil]
    rw [Journal.runs_note_of_level (by decide)]
    exact watchdog_runs _ n false node

lemma Polled.runs {m : Modem} {n : Node} {p : PollStep Node} (h : Polled m n p)
    (hr : m.ready = true) :
    p.journal.runs n.identity.node = [runRecord n.identity.node m.text] := by
  have ho : (m.outcome n).journal.runs n.identity.node = [runRecord n.identity.node m.text] :=
    Node.run_runs _ _ _ _
  cases h with
  | idle hidle => cases hidle.symm.trans hr
  | stopped | stayed => exact ho
  | left =>
    simp only [Journal.runs_append, ho, watchdog_runs, List.nil_append]
    rw [Journal.runs_note_of_level (by decide)]
    rfl

end Modem

namespace Moment
variable {x : Moment} {node : Address}

lemma stepped_runs (x : Moment) (node : Address) : x.stepped.journal.runs node = [] := by
  obtain ⟨s, signal⟩ := x
  cases signal with
  | byte byte => exact (Modem.onByte_received _ byte).runs node
  | tick => exact Modem.onTick_runs _ _ node

/-- A moment leaves one record for the line it runs, and none if it runs no line. -/
theorem journal_runs (hn : x.session.node.identity.node = node) :
    x.journal.runs node = recordsOf node x.line? := by
  have hid : x.stepped.board.identity.node = node := by rw [stepped_identity, hn]
  rw [journal, Journal.runs_append, stepped_runs, List.nil_append, line?]
  cases hr : x.stepped.modem.ready with
  | false =>
    rw [polled_idle hr]
    rfl
  | true =>
    rw [← hid]
    exact (Modem.poll_polled _ _).runs hr

end Moment

end RadioModem
