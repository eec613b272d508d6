import RadioModem.Proofs.CompleteEscape

/-!
# A line that waits

A carriage return makes a line ready, and the poll that runs it may come late. Bytes and ticks in
between leave the line alone, with one exception: if they hold a whole escape sequence, the tick
that completes it puts the attention line in its place.
-/
namespace RadioModem

namespace EscapeDetector

/-- A detector fires on a whole sequence only. -/
lemma Watched.sequence_of_firing {d : EscapeDetector} {seen ss : List Signal} (h : Watched d seen)
    (hf : true ∈ d.firings ss) : ∃ recent, recent <+: ss ∧ EscapeSequence d.guard (seen ++ recent) := by
  induction ss generalizing d seen with
  | nil => cases hf
  | cons s ss ih =>
    cases s with
    | byte byte =>
      have hrest : true ∈ (d.onByte byte).firings ss := by
        simpa only [firings, firesOn, next, List.mem_cons, Bool.true_eq_false, false_or] using hf
      obtain ⟨recent, hprefix, hsequence⟩ := ih (h.onByte byte) hrest
      rw [onByte_guard, List.append_assoc] at hsequence
      exact ⟨_, (List.prefix_cons_inj _).mpr hprefix, hsequence⟩
    | tick =>
      cases hfires : d.fires with
      | true => exact ⟨[.tick], ⟨ss, rfl⟩, (h.escapeSequence hfires).2⟩
      | false =>
        have hrest : true ∈ d.onTick.firings ss := by
          simpa only [firings, firesOn, next, hfires, List.mem_cons, Bool.true_eq_false, false_or]
            using hf
        obtain ⟨recent, hprefix, hsequence⟩ := ih (h.onTick hfires) hrest
        rw [onTick_guard, List.append_assoc] at hsequence
        exact ⟨_, (List.prefix_cons_inj _).mpr hprefix, hsequence⟩

/-- A detector that has been started over fires on what comes in behind that only. -/
lemma sequence_behind_idle {d : EscapeDetector} {ss : List Signal} (hf : true ∈ d.idle.firings ss) :
    ∃ recent, recent <+: ss ∧ EscapeSequence d.guard recent :=
  (watched_idle d []).sequence_of_firing hf

end EscapeDetector

namespace Modem
variable {β : Type} [Board β] {m : Modem} {b : β}

/-- What becomes of a modem whose line waits while bytes and ticks come in. -/
def waiting (m : Modem) (ss : List Signal) : Modem :=
  { m with
    escape := m.escape.after ss
    line := if true ∈ m.escape.firings ss then m.line.set attentionLine else m.line }

theorem after_waiting (hc : m.commandMode = true) (hr : m.ready = true) (b : β)
    (ss : List Signal) : (m.after b (ss.map .ofSignal)).1 = m.waiting ss := by
  induction ss generalizing m b with
  | nil => simp [after, waiting, EscapeDetector.after, EscapeDetector.firings]
  | cons s ss ih =>
    have hfirings : m.escape.firings (s :: ss) =
        m.escape.firesOn s :: (m.escape.next s).firings ss := rfl
    cases s with
    | byte byte =>
      have hstep : (m.onByte byte).modem = { m with escape := m.escape.onByte byte } :=
        congrArg ByteStep.modem (onByte_waiting hc hr)
      have hrest := ih (m := (m.onByte byte).modem) (by rwa [hstep]) (by rwa [hstep]) b
      refine hrest.trans ?_
      rw [hstep, waiting, waiting, hfirings]
      simp [EscapeDetector.firesOn, EscapeDetector.after, EscapeDetector.next]
    | tick =>
      cases hf : m.escape.fires with
      | false =>
        have hstep : (m.onTick b).modem = { m with escape := m.escape.onTick } := by
          rw [onTick_quiet hf]
        have hrest := ih (m := (m.onTick b).modem) (by rwa [hstep]) (by rwa [hstep]) (m.onTick b).board
        refine hrest.trans ?_
        rw [hstep, waiting, waiting, hfirings]
        simp [EscapeDetector.firesOn, EscapeDetector.after, EscapeDetector.next, hf]
      | true =>
        have hstep := (onTick_fires (b := b) hf).1
        have hrest := ih (m := (m.onTick b).modem) (by rw [hstep]) (by rw [hstep]) (m.onTick b).board
        refine hrest.trans ?_
        -- The attention line is put in place now; a later escape puts the same line there.
        rw [hstep, waiting, waiting, hfirings]
        simp [EscapeDetector.firesOn, EscapeDetector.after, EscapeDetector.next, hf, hc, hr,
          EscapeDetector.onTick_of_fires hf, LineBuffer.set]

/-- A line that a carriage return has ended stays ready until a poll runs it. It is still the same
line unless an escape, which lies behind the carriage return, leaves the attention line there. -/
theorem pending_line {settings : ModemSettings} (h : Reachable settings m)
    (hc : m.commandMode = true) (hr : m.ready = false) (b : β) (ss : List Signal) :
    let ended := (m.onByte 0x0D).modem
    let waited := (ended.after b (ss.map .ofSignal)).1
    (ended.ready = true ∧ ended.text = m.text) ∧
    (waited.commandMode = true ∧ waited.ready = true ∧
      ∀ {γ : Type} [Board γ] (c : γ),
        Dispatched (Dispatch.run settings.features c m.tests waited.text) (waited.poll c)) ∧
    (true ∉ ended.escape.firings ss → waited.text = m.text) ∧
    (true ∈ ended.escape.firings ss →
      (∃ seen, seen <+: ss ∧ EscapeSequence settings.guardTicks seen) ∧
      waited.line = m.line.set attentionLine ∧
      (2 ≤ settings.capacity → waited.text = attentionLine)) := by
  intro ended waited
  obtain rfl := h.settings_eq
  have hended : ended = { m with escape := m.escape.onByte 0x0D, ready := true } :=
    congrArg ByteStep.modem (onByte_return hc hr)
  have hwaited : waited = ended.waiting ss :=
    after_waiting (by rwa [hended]) (by rw [hended]) b ss
  have hready : waited.ready = true := by rw [hwaited, waiting, hended]
  refine ⟨?_, ⟨?_, hready, fun {γ} _ c => ?_⟩, fun hquiet => ?_, fun hfires => ?_⟩
  · rw [hended]
    exact ⟨rfl, rfl⟩
  · rwa [hwaited, waiting, hended]
  · have hrun : waited.outcome c = Dispatch.run m.settings.features c m.tests waited.text := by
      rw [hwaited, waiting, hended]
      rfl
    rw [← hrun]
    exact (poll_polled waited c).dispatched hready
  · rw [hwaited, waiting, if_neg hquiet, hended]
    rfl
  · have hline : waited.line = m.line.set attentionLine := by
      rw [hwaited, waiting, if_pos hfires, hended]
    refine ⟨?_, hline, fun hroom => ?_⟩
    · -- The carriage return has started the detector over.
      have hstart : ended.escape = m.escape.idle := by rw [hended]; rfl
      rw [hstart] at hfires
      rw [← h.guard]
      exact EscapeDetector.sequence_behind_idle hfires
    · rw [text, hline]
      exact text_attention (by rwa [h.sound.capacity])

/-- A modem in command mode that has been sent a request for a register, its line not yet ended. -/
def requesting : Modem :=
  let bench := Bench.ofNode 0
  let signed := (((ofSettings ⟨16, 1, .basic⟩).onTick bench).modem.feed [0x2B, 0x2B, 0x2B]).modem
  let attending := ((signed.onTick bench).modem.poll bench).modem
  (attending.feed "ATS3?".toUTF8.toList).modem

lemma requesting_reachable : Reachable ⟨16, 1, .basic⟩ requesting :=
  .feed _ (.poll _ (.tick _ (.feed _ (.tick _ .fresh))))

/-- What keeps coming in behind the line is no escape, as one sign has come too early. -/
theorem pending_line_requesting :
    let late : List Signal := [.plus, .tick, .plus, .tick, .byte 0x0D, .tick]
    let waited := ((requesting.onByte 0x0D).modem.after (Bench.ofNode 0) (late.map .ofSignal)).1
    Reachable ⟨16, 1, .basic⟩ requesting ∧ requesting.commandMode = true ∧
      requesting.ready = false ∧ waited.ready = true ∧ waited.text = "ATS3?" ∧
      (waited.poll (Bench.ofNode 0)).reply = "[0] 25\n" := by
  intro late waited
  have hmode : requesting.commandMode = true := by decide +kernel
  have hidle : requesting.ready = false := by decide +kernel
  obtain ⟨-, ⟨-, hready, hpoll⟩, hkept, -⟩ :=
    pending_line requesting_reachable hmode hidle (Bench.ofNode 0) late
  have htext : waited.text = "ATS3?" := (hkept (by decide +kernel)).trans (by decide +kernel)
  refine ⟨requesting_reachable, hmode, hidle, hready, htext, ?_⟩
  rw [(hpoll (Bench.ofNode 0)).reply, htext]
  decide +kernel

/-- A whole escape behind the line puts the attention line in its place. -/
theorem pending_line_replaced :
    ¬∀ (settings : ModemSettings) (m : Modem) (β : Type) [Board β] (b : β) (ss : List Signal),
      Reachable settings m → m.commandMode = true → m.ready = false →
        ((m.onByte 0x0D).modem.after b (ss.map .ofSignal)).1.text = m.text := by
  intro h
  have hkept := h ⟨16, 1, .basic⟩ requesting Bench (Bench.ofNode 0) (Signal.escape 1 1)
    requesting_reachable (by decide +kernel) (by decide +kernel)
  exact absurd hkept (by decide +kernel)

end Modem

end RadioModem
