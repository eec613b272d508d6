import Mathlib.Data.List.Induction
import RadioModem.Bench
import RadioModem.Proofs.Modem

/-!
# No false escape

Command mode is entered by a tick that ends a whole escape sequence, and in no other way. Each
entry has a sequence of its own: it lies behind the entry before it.
-/
namespace RadioModem.Modem
variable {β : Type} [Board β]

/-- Whether an event enters command mode, also where it is on already. -/
def enters (m : Modem) : ModemEvent → Bool
  | .tick => m.escape.fires
  | .byte _ | .poll => false

def reached (s : ModemSettings) (b : β) (es : List ModemEvent) : Modem :=
  ((ofSettings s).after b es).1

def boardReached (s : ModemSettings) (b : β) (es : List ModemEvent) : β :=
  ((ofSettings s).after b es).2

lemma after_snoc (m : Modem) (b : β) (es : List ModemEvent) (e : ModemEvent) :
    m.after b (es ++ [e]) = (m.after b es).1.next (m.after b es).2 e := after_append m b es [e]

lemma signals_append (es fs : List ModemEvent) : signals (es ++ fs) = signals es ++ signals fs :=
  List.filterMap_append

lemma next_guard (m : Modem) (b : β) (e : ModemEvent) :
    (m.next b e).1.escape.guard = m.escape.guard := by
  cases e with
  | byte byte => simp [next]
  | tick => simp [next]
  | poll => rcases (poll_polled m b).escape with h | h <;> simp [next, h]

lemma after_guard (m : Modem) (b : β) (es : List ModemEvent) :
    (m.after b es).1.escape.guard = m.escape.guard := by
  induction es generalizing m b with
  | nil => rfl
  | cons e es ih => exact (ih _ _).trans (next_guard m b e)

/-- An event that does not enter is noted by the detector, and no more. -/
lemma next_watched {m : Modem} {seen : List Signal} (h : m.escape.Watched seen) (b : β)
    {e : ModemEvent} (he : m.enters e = false) :
    (m.next b e).1.escape.Watched (seen ++ signals [e]) := by
  cases e with
  | byte byte => simpa [next, signals, ModemEvent.signal?] using h.onByte byte
  | tick => simpa [next, signals, ModemEvent.signal?] using h.onTick he
  | poll =>
    have hs : signals [ModemEvent.poll] = [] := rfl
    rw [hs, List.append_nil]
    rcases (poll_polled m b).escape with hp | hp
    · simpa [next, hp] using h
    · simpa [next, hp] using h.restartWindow

lemma next_enters {m : Modem} (b : β) (hf : m.enters .tick = true) :
    (m.next b .tick).1.escape = m.escape.idle := by
  rw [next, onTick_escape, EscapeDetector.onTick_of_fires hf]

/-- After any run the detector has watched the end of what was seen, from the last entry on. -/
theorem after_watched {m : Modem} {seen : List Signal} (h : m.escape.Watched seen) (b : β)
    (es : List ModemEvent) :
    ∃ recent, recent <:+ seen ++ signals es ∧ (m.after b es).1.escape.Watched recent := by
  induction es generalizing m b seen with
  | nil => exact ⟨seen, by simp [signals], h⟩
  | cons e es ih =>
    have hsplit : signals (e :: es) = signals [e] ++ signals es := signals_append [e] es
    rw [hsplit, ← List.append_assoc]
    cases he : m.enters e with
    | false => exact ih (next_watched h b he) _
    | true =>
      have htick : e = .tick := by cases e <;> first | rfl | cases he
      subst htick
      have hidle : (m.next b .tick).1.escape.Watched [] := by
        rw [next_enters b he]
        exact EscapeDetector.watched_idle _ _
      obtain ⟨recent, hs, hw⟩ := ih hidle (m.next b .tick).2
      exact ⟨recent, hs.trans (List.suffix_append _ _), hw⟩

/-- A tick that enters ends a sequence in what was seen since the detector was watched. -/
lemma sequence_of_enters {m : Modem} {seen : List Signal} (h : m.escape.Watched seen) (b : β)
    {es : List ModemEvent} (he : (m.after b es).1.enters .tick = true) :
    1 ≤ m.escape.guard ∧ EscapeSequence m.escape.guard (seen ++ signals es ++ [.tick]) := by
  obtain ⟨recent, ⟨earlier, hs⟩, hw⟩ := after_watched h b es
  obtain ⟨hg, hseq⟩ := hw.escapeSequence he
  rw [after_guard] at hg hseq
  rw [← hs]
  exact ⟨hg, hseq.of_suffix ⟨earlier, (List.append_assoc _ _ _).symm⟩⟩

lemma next_commandMode {m : Modem} {b : β} {e : ModemEvent} (he : m.enters e = false)
    (h : (m.next b e).1.commandMode = true) : m.commandMode = true := by
  cases e with
  | byte byte => exact (onByte_received m byte).commandMode h
  | tick =>
    rw [next, onTick_quiet he] at h
    exact h
  | poll => exact (poll_polled m b).commandMode h

/-- An event that does not enter puts no line in place: what waits behind it was there before. -/
lemma next_ready {m : Modem} {b : β} {e : ModemEvent} (he : m.enters e = false)
    (h : (m.next b e).1.ready = true) :
    (m.next b e).1.line = m.line ∧ (m.ready = true ∨ e = .byte 0x0D) := by
  cases e with
  | byte byte =>
    obtain ⟨hline, hready⟩ := (onByte_received m byte).ready h
    exact ⟨hline, hready.imp id (congrArg ModemEvent.byte)⟩
  | tick =>
    rw [next, onTick_quiet he] at h ⊢
    exact ⟨rfl, .inl h⟩
  | poll =>
    obtain ⟨hline, hready, -⟩ := (poll_polled m b).ready h
    exact ⟨hline, .inl hready⟩

lemma poll_leaves_none {m : Modem} {b : β} {ran : Bool} (h : (m.poll b).ran = .ok ran) :
    (m.poll b).modem.ready = false := by
  cases hr : (m.poll b).modem.ready with
  | false => rfl
  | true =>
    obtain ⟨-, -, how, hstop⟩ := (poll_polled m b).ready hr
    cases hstop.symm.trans h

lemma never_on {m : Modem} {b : β} {es : List ModemEvent}
    (h : ∀ fs, (m.after b fs).1.enters .tick = false) (hc : m.commandMode = false) :
    (m.after b es).1.commandMode = false := by
  induction es using List.reverseRecOn with
  | nil => exact hc
  | append_singleton es e ih =>
    have he : (m.after b es).1.enters e = false := by
      cases e with
      | tick => exact h es
      | byte | poll => rfl
    rw [after_snoc]
    cases hon : ((m.after b es).1.next (m.after b es).2 e).1.commandMode with
    | false => rfl
    | true => exact absurd (next_commandMode he hon) (by simp [ih])

/-- Only a tick enters command mode, at the end of an escape sequence of its own, and puts the
attention line in place. No other event turns the mode on or makes any line wait but the one that a
carriage return ends, and a poll that is not cut short leaves none. -/
theorem no_false_escape (s : ModemSettings) (b : β) :
    (∀ es e, (reached s b es).enters e = false →
      (reached s b (es ++ [e])).commandMode = true → (reached s b es).commandMode = true) ∧
    (∀ es e, (reached s b es).enters e = false → (reached s b (es ++ [e])).ready = true →
      (reached s b (es ++ [e])).line = (reached s b es).line ∧
        ((reached s b es).ready = true ∨ e = .byte 0x0D)) ∧
    (∀ es ran, ((reached s b es).poll (boardReached s b es)).ran = .ok ran →
      (reached s b (es ++ [.poll])).ready = false) ∧
    (∀ es, (reached s b es).enters .tick = false →
      reached s b (es ++ [.tick]) =
        { reached s b es with escape := (reached s b es).escape.onTick }) ∧
    (∀ es, (reached s b es).enters .tick = true →
      (reached s b (es ++ [.tick])).commandMode = true ∧
        (reached s b (es ++ [.tick])).ready = true ∧
        (reached s b (es ++ [.tick])).line = (reached s b es).line.set attentionLine ∧
        1 ≤ s.guardTicks ∧ EscapeSequence s.guardTicks (signals (es ++ [.tick]))) ∧
    (∀ es fs, (reached s b es).enters .tick = true →
      (reached s b (es ++ .tick :: fs)).enters .tick = true →
        EscapeSequence s.guardTicks (signals (fs ++ [.tick]))) ∧
    (s.guardTicks = 0 → ∀ es, (reached s b es).commandMode = false) := by
  have hstart : (ofSettings s).escape.Watched [] := EscapeDetector.watched_ofGuard _
  have hentry : ∀ es, (reached s b es).enters .tick = true →
      1 ≤ s.guardTicks ∧ EscapeSequence s.guardTicks (signals es ++ [.tick]) :=
    fun es he => sequence_of_enters hstart b he
  have hnext : ∀ es e, reached s b (es ++ [e]) =
      ((reached s b es).next (boardReached s b es) e).1 :=
    fun es e => congrArg Prod.fst (after_snoc _ b es e)
  refine ⟨?_, ?_, ?_, ?_, ?_, ?_, ?_⟩
  · intro es e he hon
    rw [hnext] at hon
    exact next_commandMode he hon
  · intro es e he hready
    rw [hnext] at hready ⊢
    exact next_ready he hready
  · intro es ran hran
    rw [hnext]
    exact poll_leaves_none hran
  · intro es he
    rw [hnext]
    exact congrArg TickStep.modem (onTick_quiet he)
  · intro es he
    have hstep : ((reached s b es).next (boardReached s b es) .tick).1 = _ := (onTick_fires he).1
    rw [hnext, hstep, signals_append]
    exact ⟨rfl, rfl, rfl, hentry es he⟩
  · intro es fs he hf
    -- The detector starts over at the first entry, so it has watched `fs` alone at the second.
    have hw : ((reached s b es).next (boardReached s b es) .tick).1.escape.Watched [] := by
      rw [next_enters _ he]
      exact EscapeDetector.watched_idle _ _
    rw [reached, after_append] at hf
    obtain ⟨-, hseq⟩ := sequence_of_enters hw _ hf
    rw [next_guard, reached, after_guard] at hseq
    rw [signals_append]
    exact hseq
  · intro hg es
    refine never_on (fun fs => ?_) rfl
    cases he : ((ofSettings s).after b fs).1.enters .tick with
    | false => rfl
    | true =>
      have := (hentry fs he).1
      omega

/-- A guard window of one tick, and three plus signs behind it. -/
def plusSigns : List ModemEvent := [.tick, .byte 0x2B, .byte 0x2B, .byte 0x2B]

/-- The attention line is run, the mode is left by a command, and the signs come again. -/
def leaving : List ModemEvent :=
  [.poll, .byte 0x41, .byte 0x54, .byte 0x4F, .byte 0x0D, .poll] ++ plusSigns

theorem no_false_escape_leaving :
    (reached ⟨3, 1, .basic⟩ (Bench.ofNode 0) plusSigns).enters .tick = true ∧
    (reached ⟨3, 1, .basic⟩ (Bench.ofNode 0) (plusSigns ++ .tick :: leaving)).commandMode = false ∧
    (reached ⟨3, 1, .basic⟩ (Bench.ofNode 0) (plusSigns ++ .tick :: leaving)).enters .tick = true ∧
    EscapeSequence 1 (signals (leaving ++ [.tick])) := by
  have hfirst : (reached ⟨3, 1, .basic⟩ (Bench.ofNode 0) plusSigns).enters .tick = true := by
    decide +kernel
  have hsecond : (reached ⟨3, 1, .basic⟩ (Bench.ofNode 0)
      (plusSigns ++ .tick :: leaving)).enters .tick = true := by decide +kernel
  obtain ⟨-, -, -, -, -, hown, -⟩ := no_false_escape ⟨3, 1, .basic⟩ (Bench.ofNode 0)
  exact ⟨hfirst, by decide +kernel, hsecond, hown plusSigns leaving hfirst hsecond⟩

end RadioModem.Modem
