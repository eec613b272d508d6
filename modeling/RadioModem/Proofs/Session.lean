import RadioModem.Proofs.Moments

/-!
# Turns and runs of a session

A turn handles many bytes. Here it is cut into its moments: what it writes, hands out and notes
down is what they do, one after the other.
-/
namespace RadioModem

lemma Configuration.validated_iff {c : Configuration} : c.validated = .ok c ↔
    2 ≤ c.modem.capacity ∧ 1 ≤ c.modem.guardTicks ∧ c.pins.count ≤ pinLimit := by
  unfold Configuration.validated Configuration.fault?
  split
  · next fault hfault =>
    refine iff_of_false nofun ?_
    rintro ⟨hc, hg, hp⟩
    rw [if_neg (by omega), if_neg (by omega), if_neg (by omega)] at hfault
    cases hfault
  · next hfault =>
    refine iff_of_true rfl ?_
    by_contra hbad
    split_ifs at hfault
    omega

inductive SessionEvent
  | serial (bytes : List UInt8)
  | tick
  deriving DecidableEq, Repr

def SessionEvent.signals : SessionEvent → List Signal
  | serial bytes => bytes.map Signal.byte
  | tick => [.tick]

def Turn.halt? (t : Turn) : Option HaltReason :=
  match t.output with
  | .ok o => o.halt
  | .error _ => none

lemma Turn.halt?_of_returned {t : Turn} {o : SessionOutput} (h : t.output = .ok o) :
    t.halt? = o.halt := by rw [halt?, h]

/-- The data that a turn hands out; a crash hands out none. -/
def Turn.data (t : Turn) : List UInt8 :=
  match t.output with
  | .ok o => o.data
  | .error _ => []

namespace Session

def turn (s : Session) : SessionEvent → Turn
  | .serial bytes => s.onSerial bytes
  | .tick => s.onTick

def after (s : Session) : List SessionEvent → Session
  | [] => s
  | e :: es => (s.turn e).session.after es

def turns (s : Session) : List SessionEvent → List Turn
  | [] => []
  | e :: es => s.turn e :: (s.turn e).session.turns es

/-- The moments of a run of bytes, up to the first that stops the board. -/
def byteMoments (s : Session) : List UInt8 → List Moment
  | [] => []
  | byte :: bytes =>
    let x : Moment := ⟨s, .byte byte⟩
    x :: if x.stop?.isSome then [] else x.next.byteMoments bytes

def moments (s : Session) : SessionEvent → List Moment
  | .serial bytes => s.byteMoments bytes
  | .tick => [⟨s, .tick⟩]

def history (s : Session) : List SessionEvent → List Moment
  | [] => []
  | e :: es => s.moments e ++ (s.turn e).session.history es

/-- Sessions that a run can lead to, from any settings and any board. -/
inductive Reachable : Session → Prop
  | fresh (settings : ModemSettings) (node : Node) : Reachable (ofParts (.ofSettings settings) node)
  | turn {s : Session} (e : SessionEvent) (h : Reachable s) : Reachable (s.turn e).session

end Session

namespace Session
variable {s : Session}

/-! ### Turns and their moments -/

lemma handleByte_eq (s : Session) (byte : UInt8) :
    handleByte s.modem s.node byte =
      let x : Moment := ⟨s, .byte byte⟩
      ⟨x.next.modem, x.next.node, x.echo ++ x.polled.reply, x.payload, x.stop?, x.journal⟩ := rfl

lemma handleBytes_cons_stop {m : Modem} {n : Node} {byte : UInt8} {how : Stop}
    (h : (handleByte m n byte).stop = some how) (bytes : List UInt8) :
    handleBytes m n (byte :: bytes) = handleByte m n byte := by
  simp only [handleBytes, h]

lemma handleBytes_stop {byte : UInt8} {how : Stop} (h : Moment.stop? ⟨s, .byte byte⟩ = some how)
    (bytes : List UInt8) :
    handleBytes s.modem s.node (byte :: bytes) = handleByte s.modem s.node byte :=
  handleBytes_cons_stop h bytes

lemma handleBytes_go {byte : UInt8} (h : Moment.stop? ⟨s, .byte byte⟩ = none)
    (bytes : List UInt8) :
    handleBytes s.modem s.node (byte :: bytes) =
      let x : Moment := ⟨s, .byte byte⟩
      let rest := handleBytes x.next.modem x.next.node bytes
      { rest with
        reply := x.text ++ rest.reply
        data := x.payload ++ rest.data
        journal := x.journal ++ rest.journal } := by
  have hs : (handleByte s.modem s.node byte).stop = none := h
  have ht : Moment.text ⟨s, .byte byte⟩ = (handleByte s.modem s.node byte).reply :=
    String.append_empty
  simp only [handleBytes, hs, ht]
  rfl

lemma byteMoments_stop {byte : UInt8} {how : Stop} (h : Moment.stop? ⟨s, .byte byte⟩ = some how)
    (bytes : List UInt8) : s.byteMoments (byte :: bytes) = [⟨s, .byte byte⟩] := by
  simp [byteMoments, h]

lemma byteMoments_go {byte : UInt8} (h : Moment.stop? ⟨s, .byte byte⟩ = none)
    (bytes : List UInt8) :
    s.byteMoments (byte :: bytes) =
      ⟨s, .byte byte⟩ :: (Moment.next ⟨s, .byte byte⟩).byteMoments bytes := by
  simp [byteMoments, h]

/-- Bytes are handled one by one up to the first that stops the board. -/
@[elab_as_elim]
theorem bytes_induct {motive : Session → List UInt8 → Prop} (nil : ∀ s, motive s [])
    (stop : ∀ s byte bytes how, Moment.stop? ⟨s, .byte byte⟩ = some how →
      motive s (byte :: bytes))
    (go : ∀ s byte bytes, Moment.stop? ⟨s, .byte byte⟩ = none →
      motive (Moment.next ⟨s, .byte byte⟩) bytes → motive s (byte :: bytes))
    (s : Session) (bytes : List UInt8) : motive s bytes := by
  induction bytes generalizing s with
  | nil => exact nil s
  | cons byte bytes ih =>
    cases hstop : Moment.stop? ⟨s, .byte byte⟩ with
    | some how => exact stop s byte bytes how hstop
    | none => exact go s byte bytes hstop (ih _)

/-- What a run of bytes comes to, read off its moments. -/
structure Tells (s : Session) (xs : List Moment) (h : Handling) : Prop where
  trace : Trace s xs ⟨h.modem, h.node, s.ticks⟩
  reply : h.reply = String.join (xs.map Moment.text)
  data : h.data = xs.flatMap Moment.payload
  runs : ∀ node, h.journal.runs node = xs.flatMap fun x => x.journal.runs node

theorem handleBytes_tells (s : Session) (bytes : List UInt8) :
    s.Tells (s.byteMoments bytes) (handleBytes s.modem s.node bytes) := by
  induction s, bytes using bytes_induct with
  | nil s => exact ⟨.nil s, by simp [handleBytes, byteMoments], rfl, fun _ => rfl⟩
  | stop s byte bytes how hstop =>
    rw [handleBytes_stop hstop, byteMoments_stop hstop, handleByte_eq]
    exact ⟨.moment (.nil _), by simp [Moment.text, Moment.reports], by simp, by simp⟩
  | go s byte bytes hstop ih =>
    rw [handleBytes_go hstop, byteMoments_go hstop]
    obtain ⟨ht, hr, hd, hj⟩ := ih
    exact ⟨.moment ht, by simp [hr], by simp [hd], fun node => by simp [hj]⟩

lemma handleBytes_finished {bytes : List UInt8}
    (h : (handleBytes s.modem s.node bytes).stop = none) :
    (s.byteMoments bytes).map Moment.signal = bytes.map Signal.byte ∧
      ∀ x ∈ s.byteMoments bytes, x.stop? = none := by
  induction s, bytes using bytes_induct with
  | nil s => exact ⟨rfl, by simp [byteMoments]⟩
  | stop s byte bytes how hstop =>
    rw [handleBytes_stop hstop, handleByte_eq] at h
    cases hstop.symm.trans h
  | go s byte bytes hstop ih =>
    rw [handleBytes_go hstop] at h
    obtain ⟨hsignals, hnone⟩ := ih h
    rw [byteMoments_go hstop]
    exact ⟨by simp [hsignals], List.forall_mem_cons.mpr ⟨hstop, hnone⟩⟩

lemma handleBytes_stopped {bytes : List UInt8} {how : Stop}
    (h : (handleBytes s.modem s.node bytes).stop = some how) :
    ∃ x ∈ s.byteMoments bytes, x.stop? = some how := by
  induction s, bytes using bytes_induct with
  | nil s => cases h
  | stop s byte bytes other hstop =>
    rw [handleBytes_stop hstop, handleByte_eq] at h
    rw [byteMoments_stop hstop]
    exact ⟨_, List.mem_singleton.mpr rfl, h⟩
  | go s byte bytes hstop ih =>
    rw [handleBytes_go hstop] at h
    obtain ⟨x, hx, hs⟩ := ih h
    rw [byteMoments_go hstop]
    exact ⟨x, List.mem_cons_of_mem _ hx, hs⟩

lemma onTick_eq (s : Session) :
    s.onTick =
      let x : Moment := ⟨s, .tick⟩
      ⟨x.next, match x.stop? with
        | none => .ok ⟨x.text, [], [], none⟩
        | some (.halted reason) => .ok ⟨x.text, [], [], some reason⟩
        | some (.crashed message) => .error message, x.journal⟩ := by
  cases hran : (Moment.polled ⟨s, .tick⟩).ran with
  | ok ran =>
    simp only [Moment.polled, Moment.stepped] at hran
    simp [onTick, hran, Moment.text, Moment.echo, Moment.reports, Moment.next, Moment.ticks,
      Moment.stop?, Moment.polled, Moment.stepped, Moment.journal]
  | error how =>
    simp only [Moment.polled, Moment.stepped] at hran
    cases how <;> simp [onTick, hran, Moment.text, Moment.echo, Moment.reports, Moment.next,
      Moment.ticks, Moment.stop?, Moment.polled, Moment.stepped, Moment.journal]

lemma passthroughJournal_runs (data : List UInt8) (node : Address) :
    (passthroughJournal data).runs node = [] := by
  unfold passthroughJournal
  split
  · rfl
  · rw [Journal.runs_append, Journal.runs_count, Journal.runs_note_of_level (by decide)]
    rfl

lemma drained_trace {h : Handling} {xs : List Moment} (ht : s.Tells xs h)
    (halt : Option HaltReason) : Trace s xs (drained s.ticks h halt).session := by
  have hdrain := ht.trace.append (.drained (.nil _))
  rwa [List.append_nil] at hdrain

theorem turn_trace (s : Session) (e : SessionEvent) : Trace s (s.moments e) (s.turn e).session := by
  cases e with
  | tick =>
    rw [turn, onTick_eq]
    exact .moment (.nil _)
  | serial bytes =>
    have ht := handleBytes_tells s bytes
    simp only [turn, onSerial]
    split
    · exact drained_trace ht none
    · exact drained_trace ht _
    · exact ht.trace

theorem turn_text {e : SessionEvent} {o : SessionOutput} (h : (s.turn e).output = .ok o) :
    o.reply = String.join ((s.moments e).map Moment.text) ∧
      o.data = (s.moments e).flatMap Moment.payload := by
  cases e with
  | tick =>
    rw [turn, onTick_eq] at h
    simp only at h
    split at h
    · cases h
      exact ⟨by simp [moments], rfl⟩
    · cases h
      exact ⟨by simp [moments], rfl⟩
    · cases h
  | serial bytes =>
    have ht := handleBytes_tells s bytes
    simp only [turn, onSerial] at h
    split at h
    · cases h
      exact ⟨ht.reply, ht.data⟩
    · cases h
      exact ⟨ht.reply, ht.data⟩
    · cases h

lemma serial_relay {bytes : List UInt8} {o : SessionOutput}
    (h : (s.turn (.serial bytes)).output = .ok o) :
    (s.turn (.serial bytes)).session.node.relay = .empty := by
  simp only [turn, onSerial] at h ⊢
  split
  · rfl
  · rfl
  · next hstop =>
    rw [hstop] at h
    cases h

theorem turn_runs (s : Session) (e : SessionEvent) (node : Address) :
    (s.turn e).journal.runs node = (s.moments e).flatMap fun x => x.journal.runs node := by
  cases e with
  | tick =>
    rw [turn, onTick_eq]
    simp [moments]
  | serial bytes =>
    have ht := handleBytes_tells s bytes
    simp only [turn, onSerial]
    split
    · simp [drained, passthroughJournal_runs, ht.runs, moments]
    · simp [drained, passthroughJournal_runs, ht.runs, moments]
    · exact ht.runs node

/-- A turn handles all its bytes, or stops in one of its moments. -/
theorem turn_cases (s : Session) (e : SessionEvent) :
    (∃ o, (s.turn e).output = .ok o ∧ o.halt = none ∧
      (s.moments e).map Moment.signal = e.signals ∧ ∀ x ∈ s.moments e, x.stop? = none) ∨
    (∃ x ∈ s.moments e, ∃ reason o, x.stop? = some (.halted reason) ∧
      (s.turn e).output = .ok o ∧ o.halt = some reason) ∨
    ∃ x ∈ s.moments e, ∃ message, x.stop? = some (.crashed message) ∧
      (s.turn e).output = .error message := by
  cases e with
  | tick =>
    have hx : Moment.mk s .tick ∈ s.moments .tick := List.mem_singleton.mpr rfl
    simp only [turn, onTick_eq]
    cases hstop : Moment.stop? ⟨s, .tick⟩ with
    | none => exact .inl ⟨_, rfl, rfl, rfl, fun x h => by rwa [List.mem_singleton.mp h]⟩
    | some how =>
      cases how with
      | halted reason => exact .inr (.inl ⟨_, hx, reason, _, hstop, rfl, rfl⟩)
      | crashed message => exact .inr (.inr ⟨_, hx, message, hstop, rfl⟩)
  | serial bytes =>
    simp only [turn, onSerial]
    cases hstop : (handleBytes s.modem s.node bytes).stop with
    | none =>
      obtain ⟨hsignals, hnone⟩ := handleBytes_finished hstop
      exact .inl ⟨_, rfl, rfl, hsignals, hnone⟩
    | some how =>
      obtain ⟨x, hx, hs⟩ := handleBytes_stopped hstop
      cases how with
      | halted reason => exact .inr (.inl ⟨x, hx, reason, _, hs, rfl, rfl⟩)
      | crashed message => exact .inr (.inr ⟨x, hx, message, hs, rfl⟩)

/-- A session whose node reports its halts gives an output for every event. -/
lemma turn_returns (hn : s.node.onHalt = .report) (e : SessionEvent) :
    ∃ o, (s.turn e).output = .ok o := by
  rcases s.turn_cases e with ⟨o, ho, -⟩ | ⟨-, -, -, o, -, ho, -⟩ | ⟨x, hx, message, hcrash, -⟩
  · exact ⟨o, ho⟩
  · exact ⟨o, ho⟩
  · have hreport : x.session.node.onHalt = .report := by
      rw [((s.turn_trace e).node.2 x hx).2, hn]
    obtain ⟨reason, hhow⟩ := Moment.stop_halted hreport hcrash
    cases hhow

lemma byteMoments_signals (s : Session) (bytes : List UInt8) :
    (s.byteMoments bytes).map Moment.signal <+: bytes.map Signal.byte := by
  induction s, bytes using bytes_induct with
  | nil s => exact List.prefix_refl _
  | stop s byte bytes how hstop =>
    rw [byteMoments_stop hstop]
    exact ⟨bytes.map Signal.byte, rfl⟩
  | go s byte bytes hstop ih =>
    rw [byteMoments_go hstop, List.map_cons, List.map_cons]
    exact (List.prefix_cons_inj _).mpr ih

lemma moments_signals (s : Session) (e : SessionEvent) :
    (s.moments e).map Moment.signal <+: e.signals := by
  cases e with
  | serial bytes => exact s.byteMoments_signals bytes
  | tick => exact List.prefix_refl _

lemma moments_all {e : SessionEvent} (h : ∀ x ∈ s.moments e, x.stop? = none) :
    (s.moments e).map Moment.signal = e.signals := by
  rcases s.turn_cases e with ⟨-, -, -, hsignals, -⟩ | ⟨x, hx, reason, -, hstop, -⟩ |
    ⟨x, hx, message, hstop, -⟩
  · exact hsignals
  · cases (h x hx).symm.trans hstop
  · cases (h x hx).symm.trans hstop

/-! ### Whole runs -/

lemma ofConfiguration_ok {c : Configuration} (h : ofConfiguration c = .ok s) :
    ∃ node, Node.ofConfiguration c = .ok node ∧ s = ofParts (.ofSettings c.modem) node := by
  obtain ⟨node, hn, h⟩ := bind_ok h
  cases h
  exact ⟨node, hn, rfl⟩

/-- A node with a watchdog, a guard window of one tick and lines of six characters. -/
def alert : Configuration := { Configuration.standard with modem := ⟨6, 1, ⟨false, true⟩⟩ }

lemma reachable_ofConfiguration {c : Configuration} (h : ofConfiguration c = .ok s) :
    s.Reachable := by
  obtain ⟨node, -, rfl⟩ := ofConfiguration_ok h
  exact .fresh c.modem node

theorem history_trace (s : Session) (es : List SessionEvent) :
    Trace s (s.history es) (s.after es) := by
  induction es generalizing s with
  | nil => exact .nil s
  | cons e es ih => exact (turn_trace s e).append (ih _)

lemma Reachable.after (h : s.Reachable) (es : List SessionEvent) : (s.after es).Reachable := by
  induction es generalizing s with
  | nil => exact h
  | cons e es ih => exact ih (h.turn e)

end Session

theorem Session.Reachable.sound {s : Session} (h : s.Reachable) : s.modem.Sound := by
  induction h with
  | fresh settings node => exact Modem.sound_ofSettings settings
  | turn e h ih => exact ((turn_trace _ e).sound ih).1

end RadioModem
