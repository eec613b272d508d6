import RadioModem.Proofs.Chunks
import RadioModem.Proofs.Stream

/-!
# Reports once per second

Ticks are counted in 32 bits, and the test reports come out where the count ends a second. The
number of counts is no whole number of seconds, so the reports keep their pace up to the tick on
which the count starts over, and lose it there.
-/
namespace RadioModem

/-- The event returned, and the board goes on. -/
def Turn.goesOn (t : Turn) : Bool :=
  match t.output with
  | .ok o => o.halt.isNone
  | .error _ => false

/-- How many ticks are in a run. -/
def tickCount (es : List SessionEvent) : Nat := es.count .tick

lemma tickCount_append (es fs : List SessionEvent) :
    tickCount (es ++ fs) = tickCount es + tickCount fs := List.count_append

lemma tickCount_ticks (n : Nat) : tickCount (.replicate n .tick) = n := List.count_replicate_self

namespace Session
variable {s : Session}

lemma after_append (s : Session) (es fs : List SessionEvent) :
    s.after (es ++ fs) = (s.after es).after fs := by
  induction es generalizing s with
  | nil => rfl
  | cons e es ih => exact ih _

lemma turns_append (s : Session) (es fs : List SessionEvent) :
    s.turns (es ++ fs) = s.turns es ++ (s.after es).turns fs := by
  induction es generalizing s with
  | nil => rfl
  | cons e es ih => exact congrArg _ (ih _)

/-! ### The count of ticks -/

lemma stop?_of_goesOn (h : s.onTick.goesOn = true) : Moment.stop? ⟨s, .tick⟩ = none := by
  cases hstop : Moment.stop? ⟨s, .tick⟩ with
  | none => rfl
  | some how =>
    rw [onTick_eq] at h
    cases how <;> simp [Turn.goesOn, hstop] at h

lemma onTick_ticks (h : s.onTick.goesOn = true) : s.onTick.session.ticks = s.ticks + 1 := by
  rw [onTick_eq]
  simp [Moment.next, Moment.ticks, stop?_of_goesOn h]

lemma onSerial_ticks (s : Session) (bytes : List UInt8) :
    (s.onSerial bytes).session.ticks = s.ticks := by
  simp only [onSerial]
  split <;> rfl

theorem after_ticks {es : List SessionEvent} (h : ∀ t ∈ s.turns es, t.goesOn = true) :
    (s.after es).ticks = s.ticks + UInt32.ofNat (tickCount es) := by
  induction es generalizing s with
  | nil => exact (UInt32.add_zero _).symm
  | cons e es ih =>
    obtain ⟨hfirst, hrest⟩ := List.forall_mem_cons.mp h
    rw [after, ih hrest]
    cases e with
    | serial bytes =>
      have hother : SessionEvent.serial bytes ≠ .tick := nofun
      have hcount : tickCount (.serial bytes :: es) = tickCount es := List.count_cons_of_ne hother
      rw [turn, onSerial_ticks, hcount]
    | tick =>
      have hcount : tickCount (.tick :: es) = tickCount es + 1 := List.count_cons_self
      rw [turn, onTick_ticks hfirst, hcount, Nat.add_comm, UInt32.ofNat_add, ← UInt32.add_assoc]
      rfl

/-! ### The reports of a tick -/

/-- The tick answers an escape if it completes one, and has the reports that are on behind it if it
ends a second as the k-th of its run. -/
def OnTime (s : Session) (k : Nat) : Prop :=
  s.onTick.output = .ok
    ⟨(Moment.polled ⟨s, .tick⟩).reply ++
      (if ticksPerSecond.toNat ∣ k then s.onTick.session.testReports else ""), [], [], none⟩

lemma onTime_of_goesOn (h : s.onTick.goesOn = true) : s.OnTime (s.ticks + 1).toNat := by
  have hstop := stop?_of_goesOn h
  have hdue : s.onTick.session.reportsDue = true ↔
      ticksPerSecond.toNat ∣ (s.ticks + 1).toNat := by
    rw [reportsDue, onTick_ticks h, beq_iff_eq, Nat.dvd_iff_mod_eq_zero, ← UInt32.toNat_mod,
      ← UInt32.toNat_inj]
    rfl
  rw [OnTime]
  simp only [← hdue]
  rw [onTick_eq]
  simp [hstop, Moment.text, Moment.echo, Moment.reports]

lemma testReports_eq_empty_iff : s.testReports = "" ↔ ∀ f, s.modem.tests.has f = false := by
  rw [testReports_eq, frames_eq_empty_iff, reportTexts, List.append_eq_nil_iff]
  constructor
  · rintro ⟨hsignal, htiming⟩ f
    cases f with
    | rssi => simpa using hsignal
    | tdm => simpa [LinkSettings.timingTexts] using htiming
  · intro h
    simp [h]

/-- Another number for the same tick makes no difference if it ends a second with the first one, or
if no report is on behind the tick. -/
lemma OnTime.iff {k l : Nat} (h : s.OnTime k) :
    s.OnTime l ↔ (ticksPerSecond.toNat ∣ l ↔ ticksPerSecond.toNat ∣ k) ∨
      ∀ f, s.onTick.session.modem.tests.has f = false := by
  rw [OnTime] at h ⊢
  rw [h, ← testReports_eq_empty_iff, Except.ok.injEq, SessionOutput.mk.injEq,
    String.append_right_inj]
  by_cases hk : ticksPerSecond.toNat ∣ k <;> by_cases hl : ticksPerSecond.toNat ∣ l
  · simp [hk, hl]
  · simp [hk, hl]
  · simp only [hk, hl, if_true, if_false, and_true, true_iff, false_or]
    exact eq_comm
  · simp [hk, hl]

/-! ### Ticks on which nothing runs -/

/-- No line waits, and no window is running. -/
structure Resting (s : Session) : Prop where
  idle : s.modem.ready = false
  ended : s.modem.escape.countdown = 0

lemma Resting.skip (h : s.Resting) (ticks : Nat) : (s.skip ticks).Resting := ⟨h.idle, h.ended⟩

lemma skip_skip (s : Session) (a b : Nat) : (s.skip a).skip b = s.skip (a + b) := by
  simp [Session.skip, UInt32.ofNat_add, UInt32.add_assoc]

lemma Resting.onTick_eq (h : s.Resting) :
    s.onTick = ⟨s.skip 1,
      .ok ⟨if (s.skip 1).reportsDue then s.testReports else "", [], [], none⟩, .empty⟩ := by
  have hwindow : s.modem.escape.elapses = false := by simp [EscapeDetector.elapses, h.ended]
  have hescape : s.modem.escape.onTick = s.modem.escape := by
    rw [EscapeDetector.onTick, if_neg (by simp [hwindow]), h.ended, Nat.zero_sub, ← h.ended]
  have hquiet : s.modem.onTick s.node = ⟨s.modem, s.node, .empty⟩ := by
    rw [Modem.onTick_quiet (by simp [EscapeDetector.fires, hwindow]), hescape,
      EscapeDetector.tickJournal, hwindow]
    rfl
  simp only [onTick, hquiet, Modem.poll_idle h.idle]
  simp [Session.skip, testReports]

/-- Nothing but the count of ticks moves while a session rests. -/
theorem Resting.after_ticks (h : s.Resting) (n : Nat) :
    s.after (.replicate n .tick) = s.skip n := by
  induction n generalizing s with
  | zero => simp [after, Session.skip]
  | succ n ih =>
    rw [List.replicate_succ, after, turn, h.onTick_eq, ih (h.skip 1), skip_skip, Nat.add_comm]

lemma Resting.turns_ticks (h : s.Resting) (n : Nat) :
    s.turns (.replicate n .tick) = (List.range n).map fun i => (s.skip i).onTick := by
  induction n with
  | zero => rfl
  | succ n ih =>
    rw [List.replicate_succ', turns_append, ih, h.after_ticks, List.range_succ, List.map_append]
    rfl

lemma Resting.ticks_goOn (h : s.Resting) (n : Nat) :
    ∀ t ∈ s.turns (.replicate n .tick), t.goesOn = true := by
  rw [h.turns_ticks]
  simp [fun i => (h.skip i).onTick_eq, Turn.goesOn]

lemma isStill_iff : s.isStill = true ↔ s.Resting ∧ ∀ f, s.modem.tests.has f = false := by
  have hall : (TestFlag.all.all fun f => !s.modem.tests.has f) = true ↔
      ∀ f, s.modem.tests.has f = false := by
    refine ⟨fun h f => ?_, fun h => by simp [h]⟩
    simpa using List.all_eq_true.mp h f (by cases f <;> decide)
  rw [isStill, Bool.and_eq_true, Bool.and_eq_true, hall, Bool.not_eq_true', beq_iff_eq]
  exact and_congr_left fun _ => ⟨fun h => ⟨h.1, h.2⟩, fun h => ⟨h.idle, h.ended⟩⟩

/-- The ticks of a still session can be skipped: they write nothing and note nothing down. -/
theorem still_ticks (h : s.isStill = true) (n : Nat) :
    s.after (.replicate n .tick) = s.skip n ∧
      s.turns (.replicate n .tick) =
        (List.range n).map fun i => ⟨s.skip (i + 1), .ok ⟨"", [], [], none⟩, .empty⟩ := by
  obtain ⟨hresting, hoff⟩ := isStill_iff.mp h
  refine ⟨hresting.after_ticks n, ?_⟩
  rw [hresting.turns_ticks]
  refine List.map_congr_left fun i _ => ?_
  have hsilent : (s.skip i).testReports = "" := testReports_eq_empty_iff.mpr hoff
  rw [(hresting.skip i).onTick_eq, skip_skip, hsilent, ite_self]

/-! ### The pace of the reports -/

/-- Every tick of a run has the reports behind it if its number, counted from one, ends a second. -/
def KeepsPace (s : Session) (es : List SessionEvent) : Prop :=
  ∀ pre post, es = pre ++ .tick :: post → (s.after pre).OnTime (tickCount pre + 1)

/-- A tick is on time by its number in the run, taken modulo the size of the count. -/
lemma onTime_of_turns {pre post : List SessionEvent} (hfresh : s.ticks = 0)
    (h : ∀ t ∈ s.turns (pre ++ .tick :: post), t.goesOn = true) :
    (s.after pre).OnTime ((tickCount pre + 1) % UInt32.size) := by
  rw [turns_append] at h
  obtain ⟨hpre, hpost⟩ := List.forall_mem_append.mp h
  have hnumber : (s.after pre).ticks + 1 = UInt32.ofNat (tickCount pre + 1) := by
    rw [after_ticks hpre, hfresh, UInt32.ofNat_add]
    exact congrArg (· + 1) (UInt32.zero_add _)
  have htick := onTime_of_goesOn (List.forall_mem_cons.mp hpost).1
  rwa [hnumber, UInt32.toNat_ofNat'] at htick

/-- Ticks are numbered modulo the size of the count. So the reports come once per second exactly if
none is on at a tick that ends a second by one number and not by the other. -/
theorem reports_keep_pace_iff (settings : ModemSettings) (node : Node) (es : List SessionEvent)
    (h : ∀ t ∈ (ofParts (.ofSettings settings) node).turns es, t.goesOn = true) :
    let s := ofParts (.ofSettings settings) node
    (∀ pre post, es = pre ++ .tick :: post →
      (s.after pre).OnTime ((tickCount pre + 1) % UInt32.size)) ∧
    (s.KeepsPace es ↔ ∀ pre post, es = pre ++ .tick :: post →
      (ticksPerSecond.toNat ∣ tickCount pre + 1 ↔
        ticksPerSecond.toNat ∣ (tickCount pre + 1) % UInt32.size) ∨
      ∀ f, (s.after (pre ++ [.tick])).modem.tests.has f = false) ∧
    (tickCount es < UInt32.size → s.KeepsPace es) := by
  intro s
  have hlaw : ∀ pre post, es = pre ++ .tick :: post →
      (s.after pre).OnTime ((tickCount pre + 1) % UInt32.size) := by
    rintro pre post rfl
    exact onTime_of_turns rfl h
  refine ⟨hlaw, ?_, fun hbound pre post hes => ?_⟩
  · refine forall₃_congr fun pre post hes => ?_
    rw [after_append]
    exact (hlaw pre post hes).iff
  · have hearly : tickCount pre + 1 < UInt32.size := by
      refine lt_of_le_of_lt ?_ hbound
      simp [hes, tickCount]
    simpa only [Nat.mod_eq_of_lt hearly] using hlaw pre post hes

/-- The standard configuration with a guard window of one tick. -/
def brisk : Configuration := { Configuration.standard with modem := ⟨defaultCapacity, 1, .basic⟩ }

/-- Command mode is entered on the second tick, and the signal report is switched on. -/
def reporting : List SessionEvent := commanding ++ [.serial "AT&T=RSSI\r".toUTF8.toList]

def firstSecond : List SessionEvent := reporting ++ .replicate 98 .tick

def signalLine : String := "[0] L/R RSSI: 180/175  L/R noise: 40/42 pkts: 0\n"

theorem reports_keep_pace_first_second : ∃ s, ofConfiguration brisk = .ok s ∧
    (∀ t ∈ s.turns firstSecond, t.goesOn = true) ∧ s.KeepsPace firstSecond ∧
    (s.turns firstSecond).getLast?.map Turn.output = some (.ok ⟨signalLine, [], [], none⟩) :=
  ⟨_, rfl, by decide +kernel,
    (reports_keep_pace_iff _ _ _ (by decide +kernel)).2.2 (by decide +kernel), by decide +kernel⟩

/-- Command mode is entered, and a session rests there until the count is about to start over. -/
def rested : List SessionEvent := commanding ++ [.tick] ++ .replicate 4294967187 .tick

/-- Then the signal report is switched on, and so many ticks follow. -/
def overrun (ticks : Nat) : List SessionEvent :=
  rested ++ .serial "AT&T=RSSI\r".toUTF8.toList :: .replicate ticks .tick

lemma overrun_succ (ticks : Nat) : overrun (ticks + 1) = overrun ticks ++ [.tick] := by
  rw [overrun, overrun, List.replicate_succ', List.append_assoc, List.cons_append]

/-- The 106th tick behind the request starts the count over, and has a report behind it that is out
of pace. -/
theorem reports_lose_pace :
    ¬∀ (settings : ModemSettings) (node : Node) (es : List SessionEvent),
      (∀ t ∈ (ofParts (.ofSettings settings) node).turns es, t.goesOn = true) →
        (ofParts (.ofSettings settings) node).KeepsPace es := by
  intro h
  obtain ⟨s, hs⟩ : ∃ s, ofConfiguration brisk = .ok s := ⟨_, rfl⟩
  have hstill : (s.after (commanding ++ [.tick])).isStill = true := by cases hs; decide +kernel
  have hresting := (isStill_iff.mp hstill).1
  -- The long rest is no computation: it is skipped.
  let late := (s.after (commanding ++ [.tick])).skip 4294967187
  have hlate : s.after rested = late := by rw [rested, after_append, hresting.after_ticks]
  have hgoes : ∀ t ∈ s.turns (overrun 106), t.goesOn = true := by
    rw [overrun, turns_append, hlate, rested, turns_append]
    refine List.forall_mem_append.mpr
      ⟨List.forall_mem_append.mpr ⟨?_, hresting.ticks_goOn _⟩, ?_⟩
    · cases hs
      decide +kernel
    · cases hs
      decide +kernel
  have hnumber : tickCount (overrun 105) + 1 = UInt32.size := by
    rw [overrun, rested, tickCount_append, tickCount_append, tickCount_ticks]
    decide +kernel
  have hpace : (s.after (overrun 105)).OnTime UInt32.size := by
    rw [← hnumber]
    cases hs
    exact h _ _ _ hgoes _ _ (overrun_succ 105)
  rw [overrun, after_append, hlate, OnTime] at hpace
  revert hpace
  cases hs
  decide +kernel

end Session

end RadioModem
