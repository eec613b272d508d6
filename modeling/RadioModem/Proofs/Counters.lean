import Mathlib.Algebra.BigOperators.Group.List.Basic
import RadioModem.Proofs.Chunks
import RadioModem.Proofs.Relay
import RadioModem.Proofs.Stream
import RadioModem.Proofs.Watchdog

/-!
# What a run counts

Every counter but one moves in single steps, so a moment is told by the list of the counters that
it moves, and a run by these lists in a row. The bytes of data are counted once for each event.
-/
namespace RadioModem

def Family.all : List Family := [attention, ampersand, plus, info, pin, register, online, reset]

def Reach.all : List Reach := [broadcast, node]

namespace Request

/-- What a line is counted as once it has been read. -/
def heading : Request → List Counter
  | remote (.ok d) _ => [.relayed d.reach]
  | here (.ok command) => [.commands command.family]
  | _ => []

/-- The counters that a line moves. -/
def counters (f : Features) (n : Node) (r : Request) : List Counter :=
  r.heading ++ if (r.refusal? f n).isSome then [.errors] else []

/-- The line is a command of this node. -/
def isCommand : Request → Bool
  | here (.ok _) => true
  | _ => false

/-- The line leaves command mode. -/
def leaves : Request → Bool
  | here (.ok .online) => true
  | _ => false

/-- The line asks for words of the configuration, which may read like a verdict. -/
def asksWords : Request → Bool
  | here (.ok (.info .banner)) | here (.ok (.info .version)) => true
  | _ => false

variable {f : Features} {n : Node} {r : Request}

lemma count_heading {c : Counter} (hrelayed : ∀ target, c ≠ .relayed target)
    (hcommands : ∀ family, c ≠ .commands family) : r.heading.count c = 0 := by
  rw [List.count_eq_zero]
  intro hmem
  unfold heading at hmem
  split at hmem
  · exact hrelayed _ (List.mem_singleton.mp hmem)
  · exact hcommands _ (List.mem_singleton.mp hmem)
  · cases hmem

lemma count_counters {c : Counter} (hc : c ≠ .errors) :
    (r.counters f n).count c = r.heading.count c := by
  rw [counters, List.count_append, Nat.add_eq_left]
  split
  · exact List.count_singleton.trans (if_neg (by simpa using hc.symm))
  · rfl

lemma count_errors : (r.counters f n).count .errors = (r.refusal? f n).isSome.toNat := by
  rw [counters, List.count_append, count_heading (c := .errors) nofun nofun]
  cases (r.refusal? f n).isSome <;> rfl

/-- What is no business of a line is not counted for it. -/
lemma count_other {c : Counter} (hrelayed : ∀ target, c ≠ .relayed target)
    (hcommands : ∀ family, c ≠ .commands family) (herrors : c ≠ .errors) :
    (r.counters f n).count c = 0 :=
  (count_counters herrors).trans (count_heading hrelayed hcommands)

lemma sum_commands :
    (Family.all.map fun family => (r.counters f n).count (.commands family)).sum =
      r.isCommand.toNat := by
  have hheading : ∀ family, (r.counters f n).count (.commands family) =
      r.heading.count (.commands family) := fun _ => count_counters nofun
  simp only [hheading]
  cases r with
  | ignored => rfl
  | remote destination command => cases destination <;> rfl
  | here command =>
    cases command with
    | error refusal => rfl
    | ok command =>
      simp only [heading, isCommand]
      generalize command.family = family
      cases family <;> rfl

lemma count_online :
    (r.counters f n).count (.commands .online) = r.leaves.toNat := by
  rw [count_counters (c := .commands .online) nofun]
  cases r with
  | ignored => rfl
  | remote destination command => cases destination <;> rfl
  | here command =>
    cases command with
    | error refusal => rfl
    | ok command => cases command <;> rfl

lemma sum_relayed :
    (Reach.all.map fun target => (r.counters f n).count (.relayed target)).sum =
      r.relayed.length := by
  have hheading : ∀ target, (r.counters f n).count (.relayed target) =
      r.heading.count (.relayed target) := fun _ => count_counters nofun
  simp only [hheading]
  cases r with
  | ignored => rfl
  | here command => cases command <;> rfl
  | remote destination command =>
    cases destination with
    | error refusal => rfl
    | ok d => cases d <;> rfl

lemma refusal?_of_asksWords (h : r.asksWords = true) : r.refusal? f n = none := by
  unfold asksWords at h
  split at h
  · rfl
  · rfl
  · cases h

/-- `ERROR` is answered where a line is refused, words of the configuration apart. -/
lemma frames_error_iff {node : Address} (h : r.asksWords = false) :
    frames node (r.texts f n) = frame node errorText ↔ (r.refusal? f n).isSome = true := by
  have hplain : ∀ query, r = here (.ok (.info query)) → ¬query.Worded := by
    rintro query rfl (rfl | rfl)
    · cases h
    · cases h
  have hunbroken : ∀ text ∈ r.texts f n, Unbroken text :=
    texts_unbroken fun query hquery hworded => absurd hworded (hplain query hquery)
  have herror : ∀ text ∈ [errorText], Unbroken text := by decide
  obtain ⟨-, -, hrefused⟩ := texts_verdict (f := f) (n := n) hplain
  rw [← frames_singleton, Option.isSome_iff_exists, ← hrefused]
  constructor
  · intro hframes
    rw [frames_inj hunbroken herror hframes]
    exact List.mem_singleton.mpr rfl
  · intro hmem
    obtain ⟨refusal, hr⟩ := hrefused.mp hmem
    rw [texts_refused hr]

end Request

namespace Journal
variable {c : Counter}

lemma total_of_counts {j : Journal} (h : j.counts = []) : j.total c = 0 := by rw [total, h]; rfl

lemma total_one (c d : Counter) : (count c 1).total d = [c].count d := by
  simp only [total_count, List.count_singleton, beq_iff_eq]

end Journal

/-! ### Lines -/

namespace Node
variable {f : Features} {n : Node} {t : TestMode} {c : Counter}

open Dispatch

lemma lockJournal_counts (n : Node) : n.lockCalibration.2.2.counts = [] := by
  cases ha : n.calibration with
  | none => simp only [lockCalibration, ha]; rfl
  | some area =>
    simp only [lockCalibration, ha, Calibration.lockJournal]
    split <;> rfl

lemma extended_counts (request : Extended) : (extended f n request).journal.counts = [] := by
  unfold extended
  split
  · cases request with
    | power pwm => rfl
    | readChannel channel =>
      simp only [withCalibration]
      split <;> rfl
    | writeChannel channel value =>
      simp only [withCalibration]
      split
      · rw [judged_journal]
        rfl
      · rfl
    | lockCalibration =>
      simp only [withCalibration]
      split
      · exact lockJournal_counts n
      · rfl
  · rfl

lemma halt_counts (n : Node) (reason : HaltReason) : (n.halt reason).2.counts = [] := by
  unfold halt
  split <;> rfl

lemma failed_total (hc : c ≠ .errors) (r : Refusal) {journal : Journal}
    (hj : journal.counts = []) : (failed n t r journal).journal.total c = 0 := by
  simp only [failed, Journal.total_append, Journal.total_note, Journal.total_count,
    Journal.total_of_counts hj, if_neg hc.symm]

/-- Errors apart, what is counted for a line that is run is counted before it is run. -/
lemma settled_total {a : Attempt (Handled Node)} (hc : c ≠ .errors)
    (hj : ∀ h, a = .ok h → h.journal.counts = []) : (settled n t a).journal.total c = 0 := by
  cases a with
  | error how => rfl
  | ok h =>
    have hnone := hj h rfl
    obtain ⟨b, answer, journal⟩ := h
    cases answer with
    | ok text => exact Journal.total_of_counts hnone
    | error r => exact failed_total hc r hnone

lemma execute_total (hc : c ≠ .errors) (command : Command) :
    (execute f n t command).journal.total c = 0 := by
  cases command with
  | attention | factoryReset | save | online => rfl
  | testMode change => rfl
  | forceUpdate | reset => exact Journal.total_of_counts (halt_counts n _)
  | extended request =>
    refine settled_total hc fun h he => ?_
    cases he
    exact extended_counts request
  | info query => exact settled_total hc fun h he => by rw [(info_reads he).2]; rfl
  | pinList => exact settled_total hc fun h he => by rw [(pinList_reads he).2]; rfl
  | pin index action => exact settled_total hc fun h he => by rw [(pin_cases he).1]; rfl
  | readRegister index => exact settled_total hc fun h he => by rw [(readRegister_reads he).2]; rfl
  | writeRegister index value =>
    exact settled_total hc fun h he => by rw [(writeRegister_cases he).1]; rfl

lemma answer_total (hc : c ≠ .errors) (r : Request) :
    (answer f n t r).journal.total c = r.heading.count c := by
  cases r with
  | ignored => rfl
  | remote destination command =>
    cases destination with
    | error r => rfl
    | ok d =>
      have hforward : (n.relay.forwardJournal d command).counts = [] := by
        rw [RelayQueue.forwardJournal, Journal.counts_append, dropJournal_counts]
        rfl
      have hquiet := Journal.total_of_counts (c := c) hforward
      simp only [answer, Dispatch.relay, Board.forward, Journal.total_append, hquiet, Journal.total_one]
      rfl
  | here command =>
    cases command with
    | error r => exact failed_total hc r rfl
    | ok command =>
      simp only [answer, Journal.total_append, execute_total hc, Journal.total_one]
      rfl

/-- What a line counts is told from the line and the node. -/
theorem run_total (f : Features) (n : Node) (t : TestMode) (line : String) (c : Counter) :
    (Dispatch.run f n t line).journal.total c = ((Request.parse line).counters f n).count c := by
  by_cases hc : c = .errors
  · rw [hc, (run_answered f n t line).errors, Request.count_errors]
    cases ((Request.parse line).refusal? f n).isSome <;> rfl
  · rw [Request.count_counters hc, ← answer_total hc]
    exact (Journal.total_append _ _ c).trans (Nat.zero_add _)

end Node

/-! ### Moments -/

namespace Modem
variable {m : Modem} {n : Node} {c : Counter}

lemma watchdog_total (m : Modem) (n : Node) (enabled : Bool) :
    (m.watchdog n enabled).2.total c = 0 := by
  unfold watchdog
  split <;> rfl

lemma byteJournal_total (d : EscapeDetector) (byte : UInt8) : (d.byteJournal byte).total c = 0 := by
  unfold EscapeDetector.byteJournal
  split <;> rfl

lemma key_total (l : LineBuffer) (byte : UInt8) : (l.key byte).journal.total c = 0 := by
  have hstruck := l.key_struck byte
  generalize l.key byte = k at hstruck
  cases hstruck with
  | ended | erased | passed | added => rfl
  | overflowed => exact Journal.total_note _ _ _

lemma onTick_total (m : Modem) (n : Node) (c : Counter) :
    (m.onTick n).journal.total c = (if m.escape.fires then [Counter.escapes] else []).count c := by
  unfold onTick enterCommandMode
  split
  · simp only [Journal.total_append, Journal.total_note, Journal.total_one, watchdog_total,
      Nat.zero_add, Nat.add_zero]
  · unfold EscapeDetector.tickJournal
    split <;> rfl

lemma Polled.total {p : PollStep Node} (h : Polled m n p) (c : Counter) :
    p.journal.total c =
      if m.ready then ((Request.parse m.text).counters m.features n).count c else 0 := by
  have hrun : (m.outcome n).journal.total c =
      ((Request.parse m.text).counters m.features n).count c := Node.run_total _ _ _ _ _
  cases h with
  | idle hr => rw [hr]; rfl
  | stopped hr | stayed hr => rw [hr, if_pos rfl, hrun]
  | left hr =>
    rw [hr, if_pos rfl, ← hrun]
    simp only [Journal.total_append, watchdog_total, Journal.total_note, Nat.add_zero]

lemma outcome_leaves (h : (Request.parse m.text).leaves = true) :
    (m.outcome n).effect = .leaveCommandMode := by
  simp only [outcome, Dispatch.run]
  generalize Request.parse m.text = r at h
  unfold Request.leaves at h
  split at h
  · rfl
  · cases h

/-- A line that is counted as leaving command mode leaves it. -/
lemma Polled.balance {p : PollStep Node} (h : Polled m n p)
    (hmode : m.ready = true → m.commandMode = true) :
    p.journal.total (.commands .online) + p.modem.commandMode.toNat ≤ m.commandMode.toNat := by
  have hmono : p.modem.commandMode.toNat ≤ m.commandMode.toNat := by
    cases hp : p.modem.commandMode with
    | false => exact Nat.zero_le _
    | true => rw [h.commandMode hp]
  rw [h.total, Request.count_online]
  cases hr : m.ready with
  | false => rwa [if_neg Bool.false_ne_true, Nat.zero_add]
  | true =>
    rw [if_pos rfl]
    cases hleaves : (Request.parse m.text).leaves with
    | false => rwa [Bool.toNat_false, Nat.zero_add]
    | true =>
      have heffect := outcome_leaves (n := n) hleaves
      have hleft : p.modem.commandMode = false := by
        cases h with
        | left => rfl
        | idle hidle => cases hidle.symm.trans hr
        | stopped _ he | stayed _ he => cases he.symm.trans heffect
      rw [hleft, hmode hr]
      exact Nat.le_refl _

end Modem

namespace Moment
variable {x : Moment}

/-- The counters that the line of a moment moves. -/
def lineCounters (x : Moment) : List Counter :=
  x.line?.elim [] fun line =>
    (Request.parse line).counters x.stepped.modem.features x.stepped.board

/-- The counters that a moment moves, once each. -/
def counters (x : Moment) : List Counter :=
  (if x.overflows then [.overflows] else []) ++ (if x.escapes then [.escapes] else []) ++
    x.lineCounters

/-- The moment runs a line that is a command of this node. -/
def runsCommand (x : Moment) : Bool := x.line?.any fun line => (Request.parse line).isCommand

/-- The moment runs a line, and answers it by `ERROR`: by the verdict, and not by a word of the
configuration that has been asked for and reads so. -/
def answersError (x : Moment) : Bool :=
  x.line?.any fun line => !(Request.parse line).asksWords &&
    x.polled.reply == frame x.session.node.identity.node errorText

lemma stepped_total (x : Moment) (c : Counter) :
    x.stepped.journal.total c =
      (if x.overflows then [Counter.overflows] else []).count c +
        (if x.escapes then [Counter.escapes] else []).count c := by
  obtain ⟨s, signal⟩ := x
  cases signal with
  | byte byte =>
    have hreceived := Modem.onByte_received s.modem byte
    simp only [stepped, overflows, escapes]
    generalize s.modem.onByte byte = step at hreceived
    cases hreceived with
    | data hc => simp [hc, Modem.byteJournal_total]
    | waiting hc hr => simp [hc, hr, Modem.byteJournal_total]
    | ended hc hr hb => simp [hc, hr, hb, Modem.byteJournal_total, LineBuffer.key_return]
    | typed hc hr he => simp [hc, hr, he, Modem.byteJournal_total, Modem.key_total]
    | overflowed hc hr he => simp [hc, hr, he, Modem.byteJournal_total, Modem.key_total, Journal.total_one]
  | tick =>
    rw [stepped, Modem.onTick_total]
    exact (Nat.zero_add _).symm

theorem journal_total (x : Moment) (c : Counter) : x.journal.total c = x.counters.count c := by
  have hpolled := (Modem.poll_polled x.stepped.modem x.stepped.board).total c
  rw [journal, Journal.total_append, stepped_total, counters, List.count_append, List.count_append,
    polled, hpolled, lineCounters, line?]
  cases x.stepped.modem.ready <;> rfl

/-- What is no business of a line is not counted with the line of a moment. -/
lemma count_lineCounters (x : Moment) {c : Counter} (hrelayed : ∀ target, c ≠ .relayed target)
    (hcommands : ∀ family, c ≠ .commands family) (herrors : c ≠ .errors) :
    x.lineCounters.count c = 0 := by
  unfold lineCounters
  cases x.line? with
  | none => rfl
  | some line => exact Request.count_other hrelayed hcommands herrors

lemma count_overflows (x : Moment) : x.counters.count .overflows = x.overflows.toNat := by
  rw [counters, List.count_append, List.count_append,
    x.count_lineCounters (c := .overflows) nofun nofun nofun]
  cases x.overflows <;> cases x.escapes <;> rfl

lemma count_escapes (x : Moment) : x.counters.count .escapes = x.escapes.toNat := by
  rw [counters, List.count_append, List.count_append,
    x.count_lineCounters (c := .escapes) nofun nofun nofun]
  cases x.overflows <;> cases x.escapes <;> rfl

/-- All other counters are moved by the line. -/
lemma count_line (x : Moment) (c : Counter) (ho : c ≠ .overflows) (he : c ≠ .escapes) :
    x.counters.count c = x.lineCounters.count c := by
  have hoverflows : (if x.overflows then [Counter.overflows] else []).count c = 0 := by
    split
    · exact List.count_eq_zero.mpr fun h => ho (List.mem_singleton.mp h)
    · rfl
  have hescapes : (if x.escapes then [Counter.escapes] else []).count c = 0 := by
    split
    · exact List.count_eq_zero.mpr fun h => he (List.mem_singleton.mp h)
    · rfl
  rw [counters, List.count_append, List.count_append, hoverflows, hescapes, Nat.zero_add]

lemma sum_commands (x : Moment) :
    (Family.all.map fun family => x.counters.count (.commands family)).sum =
      x.runsCommand.toNat := by
  have hline (family : Family) := x.count_line (.commands family) nofun nofun
  simp only [hline, lineCounters, runsCommand]
  cases x.line? with
  | none => rfl
  | some line => exact Request.sum_commands

lemma sum_relayed (x : Moment) :
    (Reach.all.map fun target => x.counters.count (.relayed target)).sum = x.relayed.length := by
  have hline (target : Reach) := x.count_line (.relayed target) nofun nofun
  simp only [hline, lineCounters, relayed]
  cases x.line? with
  | none => rfl
  | some line =>
    rw [Option.toList_some, List.flatMap_singleton]
    exact Request.sum_relayed

lemma count_passthroughBytes (x : Moment) : x.counters.count .passthroughBytes = 0 :=
  (x.count_line .passthroughBytes nofun nofun).trans (x.count_lineCounters nofun nofun nofun)

lemma count_errors (x : Moment) : x.counters.count .errors = x.answersError.toNat := by
  rw [x.count_line .errors nofun nofun, lineCounters, answersError, polled_reply, answers]
  cases x.line? with
  | none => rfl
  | some line =>
    rw [Option.elim_some, Option.any_some, Option.elim_some, Request.count_errors]
    cases hwords : (Request.parse line).asksWords with
    | true =>
      rw [Request.refusal?_of_asksWords hwords]
      rfl
    | false =>
      refine congrArg Bool.toNat ?_
      rw [Bool.not_false, Bool.true_and, Bool.eq_iff_iff, beq_iff_eq]
      exact (Request.frames_error_iff hwords).symm

/-! ### The mode and the counters -/

lemma stepped_balance (x : Moment) :
    x.overflows.toNat + x.stepped.modem.commandMode.toNat ≤
      x.escapes.toNat + x.session.modem.commandMode.toNat := by
  obtain ⟨s, signal⟩ := x
  cases signal with
  | byte byte =>
    have hreceived := Modem.onByte_received s.modem byte
    simp only [stepped, overflows, escapes]
    generalize s.modem.onByte byte = step at hreceived
    cases hreceived with
    | data hc => simp [hc]
    | waiting hc hr => simp [hc, hr]
    | ended hc hr hb => simp [hc, hr, hb, LineBuffer.key_return]
    | typed hc hr he => simp [hc, hr, he]
    | overflowed hc hr he => simp [hc, hr, he]
  | tick =>
    simp only [stepped, overflows, escapes]
    cases hf : s.modem.escape.fires with
    | false => simp [Modem.onTick_quiet hf]
    | true => simp [(Modem.onTick_fires (b := s.node) hf).1]

/-- Command mode is entered by an escape that is counted, and is left once for it at most. -/
lemma balance {x : Moment} (hs : x.session.modem.Sound) :
    x.counters.count .overflows + x.counters.count (.commands .online) +
      x.next.modem.commandMode.toNat ≤
        x.counters.count .escapes + x.session.modem.commandMode.toNat := by
  have hstepped := x.stepped_balance
  have hpolled := Modem.poll_polled x.stepped.modem x.stepped.board
  have hrun := hpolled.balance (stepped_sound hs).ready_mode
  have honline : x.counters.count (.commands .online) =
      x.polled.journal.total (.commands .online) := by
    rw [x.count_line (.commands .online) nofun nofun, polled, hpolled.total, lineCounters, line?]
    cases x.stepped.modem.ready <;> rfl
  rw [count_overflows, count_escapes, honline, next]
  simp only [polled] at hrun ⊢
  omega

/-- What a moment gives to the relay is forwarded, and nothing else is. -/
lemma forwarded (x : Moment) : x.next.node.relay =
    x.relayed.foldl (fun q r => q.forward r.destination r.command) x.session.node.relay := by
  obtain ⟨running, hnext⟩ := x.next_after
  rw [hnext, relayed]
  cases x.line? with
  | none => rfl
  | some line =>
    rw [Option.toList_some, List.flatMap_singleton, Option.elim_some]
    show x.session.node.relay.afterRequest (.parse line) = _
    cases Request.parse line with
    | ignored | here => rfl
    | remote destination command => cases destination <;> rfl

end Moment

/-! ### Runs -/

section
variable {xs : List Moment}

lemma sum_toNat (p : Moment → Bool) (xs : List Moment) :
    (xs.map fun x => (p x).toNat).sum = xs.countP p := by
  induction xs with
  | nil => rfl
  | cons x xs ih =>
    rw [List.map_cons, List.sum_cons, List.countP_cons, ih, Nat.add_comm]
    cases p x <;> rfl

lemma count_history {c : Counter} {p : Moment → Bool}
    (hp : ∀ x : Moment, x.counters.count c = (p x).toNat) (xs : List Moment) :
    (xs.flatMap Moment.counters).count c = xs.countP p := by
  rw [List.count_flatMap, ← sum_toNat]
  exact congrArg List.sum (List.map_congr_left fun x _ => hp x)

/-- Counters that are told apart by a label, summed up over the label. -/
lemma sum_history {ι : Type} {labels : List ι} {counter : ι → Counter} {g : Moment → Nat}
    (hg : ∀ x : Moment, (labels.map fun l => x.counters.count (counter l)).sum = g x)
    (xs : List Moment) :
    (labels.map fun l => (xs.flatMap Moment.counters).count (counter l)).sum = (xs.map g).sum := by
  induction xs with
  | nil => simp
  | cons x xs ih =>
    simp only [List.flatMap_cons, List.count_append, List.sum_map_add, hg, ih, List.map_cons,
      List.sum_cons]

theorem Trace.balance {s s' : Session} (h : Trace s xs s') (hs : s.modem.Sound) :
    (xs.flatMap Moment.counters).count .overflows +
      (xs.flatMap Moment.counters).count (.commands .online) + s'.modem.commandMode.toNat ≤
        (xs.flatMap Moment.counters).count .escapes + s.modem.commandMode.toNat := by
  induction h with
  | nil => simp
  | @moment s s' signal xs rest ih =>
    have hfirst := Moment.balance (x := ⟨s, signal⟩) hs
    have hrest := ih (Moment.next_sound (x := ⟨s, signal⟩) hs)
    dsimp only at hfirst
    simp only [List.flatMap_cons, List.count_append]
    omega
  | drained rest ih => exact ih hs

end

namespace Session
variable {s : Session} {c : Counter}

/-- How far a counter has advanced in a run. -/
def counted (s : Session) (es : List SessionEvent) (c : Counter) : Nat :=
  ((s.turns es).map fun t => t.journal.total c).sum

lemma handleBytes_total (s : Session) (bytes : List UInt8) (c : Counter) :
    (handleBytes s.modem s.node bytes).journal.total c =
      ((s.byteMoments bytes).flatMap Moment.counters).count c := by
  induction s, bytes using bytes_induct with
  | nil s => rfl
  | stop s byte bytes how hstop =>
    rw [handleBytes_stop hstop, byteMoments_stop hstop, handleByte_eq, List.flatMap_singleton]
    exact Moment.journal_total _ c
  | go s byte bytes hstop ih =>
    rw [handleBytes_go hstop, byteMoments_go hstop, List.flatMap_cons, List.count_append]
    simp only [Journal.total_append, Moment.journal_total, ih]

lemma onTick_data (s : Session) : s.onTick.data = [] := by
  rw [onTick_eq, Turn.data]
  cases hstop : Moment.stop? ⟨s, .tick⟩ with
  | none => simp [hstop]
  | some how => cases how <;> simp [hstop]

/-- A turn counts what its moments count, and the bytes of data that it hands out. -/
lemma turn_total (s : Session) (e : SessionEvent) (c : Counter) :
    (s.turn e).journal.total c = ((s.moments e).flatMap Moment.counters).count c +
      if c = .passthroughBytes then (s.turn e).data.length else 0 := by
  cases e with
  | tick =>
    simp only [turn, onTick_data, moments]
    rw [onTick_eq]
    simp [Moment.journal_total]
  | serial bytes =>
    have hbytes := handleBytes_total s bytes c
    simp only [turn, onSerial, moments, ← hbytes]
    split
    · exact drained_total _ _ _ _
    · exact drained_total _ _ _ _
    · simp [Turn.data]

lemma counted_eq (s : Session) (es : List SessionEvent) (c : Counter) :
    s.counted es c = ((s.history es).flatMap Moment.counters).count c +
      if c = .passthroughBytes then ((s.turns es).flatMap Turn.data).length else 0 := by
  induction es generalizing s with
  | nil => simp [counted, turns, history]
  | cons e es ih =>
    have hrest : s.counted (e :: es) c =
        (s.turn e).journal.total c + (s.turn e).session.counted es c := rfl
    rw [hrest, turn_total, ih, history, turns, List.flatMap_append, List.count_append,
      List.flatMap_cons, List.length_append]
    split <;> omega

/-- The counters of a run from a fresh session account for it: for its escapes, for the commands and
errors on its lines, for what it forwards and for the bytes of data that it hands out. -/
theorem counters_account (settings : ModemSettings) (node : Node) (es : List SessionEvent) :
    let s := ofParts (.ofSettings settings) node
    let xs := s.history es
    s.counted es .escapes = xs.countP Moment.escapes ∧
    s.counted es .overflows + s.counted es (.commands .online) +
      (s.after es).modem.commandMode.toNat ≤ s.counted es .escapes ∧
    (Family.all.map fun family => s.counted es (.commands family)).sum =
      xs.countP Moment.runsCommand ∧
    s.counted es .errors = xs.countP Moment.answersError ∧
    ((Reach.all.map fun target => s.counted es (.relayed target)).sum =
        (xs.flatMap Moment.relayed).length ∧
      ∀ x ∈ xs, x.next.node.relay =
        x.relayed.foldl (fun q r => q.forward r.destination r.command) x.session.node.relay) ∧
    s.counted es .passthroughBytes = ((s.turns es).flatMap Turn.data).length := by
  intro s xs
  have hmoments (c : Counter) (hc : c ≠ .passthroughBytes) :
      s.counted es c = (xs.flatMap Moment.counters).count c := by
    rw [counted_eq, if_neg hc, Nat.add_zero]
  have hescapes : s.counted es .escapes = xs.countP Moment.escapes :=
    (hmoments .escapes nofun).trans (count_history Moment.count_escapes xs)
  refine ⟨hescapes, ?_, ?_, ?_, ⟨?_, fun x _ => x.forwarded⟩, ?_⟩
  · have hbalance := (history_trace s es).balance (Modem.sound_ofSettings settings)
    rw [hmoments .overflows nofun, hmoments (.commands .online) nofun, hmoments .escapes nofun]
    exact hbalance
  · have hfamilies (family : Family) := hmoments (.commands family) nofun
    simp only [hfamilies]
    rw [sum_history Moment.sum_commands, sum_toNat]
  · exact (hmoments .errors nofun).trans (count_history Moment.count_errors xs)
  · have htargets (target : Reach) := hmoments (.relayed target) nofun
    simp only [htargets]
    rw [sum_history Moment.sum_relayed, List.length_flatMap]
  · have hnone : (xs.flatMap Moment.counters).count .passthroughBytes = 0 :=
      (count_history (p := fun _ => false) Moment.count_passthroughBytes xs).trans (by simp)
    rw [counted_eq, if_pos rfl, hnone, Nat.zero_add]

end Session

end RadioModem
