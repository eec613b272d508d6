import Mathlib.Data.List.DropRight
import RadioModem.Proofs.CommandTable
import RadioModem.Proofs.Reports

/-!
# Test modes over a run

Which test modes are on is told from the lines that were run. A bare request clears both, and each
named one flips its own, so a mode is on exactly if its line was run an odd number of times since.
No other line touches them, and nothing but running a line does.
-/
namespace RadioModem

/-- The line that clears the test modes. -/
def clearLine : String := "AT&T"

/-- The line that flips one test mode. -/
def TestFlag.line (f : TestFlag) : String := "AT&T=" ++ f.name

def IsTestLine (line : String) : Prop := line = clearLine ∨ ∃ f : TestFlag, line = f.line

/-- The lines behind the last one that cleared the test modes. -/
def sinceCleared (lines : List String) : List String := lines.rtakeWhile (· ≠ clearLine)

lemma sinceCleared_concat (lines : List String) (line : String) :
    sinceCleared (lines ++ [line]) =
      if line = clearLine then [] else sinceCleared lines ++ [line] := by
  rw [sinceCleared, List.rtakeWhile_concat, sinceCleared]
  by_cases h : line = clearLine <;> simp [h]

/-! ### Lines -/

namespace Request
variable {line : String}

lemma parse_testLine (change : TestChange) :
    parse (Command.testMode change).print = .here (.ok (.testMode change)) :=
  parse_print trivial

lemma parse_clearLine : parse clearLine = .here (.ok (.testMode .clearAll)) :=
  parse_testLine .clearAll

lemma parse_flagLine (f : TestFlag) : parse f.line = .here (.ok (.testMode (.toggle f))) := by
  cases f with
  | rssi => exact parse_testLine (.toggle .rssi)
  | tdm => exact parse_testLine (.toggle .tdm)

/-- The test modes are changed by lines that are spelled exactly so. -/
lemma isTestLine_of_parse {change : TestChange}
    (h : parse line = .here (.ok (.testMode change))) : IsTestLine line := by
  obtain ⟨text, rfl, hread⟩ := text_of_here h
  have hspelling : Command.Spelling text.toList (.testMode change) :=
    Command.parse_eq_ok_iff.mp hread.symm
  rw [← String.ofList_toList (s := text)]
  generalize text.toList = characters at hspelling
  cases hspelling with
  | clearTests => exact .inl rfl
  | toggleRssi => exact .inr ⟨.rssi, rfl⟩
  | toggleTdm => exact .inr ⟨.tdm, rfl⟩

lemma tests_of_other (h : ¬IsTestLine line) (t : TestMode) : t.afterRequest (parse line) = t := by
  unfold TestMode.afterRequest
  split
  · next change hparse => exact absurd (isTestLine_of_parse hparse) h
  · rfl

/-- A line that changes the test modes says nothing and stops nothing. -/
lemma run_testLine {β : Type} [Board β] (h : IsTestLine line) (f : Features) (b : β)
    (t : TestMode) :
    (Dispatch.run f b t line).reply = "" ∧ (Dispatch.run f b t line).effect = .stay := by
  obtain rfl | ⟨flag, rfl⟩ := h
  · simp only [Dispatch.run, parse_clearLine]
    exact ⟨rfl, rfl⟩
  · simp only [Dispatch.run, parse_flagLine]
    exact ⟨rfl, rfl⟩

end Request

/-! ### Flags -/

namespace TestMode

/-- The mode in which just these flags are set. -/
def ofFlags (on : TestFlag → Bool) : TestMode :=
  ⟨(if on .rssi then TestFlag.rssi.mask else 0) ||| (if on .tdm then TestFlag.tdm.mask else 0)⟩

/-- The bits that stand for no flag. -/
def unnamed (t : TestMode) : UInt8 := t.bits &&& ~~~(TestFlag.rssi.mask ||| TestFlag.tdm.mask)

lemma ofFlags_has (on : TestFlag → Bool) (f : TestFlag) : (ofFlags on).has f = on f := by
  unfold ofFlags has
  cases f <;> cases on .rssi <;> cases on .tdm <;> rfl

lemma ofFlags_unnamed (on : TestFlag → Bool) : (ofFlags on).unnamed = 0 := by
  unfold ofFlags unnamed
  cases on .rssi <;> cases on .tdm <;> rfl

lemma ofFlags_toggle (on : TestFlag → Bool) (f : TestFlag) :
    (ofFlags on).toggle f = ofFlags fun g => if f = g then !on g else on g := by
  unfold ofFlags toggle
  cases f <;> simp only [if_true, if_false, reduceCtorEq] <;>
    cases on .rssi <;> cases on .tdm <;> rfl

/-- The flags whose line was run an odd number of times since the modes were cleared. -/
def oddly (lines : List String) (f : TestFlag) : Bool :=
  Odd ((sinceCleared lines).count f.line)

lemma oddly_concat {line : String} (h : line ≠ clearLine) (lines : List String) (f : TestFlag) :
    oddly (lines ++ [line]) f = if line = f.line then !oddly lines f else oddly lines f := by
  unfold oddly
  rw [sinceCleared_concat, if_neg h, List.count_append, List.count_singleton]
  by_cases hf : line = f.line
  · rw [if_pos hf, if_pos (beq_iff_eq.mpr hf), ← decide_not, decide_eq_decide]
    exact Nat.odd_add_one
  · rw [if_neg hf, if_neg (mt beq_iff_eq.mp hf)]
    rfl

lemma line_inj (f g : TestFlag) : f.line = g.line ↔ f = g := by
  cases f <;> cases g <;> decide

/-- The flags are told by the lines that were run, and no bit without a name is set. -/
structure Told (t : TestMode) (lines : List String) : Prop where
  flag : ∀ f, t.has f = true ↔ Odd ((sinceCleared lines).count f.line)
  unnamed : t.unnamed = 0

lemma told_ofFlags (lines : List String) : (ofFlags (oddly lines)).Told lines where
  flag f := by rw [ofFlags_has, oddly, decide_eq_true_iff]
  unnamed := ofFlags_unnamed _

/-- One more line: the flags are told by the lines with this one behind them. -/
theorem ofFlags_afterLine (lines : List String) (line : String) :
    (ofFlags (oddly lines)).afterRequest (.parse line) = ofFlags (oddly (lines ++ [line])) := by
  by_cases h : IsTestLine line
  · obtain rfl | ⟨f, rfl⟩ := h
    · have hnone : oddly (lines ++ [clearLine]) = fun _ => false := by
        funext f
        simp [oddly, sinceCleared_concat]
      rw [Request.parse_clearLine, hnone]
      rfl
    · have hother : f.line ≠ clearLine := by cases f <;> decide
      rw [Request.parse_flagLine]
      refine (ofFlags_toggle _ f).trans (congrArg ofFlags (funext fun g => ?_))
      simp only [oddly_concat hother, line_inj]
  · have hsame : oddly (lines ++ [line]) = oddly lines := by
      funext f
      rw [oddly_concat fun he => h (.inl he), if_neg fun he => h (.inr ⟨f, he⟩)]
    rw [Request.tests_of_other h, hsame]

end TestMode

/-! ### Moments -/

lemma Modem.Received.tests {m : Modem} {byte : UInt8} {s : ByteStep} (h : Received m byte s) :
    s.modem.tests = m.tests := by cases h <;> rfl

lemma Modem.Polled.tests {m : Modem} {n : Node} {p : PollStep Node} (h : Polled m n p) :
    p.modem.tests = if m.ready then m.tests.afterRequest (.parse m.text) else m.tests := by
  have hrun : (m.outcome n).tests = m.tests.afterRequest (.parse m.text) :=
    (Node.run_after _ _ _ _).2
  cases h with
  | idle hr => rw [hr, if_neg Bool.false_ne_true]
  | stopped hr | stayed hr | left hr =>
    rw [hr, if_pos rfl]
    exact hrun

namespace Moment
variable {x : Moment}

lemma stepped_tests (x : Moment) : x.stepped.modem.tests = x.session.modem.tests := by
  obtain ⟨s, signal⟩ := x
  cases signal with
  | byte byte => exact (Modem.onByte_received _ _).tests
  | tick =>
    cases hf : s.modem.escape.fires with
    | false => rw [stepped, Modem.onTick_quiet hf]
    | true => rw [stepped, (Modem.onTick_fires hf).1]

/-- Test modes are changed by the line that a moment runs, and by nothing else. -/
theorem next_tests (x : Moment) : x.next.modem.tests =
    x.line?.elim x.session.modem.tests fun line =>
      x.session.modem.tests.afterRequest (.parse line) := by
  rw [next, polled, (Modem.poll_polled _ _).tests, stepped_tests, line?]
  split <;> rfl

lemma polled_testLine {line : String} (hline : x.line? = some line) (h : IsTestLine line) :
    x.polled.reply = "" ∧ x.stop? = none := by
  obtain ⟨hready, htext⟩ := Option.ite_none_right_eq_some.mp hline
  have hrun := Request.run_testLine h x.stepped.modem.features x.stepped.board x.stepped.modem.tests
  rw [← Option.some.inj htext] at hrun
  obtain ⟨hreply, hstay⟩ := hrun
  have heffect : (x.stepped.modem.outcome x.stepped.board).effect = .stay := hstay
  rw [stop?, polled, Modem.poll_ready hready, Modem.runLine_eq, heffect]
  exact ⟨hreply, rfl⟩

end Moment

/-! ### Runs -/

/-- The lines that are run in the course of some moments. -/
def linesRun (xs : List Moment) : List String := xs.filterMap Moment.line?

open TestMode

theorem Trace.tests {s s' : Session} {xs : List Moment} {lines : List String} (h : Trace s xs s')
    (hs : s.modem.tests = ofFlags (oddly lines)) :
    s'.modem.tests = ofFlags (oddly (lines ++ linesRun xs)) := by
  -- The lines run so far go along, and each moment puts its own behind them.
  induction h generalizing lines with
  | nil => rwa [linesRun, List.filterMap_nil, List.append_nil]
  | drained rest ih => exact ih hs
  | @moment s s' signal xs rest ih =>
    have hnext := Moment.next_tests ⟨s, signal⟩
    cases hline : Moment.line? ⟨s, signal⟩ with
    | none =>
      rw [hline, Option.elim_none, hs] at hnext
      rw [linesRun, List.filterMap_cons_none hline]
      exact ih hnext
    | some line =>
      rw [hline, Option.elim_some, hs, ofFlags_afterLine] at hnext
      rw [linesRun, List.filterMap_cons_some hline, List.append_cons]
      exact ih hnext

namespace Session

lemma fresh_told {settings : ModemSettings} {node : Node} {xs : List Moment} {s : Session}
    (h : Trace (ofParts (.ofSettings settings) node) xs s) : s.modem.tests.Told (linesRun xs) := by
  have hfresh : (ofParts (.ofSettings settings) node).modem.tests = ofFlags (oddly []) := rfl
  rw [h.tests hfresh, List.nil_append]
  exact told_ofFlags _

/-- At every moment of a run a test mode is on exactly if its line was run an odd number of times
since the modes were last cleared, and no other line changes the modes. -/
theorem tests_by_parity (settings : ModemSettings) (node : Node) (es : List SessionEvent) :
    let s := ofParts (.ofSettings settings) node
    (s.after es).modem.tests.Told (linesRun (s.history es)) ∧
    (∀ pre x post, s.history es = pre ++ x :: post → x.session.modem.tests.Told (linesRun pre)) ∧
    ∀ x ∈ s.history es,
      (∀ line, x.line? = some line → IsTestLine line → x.polled.reply = "" ∧ x.stop? = none) ∧
      ((∀ line, x.line? = some line → ¬IsTestLine line) →
        x.next.modem.tests = x.session.modem.tests) := by
  intro s
  have htrace := s.history_trace es
  refine ⟨fresh_told htrace, fun pre x post hxs => ?_, fun x hx => ⟨fun line => ?_, fun h => ?_⟩⟩
  · rw [hxs] at htrace
    exact fresh_told htrace.front
  · exact Moment.polled_testLine
  · rw [x.next_tests]
    cases hline : x.line? with
    | none => rfl
    | some line => exact Request.tests_of_other (h line hline) _

/-- The modes are cleared and one of them is switched on, command mode is left and entered again,
and a line comes that is not quite a request. -/
def switching : List SessionEvent :=
  commanding ++ [.serial "AT&T=TDM\rAT&T\rAT&T=RSSI\rATO\r".toUTF8.toList] ++ commanding ++
    [.serial "AT&T=RSSI \r".toUTF8.toList]

theorem tests_by_parity_switching : ∃ s, ofConfiguration brisk = .ok s ∧
    linesRun (s.history switching) =
      ["AT", "AT&T=TDM", "AT&T", "AT&T=RSSI", "ATO", "AT", "AT&T=RSSI "] ∧
    ((s.after switching).modem.tests.has .rssi = true ∧
      ¬(s.after switching).modem.tests.has .tdm = true) ∧
    ∀ x ∈ s.history switching, x.line? = some "AT&T" → x.polled.reply = "" := by
  obtain ⟨node, hnode⟩ : ∃ node, Node.ofConfiguration brisk = .ok node := ⟨_, rfl⟩
  obtain ⟨htold, -, hmoments⟩ := tests_by_parity brisk.modem node switching
  have hlines : linesRun ((ofParts (.ofSettings brisk.modem) node).history switching) =
      ["AT", "AT&T=TDM", "AT&T", "AT&T=RSSI", "ATO", "AT", "AT&T=RSSI "] := by
    cases hnode
    decide +kernel
  rw [hlines] at htold
  refine ⟨_, by rw [ofConfiguration, hnode]; rfl, hlines, ⟨?_, fun h => ?_⟩, fun x hx hline => ?_⟩
  · exact (htold.flag .rssi).mpr (by decide)
  · exact absurd ((htold.flag .tdm).mp h) (by decide)
  · exact ((hmoments x hx).1 _ hline (.inl rfl)).1

end Session

end RadioModem
