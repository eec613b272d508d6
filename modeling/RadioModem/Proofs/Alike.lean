import RadioModem.Modem
import RadioModem.Proofs.Dispatch

/-!
# Boards that a line cannot tell apart

A line knows its board only by what the operations of the board give. Where two boards give the
same, on the indices a line uses and under the features that are on, a line does the same to both:
it writes, counts and ends alike, and leaves boards that are alike again.
-/
namespace RadioModem

/-- Both attempts stop in the same way, or both come to something, and the two are related. -/
inductive Attempt.Alike {α ω : Type} (S : α → ω → Prop) : Attempt α → Attempt ω → Prop
  | ok {x : α} {y : ω} (h : S x y) : Alike S (.ok x) (.ok y)
  | error (how : Stop) : Alike S (.error how) (.error how)

lemma Attempt.Alike.bind {α ω α' ω' : Type} {S : α → ω → Prop} {S' : α' → ω' → Prop}
    {x : Attempt α} {y : Attempt ω} {f : α → Attempt α'} {g : ω → Attempt ω'}
    (h : Alike S x y) (hfg : ∀ a w, S a w → Alike S' (f a) (g w)) :
    Alike S' (x >>= f) (y >>= g) := by
  cases h with
  | ok h => exact hfg _ _ h
  | error how => exact .error how

lemma Attempt.alike_refl {α : Type} (x : Attempt α) : Attempt.Alike (· = ·) x x := by
  cases x with
  | ok a => exact .ok rfl
  | error how => exact .error how

lemma mapM_congr {α ω : Type} {f g : α → Attempt ω} {xs : List α} (h : ∀ x ∈ xs, f x = g x) :
    xs.mapM f = xs.mapM g := by
  induction xs with
  | nil => rfl
  | cons x xs ih =>
    obtain ⟨hx, hxs⟩ := List.forall_mem_cons.mp h
    rw [List.mapM_cons, List.mapM_cons, hx, ih hxs]

section
variable {β γ : Type}

/-- Changes that a board may turn down: either both boards took it or neither did. -/
structure Board.TakenAlike (R : β → γ → Prop) (x : β × Bool) (y : γ × Bool) : Prop where
  board : R x.1 y.1
  taken : x.2 = y.2

/-- Changes that a board writes down: both boards counted the same. -/
structure Board.NotedAlike (R : β → γ → Prop) (x : β × Journal) (y : γ × Journal) : Prop where
  board : R x.1 y.1
  counts : x.2.counts = y.2.counts

variable [Board β] [Board γ]

/-- Two boards agree in what they tell, and stay related by what changes them, as far as a line
can go: no index beyond the count, no write to register zero, and calibration and power only where
the extended commands are on. Of the journals only the counts have to agree. -/
structure Board.Alike (f : Features) (R : β → γ → Prop) : Prop where
  identity {b : β} {c : γ} : R b c → Board.identity b = Board.identity c
  registerCount {b : β} {c : γ} : R b c → Board.registerCount b = Board.registerCount c
  register {b : β} {c : γ} {index : Nat} : R b c → index < Board.registerCount b →
    Board.register b index = Board.register c index
  setRegister {b : β} {c : γ} {index : Nat} (value : Nat) : R b c → index < Board.registerCount b →
    index ≠ 0 → Attempt.Alike (Board.TakenAlike R) (Board.setRegister b index value)
      (Board.setRegister c index value)
  registerLine {b : β} {c : γ} {index : Nat} (node : Address) : R b c →
    index < Board.registerCount b →
    Board.registerLine b node index = Board.registerLine c node index
  saveRegisters {b : β} {c : γ} : R b c →
    Board.NotedAlike R (Board.saveRegisters b) (Board.saveRegisters c)
  resetRegisters {b : β} {c : γ} : R b c → R (Board.resetRegisters b) (Board.resetRegisters c)
  hasCalibration {b : β} {c : γ} : f.extendedCommands = true → R b c →
    Board.hasCalibration b = Board.hasCalibration c
  channel {b : β} {c : γ} (index : Nat) : f.extendedCommands = true → R b c →
    Board.channel b index = Board.channel c index
  setChannel {b : β} {c : γ} (index : Nat) (value : UInt8) : f.extendedCommands = true → R b c →
    Board.TakenAlike R (Board.setChannel b index value) (Board.setChannel c index value)
  lockCalibration {b : β} {c : γ} : f.extendedCommands = true → R b c →
    R (Board.lockCalibration b).1 (Board.lockCalibration c).1 ∧
      (Board.lockCalibration b).2.1 = (Board.lockCalibration c).2.1 ∧
      (Board.lockCalibration b).2.2.counts = (Board.lockCalibration c).2.2.counts
  pinCount {b : β} {c : γ} : R b c → Board.pinCount b = Board.pinCount c
  pinDirection {b : β} {c : γ} {index : Nat} : R b c → index < Board.pinCount b →
    Board.pinDirection b index = Board.pinDirection c index
  setPinDirection {b : β} {c : γ} {index : Nat} (d : PinDirection) : R b c →
    index < Board.pinCount b →
    Attempt.Alike R (Board.setPinDirection b index d) (Board.setPinDirection c index d)
  pinValue {b : β} {c : γ} {index : Nat} : R b c → index < Board.pinCount b →
    Board.pinValue b index = Board.pinValue c index
  setPin {b : β} {c : γ} {index : Nat} (level : Nat) : R b c → index < Board.pinCount b →
    Attempt.Alike (Board.TakenAlike R) (Board.setPin b index level) (Board.setPin c index level)
  forward {b : β} {c : γ} (d : Destination) (command : String) : R b c →
    Board.NotedAlike R (Board.forward b d command) (Board.forward c d command)
  timingReport {b : β} {c : γ} (node : Address) : R b c →
    Board.timingReport b node = Board.timingReport c node
  signalReport {b : β} {c : γ} (node : Address) : R b c →
    Board.signalReport b node = Board.signalReport c node
  syncState {b : β} {c : γ} : R b c → Board.syncState b = Board.syncState c
  setWatchdog {b : β} {c : γ} (enabled : Bool) : R b c →
    Board.NotedAlike R (Board.setWatchdog b enabled) (Board.setWatchdog c enabled)
  setPower {b : β} {c : γ} (pwm : UInt8) : f.extendedCommands = true → R b c →
    Board.NotedAlike R (Board.setPower b pwm) (Board.setPower c pwm)
  setDiversity {b : β} {c : γ} (enabled : Bool) : f.extendedCommands = true → R b c →
    R (Board.setDiversity b enabled) (Board.setDiversity c enabled)
  halt {b : β} {c : γ} (reason : HaltReason) : R b c →
    (Board.halt b reason).1 = (Board.halt c reason).1 ∧
      (Board.halt b reason).2.counts = (Board.halt c reason).2.counts

structure Handled.Alike (R : β → γ → Prop) (h : Handled β) (k : Handled γ) : Prop where
  board : R h.board k.board
  answer : h.answer = k.answer
  counts : h.journal.counts = k.journal.counts

structure Outcome.Alike (R : β → γ → Prop) (o : Outcome β) (p : Outcome γ) : Prop where
  board : R o.board p.board
  tests : o.tests = p.tests
  reply : o.reply = p.reply
  effect : o.effect = p.effect
  counts : o.journal.counts = p.journal.counts

structure PollStep.Alike (R : β → γ → Prop) (p : PollStep β) (q : PollStep γ) : Prop where
  modem : p.modem = q.modem
  board : R p.board q.board
  reply : p.reply = q.reply
  ran : p.ran = q.ran
  counts : p.journal.counts = q.journal.counts

end

namespace Dispatch
variable {β γ : Type} [Board β] [Board γ] {f : Features} {R : β → γ → Prop} {b : β} {c : γ}
  {t : TestMode}

section
variable (hR : Board.Alike f R) (h : R b c)
include hR h

lemma node_alike : Board.node b = Board.node c := congrArg Identity.node (hR.identity h)

lemma reply_alike (text : String) : reply b text = reply c text := by
  rw [reply, reply, node_alike hR h]

lemma answered_reply_alike (text : String) :
    Handled.Alike R (answered b (reply b text)) (answered c (reply c text)) :=
  ⟨h, congrArg Except.ok (reply_alike hR h text), rfl⟩

lemma accepted_alike : Handled.Alike R (accepted b) (accepted c) :=
  answered_reply_alike hR h okText

lemma judged_alike (source : Rejector) {taken taken' : Bool} (htaken : taken = taken') :
    Handled.Alike R (judged source b taken) (judged source c taken') := by
  subst htaken
  cases taken with
  | true => exact accepted_alike hR h
  | false => exact ⟨h, rfl, rfl⟩

lemma power_alike (hf : f.extendedCommands = true) (pwm : Nat) :
    Handled.Alike R (power b pwm) (power c pwm) := by
  obtain ⟨hb, hcounts⟩ := hR.setPower (.ofNat pwm) hf h
  obtain ⟨hboard, hanswer, -⟩ := accepted_alike hR (hR.setDiversity false hf hb)
  exact ⟨hboard, hanswer, hcounts⟩

omit hR in
lemma withCalibration_alike {run : β → Handled β} {run' : γ → Handled γ}
    (hc : Board.hasCalibration b = Board.hasCalibration c)
    (hrun : Handled.Alike R (run b) (run' c)) :
    Handled.Alike R (withCalibration b run) (withCalibration c run') := by
  rw [withCalibration, withCalibration, hc]
  split
  · exact hrun
  · exact ⟨h, rfl, rfl⟩

lemma extended_alike (request : Extended) :
    Handled.Alike R (extended f b request) (extended f c request) := by
  unfold extended
  split
  · next hf =>
    have hc := hR.hasCalibration hf h
    cases request with
    | power pwm => exact power_alike hR h hf pwm
    | readChannel channel =>
      refine withCalibration_alike h hc ?_
      rw [hR.channel channel hf h]
      exact answered_reply_alike hR h _
    | writeChannel channel value =>
      obtain ⟨hb, htaken⟩ := hR.setChannel channel (.ofNat value) hf h
      exact withCalibration_alike h hc (judged_alike hR hb _ htaken)
    | lockCalibration =>
      obtain ⟨hb, htaken, hcounts⟩ := hR.lockCalibration hf h
      obtain ⟨hboard, hanswer, -⟩ := judged_alike hR hb .calibrationStore htaken
      exact withCalibration_alike h hc ⟨hboard, hanswer, hcounts⟩
  · exact ⟨h, rfl, rfl⟩

omit [Board β] [Board γ] hR in
/-- The lines of a list are those of the other board. -/
lemma lines_alike {n : Nat} {line line' : Nat → Attempt String}
    (hline : ∀ i < n, line i = line' i) :
    Attempt.Alike (Handled.Alike R)
      (do return answered b (String.join (← (List.range n).mapM line)))
      (do return answered c (String.join (← (List.range n).mapM line'))) := by
  rw [mapM_congr fun i hi => hline i (List.mem_range.mp hi)]
  exact (Attempt.alike_refl _).bind fun lines _ hlines => .ok ⟨h, by rw [hlines]; rfl, rfl⟩

lemma parameters_alike : Attempt.Alike (Handled.Alike R) (parameters b) (parameters c) := by
  rw [parameters, parameters, ← hR.registerCount h, ← node_alike hR h]
  exact lines_alike h fun i hi => hR.registerLine _ h hi

lemma pinLine_alike {index : Nat} (hi : index < Board.pinCount b) :
    pinLine b index = pinLine c index := by
  simp only [pinLine, hR.pinDirection h hi, hR.pinValue h hi, reply_alike hR h]

lemma pinList_alike : Attempt.Alike (Handled.Alike R) (pinList b) (pinList c) := by
  rw [pinList, pinList, ← hR.pinCount h]
  exact lines_alike h fun i hi => pinLine_alike hR h hi

lemma syncText_alike : syncText b = syncText c := by
  rw [syncText, syncText, node_alike hR h, hR.syncState h]

lemma info_alike (q : Query) : Attempt.Alike (Handled.Alike R) (info b q) (info c q) := by
  cases q with
  | parameters => exact parameters_alike hR h
  | banner | version | boardId | frequency | bootloader =>
    simp only [info, hR.identity h]
    exact .ok (answered_reply_alike hR h _)
  | sync =>
    simp only [info, syncText_alike hR h]
    exact .ok (answered_reply_alike hR h _)
  | timing =>
    exact .ok ⟨h, congrArg Except.ok ((hR.timingReport _ h).trans (by rw [node_alike hR h])), rfl⟩
  | signal =>
    exact .ok ⟨h, congrArg Except.ok ((hR.signalReport _ h).trans (by rw [node_alike hR h])), rfl⟩

lemma pin_alike (index : Nat) (action : PinAction) :
    Attempt.Alike (Handled.Alike R) (pin b index action) (pin c index action) := by
  unfold pin
  rw [← hR.pinCount h]
  split
  · next hi =>
    -- From here on the index is one that both boards have.
    cases action with
    | output | input =>
      simp only [← bind_pure_comp]
      exact (hR.setPinDirection _ h hi).bind fun x y hxy => .ok (accepted_alike hR hxy)
    | read =>
      simp only [← hR.pinDirection h hi, ← hR.pinValue h hi, ← reply_alike hR h]
      refine (Attempt.alike_refl _).bind fun d _ hd => ?_
      subst hd
      cases d with
      | input =>
        refine (Attempt.alike_refl _).bind fun value _ hv => ?_
        subst hv
        exact .ok ⟨h, rfl, rfl⟩
      | output => exact .ok ⟨h, rfl, rfl⟩
    | write level =>
      exact (hR.setPin level h hi).bind fun x y hxy => .ok (judged_alike hR hxy.1 _ hxy.2)
  · exact .ok ⟨h, rfl, rfl⟩

lemma readRegister_alike (index : Nat) :
    Attempt.Alike (Handled.Alike R) (readRegister b index) (readRegister c index) := by
  rw [readRegister, readRegister, ← hR.registerCount h]
  split
  · next hi =>
    rw [← hR.register h hi]
    refine (Attempt.alike_refl _).bind fun value _ hv => ?_
    subst hv
    exact .ok (answered_reply_alike hR h _)
  · exact .ok ⟨h, rfl, rfl⟩

lemma writeRegister_alike (index value : Nat) :
    Attempt.Alike (Handled.Alike R) (writeRegister b index value)
      (writeRegister c index value) := by
  rw [writeRegister, writeRegister, ← hR.registerCount h]
  split
  · next hi =>
    split
    · exact .ok ⟨h, rfl, rfl⟩
    · next h0 =>
      exact (hR.setRegister value h hi h0).bind fun x y hxy =>
        .ok (judged_alike hR hxy.1 _ hxy.2)
  · exact .ok ⟨h, rfl, rfl⟩

lemma save_alike : Handled.Alike R (save b) (save c) := by
  obtain ⟨hb, hcounts⟩ := hR.saveRegisters h
  obtain ⟨hboard, hanswer, -⟩ := accepted_alike hR hb
  exact ⟨hboard, hanswer, hcounts⟩

lemma failed_alike (r : Refusal) {j k : Journal} (hj : j.counts = k.counts) :
    Outcome.Alike R (failed b t r j) (failed c t r k) :=
  ⟨h, rfl, reply_alike hR h errorText, rfl, by simp [failed, hj, Journal.note]⟩

lemma settled_alike {x : Attempt (Handled β)} {y : Attempt (Handled γ)}
    (hxy : Attempt.Alike (Handled.Alike R) x y) :
    Outcome.Alike R (settled b t x) (settled c t y) := by
  cases hxy with
  | error how => exact ⟨h, rfl, rfl, rfl, rfl⟩
  | @ok d e hde =>
    obtain ⟨b', answer, j⟩ := d
    obtain ⟨c', answer', k⟩ := e
    obtain ⟨hb, hanswer, hj⟩ := hde
    cases hanswer
    cases answer with
    | ok text => exact ⟨hb, rfl, rfl, rfl, hj⟩
    | error r => exact failed_alike hR hb r hj

lemma halting_alike (reason : HaltReason) {j k : Journal} (hj : j.counts = k.counts) :
    Outcome.Alike R (halting b t reason j) (halting c t reason k) := by
  obtain ⟨hhow, hrecord⟩ := hR.halt reason h
  exact ⟨h, rfl, rfl, congrArg Effect.stop hhow, by simp [halting, hj, hrecord]⟩

lemma execute_alike (command : Command) :
    Outcome.Alike R (execute f b t command) (execute f c t command) := by
  cases command with
  | attention => exact settled_alike hR h (.ok (accepted_alike hR h))
  | factoryReset => exact settled_alike hR h (.ok (accepted_alike hR (hR.resetRegisters h)))
  | save => exact settled_alike hR h (.ok (save_alike hR h))
  | forceUpdate => exact halting_alike hR h _ rfl
  | reset => exact halting_alike hR h _ rfl
  | testMode change => exact ⟨h, rfl, rfl, rfl, rfl⟩
  | extended request => exact settled_alike hR h (.ok (extended_alike hR h request))
  | info query => exact settled_alike hR h (info_alike hR h query)
  | pinList => exact settled_alike hR h (pinList_alike hR h)
  | pin index action => exact settled_alike hR h (pin_alike hR h index action)
  | readRegister index => exact settled_alike hR h (readRegister_alike hR h index)
  | writeRegister index value => exact settled_alike hR h (writeRegister_alike hR h index value)
  | online => exact ⟨h, rfl, rfl, rfl, rfl⟩

theorem run_alike (line : String) : Outcome.Alike R (run f b t line) (run f c t line) := by
  simp only [run]
  cases Request.parse line with
  | ignored => exact ⟨h, rfl, rfl, rfl, rfl⟩
  | remote destination command =>
    cases destination with
    | ok d =>
      obtain ⟨hb, hcounts⟩ := hR.forward d command h
      exact ⟨hb, rfl, rfl, rfl, by simp [answer, relay, hcounts, Journal.note]⟩
    | error r => exact ⟨h, rfl, rfl, rfl, rfl⟩
  | here command =>
    cases command with
    | ok command =>
      obtain ⟨hb, ht, hreply, heffect, hcounts⟩ := execute_alike (t := t) hR h command
      exact ⟨hb, ht, hreply, heffect, by simp [answer, hcounts, Journal.note]⟩
    | error r =>
      obtain ⟨hb, ht, hreply, heffect, hcounts⟩ := failed_alike (t := t) hR h r (j := .empty) rfl
      exact ⟨hb, ht, hreply, heffect, by simpa [answer, Journal.note] using hcounts⟩

end

end Dispatch

namespace Modem
variable {β γ : Type} [Board β] [Board γ] {R : β → γ → Prop} {m : Modem} {b : β} {c : γ}

lemma watchdog_alike (hR : Board.Alike m.features R) (h : R b c) (enabled : Bool) :
    Board.NotedAlike R (m.watchdog b enabled) (m.watchdog c enabled) := by
  unfold watchdog
  split
  · exact hR.setWatchdog enabled h
  · exact ⟨h, rfl⟩

theorem poll_alike (hR : Board.Alike m.features R) (h : R b c) :
    PollStep.Alike R (m.poll b) (m.poll c) := by
  unfold poll
  split
  · obtain ⟨hb, ht, hr, he, hc⟩ := Dispatch.run_alike (t := m.tests) hR h m.text
    -- The lines end with one effect, so both polls go on in the same way.
    simp only [runLine, he, ht, hr]
    cases (Dispatch.run m.features c m.tests m.text).effect with
    | stop how => exact ⟨rfl, hb, rfl, rfl, hc⟩
    | stay => exact ⟨rfl, hb, rfl, rfl, hc⟩
    | leaveCommandMode =>
      obtain ⟨hleft, hswitched⟩ := watchdog_alike (m := m.finished _) hR hb true
      exact ⟨rfl, hleft, rfl, rfl,
        by simp [leaveCommandMode, hc, hswitched, Journal.note]⟩
  · exact ⟨rfl, h, rfl, rfl, rfl⟩

end Modem

end RadioModem
