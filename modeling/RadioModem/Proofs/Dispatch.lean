import Mathlib.Data.List.Basic
import RadioModem.Dispatch

/-!
# What running a line can do

A line reaches its board only through the operations of the board. A property that each of these
operations keeps is kept by every line.
-/
namespace RadioModem

lemma bind_ok {ε α γ : Type} {a : Except ε α} {f : α → Except ε γ} {c : γ}
    (h : a >>= f = .ok c) : ∃ x, a = .ok x ∧ f x = .ok c := by
  cases a with
  | error e => cases h
  | ok x => exact ⟨x, rfl, h⟩

lemma map_ok {ε α γ : Type} {g : α → γ} {a : Except ε α} {y : γ} (h : g <$> a = .ok y) :
    ∃ x, a = .ok x ∧ g x = y := by
  cases a with
  | error e => cases h
  | ok x => exact ⟨x, rfl, Except.ok.inj h⟩

lemma filterMap_cons_append {α γ : Type} (f : α → Option γ) (x : α) (xs : List α) :
    (x :: xs).filterMap f = (f x).toList ++ xs.filterMap f := by
  rw [List.filterMap_cons]
  cases f x <;> rfl

section
variable {β : Type} [Board β]

/-- A property of boards that no operation called for a local command takes away. -/
structure Board.LocallySteady (P : β → Prop) : Prop where
  setRegister {b c : β} {index value : Nat} {taken : Bool} :
    P b → Board.setRegister b index value = .ok (c, taken) → P c
  saveRegisters {b : β} : P b → P (Board.saveRegisters b).1
  resetRegisters {b : β} : P b → P (Board.resetRegisters b)
  setChannel {b : β} {index : Nat} {value : UInt8} : P b → P (Board.setChannel b index value).1
  lockCalibration {b : β} : P b → P (Board.lockCalibration b).1
  setPinDirection {b c : β} {index : Nat} {d : PinDirection} :
    P b → Board.setPinDirection b index d = .ok c → P c
  setPin {b c : β} {index level : Nat} {taken : Bool} :
    P b → Board.setPin b index level = .ok (c, taken) → P c
  setPower {b : β} {pwm : UInt8} : P b → P (Board.setPower b pwm).1
  setDiversity {b : β} {enabled : Bool} : P b → P (Board.setDiversity b enabled)

/-- A property of boards that no operation called for a line takes away. -/
structure Board.Steady (P : β → Prop) : Prop extends Board.LocallySteady P where
  forward {b : β} {d : Destination} {command : String} : P b → P (Board.forward b d command).1

end

namespace Dispatch
variable {β : Type} [Board β] {b : β} {t : TestMode}

lemma judged_board (source : Rejector) (taken : Bool) : (judged source b taken).board = b := by
  unfold judged
  split <;> rfl

lemma judged_journal (source : Rejector) (taken : Bool) :
    (judged source b taken).journal = .empty := by
  unfold judged
  split <;> rfl

/-- What a handler that only reads makes of its command. -/
def Reads (b : β) (h : Handled β) : Prop := h.board = b ∧ h.journal = .empty

lemma readRegister_reads {index : Nat} {h : Handled β} (he : readRegister b index = .ok h) :
    Reads b h := by
  unfold readRegister at he
  split at he
  · obtain ⟨value, -, he⟩ := bind_ok he
    cases he
    exact ⟨rfl, rfl⟩
  · cases he
    exact ⟨rfl, rfl⟩

lemma pinList_reads {h : Handled β} (he : pinList b = .ok h) : Reads b h := by
  obtain ⟨lines, -, he⟩ := bind_ok he
  cases he
  exact ⟨rfl, rfl⟩

lemma info_reads {q : Query} {h : Handled β} (he : info b q = .ok h) : Reads b h := by
  cases q with
  | parameters =>
    obtain ⟨lines, -, he⟩ := bind_ok he
    cases he
    exact ⟨rfl, rfl⟩
  | banner | version | boardId | frequency | bootloader | timing | signal | sync =>
    cases he
    exact ⟨rfl, rfl⟩

/-- A pin command changes the board by one operation at most, and writes nothing down. -/
lemma pin_cases {index : Nat} {action : PinAction} {h : Handled β}
    (he : pin b index action = .ok h) :
    h.journal = .empty ∧ (h.board = b ∨ (∃ d, Board.setPinDirection b index d = .ok h.board) ∨
      ∃ level taken, Board.setPin b index level = .ok (h.board, taken)) := by
  unfold pin at he
  split at he
  · cases action with
    | output | input =>
      obtain ⟨c, hc, rfl⟩ := map_ok he
      exact ⟨rfl, .inr (.inl ⟨_, hc⟩)⟩
    | read =>
      obtain ⟨d, -, he⟩ := bind_ok he
      cases d with
      | input =>
        obtain ⟨value, -, he⟩ := bind_ok he
        cases he
        exact ⟨rfl, .inl rfl⟩
      | output =>
        cases he
        exact ⟨rfl, .inl rfl⟩
    | write level =>
      obtain ⟨⟨c, taken⟩, hc, he⟩ := bind_ok he
      cases he
      refine ⟨judged_journal _ _, .inr (.inr ⟨level, taken, ?_⟩)⟩
      rw [judged_board]
      exact hc
  · cases he
    exact ⟨rfl, .inl rfl⟩

lemma writeRegister_cases {index value : Nat} {h : Handled β}
    (he : writeRegister b index value = .ok h) :
    h.journal = .empty ∧
      (h.board = b ∨ ∃ taken, Board.setRegister b index value = .ok (h.board, taken)) := by
  unfold writeRegister at he
  split at he
  · split at he
    · cases he
      exact ⟨rfl, .inl rfl⟩
    · obtain ⟨⟨c, taken⟩, hc, he⟩ := bind_ok he
      cases he
      refine ⟨judged_journal _ _, .inr ⟨taken, ?_⟩⟩
      rw [judged_board]
      exact hc
  · cases he
    exact ⟨rfl, .inl rfl⟩

/-- A line leaves either the board it was given or the one its handler made. -/
lemma settled_board (a : Attempt (Handled β)) :
    (settled b t a).board = b ∨ ∃ h, a = .ok h ∧ (settled b t a).board = h.board := by
  cases a with
  | error how => exact .inl rfl
  | ok h =>
    right
    obtain ⟨c, answer, journal⟩ := h
    cases answer with
    | ok text => exact ⟨_, rfl, rfl⟩
    | error r => exact ⟨_, rfl, rfl⟩

variable {P : β → Prop} {f : Features}

lemma settled_steady {a : Attempt (Handled β)} (hb : P b) (ha : ∀ h, a = .ok h → P h.board) :
    P (settled b t a).board := by
  rcases settled_board (b := b) (t := t) a with he | ⟨h, hok, he⟩
  · rwa [he]
  · rw [he]
    exact ha h hok

lemma extended_steady (hP : Board.LocallySteady P) (hb : P b) (request : Extended) :
    P (extended f b request).board := by
  unfold extended
  split
  · cases request with
    | power pwm => exact hP.setDiversity (hP.setPower hb)
    | readChannel channel =>
      simp only [withCalibration]
      split <;> exact hb
    | writeChannel channel value =>
      simp only [withCalibration]
      split
      · rw [judged_board]
        exact hP.setChannel hb
      · exact hb
    | lockCalibration =>
      simp only [withCalibration]
      split
      · rw [judged_board]
        exact hP.lockCalibration hb
      · exact hb
  · exact hb

lemma pin_steady (hP : Board.LocallySteady P) (hb : P b) {index : Nat} {action : PinAction}
    {h : Handled β} (he : pin b index action = .ok h) : P h.board := by
  rcases (pin_cases he).2 with hk | ⟨d, hd⟩ | ⟨level, taken, hl⟩
  · rwa [hk]
  · exact hP.setPinDirection hb hd
  · exact hP.setPin hb hl

lemma writeRegister_steady (hP : Board.LocallySteady P) (hb : P b) {index value : Nat}
    {h : Handled β} (he : writeRegister b index value = .ok h) : P h.board := by
  rcases (writeRegister_cases he).2 with hk | ⟨taken, hs⟩
  · rwa [hk]
  · exact hP.setRegister hb hs

lemma execute_steady (hP : Board.LocallySteady P) (hb : P b) (command : Command) :
    P (execute f b t command).board := by
  cases command with
  | attention | forceUpdate | testMode change | online | reset => exact hb
  | factoryReset => exact hP.resetRegisters hb
  | save => exact hP.saveRegisters hb
  | extended request =>
    refine settled_steady hb fun h he => ?_
    cases he
    exact extended_steady hP hb request
  | info query => exact settled_steady hb fun h he => (info_reads he).1 ▸ hb
  | pinList => exact settled_steady hb fun h he => (pinList_reads he).1 ▸ hb
  | pin index action => exact settled_steady hb fun h he => pin_steady hP hb he
  | readRegister index => exact settled_steady hb fun h he => (readRegister_reads he).1 ▸ hb
  | writeRegister index value => exact settled_steady hb fun h he => writeRegister_steady hP hb he

theorem run_steady (hP : Board.Steady P) (hb : P b) (line : String) :
    P (run f b t line).board := by
  simp only [run]
  cases Request.parse line with
  | ignored => exact hb
  | remote destination command =>
    cases destination with
    | ok d => exact hP.forward hb
    | error r => exact hb
  | here command =>
    cases command with
    | ok command => exact execute_steady hP.toLocallySteady hb command
    | error r => exact hb

end Dispatch

end RadioModem
