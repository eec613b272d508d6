import Mathlib.Data.List.Forall2
import RadioModem.Proofs.Chunks

/-!
# Letter case

Lines are kept in upper case, and no letter is part of the escape sequence. So runs whose bytes
differ in the case of letters only go the same way; only the radio data keeps the case it came in.
-/
namespace RadioModem

/-- The same byte, or the same letter of the alphabet in another case. -/
def SameLetter (a b : UInt8) : Prop := (charOfByte a).toUpper = (charOfByte b).toUpper
  deriving Decidable

lemma charOfByte_toNat (byte : UInt8) : (charOfByte byte).toNat = byte.toNat :=
  forall_byte (P := fun b => (charOfByte b).toNat = b.toNat) (by decide +kernel) byte

lemma charOfByte_inj {a b : UInt8} (h : charOfByte a = charOfByte b) : a = b := by
  have hvalue := congrArg Char.toNat h
  rw [charOfByte_toNat, charOfByte_toNat] at hvalue
  exact UInt8.toNat_inj.mp hvalue

lemma SameLetter.upper {a b : UInt8} (h : SameLetter a b) : upperByte a = upperByte b := by
  rw [SameLetter, ← charOfByte_upperByte, ← charOfByte_upperByte] at h
  exact charOfByte_inj h

lemma sameLetter_refl (byte : UInt8) : SameLetter byte byte := rfl

/-! ### Upper case is as good as what was typed -/

lemma upperByte_upperByte (byte : UInt8) : upperByte (upperByte byte) = upperByte byte :=
  forall_byte (P := fun b => upperByte (upperByte b) = upperByte b) (by decide +kernel) byte

/-- Only printable bytes have a case. -/
lemma upperByte_of_not_printable {byte : UInt8} (h : ¬(0x20 ≤ byte ∧ byte ≤ 0x7E)) :
    upperByte byte = byte := by
  revert h
  exact forall_byte (P := fun b => ¬(0x20 ≤ b ∧ b ≤ 0x7E) → upperByte b = b)
    (by decide +kernel) byte

lemma upperByte_escape_iff (byte : UInt8) : upperByte byte = escapeByte ↔ byte = escapeByte :=
  forall_byte (P := fun b => upperByte b = escapeByte ↔ b = escapeByte) (by decide +kernel) byte

namespace LineBuffer
variable (l : LineBuffer) (byte : UInt8)

lemma insert_upperByte : l.insert (upperByte byte) = l.insert byte := by
  simp only [insert, upperByte_upperByte]

lemma key_printable {byte : UInt8} (h : 0x20 ≤ byte ∧ byte ≤ 0x7E) :
    l.key byte = l.insert byte := by
  have hplain : byte ≠ 0x0D ∧ ¬(byte = 0x08 ∨ byte = 0x7F) := by
    constructor
    · rintro rfl
      exact absurd h (by decide)
    · rintro (rfl | rfl) <;> exact absurd h (by decide)
  have hcontrol : isControlByte byte = false :=
    Bool.eq_false_iff.mpr fun hc => not_printable_of_control hc h
  simp [key, hplain, hcontrol, (isPrintableByte_iff byte).mpr h]

lemma key_upperByte : l.key (upperByte byte) = l.key byte := by
  by_cases h : 0x20 ≤ byte ∧ byte ≤ 0x7E
  · obtain ⟨hlow, hhigh, -⟩ := isLineByte_upperByte h
    rw [l.key_printable ⟨hlow, hhigh⟩, l.key_printable h, insert_upperByte]
  · rw [upperByte_of_not_printable h]

end LineBuffer

namespace EscapeDetector
variable (d : EscapeDetector) (byte : UInt8)

lemma onByte_upperByte : d.onByte (upperByte byte) = d.onByte byte := by
  simp only [onByte, upperByte_escape_iff]

lemma byteJournal_upperByte : d.byteJournal (upperByte byte) = d.byteJournal byte := by
  simp only [byteJournal, upperByte_escape_iff, onByte_upperByte]

end EscapeDetector

/-- Steps that nothing tells apart but their records. -/
structure ByteStep.Alike (s t : ByteStep) : Prop where
  modem : s.modem = t.modem
  route : s.route = t.route
  echo : s.echo = t.echo
  counts : s.journal.counts = t.journal.counts

namespace Modem
variable (m : Modem)

/-- The record of a byte that is dropped tells its case, and nothing else does. -/
lemma receive_upperByte (byte : UInt8) :
    (m.receive (upperByte byte)).Alike (m.receive byte) := by
  have hedit : m.edit (upperByte byte) = m.edit byte := by
    simp only [edit, LineBuffer.key_upperByte]
  unfold receive
  split
  · exact ⟨rfl, rfl, rfl, rfl⟩
  · split
    · exact ⟨rfl, rfl, rfl, rfl⟩
    · rw [hedit]
      exact ⟨rfl, rfl, rfl, rfl⟩

lemma onByte_upperByte (byte : UInt8) : (m.onByte (upperByte byte)).Alike (m.onByte byte) := by
  obtain ⟨hmodem, hroute, hecho, hcounts⟩ :=
    { m with escape := m.escape.onByte byte }.receive_upperByte byte
  unfold onByte
  rw [EscapeDetector.onByte_upperByte, EscapeDetector.byteJournal_upperByte]
  exact ⟨hmodem, hroute, hecho, by simp only [Journal.counts_append, hcounts]⟩

lemma onByte_sameLetter {a b : UInt8} (h : SameLetter a b) : (m.onByte a).Alike (m.onByte b) := by
  have ha := m.onByte_upperByte a
  have hb := m.onByte_upperByte b
  rw [h.upper] at ha
  exact ⟨ha.modem.symm.trans hb.modem, ha.route.symm.trans hb.route,
    ha.echo.symm.trans hb.echo, ha.counts.symm.trans hb.counts⟩

end Modem

/-! ### Two runs -/

/-- Handlings that nothing tells apart but their records and the case of their data. -/
structure Handling.SameLetters (h k : Handling) : Prop where
  modem : h.modem = k.modem
  node : h.node = k.node
  reply : h.reply = k.reply
  data : List.Forall₂ SameLetter h.data k.data
  stop : h.stop = k.stop
  counts : h.journal.counts = k.journal.counts

lemma Handling.SameLetters.followed {h k h' k' : Handling} (hh : SameLetters h h')
    (hk : SameLetters k k') : SameLetters (h.followed k) (h'.followed k') where
  modem := hk.modem
  node := hk.node
  reply := by simp only [Handling.followed, hh.reply, hk.reply]
  data := List.rel_append hh.data hk.data
  stop := hk.stop
  counts := by simp only [Handling.followed, Journal.counts_append, hh.counts, hk.counts]

/-- The same event, but for the case of the letters that came in. -/
inductive SessionEvent.SameLetters : SessionEvent → SessionEvent → Prop
  | serial {a b : List UInt8} (h : List.Forall₂ SameLetter a b) :
      SameLetters (.serial a) (.serial b)
  | tick : SameLetters .tick .tick

/-- Turns that leave the same session and do the same, but for the case of the data. -/
inductive Turn.SameLetters : Turn → Turn → Prop
  | returned {s : Session} {reply : String} {a b : List UInt8} {relayed : List Relayed}
      {halt : Option HaltReason} {j k : Journal} (hdata : List.Forall₂ SameLetter a b)
      (hcounts : j.counts = k.counts) :
      SameLetters ⟨s, .ok ⟨reply, a, relayed, halt⟩, j⟩ ⟨s, .ok ⟨reply, b, relayed, halt⟩, k⟩
  | crashed {s : Session} {message : String} {j k : Journal} (hcounts : j.counts = k.counts) :
      SameLetters ⟨s, .error message, j⟩ ⟨s, .error message, k⟩

lemma Turn.SameLetters.session {t u : Turn} (h : SameLetters t u) : t.session = u.session := by
  cases h <;> rfl

namespace Session

lemma handleByte_sameLetter (m : Modem) (n : Node) {a b : UInt8} (h : SameLetter a b) :
    (handleByte m n a).SameLetters (handleByte m n b) := by
  obtain ⟨hmodem, hroute, hecho, hcounts⟩ := m.onByte_sameLetter h
  refine ⟨?_, ?_, ?_, ?_, ?_, ?_⟩
  · simp only [handleByte, hmodem]
  · simp only [handleByte, hmodem]
  · simp only [handleByte, hmodem, hecho]
  · simp only [handleByte, hroute]
    split
    · exact .cons h .nil
    · exact .nil
  · simp only [handleByte, hmodem]
  · simp only [handleByte, hmodem, Journal.counts_append, hcounts]

theorem handleBytes_sameLetters (m : Modem) (n : Node) {a b : List UInt8}
    (h : List.Forall₂ SameLetter a b) :
    (handleBytes m n a).SameLetters (handleBytes m n b) := by
  induction h generalizing m n with
  | nil => exact ⟨rfl, rfl, rfl, .nil, rfl, rfl⟩
  | @cons x y a b hbyte _ ih =>
    have hfirst := handleByte_sameLetter m n hbyte
    cases hstop : (handleByte m n x).stop with
    | some how =>
      rw [handleBytes_cons_stop hstop, handleBytes_cons_stop (hfirst.stop ▸ hstop)]
      exact hfirst
    | none =>
      rw [handleBytes_cons_go hstop, handleBytes_cons_go (hfirst.stop ▸ hstop), ← hfirst.modem,
        ← hfirst.node]
      exact hfirst.followed (ih _ _)

lemma passthroughJournal_counts {a b : List UInt8} (h : a.length = b.length) :
    (passthroughJournal a).counts = (passthroughJournal b).counts := by
  have hempty : a.isEmpty = b.isEmpty := by
    rw [Bool.eq_iff_iff, List.isEmpty_iff_length_eq_zero, List.isEmpty_iff_length_eq_zero, h]
  simp only [passthroughJournal, hempty, h]

lemma drained_sameLetters (ticks : UInt32) {h k : Handling} (hk : h.SameLetters k)
    (halt : Option HaltReason) :
    (drained ticks h halt).SameLetters (drained ticks k halt) := by
  have hcounts : (h.journal ++ passthroughJournal h.data).counts =
      (k.journal ++ passthroughJournal k.data).counts := by
    rw [Journal.counts_append, Journal.counts_append, hk.counts,
      passthroughJournal_counts hk.data.length_eq]
  unfold drained
  rw [hk.modem, hk.node, hk.reply]
  exact .returned hk.data hcounts

lemma turn_sameLetters (s : Session) {e f : SessionEvent} (h : e.SameLetters f) :
    (s.turn e).SameLetters (s.turn f) := by
  cases h with
  | tick =>
    show (s.onTick).SameLetters s.onTick
    obtain ⟨t, output, journal⟩ := s.onTick
    cases output with
    | ok o => exact .returned (List.forall₂_same.mpr fun byte _ => sameLetter_refl byte) rfl
    | error message => exact .crashed rfl
  | @serial a b h =>
    have hk := handleBytes_sameLetters s.modem s.node h
    show (s.onSerial a).SameLetters (s.onSerial b)
    rw [onSerial_eq_ended, onSerial_eq_ended]
    unfold ended
    rw [← hk.stop]
    rcases (handleBytes s.modem s.node a).stop with _ | reason | message
    · exact drained_sameLetters s.ticks hk none
    · exact drained_sameLetters s.ticks hk (some reason)
    · rw [hk.modem, hk.node]
      exact .crashed hk.counts

/-- From any session, runs that differ in the case of letters only give the same replies, relay the
same commands and stop the board at the same event, hand out data that differs in case only, and
end in the same session. -/
theorem letter_case_ignored (s : Session) {es fs : List SessionEvent}
    (h : List.Forall₂ SessionEvent.SameLetters es fs) :
    List.Forall₂ Turn.SameLetters (s.turns es) (s.turns fs) ∧ s.after es = s.after fs := by
  induction h generalizing s with
  | nil => exact ⟨.nil, rfl⟩
  | @cons e f es fs he _ ih =>
    have hturn := s.turn_sameLetters he
    obtain ⟨hturns, hafter⟩ := ih (s.turn e).session
    rw [turns, turns, after, after, ← hturn.session]
    exact ⟨.cons hturn hturns, hafter⟩

/-- A register is read, command mode is left, and a word is sent as data. -/
def spelled : List SessionEvent :=
  [.serial "ats3?\rAto\r".toUTF8.toList, .tick, .serial "Hello".toUTF8.toList]

/-- The same in other cases. -/
def respelled : List SessionEvent :=
  [.serial "AtS3?\raTO\r".toUTF8.toList, .tick, .serial "hELLO".toUTF8.toList]

theorem letter_case_ignored_spelled : ∃ s, ofConfiguration alert = .ok s ∧
    let t := s.after commanding
    List.Forall₂ Turn.SameLetters (t.turns spelled) (t.turns respelled) ∧
    t.after spelled = t.after respelled ∧
    (t.turns spelled).map Turn.output =
      [.ok ⟨"ATS3?\n[0] 25\nATO\n", [], [], none⟩, .ok ⟨"", [], [], none⟩,
        .ok ⟨"", "Hello".toUTF8.toList, [], none⟩] := by
  have hsame : List.Forall₂ SessionEvent.SameLetters spelled respelled :=
    .cons (.serial (by decide +kernel)) (.cons .tick (.cons (.serial (by decide +kernel)) .nil))
  obtain ⟨hturns, hafter⟩ := letter_case_ignored (.after (.ofParts _ _) commanding) hsame
  exact ⟨_, rfl, hturns, hafter, by decide +kernel⟩

end Session

end RadioModem
