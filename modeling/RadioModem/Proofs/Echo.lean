import Mathlib.Data.List.Induction
import Mathlib.Logic.Function.Basic
import RadioModem.Proofs.Editor

/-!
# What the operator sees

The echo of a line played on a row of a terminal. As long as the line does not overflow, the row
shows what the line holds, with the cursor at its end, behind whatever stood on the row before. The
invariant that a key keeps has three sides: the keys typed so far, the buffer, and the row.
-/
namespace RadioModem

/-- A row of a terminal. A cell that was never printed to is blank. -/
structure Row where
  cells : Nat → Char
  cursor : Nat

namespace Row

def blank : Row := ⟨fun _ => ' ', 0⟩

/-- Prints over the cell at the cursor. -/
def put (r : Row) (c : Char) : Row := ⟨Function.update r.cells r.cursor c, r.cursor + 1⟩

def back (r : Row) : Row := { r with cursor := r.cursor - 1 }

def display (r : Row) (c : Char) : Row := if c = '\x08' then r.back else r.put c

def replay (r : Row) (echo : String) : Row := echo.toList.foldl display r

/-- The row reads as the text and nothing else, and the cursor stands behind it. -/
structure Shows (r : Row) (text : List Char) : Prop where
  cells : ∀ i, r.cells i = text[i]?.getD ' '
  cursor : r.cursor = text.length

variable {r : Row} {text : List Char} {c : Char}

lemma shows_blank : blank.Shows [] := ⟨fun _ => rfl, rfl⟩

@[simp] lemma replay_empty (r : Row) : r.replay "" = r := rfl

@[simp] lemma replay_append (r : Row) (a b : String) : r.replay (a ++ b) = (r.replay a).replay b := by
  simp [replay]

lemma cells_append (text : List Char) (c : Char) :
    (fun i => (text ++ [c])[i]?.getD ' ') =
      Function.update (fun i => text[i]?.getD ' ') text.length c := by
  funext i
  rw [Function.update_apply, List.getElem?_append]
  rcases Nat.lt_trichotomy i text.length with hlt | rfl | hgt
  · rw [if_pos hlt, if_neg (Nat.ne_of_lt hlt)]
  · simp
  · have hbeyond : [c].length ≤ i - text.length := Nat.sub_pos_of_lt hgt
    rw [if_neg (Nat.not_lt_of_gt hgt), if_neg (Nat.ne_of_gt hgt),
      List.getElem?_eq_none hbeyond, List.getElem?_eq_none (Nat.le_of_lt hgt)]

lemma Shows.put (h : r.Shows text) (c : Char) : (r.put c).Shows (text ++ [c]) := by
  refine ⟨congrFun ?_, by simp [Row.put, h.cursor]⟩
  rw [cells_append, ← funext h.cells, ← h.cursor]
  rfl

/-- To blank the cell in front of the cursor takes the last character off the row. -/
lemma Shows.rubOut (h : r.Shows (text ++ [c])) : (r.replay rubOut).Shows text := by
  have hcursor : r.cursor = text.length + 1 := by simpa using h.cursor
  have hreplay : r.replay RadioModem.rubOut = (r.back.put ' ').back := rfl
  have hblank : text[text.length]?.getD ' ' = ' ' := by simp
  refine ⟨congrFun ?_, by simp [hreplay, Row.back, Row.put, hcursor]⟩
  rw [hreplay]
  calc Function.update r.cells (r.cursor - 1) ' '
      = Function.update (Function.update (fun i => text[i]?.getD ' ') text.length c)
          text.length ' ' := by rw [funext h.cells, cells_append, hcursor, Nat.add_sub_cancel]
    _ = Function.update (fun i => text[i]?.getD ' ') text.length ' ' := Function.update_idem ..
    _ = fun i => text[i]?.getD ' ' := Function.update_eq_self_iff.mpr hblank.symm

end Row

namespace LineBuffer

/-- The keystrokes that a run of bytes makes, one for each. -/
def strokes (l : LineBuffer) : List UInt8 → List Keystroke
  | [] => []
  | byte :: bytes => l.key byte :: (l.key byte).line.strokes bytes

def after (l : LineBuffer) (bytes : List UInt8) : LineBuffer :=
  bytes.foldl (fun l byte => (l.key byte).line) l

def echo (l : LineBuffer) (bytes : List UInt8) : String :=
  String.join ((l.strokes bytes).map Keystroke.echo)

def events (l : LineBuffer) (bytes : List UInt8) : List EditEvent :=
  (l.strokes bytes).map Keystroke.event

variable {l : LineBuffer} {capacity : Nat} {bytes before : List UInt8} {byte : UInt8}

lemma strokes_append (l : LineBuffer) (bytes later : List UInt8) :
    l.strokes (bytes ++ later) = l.strokes bytes ++ (l.after bytes).strokes later := by
  induction bytes generalizing l with
  | nil => rfl
  | cons byte bytes ih => exact congrArg (l.key byte :: ·) (ih _)

lemma after_concat (l : LineBuffer) (bytes : List UInt8) (byte : UInt8) :
    l.after (bytes ++ [byte]) = ((l.after bytes).key byte).line := by
  simp [after]

lemma echo_concat (l : LineBuffer) (bytes : List UInt8) (byte : UInt8) :
    l.echo (bytes ++ [byte]) = l.echo bytes ++ ((l.after bytes).key byte).echo := by
  simp [echo, strokes_append, strokes]

lemma events_concat (l : LineBuffer) (bytes : List UInt8) (byte : UInt8) :
    l.events (bytes ++ [byte]) = l.events bytes ++ [((l.after bytes).key byte).event] := by
  simp [events, strokes_append, strokes]

lemma typed_concat (bytes : List UInt8) (byte : UInt8) :
    (typed (bytes ++ [byte])).toList = strike (typed bytes).toList byte := by
  simp [typed]

lemma charOfByte_ne_back {b : UInt8} (h : IsLineByte b) : charOfByte b ≠ '\x08' := by
  revert h
  exact forall_byte (P := fun b => IsLineByte b → charOfByte b ≠ '\x08') (by decide +kernel) b

/-- A line that has not overflowed holds what was typed, and its echo shows it. -/
structure Follows (capacity : Nat) (bytes : List UInt8) : Prop where
  sound : ((ofCapacity capacity).after bytes).Sound
  room : ((ofCapacity capacity).after bytes).capacity = capacity
  holds : ((ofCapacity capacity).after bytes).bytes.map charOfByte = (typed bytes).toList
  shows : ∀ (r : Row) (prompt : List Char), r.Shows prompt →
    (r.replay ((ofCapacity capacity).echo bytes)).Shows (prompt ++ (typed bytes).toList)

/-- What a key does to a row that shows its line. -/
lemma Struck.shows {k : Keystroke} (h : Struck l byte k) (hr : byte ≠ 0x0D)
    (he : k.event ≠ .overflow) {r : Row} {prompt : List Char}
    (hrow : r.Shows (prompt ++ l.bytes.map charOfByte)) :
    (r.replay k.echo).Shows (prompt ++ k.line.bytes.map charOfByte) := by
  cases h with
  | ended h => exact absurd h hr
  | passed => exact hrow
  | overflowed => exact absurd rfl he
  | added hp hf =>
    have hchar : charOfByte (upperByte byte) ≠ '\x08' := charOfByte_ne_back (isLineByte_upperByte hp)
    have hput : r.replay (String.singleton (charOfByte (upperByte byte))) =
        r.put (charOfByte (upperByte byte)) := by
      simp [Row.replay, Row.display, hchar]
    have hline : prompt ++ (l.bytes ++ [upperByte byte]).map charOfByte =
        prompt ++ l.bytes.map charOfByte ++ [charOfByte (upperByte byte)] := by simp
    rw [hput, hline]
    exact hrow.put _
  | erased h =>
    rcases List.eq_nil_or_concat l.bytes with hnil | ⟨front, last, hconcat⟩
    · simpa [erase, isEmpty, pop, hnil] using hrow
    · have hline : prompt ++ l.bytes.map charOfByte =
          prompt ++ front.map charOfByte ++ [charOfByte last] := by simp [hconcat]
      rw [hline] at hrow
      simpa [erase, isEmpty, pop, hconcat] using hrow.rubOut

lemma follows_nil (capacity : Nat) : Follows capacity [] where
  sound := ⟨Nat.zero_le _, by simp [after, ofCapacity]⟩
  room := rfl
  holds := rfl
  shows r prompt h := by simpa [typed, echo, strokes] using h

/-- A key that is no return and does not overflow keeps the three sides together. -/
lemma Follows.key (h : Follows capacity bytes) (hr : byte ≠ 0x0D)
    (he : (((ofCapacity capacity).after bytes).key byte).event ≠ .overflow) :
    Follows capacity (bytes ++ [byte]) := by
  have hstruck := key_struck ((ofCapacity capacity).after bytes) byte
  have hstroke := key_stroke ((ofCapacity capacity).after bytes) byte
  have hpending : (((ofCapacity capacity).after bytes).key byte).event = .pending := by
    cases hevent : (((ofCapacity capacity).after bytes).key byte).event with
    | pending => rfl
    | lineReady => exact absurd (hstroke.return_iff.mp hevent) hr
    | overflow => exact absurd hevent he
  have hholds : (((ofCapacity capacity).after bytes).key byte).line.bytes.map charOfByte =
      (typed (bytes ++ [byte])).toList := by
    rw [hpending] at hstroke
    rw [hstroke.follows, h.holds, typed_concat]
  refine ⟨?_, ?_, ?_, fun r prompt hrow => ?_⟩
  · rw [after_concat]
    exact hstroke.sound h.sound
  · rw [after_concat]
    exact hstroke.capacity.trans h.room
  · rw [after_concat]
    exact hholds
  · have hbefore := h.shows r prompt hrow
    rw [← h.holds] at hbefore
    rw [echo_concat, Row.replay_append, ← hholds]
    exact hstruck.shows hr he hbefore

theorem follows_of_no_overflow (hr : 0x0D ∉ bytes)
    (he : .overflow ∉ (ofCapacity capacity).events bytes) : Follows capacity bytes := by
  induction bytes using List.reverseRecOn with
  | nil => exact follows_nil capacity
  | append_singleton bytes byte ih =>
    rw [events_concat, List.mem_append, List.mem_singleton, not_or] at he
    rw [List.mem_append, List.mem_singleton, not_or] at hr
    exact (ih hr.1 he.1).key (Ne.symm hr.2) (Ne.symm he.2)

/-! ### Overflow -/

lemma isControlByte_eq_false_iff : isControlByte byte = false ↔ 0x20 ≤ byte ∧ byte ≠ 0x7F := by
  simp [isControlByte, UInt8.not_lt]

lemma Follows.isFull_iff (h : Follows capacity bytes) :
    ((ofCapacity capacity).after bytes).isFull = true ↔ (typed bytes).length = capacity := by
  have hlength : ((ofCapacity capacity).after bytes).size = (typed bytes).length := by
    rw [← String.length_toList, ← h.holds, List.length_map]
    rfl
  have hbounded := h.sound.bounded
  rw [h.room, hlength] at hbounded
  rw [isFull, decide_eq_true_iff, h.room, hlength]
  exact ⟨Nat.le_antisymm hbounded, fun h => Nat.le_of_eq h.symm⟩

lemma Follows.overflow_iff (h : Follows capacity bytes) (hr : byte ≠ 0x0D) :
    (((ofCapacity capacity).after bytes).key byte).event = .overflow ↔
      0x20 ≤ byte ∧ byte ≠ 0x7F ∧ (typed bytes).length = capacity := by
  rw [← and_assoc, ← isControlByte_eq_false_iff, ← h.isFull_iff]
  have hstruck := key_struck ((ofCapacity capacity).after bytes) byte
  generalize ((ofCapacity capacity).after bytes).key byte = k at hstruck
  cases hstruck with
  | ended h => exact absurd h hr
  | erased h =>
    refine iff_of_false nofun fun hfull => ?_
    rcases h with rfl | rfl <;> exact absurd hfull.1 (by decide)
  | passed _ _ _ hc =>
    refine iff_of_false nofun fun hfull => ?_
    rcases hc with hc | hc
    · exact absurd (hc.symm.trans hfull.1) (by decide)
    · exact absurd (hc.symm.trans hfull.2) (by decide)
  | added _ hf => exact iff_of_false nofun fun hfull => absurd (hf.symm.trans hfull.2) (by decide)
  | overflowed hc hf => exact iff_of_true rfl ⟨hc, hf⟩

/-- What an overflow leaves is a fresh line. -/
lemma Follows.overflowed (h : Follows capacity bytes)
    (he : (((ofCapacity capacity).after bytes).key byte).event = .overflow) :
    (((ofCapacity capacity).after bytes).key byte).line = ofCapacity capacity ∧
      (((ofCapacity capacity).after bytes).key byte).echo = "" := by
  have hstruck := key_struck ((ofCapacity capacity).after bytes) byte
  generalize ((ofCapacity capacity).after bytes).key byte = k at hstruck he
  cases hstruck with
  | overflowed => exact ⟨congrArg (LineBuffer.mk · []) h.room, rfl⟩
  | ended | erased | passed | added => cases he

lemma key_high (hb : 0x80 ≤ byte) (hf : l.isFull = false) :
    l.key byte = ⟨l, "", .pending, .empty⟩ := by
  have hlow : ∀ b : UInt8, 0x80 ≤ b → ¬(b = 0x0D ∨ b = 0x08 ∨ b = 0x7F ∨ b ≤ 0x7E) :=
    forall_byte (by decide +kernel)
  obtain ⟨hr, he, hd, hp⟩ : byte ≠ 0x0D ∧ byte ≠ 0x08 ∧ byte ≠ 0x7F ∧ ¬byte ≤ 0x7E := by
    simpa only [not_or] using hlow byte hb
  have hstruck := key_struck l byte
  generalize l.key byte = k at hstruck
  cases hstruck with
  | ended h => exact absurd h hr
  | erased h => exact absurd h (not_or.mpr ⟨he, hd⟩)
  | passed => rfl
  | added h => exact absurd h.2 hp
  | overflowed _ h => cases hf.symm.trans h

/-- A line overflows in a run of keys at the first key that is no control and comes when the
capacity is used up; until then the keys are gathered with what they erase taken away. -/
lemma overflow_mem_iff (hr : 0x0D ∉ bytes) : .overflow ∈ (ofCapacity capacity).events bytes ↔
    ∃ before byte, before ++ [byte] <+: bytes ∧
      0x20 ≤ byte ∧ byte ≠ 0x7F ∧ (typed before).length = capacity := by
  induction bytes using List.reverseRecOn with
  | nil => simp [events, strokes]
  | append_singleton bytes byte ih =>
    rw [List.mem_append, List.mem_singleton, not_or] at hr
    rw [events_concat, List.mem_append, List.mem_singleton]
    by_cases he : .overflow ∈ (ofCapacity capacity).events bytes
    · obtain ⟨before, b, hstart, hfull⟩ := (ih hr.1).mp he
      exact iff_of_true (.inl he) ⟨before, b, hstart.trans (List.prefix_append ..), hfull⟩
    · have hstep := (follows_of_no_overflow hr.1 he).overflow_iff (Ne.symm hr.2)
      rw [or_iff_right he, eq_comm, hstep]
      constructor
      · exact fun hfull => ⟨bytes, byte, List.prefix_rfl, hfull⟩
      · rintro ⟨before, b, hstart, hfull⟩
        rcases List.prefix_concat_iff.mp hstart with hall | hstart
        · obtain ⟨rfl, hlast⟩ := List.append_inj' hall rfl
          obtain rfl : b = byte := List.singleton_inj.mp hlast
          exact hfull
        · exact absurd ((ih hr.1).mpr ⟨before, b, hstart, hfull⟩) he

/-- Until a line overflows it holds the keys typed in upper case and shows them on a terminal. It
overflows at the first key that is no control and finds no room; then the line is as fresh. -/
theorem shows_line (capacity : Nat) (hr : 0x0D ∉ bytes) :
    let fresh := ofCapacity capacity
    (.overflow ∉ fresh.events bytes →
      (fresh.after bytes).text = typed bytes ∧
      ∀ (r : Row) (prompt : List Char), r.Shows prompt →
        (r.replay (fresh.echo bytes)).Shows (prompt ++ (typed bytes).toList)) ∧
    (.overflow ∈ fresh.events bytes ↔ ∃ before byte, before ++ [byte] <+: bytes ∧
      0x20 ≤ byte ∧ byte ≠ 0x7F ∧ (typed before).length = capacity) ∧
    ∀ before byte, before ++ [byte] <+: bytes → .overflow ∉ fresh.events before →
      let k := (fresh.after before).key byte
      (k.event = .overflow ↔ 0x20 ≤ byte ∧ byte ≠ 0x7F ∧ (typed before).length = capacity) ∧
      (k.event = .overflow → k.line = fresh ∧ k.line.text = "" ∧ k.echo = "") ∧
      (0x80 ≤ byte → (typed before).length < capacity →
        k.line = fresh.after before ∧ k.echo = "" ∧ k.event = .pending) := by
  refine ⟨fun he => ?_, overflow_mem_iff hr, fun before byte hstart he => ?_⟩
  · have h := follows_of_no_overflow hr he
    refine ⟨?_, h.shows⟩
    rw [h.sound.text, h.holds, String.ofList_toList]
  · have hmem : ∀ b ∈ before ++ [byte], b ≠ 0x0D :=
      fun b hb => ne_of_mem_of_not_mem (hstart.subset hb) hr
    have h := follows_of_no_overflow (fun hb => hmem _ (List.mem_append_left _ hb) rfl) he
    have hbyte : byte ≠ 0x0D := hmem byte (List.mem_append_right _ (List.mem_singleton_self _))
    refine ⟨h.overflow_iff hbyte, fun hover => ?_, fun hhigh hroom => ?_⟩
    · obtain ⟨hline, hecho⟩ := h.overflowed hover
      exact ⟨hline, by rw [hline]; rfl, hecho⟩
    · have hnotFull : ((ofCapacity capacity).after before).isFull = false :=
        Bool.eq_false_iff.mpr (mt h.isFull_iff.mp (Nat.ne_of_lt hroom))
      rw [key_high hhigh hnotFull]
      exact ⟨rfl, rfl, rfl⟩

/-- Two characters fill the line after one more was rubbed out; the high byte behind them abandons
it. -/
theorem shows_line_full :
    let fresh := ofCapacity 2
    let keys : List UInt8 := [0x61, 0x62, 0x08, 0xC3, 0x63]
    0x0D ∉ keys ++ [0xC3] ∧ .overflow ∉ fresh.events keys ∧
    (Row.blank.replay (fresh.echo keys)).Shows ['A', 'C'] ∧
    ((fresh.after keys).key 0xC3).event = .overflow ∧ ((fresh.after keys).key 0xC3).echo = "" := by
  intro fresh keys
  have hr : 0x0D ∉ keys ++ [0xC3] := by decide
  have he : .overflow ∉ fresh.events keys := by decide +kernel
  obtain ⟨hshows, -, -⟩ := shows_line 2 (show 0x0D ∉ keys by decide)
  obtain ⟨-, -, hkeys⟩ := shows_line 2 hr
  obtain ⟨hover, hgone, -⟩ := hkeys keys 0xC3 List.prefix_rfl he
  have hevent := hover.mpr (by decide +kernel)
  have htyped : (typed keys).toList = ['A', 'C'] := by decide +kernel
  have hrow := (hshows he).2 _ _ Row.shows_blank
  rw [List.nil_append, htyped] at hrow
  exact ⟨hr, he, hrow, hevent, (hgone hevent).2.2⟩

end LineBuffer

end RadioModem
