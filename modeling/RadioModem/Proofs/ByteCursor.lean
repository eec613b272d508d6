import Mathlib.Data.Nat.Digits.Defs
import Mathlib.Tactic.Ring
import RadioModem.Proofs.ByteOrder
import RadioModem.Proofs.Decimal
import RadioModem.Text.Cursor

/-!
# Numbers read from bytes

Read from any place among bytes, a number is the value of all the digits there, and it is refused
only if that is too large for a word. A text is read in the same way, character by character, since
a digit is one byte and no other character begins with the byte of one.
-/
namespace RadioModem.Text.Cursor

/-! ### Words -/

section
variable {a b c n next : UInt32} {digit : UInt8}

lemma product?_eq_some_iff : product? a b = some c ↔ a.toNat * b.toNat = c.toNat := by
  unfold product?
  split
  · next hsmall =>
    rw [Option.some.injEq, ← UInt32.toNat_inj, UInt32.toNat_mul, Nat.mod_eq_of_lt hsmall]
  · next hlarge =>
    refine iff_of_false (by simp) fun hc => hlarge ?_
    rw [hc]
    exact c.toNat_lt

lemma sum?_eq_some_iff : sum? a b = some c ↔ a.toNat + b.toNat = c.toNat := by
  unfold sum?
  split
  · next hsmall =>
    rw [Option.some.injEq, ← UInt32.toNat_inj, UInt32.toNat_add, Nat.mod_eq_of_lt hsmall]
  · next hlarge =>
    refine iff_of_false (by simp) fun hc => hlarge ?_
    rw [hc]
    exact c.toNat_lt

def digitValue (digit : UInt8) : Nat := digit.toNat - 48

lemma isDigitByte_iff : isDigitByte digit = true ↔ 48 ≤ digit.toNat ∧ digit.toNat ≤ 57 := by
  rw [isDigitByte, Bool.and_eq_true, decide_eq_true_iff, decide_eq_true_iff, UInt8.le_iff_toNat_le,
    UInt8.le_iff_toNat_le]
  rfl

/-- A digit is taken exactly if the longer number is a word, and then that is the number. -/
lemma appended?_eq_some_iff (h : isDigitByte digit = true) :
    appended? n digit = some next ↔ 10 * n.toNat + digitValue digit = next.toNat := by
  have hdigit : (digit - 0x30).toUInt32.toNat = digitValue digit := by
    rw [UInt8.toNat_toUInt32, UInt8.toNat_sub_of_le _ _ (isDigitByte_iff.mp h).1]
    rfl
  have hten : (10 : UInt32).toNat = 10 := rfl
  rw [appended?, Option.bind_eq_bind, Option.bind_eq_some_iff]
  simp only [product?_eq_some_iff, sum?_eq_some_iff, hdigit, hten]
  constructor
  · rintro ⟨scaled, hscaled, hsum⟩
    omega
  · intro hnext
    have hsmall : n.toNat * 10 < UInt32.size := by
      have hword := next.toNat_lt
      have hsize : UInt32.size = 2 ^ 32 := rfl
      omega
    have hscaled : (UInt32.ofNat (n.toNat * 10)).toNat = n.toNat * 10 :=
      UInt32.toNat_ofNat_of_lt' hsmall
    exact ⟨UInt32.ofNat (n.toNat * 10), hscaled.symm, by omega⟩

end

/-! ### Runs of digits -/

/-- The digits from the place on, for as long as there are any. -/
def run (c : Cursor) : List UInt8 := (c.bytes.drop c.place).takeWhile isDigitByte

/-- The number that digits write in the decimal system, the last of them its units. -/
def worth (digits : List UInt8) : Nat := Nat.ofDigits 10 (digits.reverse.map digitValue)

lemma worth_cons (digit : UInt8) (digits : List UInt8) :
    worth (digit :: digits) = 10 ^ digits.length * digitValue digit + worth digits := by
  simp [worth, Nat.ofDigits_append]
  omega

section
variable {c : Cursor} {n : UInt32}

lemma ahead_ahead (c : Cursor) (j k : Nat) : (c.ahead j).ahead k = c.ahead (j + k) := by
  simp only [ahead, Nat.add_assoc]

lemma run_digit (hplace : c.place < c.bytes.length) (h : isDigitByte c.bytes[c.place] = true) :
    c.run = c.bytes[c.place] :: (c.ahead 1).run := by
  rw [run, List.drop_eq_getElem_cons hplace, List.takeWhile_cons, if_pos h]
  rfl

lemma run_other (hplace : c.place < c.bytes.length) (h : ¬isDigitByte c.bytes[c.place] = true) :
    c.run = [] := by
  rw [run, List.drop_eq_getElem_cons hplace, List.takeWhile_cons, if_neg h]

lemma run_end (hplace : ¬c.place < c.bytes.length) : c.run = [] := by
  rw [run, List.drop_eq_nil_of_le (Nat.le_of_not_lt hplace), List.takeWhile_nil]

lemma length_run_le (c : Cursor) : c.run.length ≤ c.bytes.length - c.place := by
  rw [← List.length_drop]
  exact List.Sublist.length_le (List.takeWhile_sublist _)

/-- The number that digits make of the number in front of them. -/
def prolonged (n : Nat) (digits : List UInt8) : Nat := 10 ^ digits.length * n + worth digits

lemma prolonged_cons (n : Nat) (digit : UInt8) (digits : List UInt8) :
    prolonged n (digit :: digits) = prolonged (10 * n + digitValue digit) digits := by
  rw [prolonged, worth_cons, prolonged, List.length_cons]
  ring

lemma le_prolonged (n : Nat) (digits : List UInt8) : n ≤ prolonged n digits := by
  have hscaled := Nat.le_mul_of_pos_left n (Nat.pow_pos (n := digits.length) (Nat.succ_pos 9))
  exact Nat.le_trans hscaled (Nat.le_add_right _ _)

/-- The whole run is added to the number, or the reading ends inside the run: more digits only make
a number larger, so one that has outgrown the word is too large with the rest of the run as well. -/
lemma continued_cases (c : Cursor) (n : UInt32) :
    (∃ m : UInt32, m.toNat = prolonged n.toNat c.run ∧
      c.continued n = (.ok m, c.ahead c.run.length)) ∨
    2 ^ 32 ≤ prolonged n.toNat c.run ∧ ∃ stop < c.run.length,
      c.continued n = (.error .malformed, c.ahead stop) := by
  fun_induction continued c n with
  | case1 c n hplace hdigit next hnext ih =>
    have hvalue := (appended?_eq_some_iff hdigit).mp hnext
    rw [run_digit hplace hdigit, prolonged_cons, hvalue, List.length_cons, Nat.add_comm]
    rcases ih with ⟨m, hm, hread⟩ | ⟨hlarge, stop, hstop, hread⟩
    · exact .inl ⟨m, hm, hread.trans (congrArg _ (ahead_ahead c 1 _))⟩
    · refine .inr ⟨hlarge, 1 + stop, ?_, hread.trans (congrArg _ (ahead_ahead c 1 _))⟩
      omega
  | case2 c n hplace hdigit hnone =>
    rw [run_digit hplace hdigit, prolonged_cons]
    have hlarge : 2 ^ 32 ≤ 10 * n.toNat + digitValue c.bytes[c.place] := by
      by_contra hsmall
      have hnext := UInt32.toNat_ofNat_of_lt' (Nat.lt_of_not_le hsmall)
      cases hnone.symm.trans ((appended?_eq_some_iff hdigit).mpr hnext.symm)
    exact .inr ⟨Nat.le_trans hlarge (le_prolonged _ _), 0, Nat.succ_pos _, rfl⟩
  | case3 c n hplace hother =>
    have hrun := run_other hplace hother
    exact .inl ⟨n, by simp [hrun, prolonged, worth], by rw [hrun]; rfl⟩
  | case4 c n hplace =>
    have hrun := run_end hplace
    exact .inl ⟨n, by simp [hrun, prolonged, worth], by rw [hrun]; rfl⟩

lemma number_cases (c : Cursor) :
    (∃ m : UInt32, m.toNat = worth c.run ∧ c.number = (.ok m, c.ahead c.run.length)) ∨
    2 ^ 32 ≤ worth c.run ∧ ∃ stop < c.run.length,
      c.number = (.error .malformed, c.ahead stop) := by
  have hzero : prolonged (UInt32.toNat 0) c.run = worth c.run := by simp [prolonged]
  rw [← hzero]
  exact continued_cases c 0

end

/-! ### Digits of a text -/

/-- A digit is written in one byte, which has its value. -/
lemma utf8EncodeChar_digit {c : Char} (h : c.isDigit = true) :
    String.utf8EncodeChar c = [c.toUInt8] ∧ isDigitByte c.toUInt8 = true ∧
      digitValue c.toUInt8 = c.toNat - '0'.toNat := by
  rcases digit_cases c with ⟨d, hd, rfl, -⟩ | hnone
  · interval_cases d <;> exact ⟨rfl, rfl, rfl⟩
  · rw [digit, if_pos h] at hnone
    cases hnone

/-- The first byte of any other character is no digit. -/
lemma utf8EncodeChar_other {c : Char} (h : c.isDigit = false) :
    ∃ byte bytes, String.utf8EncodeChar c = byte :: bytes ∧ ¬isDigitByte byte = true := by
  have hcode : ¬(48 ≤ c.val.toNat ∧ c.val.toNat ≤ 57) := fun hbounds => by
    rw [isDigit_iff.mpr hbounds] at h
    cases h
  have hvalid : c.val.toNat < 0x110000 := by
    rcases c.valid with hv | hv <;> omega
  unfold String.utf8EncodeChar
  generalize c.val.toNat = v at hcode hvalid
  dsimp only
  split_ifs
  all_goals
    refine ⟨_, _, rfl, fun hdigit => ?_⟩
    rw [isDigitByte_iff, UInt8.toNat_ofNat'] at hdigit
    omega

lemma takeWhile_utf8 (text : List Char) :
    (text.flatMap String.utf8EncodeChar).takeWhile isDigitByte =
      (text.takeWhile Char.isDigit).map Char.toUInt8 := by
  induction text with
  | nil => rfl
  | cons c text ih =>
    cases hc : c.isDigit with
    | true =>
      obtain ⟨hbyte, hdigit, -⟩ := utf8EncodeChar_digit hc
      simp [hbyte, hdigit, hc, ih]
    | false =>
      obtain ⟨byte, bytes, hbytes, hother⟩ := utf8EncodeChar_other hc
      simp [hbytes, hother, hc]

lemma worth_toUInt8 {digits : List Char} (h : ∀ c ∈ digits, c.isDigit = true) :
    worth (digits.map Char.toUInt8) = Nat.ofDigitChars 10 digits 0 := by
  induction digits with
  | nil => rfl
  | cons c digits ih =>
    obtain ⟨hc, hrest⟩ := List.forall_mem_cons.mp h
    rw [List.map_cons, worth_cons, ih hrest, (utf8EncodeChar_digit hc).2.2, List.length_map,
      Nat.ofDigitChars_cons, Nat.mul_zero, Nat.zero_add]
    exact Nat.ofDigitChars_eq_ofDigitChars_zero.symm

/-! ### The reader -/

/-- What a reading from `start` says about the text that stands there. -/
def told (start : Cursor) (text : List Char) :
    Except Refusal UInt32 × Cursor → Except Refusal (Nat × List Char)
  | (.ok n, behind) => .ok (n.toNat, text.drop (behind.place - start.place))
  | (.error refusal, _) => .error refusal

/-- A number that stands behind other characters is read alike from the text and from its bytes. -/
lemma number_text (front rest : String) :
    let start : Cursor := ⟨utf8Bytes (front ++ rest), front.utf8ByteSize⟩
    RadioModem.number rest.toList = start.told rest.toList start.number := by
  intro start
  have hfront : (utf8Bytes front).length = front.utf8ByteSize := rfl
  have hrun : start.run = (rest.toList.takeWhile Char.isDigit).map Char.toUInt8 := by
    show ((utf8Bytes (front ++ rest)).drop front.utf8ByteSize).takeWhile isDigitByte = _
    rw [utf8Bytes_append, ← hfront, List.drop_left, utf8Bytes_eq, takeWhile_utf8]
  have hworth : worth start.run = Nat.ofDigitChars 10 (rest.toList.takeWhile Char.isDigit) 0 := by
    rw [hrun]
    exact worth_toUInt8 fun c hc => List.mem_takeWhile_imp hc
  have hdrop : rest.toList.drop start.run.length = rest.toList.dropWhile Char.isDigit := by
    rw [hrun, List.length_map]
    conv_lhs =>
      arg 2
      rw [← List.takeWhile_append_dropWhile (p := Char.isDigit) (l := rest.toList)]
    exact List.drop_left
  rw [number_eq, ← hworth]
  rcases number_cases start with ⟨n, hn, hread⟩ | ⟨hlarge, stop, -, hread⟩
  · have hsmall : worth start.run < numberLimit := hn ▸ n.toNat_lt
    have hbehind : (start.ahead start.run.length).place - start.place = start.run.length :=
      Nat.add_sub_cancel_left _ _
    rw [if_pos hsmall, hread, told, hbehind, hn, hdrop]
  · have hnone : ¬worth start.run < numberLimit := Nat.not_lt.mpr hlarge
    rw [if_neg hnone, hread, told]

/-- From any place, also behind the last byte, the number that is read is the value of all the
digits there, with the place behind them, and it is refused exactly if no word has that value. No
place behind the digits is reached. A text is read in the same way. -/
theorem number_exact :
    (∀ c : Cursor,
      (∀ (n : UInt32) (behind : Cursor), c.number = (.ok n, behind) ↔
        n.toNat = worth c.run ∧ behind = c.ahead c.run.length) ∧
      ((∃ n, c.number.1 = .ok n) ↔ worth c.run < 2 ^ 32) ∧
      (c.number.1 = .error .malformed ↔ 2 ^ 32 ≤ worth c.run) ∧
      (∃ count ≤ c.run.length, c.number.2 = c.ahead count) ∧
      c.place + c.run.length ≤ max c.place c.bytes.length) ∧
    ∀ front rest : String,
      let start : Cursor := ⟨utf8Bytes (front ++ rest), front.utf8ByteSize⟩
      RadioModem.number rest.toList = start.told rest.toList start.number := by
  refine ⟨fun c => ?_, number_text⟩
  have hend : c.place + c.run.length ≤ max c.place c.bytes.length := by
    have hlength := length_run_le c
    omega
  rcases number_cases c with ⟨m, hm, hread⟩ | ⟨hlarge, stop, hstop, hread⟩
  · have hsmall : worth c.run < 2 ^ 32 := hm ▸ m.toNat_lt
    rw [hread]
    refine ⟨fun n behind => ?_, iff_of_true ⟨m, rfl⟩ hsmall,
      iff_of_false (by simp) (Nat.not_le.mpr hsmall), ⟨_, Nat.le_refl _, rfl⟩, hend⟩
    rw [Prod.mk.injEq, Except.ok.injEq, ← hm, UInt32.toNat_inj]
    exact and_congr eq_comm eq_comm
  · rw [hread]
    refine ⟨fun n behind => iff_of_false (by simp) fun h => ?_,
      iff_of_false (by simp) (Nat.not_lt.mpr hlarge), iff_of_true rfl hlarge,
      ⟨stop, Nat.le_of_lt hstop, rfl⟩, hend⟩
    have hword := n.toNat_lt
    omega

end RadioModem.Text.Cursor
