import RadioModem.Command.Printer
import RadioModem.Proofs.Decimal

/-!
# The grammar of local commands

What may stand after the attention code, written as rules over the text, and beside them the reader:
it accepts exactly the spellings of the rules, each as its command. Some rules let any text follow,
others take the line to its end.
-/
namespace RadioModem

/-- The character that asks for a query. -/
def Query.selector : Query → Char
  | .banner => '0'
  | .version => '1'
  | .boardId => '2'
  | .frequency => '3'
  | .bootloader => '4'
  | .parameters => '5'
  | .timing => '6'
  | .signal => '7'
  | .sync => '8'

namespace Command

/-- The spellings of a command after the attention code. The digit of a pin and of its level is a
single one; between the two stands any character of one byte. -/
inductive Spelling : List Char → Command → Prop
  | attention : Spelling [] .attention
  | factoryReset (rest : List Char) : Spelling ('&' :: 'F' :: rest) .factoryReset
  | save (rest : List Char) : Spelling ('&' :: 'W' :: rest) .save
  | forceUpdate : Spelling "&UPDATE".toList .forceUpdate
  | clearTests : Spelling "&T".toList (.testMode .clearAll)
  | toggleRssi : Spelling "&T=RSSI".toList (.testMode (.toggle .rssi))
  | toggleTdm : Spelling "&T=TDM".toList (.testMode (.toggle .tdm))
  | power {run rest : List Char} {pwm : Nat} (h : Numeral run rest pwm) :
      Spelling ('+' :: 'P' :: '=' :: (run ++ rest)) (.extended (.power pwm))
  | readChannel {run rest : List Char} {channel : Nat} (h : Numeral run ('?' :: rest) channel) :
      Spelling ('+' :: 'C' :: (run ++ '?' :: rest)) (.extended (.readChannel channel))
  | writeChannel {run argument rest : List Char} {channel value : Nat}
      (hc : Numeral run ('=' :: (argument ++ rest)) channel) (hv : Numeral argument rest value) :
      Spelling ('+' :: 'C' :: (run ++ '=' :: (argument ++ rest)))
        (.extended (.writeChannel channel value))
  | lockCalibration (rest : List Char) :
      Spelling ('+' :: 'L' :: rest) (.extended .lockCalibration)
  | shortBanner : Spelling ['I'] (.info .banner)
  | info (query : Query) (rest : List Char) : Spelling ('I' :: query.selector :: rest) (.info query)
  | pinList (rest : List Char) : Spelling ('P' :: 'P' :: rest) .pinList
  | pinOutput {index : Nat} (h : index < 10) (rest : List Char) :
      Spelling ('P' :: 'O' :: '=' :: Nat.digitChar index :: rest) (.pin index .output)
  | pinInput {index : Nat} (h : index < 10) (rest : List Char) :
      Spelling ('P' :: 'I' :: '=' :: Nat.digitChar index :: rest) (.pin index .input)
  | pinRead {index : Nat} (h : index < 10) (rest : List Char) :
      Spelling ('P' :: 'R' :: '=' :: Nat.digitChar index :: rest) (.pin index .read)
  | pinWrite {index level : Nat} {separator : Char} (hi : index < 10) (hl : level < 10)
      (hs : separator.utf8Size = 1) (rest : List Char) :
      Spelling
        ('P' :: 'C' :: '=' :: Nat.digitChar index :: separator :: Nat.digitChar level :: rest)
        (.pin index (.write level))
  | readRegister {run rest : List Char} {index : Nat} (h : Numeral run ('?' :: rest) index) :
      Spelling ('S' :: (run ++ '?' :: rest)) (.readRegister index)
  | writeRegister {run argument rest : List Char} {index value : Nat}
      (hi : Numeral run ('=' :: (argument ++ rest)) index) (hv : Numeral argument rest value) :
      Spelling ('S' :: (run ++ '=' :: (argument ++ rest))) (.writeRegister index value)
  | online (rest : List Char) : Spelling ('O' :: rest) .online
  | reset (rest : List Char) : Spelling ('Z' :: rest) .reset

variable {text : List Char} {c : Command}

/-! ### What is spelled is read -/

/-- Characters of one byte are the ones below 128. -/
lemma toNat_lt_iff_utf8Size (separator : Char) :
    separator.toNat < 128 ↔ separator.utf8Size = 1 := by
  rw [Char.utf8Size_eq_one_iff, UInt32.le_iff_toNat_le]
  exact Nat.lt_succ_iff

theorem parse_of_spelling (h : Spelling text c) : parse text = .ok c := by
  cases h with
  | attention | factoryReset | save | forceUpdate | clearTests | toggleRssi | toggleTdm
  | lockCalibration | shortBanner | pinList | online | reset => rfl
  | info query rest => cases query <;> rfl
  | power h =>
    simp only [parse, ofPlus, h.number_eq]
    rfl
  | readChannel h =>
    simp only [parse, ofPlus, h.number_eq]
    rfl
  | writeChannel hc hv =>
    simp only [parse, ofPlus, bind, Except.bind, hc.number_eq, hv.number_eq]
    rfl
  | pinOutput h | pinInput h | pinRead h =>
    simp only [parse, ofPin, digit_digitChar h]
    rfl
  | pinWrite hi hl hs =>
    have hsmall := (toNat_lt_iff_utf8Size _).mpr hs
    simp only [parse, ofPin, levelAfter, digit_digitChar hi, digit_digitChar hl, hsmall]
    rfl
  | readRegister h =>
    simp only [parse, ofRegister, h.number_eq]
    rfl
  | writeRegister hi hv =>
    simp only [parse, ofRegister, bind, Except.bind, hi.number_eq, hv.number_eq]
    rfl

/-! ### What is read is spelled -/

/-- Reading a text gives a command that the text spells, or refuses the text as malformed. -/
def Reads (read : Except Refusal Command) (text : List Char) : Prop :=
  (∃ c, read = .ok c ∧ Spelling text c) ∨ read = .error .malformed

lemma Spelling.reads (h : Spelling text c) : Reads (.ok c) text := .inl ⟨c, rfl, h⟩

lemma ofAmpersand_reads (text : List Char) : Reads (ofAmpersand text) ('&' :: text) := by
  unfold ofAmpersand
  split
  · exact (Spelling.factoryReset _).reads
  · exact (Spelling.save _).reads
  · exact Spelling.forceUpdate.reads
  · exact Spelling.clearTests.reads
  · exact Spelling.toggleRssi.reads
  · exact Spelling.toggleTdm.reads
  · exact .inr rfl

lemma ofInfo_reads (text : List Char) : Reads (ofInfo text) ('I' :: text) := by
  unfold ofInfo
  split
  · exact Spelling.shortBanner.reads
  · exact (Spelling.info .banner _).reads
  · exact (Spelling.info .version _).reads
  · exact (Spelling.info .boardId _).reads
  · exact (Spelling.info .frequency _).reads
  · exact (Spelling.info .bootloader _).reads
  · exact (Spelling.info .parameters _).reads
  · exact (Spelling.info .timing _).reads
  · exact (Spelling.info .signal _).reads
  · exact (Spelling.info .sync _).reads
  · exact .inr rfl

/-- Channels and registers are read alike: an index, then a question mark or the value to write. -/
lemma indexed_reads (code : List Char) {ask : Nat → Command} {put : Nat → Nat → Command}
    (hask : ∀ {run rest index}, Numeral run ('?' :: rest) index →
      Spelling (code ++ (run ++ '?' :: rest)) (ask index))
    (hput : ∀ {run argument rest index value}, Numeral run ('=' :: (argument ++ rest)) index →
      Numeral argument rest value →
      Spelling (code ++ (run ++ '=' :: (argument ++ rest))) (put index value))
    (text : List Char) :
    Reads (do
      match ← number text with
      | (index, '?' :: _) => return ask index
      | (index, '=' :: argument) =>
        let (value, _) ← number argument
        return put index value
      | _ => .error .malformed) (code ++ text) := by
  rcases number_cases text with ⟨run, rest, index, rfl, hindex, hread⟩ | hread
  · simp only [hread, bind, Except.bind]
    split
    · next heq =>
      cases heq
      exact (hask hindex).reads
    · next argument heq =>
      cases heq
      rcases number_cases argument with ⟨digits, rest, value, rfl, hvalue, hread⟩ | hread
      · simp only [hread]
        exact (hput hindex hvalue).reads
      · simp only [hread]
        exact .inr rfl
    · exact .inr rfl
  · simp only [hread, bind, Except.bind]
    exact .inr rfl

lemma ofRegister_reads (text : List Char) : Reads (ofRegister text) ('S' :: text) :=
  indexed_reads ['S'] .readRegister .writeRegister text

lemma ofPlus_reads (text : List Char) : Reads (ofPlus text) ('+' :: text) := by
  unfold ofPlus
  split
  · next text =>
    rcases number_cases text with ⟨run, rest, pwm, rfl, hpwm, hread⟩ | hread
    · rw [hread]
      exact (Spelling.power hpwm).reads
    · rw [hread]
      exact .inr rfl
  · exact indexed_reads ['+', 'C'] .readChannel .writeChannel _
  · exact (Spelling.lockCalibration _).reads
  · exact .inr rfl

/-- The level of a pin is a digit after one character of one byte. -/
lemma levelAfter_cases (text : List Char) :
    (∃ separator level rest, separator.utf8Size = 1 ∧ level < 10 ∧
      text = separator :: Nat.digitChar level :: rest ∧ levelAfter text = .ok level) ∨
      levelAfter text = .error .malformed := by
  unfold levelAfter
  split
  · next separator c rest =>
    split
    · next hsmall =>
      rcases digit_cases c with ⟨level, hlevel, rfl, hread⟩ | hread
      · exact .inl ⟨separator, level, rest, (toNat_lt_iff_utf8Size _).mp hsmall, hlevel, rfl,
          hread⟩
      · exact .inr hread
    · exact .inr rfl
  · exact .inr rfl

/-- Reading the index of a pin ends with a single digit. -/
lemma pin_reads {code : Char} {action : PinAction} {rest : List Char}
    (h : ∀ index < 10, Spelling ('P' :: code :: '=' :: Nat.digitChar index :: rest)
      (.pin index action)) (c : Char) :
    Reads (return .pin (← digit c) action) ('P' :: code :: '=' :: c :: rest) := by
  rcases digit_cases c with ⟨index, hindex, rfl, hread⟩ | hread
  · rw [hread]
    exact (h index hindex).reads
  · rw [hread]
    exact .inr rfl

lemma ofPin_reads (text : List Char) : Reads (ofPin text) ('P' :: text) := by
  unfold ofPin
  split
  · exact (Spelling.pinList _).reads
  · exact pin_reads (fun _ h => .pinOutput h _) _
  · exact pin_reads (fun _ h => .pinInput h _) _
  · exact pin_reads (fun _ h => .pinRead h _) _
  · next c argument =>
    rcases digit_cases c with ⟨index, hindex, rfl, hread⟩ | hread
    · rw [hread]
      rcases levelAfter_cases argument with ⟨separator, level, rest, hsize, hlevel, rfl, hread⟩ |
        hread
      · simp only [hread, bind, Except.bind]
        exact (Spelling.pinWrite hindex hlevel hsize rest).reads
      · simp only [hread, bind, Except.bind]
        exact .inr rfl
    · rw [hread]
      exact .inr rfl
  · exact .inr rfl

theorem parse_reads (text : List Char) : Reads (parse text) text := by
  unfold parse
  split
  · exact Spelling.attention.reads
  · exact ofAmpersand_reads _
  · exact ofPlus_reads _
  · exact ofInfo_reads _
  · exact ofPin_reads _
  · exact ofRegister_reads _
  · exact (Spelling.online _).reads
  · exact (Spelling.reset _).reads
  · exact .inr rfl

theorem parse_eq_ok_iff : parse text = .ok c ↔ Spelling text c := by
  refine ⟨fun h => ?_, parse_of_spelling⟩
  rcases parse_reads text with ⟨other, hread, hspelling⟩ | hread
  · cases hread.symm.trans h
    exact hspelling
  · cases hread.symm.trans h

theorem parse_malformed_iff : parse text = .error .malformed ↔ ∀ c, ¬Spelling text c := by
  refine ⟨fun h c hc => ?_, fun h => ?_⟩
  · cases h.symm.trans (parse_of_spelling hc)
  · rcases parse_reads text with ⟨c, -, hc⟩ | hread
    · exact absurd hc (h c)
    · exact hread

/-! ### What is printed is spelled -/

/-- Commands that can be written on a line: pins and levels take one digit each, all other numbers
are 32-bit words. -/
def Writable : Command → Prop
  | .extended (.power n) | .extended (.readChannel n) | .readRegister n => n < numberLimit
  | .extended (.writeChannel n value) | .writeRegister n value =>
    n < numberLimit ∧ value < numberLimit
  | .pin index (.write level) => index ≤ 9 ∧ level ≤ 9
  | .pin index _ => index ≤ 9
  | _ => True

lemma toDigits_of_digit {d : Nat} (h : d ≤ 9) : Nat.toDigits 10 d = [Nat.digitChar d] :=
  Nat.toDigits_of_lt_base (by omega)

lemma pin_spelling {index : Nat} {action : PinAction} (h : (Command.pin index action).Writable) :
    ∃ text, (Command.pin index action).print.toList = 'A' :: 'T' :: text ∧
      Spelling text (.pin index action) := by
  cases action with
  | output =>
    have hi := toDigits_of_digit h
    exact ⟨_, by simp [print, PinAction.line, hi], .pinOutput (Nat.lt_succ_of_le h) []⟩
  | input =>
    have hi := toDigits_of_digit h
    exact ⟨_, by simp [print, PinAction.line, hi], .pinInput (Nat.lt_succ_of_le h) []⟩
  | read =>
    have hi := toDigits_of_digit h
    exact ⟨_, by simp [print, PinAction.line, hi], .pinRead (Nat.lt_succ_of_le h) []⟩
  | write level =>
    obtain ⟨hindex, hlevel⟩ := h
    have hi := toDigits_of_digit hindex
    have hl := toDigits_of_digit hlevel
    have hcomma : Char.utf8Size ',' = 1 := by decide
    exact ⟨_, by simp [print, PinAction.line, hi, hl],
      .pinWrite (Nat.lt_succ_of_le hindex) (Nat.lt_succ_of_le hlevel) hcomma []⟩

lemma extended_spelling {request : Extended} (h : (Command.extended request).Writable) :
    ∃ text, (Command.extended request).print.toList = 'A' :: 'T' :: text ∧
      Spelling text (.extended request) := by
  cases request with
  | power pwm => exact ⟨_, by simp [print, Extended.suffix], .power (numeral_end h)⟩
  | readChannel channel =>
    exact ⟨_, by simp [print, Extended.suffix], .readChannel (numeral_before [] h (by decide))⟩
  | writeChannel channel value =>
    obtain ⟨hchannel, hvalue⟩ := h
    exact ⟨_, by simp [print, Extended.suffix],
      .writeChannel (numeral_before _ hchannel (by decide)) (numeral_end hvalue)⟩
  | lockCalibration => exact ⟨['+', 'L'], rfl, .lockCalibration []⟩

theorem print_spelling (h : c.Writable) :
    ∃ text, c.print.toList = 'A' :: 'T' :: text ∧ Spelling text c := by
  cases c with
  | attention => exact ⟨[], rfl, .attention⟩
  | factoryReset => exact ⟨['&', 'F'], rfl, .factoryReset []⟩
  | save => exact ⟨['&', 'W'], rfl, .save []⟩
  | forceUpdate => exact ⟨_, rfl, .forceUpdate⟩
  | testMode change =>
    cases change with
    | clearAll => exact ⟨_, rfl, .clearTests⟩
    | toggle flag =>
      cases flag with
      | rssi => exact ⟨_, rfl, .toggleRssi⟩
      | tdm => exact ⟨_, rfl, .toggleTdm⟩
  | extended request => exact extended_spelling h
  | info query =>
    cases query with
    | banner => exact ⟨['I'], rfl, .shortBanner⟩
    | version | boardId | frequency | bootloader | parameters | timing | signal | sync =>
      refine ⟨['I', Query.selector _], ?_, .info _ []⟩
      rfl
  | pinList => exact ⟨['P', 'P'], rfl, .pinList []⟩
  | pin index action => exact pin_spelling h
  | readRegister index =>
    exact ⟨_, by simp [print], .readRegister (numeral_before [] h (by decide))⟩
  | writeRegister index value =>
    obtain ⟨hindex, hvalue⟩ := h
    exact ⟨_, by simp [print],
      .writeRegister (numeral_before _ hindex (by decide)) (numeral_end hvalue)⟩
  | online => exact ⟨['O'], rfl, .online []⟩
  | reset => exact ⟨['Z'], rfl, .reset []⟩

end Command

namespace Request

lemma parse_local {line : String} {text : List Char} (h : line.toList = 'A' :: 'T' :: text) :
    parse line = .here (Command.parse text) := by simp [parse, h]

lemma parse_print {command : Command} (h : command.Writable) :
    parse command.print = .here (.ok command) := by
  obtain ⟨text, hline, hspelling⟩ := Command.print_spelling h
  rw [parse_local hline, Command.parse_of_spelling hspelling]

/-- A line with the attention code asks for a command exactly if the grammar spells the command
after the code, and is malformed if the grammar spells none. Each command that can be written is
read back from its printed line. -/
theorem local_grammar :
    (∀ text command, parse ("AT" ++ text) = .here (.ok command) ↔
      Command.Spelling text.toList command) ∧
    (∀ text, parse ("AT" ++ text) = .here (.error .malformed) ↔
      ∀ command, ¬Command.Spelling text.toList command) ∧
    ∀ command : Command, command.Writable → parse command.print = .here (.ok command) := by
  have hparse : ∀ text : String, parse ("AT" ++ text) = .here (Command.parse text.toList) :=
    fun text => parse_local (by simp)
  refine ⟨fun text command => ?_, fun text => ?_, fun command hc => parse_print hc⟩
  · rw [hparse, Request.here.injEq, Command.parse_eq_ok_iff]
  · rw [hparse, Request.here.injEq, Command.parse_malformed_iff]

/-- A write to a register with the largest words, printed and read back. -/
theorem local_grammar_largest :
    (Command.writeRegister 4294967295 4294967295).Writable ∧
      (Command.writeRegister 4294967295 4294967295).print = "ATS4294967295=4294967295" ∧
      parse "ATS4294967295=4294967295" = .here (.ok (.writeRegister 4294967295 4294967295)) := by
  have hw : (Command.writeRegister 4294967295 4294967295).Writable := ⟨by decide, by decide⟩
  have hprint : (Command.writeRegister 4294967295 4294967295).print = "ATS4294967295=4294967295" :=
    by decide +kernel
  exact ⟨hw, hprint, hprint ▸ local_grammar.2.2 _ hw⟩

end Request

end RadioModem
