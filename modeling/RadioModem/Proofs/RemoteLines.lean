import RadioModem.Proofs.Grammar

/-!
# Commands for other nodes

A remote line carries a command as it is written. The command ends at a comma, so one that has a
comma of its own is cut there: a write to a pin reaches another node without its level, and goes to
the node that the level names.
-/
namespace RadioModem

/-! ### Numbers as destinations -/

/-- Where a number sends a command: the largest address is every node, and beyond it there is no
one. -/
def Destination.ofNumber (n : Nat) : Except Refusal Destination :=
  if n < 65535 then .ok (.node (UInt16.ofNat n))
  else if n = 65535 then .ok .broadcast
  else if n < 4294967296 then .error (.outOfRange n 65535)
  else .error .malformed

/-- The number that a text begins with; no digits are zero. -/
def leadingNumber (text : List Char) : Nat := Nat.ofDigitChars 10 (text.takeWhile Char.isDigit) 0

lemma Numeral.leadingNumber_eq {run rest : List Char} {n : Nat} (h : Numeral run rest n) :
    leadingNumber (run ++ rest) = n := by
  have hread := h.number_eq
  rw [RadioModem.number_eq] at hread
  split at hread
  · exact (Prod.mk.inj (Except.ok.inj hread)).1
  · cases hread

lemma Destination.ofAddress_ofNat {n : Nat} (h : n < UInt16.size) :
    .ok (ofAddress (UInt16.ofNat n)) = ofNumber n := by
  have hbroadcast : UInt16.ofNat n = broadcastAddress ↔ n = 65535 := by
    rw [← UInt16.toNat_inj, UInt16.toNat_ofNat_of_lt' h]
    rfl
  have hsize : n < 65536 := h
  unfold ofNumber ofAddress
  by_cases hlast : n = 65535
  · rw [if_pos (hbroadcast.mpr hlast), if_neg (by omega), if_pos hlast]
  · rw [if_neg (mt hbroadcast.mp hlast), if_pos (by omega)]

lemma Destination.ofNumber_ne (n : Nat) : ofNumber n ≠ .ok (.node broadcastAddress) := by
  unfold ofNumber
  split_ifs with hsmall
  · intro h
    have hnode : UInt16.ofNat n = broadcastAddress := by simpa using h
    have htoNat := congrArg UInt16.toNat hnode
    rw [UInt16.toNat_ofNat_of_lt' (Nat.lt_trans hsmall (by decide))] at htoNat
    exact absurd htoNat (Nat.ne_of_lt hsmall)
  all_goals simp

namespace Request
variable {line : String} {first : Char} {command address run rest : List Char} {n : Nat}

lemma parse_remote (h : line.toList = 'R' :: 'T' :: command) : parse line = ofRelayed command := by
  simp [parse, h]

lemma ne_comma_of_mem (h : ',' ∉ command) : ∀ c ∈ command, (c != ',') = true := by
  intro c hc
  simpa using ne_of_mem_of_not_mem hc h

/-- The first character of a command is not looked at: it may be a comma. -/
lemma ofRelayed_alone (h : ',' ∉ command) :
    ofRelayed (first :: command) =
      .remote (.ok .broadcast) (String.ofList (first :: command)) := by
  have hall := ne_comma_of_mem h
  have htake : command.takeWhile (· != ',') = command := List.takeWhile_eq_self_iff.mpr hall
  have hdrop : command.dropWhile (· != ',') = [] := List.dropWhile_eq_nil_iff.mpr hall
  rw [ofRelayed, htake, hdrop]

lemma ofRelayed_addressed (h : ',' ∉ command) (address : List Char) :
    ofRelayed (first :: (command ++ ',' :: address)) =
      .remote (destination address) (String.ofList (first :: command)) := by
  have hall := ne_comma_of_mem h
  have htake : (command ++ ',' :: address).takeWhile (· != ',') = command := by
    simp [List.takeWhile_append_of_pos hall]
  have hdrop : (command ++ ',' :: address).dropWhile (· != ',') = ',' :: address := by
    simp [List.dropWhile_append_of_pos hall]
  rw [ofRelayed, htake, hdrop]

lemma destination_eq (address : List Char) :
    destination address = Destination.ofNumber (leadingNumber address) := by
  rw [destination, number_eq, ← leadingNumber]
  by_cases hword : leadingNumber address < numberLimit
  · rw [if_pos hword]
    by_cases hsize : leadingNumber address < UInt16.size
    · rw [← Destination.ofAddress_ofNat hsize]
      simp [bind, Except.bind, hsize, pure, Except.pure]
    · have hlarge : 65536 ≤ leadingNumber address := not_lt.mp hsize
      have hlimit : leadingNumber address < 4294967296 := hword
      rw [Destination.ofNumber, if_neg (by omega), if_neg (by omega), if_pos hlimit]
      simp [bind, Except.bind, hsize]
  · have hlarge : 4294967296 ≤ leadingNumber address := not_lt.mp hword
    rw [if_neg hword, Destination.ofNumber, if_neg (by omega), if_neg (by omega),
      if_neg (by omega)]
    rfl

lemma destination_of_numeral (h : Numeral run rest n) (hn : n < 65535) :
    destination (run ++ rest) = .ok (.node (UInt16.ofNat n)) := by
  rw [destination_eq, h.leadingNumber_eq, Destination.ofNumber, if_pos hn]

end Request

namespace Command

lemma comma_notMem_toDigits (n : Nat) : ',' ∉ Nat.toDigits 10 n := fun h =>
  absurd (isDigit_of_mem_toDigits h) (by decide)

/-- No command but a write to a pin has a comma of its own. -/
theorem comma_notMem_print {c : Command} (h : ∀ index level, c ≠ .pin index (.write level)) :
    ',' ∉ c.print.toList := by
  have hdigits := comma_notMem_toDigits
  cases c with
  | pin index action =>
    cases action with
    | write level => exact absurd rfl (h index level)
    | output | input | read => simp [print, PinAction.line, hdigits]
  | extended request => cases request <;> simp [print, Extended.suffix, hdigits]
  | testMode change =>
    cases change with
    | clearAll => decide
    | toggle flag => cases flag <;> decide
  | info query => cases query <;> decide
  | readRegister | writeRegister => simp [print, hdigits]
  | attention | factoryReset | save | forceUpdate | pinList | online | reset => decide

end Command

namespace Request
variable {c : Command} {a : Address}

/-- A command gets to a node, and to every node, as it is written. -/
def Relays (c : Command) (a : Address) : Prop :=
  parse ("RT" ++ c.print ++ "," ++ toString a.toNat) = .remote (.ok (.node a)) c.print ∧
    parse ("RT" ++ c.print) = .remote (.ok .broadcast) c.print

lemma destination_printed (ha : a ≠ broadcastAddress) :
    destination (Nat.toDigits 10 a.toNat) = .ok (.node a) := by
  have hsize := a.toNat_lt
  have hsingle : a.toNat ≠ 65535 := fun he => ha (UInt16.toNat_inj.mp he)
  have hword : a.toNat < numberLimit := Nat.lt_trans hsize (by decide)
  have hread := destination_of_numeral (numeral_end hword) (by omega)
  rwa [List.append_nil, UInt16.ofNat_toNat] at hread

lemma relays_of_no_comma {text : List Char} (hprint : c.print.toList = 'A' :: text)
    (hcomma : ',' ∉ text) (ha : a ≠ broadcastAddress) : Relays c a := by
  have hcommand : String.ofList ('A' :: text) = c.print := by
    rw [← hprint, String.ofList_toList]
  constructor
  · have hline : ("RT" ++ c.print ++ "," ++ toString a.toNat).toList =
        'R' :: 'T' :: 'A' :: (text ++ ',' :: Nat.toDigits 10 a.toNat) := by simp [hprint]
    rw [parse_remote hline, ofRelayed_addressed hcomma, destination_printed ha, hcommand]
  · have hline : ("RT" ++ c.print).toList = 'R' :: 'T' :: 'A' :: text := by simp [hprint]
    rw [parse_remote hline, ofRelayed_alone hcomma, hcommand]

/-- A write to a pin is cut at its comma, whatever comes after its level. -/
lemma parse_pinWrite {index level : Nat} (h : (Command.pin index (.write level)).Writable)
    (suffix : String) (hsuffix : ∀ d ∈ suffix.toList.head?, d.isDigit = false) :
    parse ("RT" ++ (Command.pin index (.write level)).print ++ suffix) =
      .remote (.ok (.node (UInt16.ofNat level))) ("ATPC=" ++ toString index) := by
  obtain ⟨hindex, hlevel⟩ := h
  have hline : ("RT" ++ (Command.pin index (.write level)).print ++ suffix).toList =
      'R' :: 'T' :: 'A' :: ('T' :: 'P' :: 'C' :: '=' :: Nat.toDigits 10 index ++
        ',' :: (Nat.toDigits 10 level ++ suffix.toList)) := by
    simp [Command.print, PinAction.line]
  have hcomma : ',' ∉ 'T' :: 'P' :: 'C' :: '=' :: Nat.toDigits 10 index := by
    simp [Command.comma_notMem_toDigits]
  have hword : level < numberLimit := Nat.lt_of_le_of_lt hlevel (by decide)
  have hcommand : String.ofList ('A' :: 'T' :: 'P' :: 'C' :: '=' :: Nat.toDigits 10 index) =
      "ATPC=" ++ toString index := by
    rw [← String.toList_inj]
    simp
  rw [parse_remote hline, ofRelayed_addressed hcomma,
    destination_of_numeral (numeral_toDigits hword hsuffix) (by omega), hcommand]

lemma pinWrite_cut {index level : Nat} (h : (Command.pin index (.write level)).Writable)
    (a : Address) :
    parse ("RT" ++ (Command.pin index (.write level)).print ++ "," ++ toString a.toNat) =
        .remote (.ok (.node (UInt16.ofNat level))) ("ATPC=" ++ toString index) ∧
      parse ("RT" ++ (Command.pin index (.write level)).print) =
        .remote (.ok (.node (UInt16.ofNat level))) ("ATPC=" ++ toString index) := by
  have haddressed := parse_pinWrite h ("," ++ toString a.toNat) (by simp)
  have halone := parse_pinWrite h "" (by simp)
  rw [← String.append_assoc] at haddressed
  rw [String.append_empty] at halone
  exact ⟨haddressed, halone⟩

/-- All commands that can be written can be relayed but the writes to pins. Those go to the node
that their level names, and come without the level. -/
theorem relays_iff (hc : c.Writable) (ha : a ≠ broadcastAddress) :
    (Relays c a ↔ ∀ index level, c ≠ .pin index (.write level)) ∧
    ∀ index level, c = .pin index (.write level) →
      parse ("RT" ++ c.print ++ "," ++ toString a.toNat) =
        .remote (.ok (.node (UInt16.ofNat level))) ("ATPC=" ++ toString index) ∧
      parse ("RT" ++ c.print) =
        .remote (.ok (.node (UInt16.ofNat level))) ("ATPC=" ++ toString index) := by
  refine ⟨⟨?_, fun hpin => ?_⟩, ?_⟩
  · rintro ⟨-, halone⟩ index level rfl
    rw [(pinWrite_cut hc a).2] at halone
    cases halone
  · obtain ⟨text, hprint, -⟩ := Command.print_spelling hc
    have hcomma := Command.comma_notMem_print hpin
    rw [hprint] at hcomma
    exact relays_of_no_comma hprint (List.not_mem_of_not_mem_cons hcomma) ha
  · rintro index level rfl
    exact pinWrite_cut hc a

/-- A write to a register gets through, a write to a pin does not. -/
theorem relays_iff_writes :
    ((Command.writeRegister 3 7).Writable ∧ (5 : Address) ≠ broadcastAddress ∧
      Relays (.writeRegister 3 7) 5) ∧
    (Command.pin 2 (.write 1)).Writable ∧
      parse "RTATPC=2,1,5" = .remote (.ok (.node 1)) "ATPC=2" := by
  have hregister : (Command.writeRegister 3 7).Writable := ⟨by decide, by decide⟩
  have hpin : (Command.pin 2 (.write 1)).Writable := ⟨by decide, by decide⟩
  have hsingle : (5 : Address) ≠ broadcastAddress := by decide
  exact ⟨⟨hregister, hsingle, (relays_iff hregister hsingle).1.mpr (by simp)⟩, hpin,
    ((relays_iff hpin hsingle).2 2 1 rfl).1⟩

/-- A write to a pin does not get to a node as it is written. -/
theorem pinWrite_not_relayed : ¬∀ (c : Command) (a : Address), c.Writable →
    a ≠ broadcastAddress → Relays c a := by
  intro h
  have hpin : (Command.pin 2 (.write 1)).Writable := ⟨by decide, by decide⟩
  have hrelays := (h (.pin 2 (.write 1)) 5 hpin (by decide)).2
  rw [(pinWrite_cut hpin 5).2] at hrelays
  cases hrelays

end Request

end RadioModem
