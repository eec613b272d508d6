import RadioModem.Bench
import RadioModem.Proofs.ByteOrder
import RadioModem.Proofs.Calls
import RadioModem.Proofs.RemoteLines

/-!
# Where a remote line is cut

The comma that ends a remote command is looked for among the bytes of the line. All bytes of a
character beyond ASCII are high ones, so a byte that reads as a comma is a comma, and any text is
cut between two of its characters. What follows the comma tells where the command goes; to run the
line is to hand the command over, and nothing else.
-/
namespace RadioModem

/-! ### Commas among bytes -/

def commaByte : UInt8 := 0x2C

lemma commaByte_mem_utf8EncodeChar {c : Char} : commaByte ∈ String.utf8EncodeChar c ↔ c = ',' := by
  have hbyte (n : Nat) : commaByte = UInt8.ofNat n ↔ n % 256 = 44 := by
    rw [← UInt8.toNat_inj, UInt8.toNat_ofNat']
    exact eq_comm
  have hchar : c = ',' ↔ c.val.toNat = 44 := by
    rw [← Char.toNat_inj]
    rfl
  have hvalid : c.val.toNat < 0x110000 := by
    rcases c.valid with hv | hv <;> omega
  rw [hchar]
  unfold String.utf8EncodeChar
  generalize c.val.toNat = v at hvalid
  dsimp only
  split_ifs <;> simp only [List.mem_cons, List.not_mem_nil, or_false, hbyte] <;> omega

lemma commaByte_mem_flatMap {text : List Char} :
    commaByte ∈ text.flatMap String.utf8EncodeChar ↔ ',' ∈ text := by
  simp [List.mem_flatMap, commaByte_mem_utf8EncodeChar]

lemma commaByte_notMem_tail (c : Char) : commaByte ∉ (String.utf8EncodeChar c).tail := by
  intro h
  obtain rfl := commaByte_mem_utf8EncodeChar.mp (List.mem_of_mem_tail h)
  exact absurd h (by decide)

lemma utf8Bytes_inj {s t : String} : utf8Bytes s = utf8Bytes t ↔ s = t := by
  rw [utf8Bytes, utf8Bytes, Array.toList_inj, ← String.toByteArray_inj]
  exact ByteArray.ext_iff.symm

/-- What stands between the relay code and the end of the command is the command. -/
lemma utf8Bytes_between (command rest : String) :
    ((utf8Bytes ("RT" ++ (command ++ rest))).take ("RT" ++ command).utf8ByteSize).drop 2 =
      utf8Bytes command := by
  have hsize : (utf8Bytes ("RT" ++ command)).length = ("RT" ++ command).utf8ByteSize := rfl
  rw [← String.append_assoc, utf8Bytes_append, ← hsize, List.take_left, utf8Bytes_append]
  rfl

/-- The index of the first comma among the bytes of a line that stands behind its third byte. -/
structure Cut (line : String) (i : Nat) : Prop where
  behind : 3 ≤ i
  comma : (utf8Bytes line)[i]? = some commaByte
  first : ∀ j, 3 ≤ j → j < i → (utf8Bytes line)[j]? ≠ some commaByte

section
variable {line : String} {i : Nat} {first : Char} {kept : List Char}

/-- A comma in front of a command is no comma behind its third byte, and the rest of a character of
several bytes does not read as one. -/
lemma no_comma_behind (h : ',' ∉ kept) {j : Nat} (hj : 3 ≤ j) :
    (utf8Bytes ("RT" ++ String.ofList (first :: kept)))[j]? ≠ some commaByte := by
  have hlength : (String.utf8EncodeChar first).length ≠ 0 :=
    String.length_utf8EncodeChar first ▸ Nat.ne_of_gt first.utf8Size_pos
  obtain ⟨byte, bytes, hfirst⟩ := List.exists_cons_of_length_pos (Nat.pos_of_ne_zero hlength)
  have hbytes : (utf8Bytes ("RT" ++ String.ofList (first :: kept))).drop 3 =
      bytes ++ kept.flatMap String.utf8EncodeChar := by
    rw [utf8Bytes_append, utf8Bytes_ofList (first :: kept), List.flatMap_cons, hfirst]
    rfl
  have hnone : commaByte ∉ bytes ++ kept.flatMap String.utf8EncodeChar := by
    have htail := commaByte_notMem_tail first
    rw [hfirst, List.tail_cons] at htail
    rw [List.mem_append, commaByte_mem_flatMap]
    exact not_or.mpr ⟨htail, h⟩
  rw [← hbytes] at hnone
  intro hcomma
  obtain ⟨k, rfl⟩ := Nat.exists_eq_add_of_le hj
  rw [← List.getElem?_drop] at hcomma
  exact hnone (List.mem_of_getElem? hcomma)

lemma Cut.unique {j : Nat} (h : Cut line i) (h' : Cut line j) : i = j := by
  rcases Nat.lt_trichotomy i j with hlt | heq | hgt
  · exact absurd h.comma (h'.first i h.behind hlt)
  · exact heq
  · exact absurd h'.comma (h.first j h'.behind hgt)

/-- A command without a comma behind its third byte is cut off at the comma that follows it. -/
lemma cut_of_split {command : String} (hcommand : command.toList = first :: kept)
    (h : ',' ∉ kept) (tail : String) :
    Cut ("RT" ++ (command ++ "," ++ tail)) ("RT" ++ command).utf8ByteSize := by
  obtain rfl : command = String.ofList (first :: kept) := by
    rw [← hcommand, String.ofList_toList]
  generalize hbefore : "RT" ++ String.ofList (first :: kept) = before
  have hline : utf8Bytes ("RT" ++ (String.ofList (first :: kept) ++ "," ++ tail)) =
      utf8Bytes before ++ commaByte :: utf8Bytes tail := by
    rw [← String.append_assoc, ← String.append_assoc, hbefore, utf8Bytes_append, utf8Bytes_append,
      List.append_assoc]
    rfl
  have hsize : (utf8Bytes before).length = before.utf8ByteSize := rfl
  have hbehind : 3 ≤ before.utf8ByteSize := by
    have hfirst := first.utf8Size_pos
    rw [← hbefore, String.utf8ByteSize_append, String.ofList_cons, String.utf8ByteSize_append,
      String.utf8ByteSize_singleton]
    have htwo : "RT".utf8ByteSize = 2 := rfl
    omega
  refine ⟨hbehind, ?_, fun j hj hlt => ?_⟩
  · rw [hline, ← hsize, List.getElem?_append_right (Nat.le_refl _), Nat.sub_self]
    rfl
  · have hinside : j < (utf8Bytes before).length := hlt
    rw [hline, List.getElem?_append_left hinside, ← hbefore]
    exact no_comma_behind h hj

end

namespace Request

/-! ### Lines -/

/-- The two ways of a remote line: without a comma all of it is the command, and else it is cut at
the first one. -/
lemma remote_cases (text : String) :
    (∀ j, 3 ≤ j → (utf8Bytes ("RT" ++ text))[j]? ≠ some commaByte) ∧
      parse ("RT" ++ text) = .remote (.ok .broadcast) text ∨
    ∃ command tail : String, text = command ++ "," ++ tail ∧
      Cut ("RT" ++ text) ("RT" ++ command).utf8ByteSize ∧
      parse ("RT" ++ text) = .remote (Destination.ofNumber (leadingNumber tail.toList)) command := by
  obtain ⟨chars, rfl⟩ : ∃ chars, text = String.ofList chars := ⟨_, String.ofList_toList.symm⟩
  have hline : ("RT" ++ String.ofList chars).toList = 'R' :: 'T' :: chars := by simp
  rw [parse_remote hline]
  cases chars with
  | nil =>
    refine .inl ⟨fun j hj => ?_, rfl⟩
    have hshort : (utf8Bytes ("RT" ++ String.ofList [])).length ≤ j := Nat.le_of_lt hj
    rw [List.getElem?_eq_none hshort]
    simp
  | cons first rest =>
    by_cases hcomma : ',' ∈ rest
    · obtain ⟨kept, address, rfl, hkept⟩ := List.eq_append_cons_of_mem hcomma
      have htext : String.ofList (first :: (kept ++ ',' :: address)) =
          String.ofList (first :: kept) ++ "," ++ String.ofList address := by
        simp [← String.toList_inj]
      refine .inr ⟨String.ofList (first :: kept), String.ofList address, htext, ?_, ?_⟩
      · rw [htext]
        exact cut_of_split String.toList_ofList hkept _
      · rw [ofRelayed_addressed hkept, destination_eq, String.toList_ofList]
    · exact .inl ⟨fun j hj => no_comma_behind hcomma hj, ofRelayed_alone hcomma⟩

section
variable {β : Type} [Board β]

/-- A line that is run by handing a command to the relay, once if the destination is good and not at
all otherwise. Nothing else is asked of the board but its name. -/
structure HandsOver (f : Features) (b : β) (t : TestMode) (line : String)
    (destination : Except Refusal Destination) (command : String) : Prop where
  reply : (Dispatch.run f b t line).reply = ""
  effect : (Dispatch.run f b t line).effect = .stay
  tests : (Dispatch.run f b t line).tests = t
  played : ((Script.ofLine f t line).on b).outcome t = Dispatch.run f b t line
  handed : ∀ d, destination = .ok d →
    (Script.ofLine f t line).calls b = [.identity, .forward d command] ∧
      (Dispatch.run f b t line).board = (Board.forward b d command).1
  dropped : ∀ r, destination = .error r →
    (Script.ofLine f t line).calls b = [.identity] ∧ (Dispatch.run f b t line).board = b

lemma handsOver {line command : String} {destination : Except Refusal Destination}
    (h : parse line = .remote destination command) (f : Features) (b : β) (t : TestMode) :
    HandsOver f b t line destination command := by
  have hsilent : (Dispatch.run f b t line).reply = "" ∧
      (Dispatch.run f b t line).effect = .stay ∧ (Dispatch.run f b t line).tests = t := by
    rw [Dispatch.run, h]
    cases destination <;> exact ⟨rfl, rfl, rfl⟩
  obtain ⟨hreply, heffect, htests⟩ := hsilent
  refine ⟨hreply, heffect, htests, Script.on_ofLine line, ?_, ?_⟩
  · rintro d rfl
    rw [Script.ofLine, Dispatch.run, h]
    exact ⟨rfl, rfl⟩
  · rintro r rfl
    rw [Script.ofLine, Dispatch.run, h]
    exact ⟨rfl, rfl⟩

end

/-- A remote line is cut at the first comma byte behind its third byte. In front of it stands the
command as it was written, and the digits behind it decide where it goes. -/
theorem remote_verbatim (text : String) : ∃ destination command,
    parse ("RT" ++ text) = .remote destination command ∧
    ((∀ j, 3 ≤ j → (utf8Bytes ("RT" ++ text))[j]? ≠ some commaByte) →
      destination = .ok .broadcast ∧ command = text) ∧
    (∀ i, Cut ("RT" ++ text) i → ∃ tail,
      "RT" ++ text = "RT" ++ command ++ "," ++ tail ∧
      utf8Bytes command = ((utf8Bytes ("RT" ++ text)).take i).drop 2 ∧
      String.Pos.Raw.IsValid ("RT" ++ text) ⟨2⟩ ∧ String.Pos.Raw.IsValid ("RT" ++ text) ⟨i⟩ ∧
      destination = Destination.ofNumber (leadingNumber tail.toList)) ∧
    destination ≠ .ok (.node 65535) ∧
    ∀ {β : Type} [Board β] (f : Features) (b : β) (t : TestMode),
      HandsOver f b t ("RT" ++ text) destination command := by
  rcases remote_cases text with ⟨huncut, hparse⟩ | ⟨command, tail, rfl, hcut, hparse⟩
  · refine ⟨_, _, hparse, fun _ => ⟨rfl, rfl⟩, fun i hi => ?_, by simp, handsOver hparse⟩
    exact absurd hi.comma (huncut i hi.behind)
  · refine ⟨_, _, hparse, fun huncut => ?_, fun i hi => ?_, Destination.ofNumber_ne _,
      handsOver hparse⟩
    · exact absurd hcut.comma (huncut _ hcut.behind)
    · obtain rfl := hi.unique hcut
      have hrest : command ++ "," ++ tail = command ++ ("," ++ tail) := String.append_assoc
      have hend : "RT" ++ (command ++ ("," ++ tail)) = "RT" ++ command ++ ("," ++ tail) :=
        String.append_assoc.symm
      rw [hrest]
      refine ⟨tail, hend.trans String.append_assoc.symm, (utf8Bytes_between _ _).symm, ?_, ?_, rfl⟩
      · exact String.Pos.Raw.isValid_iff_exists_append.mpr ⟨_, _, rfl, rfl⟩
      · exact String.Pos.Raw.isValid_iff_exists_append.mpr ⟨_, _, hend, rfl⟩

/-- The comma in front is part of the command, and the one behind it is cut at; where there is no
other, all of the text is the command. -/
theorem remote_verbatim_accented :
    (Cut ("RT" ++ ",é,007x") 5 ∧
      parse ("RT" ++ ",é,007x") = .remote (Destination.ofNumber 7) ",é" ∧
      (Script.ofLine .basic .clear ("RT" ++ ",é,007x")).calls (Bench.ofNode 3) =
        [.identity, .forward (.node 7) ",é"]) ∧
    (∀ j, 3 ≤ j → (utf8Bytes ("RT" ++ ",é7"))[j]? ≠ some commaByte) ∧
      parse ("RT" ++ ",é7") = .remote (.ok .broadcast) ",é7" := by
  constructor
  · have hcut : Cut ("RT" ++ ",é,007x") 5 := ⟨by decide, by decide +kernel, by decide +kernel⟩
    obtain ⟨d, command, hparse, -, hsplit, -, hrun⟩ := remote_verbatim ",é,007x"
    obtain ⟨tail, hline, hcommand, -, -, hd⟩ := hsplit 5 hcut
    obtain rfl : command = ",é" := utf8Bytes_inj.mp hcommand
    obtain rfl : tail = "007x" := by
      rw [← String.toList_inj] at hline ⊢
      simpa using hline.symm
    have hnode : d = .ok (.node 7) := hd
    exact ⟨hcut, hd ▸ hparse, ((hrun .basic (Bench.ofNode 3) .clear).handed _ hnode).1⟩
  · have huncut (j : Nat) (hj : 3 ≤ j) : (utf8Bytes ("RT" ++ ",é7"))[j]? ≠ some commaByte := by
      have hkept : ',' ∉ ['é', '7'] := by decide
      exact no_comma_behind hkept hj
    obtain ⟨d, command, hparse, hall, -⟩ := remote_verbatim ",é7"
    obtain ⟨rfl, rfl⟩ := hall huncut
    exact ⟨huncut, hparse⟩

end Request

end RadioModem
