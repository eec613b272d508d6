import RadioModem.Proofs.CommandTable
import RadioModem.Proofs.Registers

/-!
# Access to the registers

A write takes effect exactly if its register is there, may be written and takes the value; then the
value is read back, and no other register has changed. Numbers may be written with any zeros in
front, and are refused from 2 ^ 32 on.
-/
namespace RadioModem

section
variable {index value : String} {i v : Nat}

/-! ### Lines for registers -/

namespace Request

lemma parse_writeRegister (hi : Spells index i) (hv : Spells value v) (h : i < numberLimit)
    (h' : v < numberLimit) :
    parse ("ATS" ++ index ++ "=" ++ value) = .here (.ok (.writeRegister i v)) := by
  have hline : ("ATS" ++ index ++ "=" ++ value).toList =
      'A' :: 'T' :: 'S' :: (index.toList ++ '=' :: (value.toList ++ [])) := by simp
  rw [parse_local hline, Command.parse_of_spelling
    (.writeRegister ⟨hi.digits, ?_, hi.value, h⟩ ⟨hv.digits, ?_, hv.value, h'⟩)]
  · simp
  · simp

lemma parse_large_index (hi : Spells index i) (h : numberLimit ≤ i) (rest : String) :
    parse ("ATS" ++ index ++ rest) = .here (.error .malformed) := by
  have hline : ("ATS" ++ index ++ rest).toList =
      'A' :: 'T' :: 'S' :: (index.toList ++ rest.toList) := by simp
  rw [parse_local hline, Command.parse, Command.ofRegister,
    number_large hi.digits (hi.value.symm ▸ h)]
  rfl

lemma parse_large_write (hi : Spells index i) (hv : Spells value v)
    (h : numberLimit ≤ i ∨ numberLimit ≤ v) (rest : String) :
    parse ("ATS" ++ index ++ "=" ++ value ++ rest) = .here (.error .malformed) := by
  by_cases hsmall : i < numberLimit
  · have hlarge : numberLimit ≤ v := h.resolve_left (not_le.mpr hsmall)
    have hline : ("ATS" ++ index ++ "=" ++ value ++ rest).toList =
        'A' :: 'T' :: 'S' :: (index.toList ++ '=' :: (value.toList ++ rest.toList)) := by simp
    have hindex : Numeral index.toList ('=' :: (value.toList ++ rest.toList)) i :=
      ⟨hi.digits, by simp, hi.value, hsmall⟩
    rw [parse_local hline, Command.parse, Command.ofRegister, hindex.number_eq]
    simp only [bind, Except.bind, number_large hv.digits (hv.value.symm ▸ hlarge)]
  · have hassoc : "ATS" ++ index ++ "=" ++ value ++ rest =
        "ATS" ++ index ++ ("=" ++ value ++ rest) := by simp only [String.append_assoc]
    rw [hassoc]
    exact parse_large_index hi (not_lt.mp hsmall) _

end Request

/-! ### What a register takes -/

namespace Registers

lemma writable_iff_between : writable i v = true ↔ 1 ≤ i ∧ i ≤ 18 ∧
    ∃ info, info? i = some info ∧ info.low ≤ v ∧ v ≤ info.high := by
  rw [writable_iff]
  constructor
  · rintro ⟨hzero, info, hinfo, hbounds⟩
    exact ⟨Nat.pos_of_ne_zero hzero, Nat.le_of_lt_succ (info?_lt hinfo), info, hinfo, hbounds⟩
  · rintro ⟨hpos, -, hinfo⟩
    exact ⟨Nat.ne_of_gt hpos, hinfo⟩

lemma small_of_writable (h : writable i v = true) : i < numberLimit ∧ v < numberLimit := by
  obtain ⟨-, info, hinfo, -, hhigh⟩ := writable_iff.mp h
  have hall : ∀ info ∈ registerTable, info.high < numberLimit := by decide
  exact ⟨Nat.lt_trans (info?_lt hinfo) (by decide),
    Nat.lt_of_le_of_lt hhigh (hall info (List.mem_of_getElem? hinfo))⟩

lemma refusal?_write_iff {f : Features} {n : Node} :
    (Command.writeRegister i v).refusal? f n = none ↔ writable i v = true := by
  simp only [Command.refusal?]
  split
  · split
    · next hzero => simp [writable, hzero]
    · split <;> simp [*]
  · next hcount =>
    refine iff_of_false (by simp) fun hw => ?_
    obtain ⟨-, info, hinfo, -⟩ := writable_iff.mp hw
    exact hcount (info?_lt hinfo)

end Registers

namespace Node
variable {c : Configuration} {node : Node} {f : Features}

/-- A write that is refused is answered by an error and changes nothing. -/
lemma write_refused (hi : Spells index i) (hv : Spells value v)
    (h : ¬Registers.writable i v = true) (t : TestMode) :
    (Dispatch.run f node t ("ATS" ++ index ++ "=" ++ value)).reply =
        frame node.identity.node errorText ∧
      (Dispatch.run f node t ("ATS" ++ index ++ "=" ++ value)).board = node := by
  by_cases hlarge : numberLimit ≤ i ∨ numberLimit ≤ v
  · have hparse := Request.parse_large_write hi hv hlarge ""
    rw [String.append_empty] at hparse
    exact reply_unread hparse t
  · obtain ⟨hsmall, hsmall'⟩ := not_or.mp hlarge
    obtain ⟨r, hr⟩ := Option.ne_none_iff_exists'.mp
      (fun hnone => h ((Registers.refusal?_write_iff (f := f) (n := node)).mp hnone))
    refine reply_refused (r := r) ?_ t
    rw [Request.parse_writeRegister hi hv (not_le.mp hsmall) (not_le.mp hsmall')]
    exact hr

lemma write_taken (hi : Spells index i) (hv : Spells value v)
    (h : Registers.writable i v = true) (t : TestMode) :
    (Dispatch.run f node t ("ATS" ++ index ++ "=" ++ value)).reply =
        frame node.identity.node okText ∧
      (Dispatch.run f node t ("ATS" ++ index ++ "=" ++ value)).board =
        { node with registers := (node.registers.set i v).1 } := by
  obtain ⟨hsmall, hsmall'⟩ := Registers.small_of_writable h
  have hparse := Request.parse_writeRegister hi hv hsmall hsmall'
  refine ⟨reply_told hparse (Registers.refusal?_write_iff.mpr h) rfl t, ?_⟩
  rw [(run_after f node t _).1, hparse, afterRequest_plain rfl]
  rfl

lemma read_refused (hi : Spells index i) (h : Registers.count ≤ i) (t : TestMode) :
    (Dispatch.run f node t ("ATS" ++ index ++ "?")).reply = frame node.identity.node errorText := by
  by_cases hlarge : numberLimit ≤ i
  · exact (reply_unread (Request.parse_large_index hi hlarge "?") t).1
  · refine (reply_refused (r := .outOfRange i Registers.count) ?_ t).1
    rw [Request.parse_readRegister hi (not_le.mp hlarge)]
    exact if_neg (not_lt.mpr h)

/-- After a write that is taken, its register is read as the value and any other one as before. -/
lemma reads_written {j : Nat} {text : String} (h : node.Reachable c)
    (hw : Registers.writable i v = true) (hj : Spells text j) (hcount : j < Registers.count)
    (t : TestMode) :
    (Dispatch.run f { node with registers := (node.registers.set i v).1 } t
        ("ATS" ++ text ++ "?")).reply =
      if j = i then frame node.identity.node (toString v)
      else (Dispatch.run f node t ("ATS" ++ text ++ "?")).reply := by
  rw [reads_spelled hj hcount, reads_spelled hj hcount, h.fileOf.get_set]
  by_cases hsame : j = i
  · rw [if_pos ⟨hsame, hw⟩, if_pos hsame]
  · rw [if_neg fun he => hsame he.1, if_neg hsame]

/-- A write is taken exactly if its register is one of the eighteen that can be written and the
value is in its range. From then on the register is read as the value, all others as before. -/
theorem register_access (h : node.Reachable c) (f : Features) (t : TestMode)
    (hi : Spells index i) (hv : Spells value v) :
    let write := Dispatch.run f node t ("ATS" ++ index ++ "=" ++ value)
    let taken := 1 ≤ i ∧ i ≤ 18 ∧
      ∃ info, Registers.info? i = some info ∧ info.low ≤ v ∧ v ≤ info.high
    let ok := frame node.identity.node okText
    let error := frame node.identity.node errorText
    (write.reply = ok ↔ taken) ∧ (write.reply = error ↔ ¬taken) ∧
    (∀ (f : Features) (t : TestMode) (j : Nat) (text : String), Spells text j → j < 19 →
      let before := (Dispatch.run f node t ("ATS" ++ text ++ "?")).reply
      let after := (Dispatch.run f write.board t ("ATS" ++ text ++ "?")).reply
      (taken ∧ j = i → after = frame node.identity.node (toString v)) ∧
      (¬(taken ∧ j = i) → after = before)) ∧
    ((Dispatch.run f node t ("ATS" ++ index ++ "?")).reply = error ↔ 19 ≤ i) ∧
    ∀ rest : String,
      (4294967296 ≤ i → (Dispatch.run f node t ("ATS" ++ index ++ rest)).reply = error) ∧
      (4294967296 ≤ i ∨ 4294967296 ≤ v →
        (Dispatch.run f node t ("ATS" ++ index ++ "=" ++ value ++ rest)).reply = error) := by
  intro write taken ok error
  have htaken : Registers.writable i v = true ↔ taken := Registers.writable_iff_between
  have hverdicts : ok ≠ error := fun he => absurd (frame_inj he) (by decide)
  have hwrite : taken ∧ write.reply = ok ∧
      write.board = { node with registers := (node.registers.set i v).1 } ∨
      ¬taken ∧ write.reply = error ∧ write.board = node := by
    by_cases hw : Registers.writable i v = true
    · exact .inl ⟨htaken.mp hw, write_taken hi hv hw t⟩
    · exact .inr ⟨mt htaken.mpr hw, write_refused hi hv hw t⟩
  refine ⟨?_, ?_, fun f t j text hj hcount => ?_,
    ⟨fun herror => ?_, fun hcount => read_refused hi hcount t⟩,
    fun rest => ⟨fun hlarge => ?_, fun hlarge => ?_⟩⟩
  · rcases hwrite with ⟨ht, hreply, -⟩ | ⟨ht, hreply, -⟩
    · exact iff_of_true hreply ht
    · exact iff_of_false (fun he => hverdicts (he.symm.trans hreply)) ht
  · rcases hwrite with ⟨ht, hreply, -⟩ | ⟨ht, hreply, -⟩
    · exact iff_of_false (fun he => hverdicts (hreply.symm.trans he)) (not_not.mpr ht)
    · exact iff_of_true hreply ht
  · intro before after
    rcases hwrite with ⟨ht, -, hboard⟩ | ⟨ht, -, hboard⟩
    · have hafter := (congrArg (fun b => (Dispatch.run f b t _).reply) hboard).trans
        (reads_written h (htaken.mpr ht) hj hcount t)
      refine ⟨fun hsame => ?_, fun hother => ?_⟩
      · exact hafter.trans (if_pos hsame.2)
      · exact hafter.trans (if_neg fun he => hother ⟨ht, he⟩)
    · refine ⟨fun hsame => absurd hsame.1 ht, fun _ => ?_⟩
      exact congrArg (fun b => (Dispatch.run f b t _).reply) hboard
  · by_contra hcount
    have hread := (reads_spelled hi (not_le.mp hcount) t).symm.trans herror
    exact (datum_repr _).ne.2 (frame_inj hread)
  · exact (reply_unread (Request.parse_large_index hi hlarge rest) t).1
  · exact (reply_unread (Request.parse_large_write hi hv hlarge rest) t).1

/-- The largest network number and the one after it, both with zeros in front. -/
theorem register_access_bounds : ∃ node, ofConfiguration .standard = .ok node ∧
    node.Reachable .standard ∧ Spells "003" 3 ∧ Spells "0499" 499 ∧ Spells "0500" 500 ∧
    let write := Dispatch.run .basic node .clear ("ATS" ++ "003" ++ "=" ++ "0499")
    write.reply = "[0] OK\n" ∧
    (Dispatch.run .basic write.board .clear ("ATS" ++ "003" ++ "?")).reply = "[0] 499\n" ∧
    (Dispatch.run .basic node .clear ("ATS" ++ "003" ++ "=" ++ "0500")).reply = "[0] ERROR\n" := by
  have hthree : Spells "003" 3 := spells_padded 2 3
  have hlargest : Spells "0499" 499 := spells_padded 1 499
  have hnext : Spells "0500" 500 := spells_padded 1 500
  obtain ⟨node, hnode⟩ : ∃ node, ofConfiguration .standard = .ok node := ⟨_, rfl⟩
  have hreachable : node.Reachable .standard := .fresh hnode
  have haddress : node.identity.node = 0 := by
    rw [(fresh_ofConfiguration hnode).identity]
    rfl
  obtain ⟨hok, -, hread, -⟩ := register_access hreachable .basic .clear hthree hlargest
  have hrefused := (register_access hreachable .basic .clear hthree hnext).2.1
  rw [haddress] at hok hread hrefused
  have htaken : 1 ≤ 3 ∧ 3 ≤ 18 ∧
      ∃ info, Registers.info? 3 = some info ∧ info.low ≤ 499 ∧ 499 ≤ info.high :=
    ⟨by decide, by decide, _, rfl, by decide, by decide⟩
  refine ⟨node, hnode, hreachable, hthree, hlargest, hnext, ?_, ?_, ?_⟩
  · exact (hok.mpr htaken).trans (by decide)
  · exact ((hread .basic .clear 3 "003" hthree (by decide)).1 ⟨htaken, rfl⟩).trans (by decide)
  · refine (hrefused.mpr ?_).trans (by decide)
    rintro ⟨-, -, info, hinfo, -, hhigh⟩
    cases hinfo
    exact absurd hhigh (by decide)

end Node

end

end RadioModem
