import RadioModem.Proofs.OneReply
import RadioModem.Proofs.Ownership

/-!
# The register file

What holds of all three lists of register values of a node, from start-up on: each is as long as the
table of registers, with every value in its range. Only a single write looks at the ranges; to save
and to reset copy lists that have come about by writes.
-/
namespace RadioModem

namespace Registers

/-- A value for every register of the table, within its bounds. -/
structure Valid (values : List Nat) : Prop where
  length : values.length = count
  within : ∀ (index : Nat) (info : RegisterInfo) (value : Nat), info? index = some info →
    values[index]? = some value → info.accepts value = true

variable {values : List Nat} {index value : Nat}

/-- The bounds of the first register leave it one value. -/
lemma Valid.format (h : Valid values) : values[0]? = some parameterFormat := by
  have hlength : 0 < values.length := by
    rw [h.length]
    decide
  have hhead : values[0]? = some values[0] := List.getElem?_eq_getElem hlength
  have haccepts := h.within 0 _ _ rfl hhead
  have hbounds : parameterFormat ≤ values[0] ∧ values[0] ≤ parameterFormat := by
    simpa [RegisterInfo.accepts] using haccepts
  rw [hhead, le_antisymm hbounds.2 hbounds.1]

lemma valid_initial : Valid initial where
  length := List.length_map _
  within index info value hinfo hvalue := by
    have hvalue' : (info? index).map RegisterInfo.initial = some value :=
      List.getElem?_map.symm.trans hvalue
    rw [hinfo, Option.map_some, Option.some.injEq] at hvalue'
    have hall : ∀ info ∈ registerTable, info.accepts info.initial = true := by decide
    rw [← hvalue']
    exact hall info (List.mem_of_getElem? hinfo)

lemma Valid.set (h : Valid values) (hw : writable index value = true) :
    Valid (values.set index value) where
  length := (List.length_set ..).trans h.length
  within other info held hinfo hheld := by
    by_cases he : index = other
    · subst he
      obtain ⟨hlt, hget⟩ := List.getElem?_eq_some_iff.mp hheld
      rw [List.getElem_set_self] at hget
      have haccepts : (info? index).any (·.accepts value) = true :=
        (Bool.and_eq_true_iff.mp hw).2
      rw [hinfo] at haccepts
      rw [← hget]
      exact haccepts
    · rw [List.getElem?_set_ne he] at hheld
      exact h.within other info held hinfo hheld

lemma writable_iff : writable index value = true ↔
    index ≠ 0 ∧ ∃ info, info? index = some info ∧ info.low ≤ value ∧ value ≤ info.high := by
  unfold writable
  cases info? index <;> simp [RegisterInfo.accepts]

lemma info?_lt {info : RegisterInfo} (h : info? index = some info) : index < count :=
  (List.getElem?_eq_some_iff.mp h).1

/-- The values that a node with some address leaves the factory with. -/
def factoryOf (node : Address) : List Nat := initial.set nodeIdIndex node.toNat

/-- The register file of a node with some address. -/
structure FileOf (node : Address) (r : Registers) : Prop where
  factory : r.factory = factoryOf node
  initial : Valid r.factory
  live : Valid r.live
  saved : Valid r.saved

variable {node : Address} {r r' : Registers}

lemma fileOf_forNode (h : forNode node = .ok r) : FileOf node r := by
  unfold forNode at h
  split at h
  · next hnode =>
    obtain rfl := Except.ok.inj h
    have hwritable : writable nodeIdIndex node.toNat = true := hnode
    have hvalid : Valid (factoryOf node) := valid_initial.set hwritable
    exact ⟨rfl, hvalid, hvalid, hvalid⟩
  · cases h

lemma FileOf.set (h : FileOf node r) (index value : Nat) : FileOf node (r.set index value).1 := by
  unfold Registers.set
  split
  · next hw => exact ⟨h.factory, h.initial, h.live.set hw, h.saved⟩
  · exact h

/-- A register has what was written to it if it takes that, and no other has changed. -/
lemma FileOf.get_set (h : FileOf node r) (index value other : Nat) :
    (r.set index value).1.get other =
      if other = index ∧ writable index value = true then value else r.get other := by
  by_cases hw : writable index value = true
  · obtain ⟨-, info, hinfo, -⟩ := writable_iff.mp hw
    have hlt : index < r.live.length := h.live.length.symm ▸ info?_lt hinfo
    rw [Registers.set, if_pos hw]
    by_cases he : other = index
    · subst he
      simp [hw, get, hlt]
    · rw [if_neg (by simp [he]), get, List.getElem?_set_ne (Ne.symm he), get]
  · rw [Registers.set, if_neg hw, if_neg (by simp [hw])]

lemma FileOf.save (h : FileOf node r) : FileOf node r.save :=
  ⟨h.factory, h.initial, h.live, h.live⟩

lemma FileOf.reset (h : FileOf node r) : FileOf node r.reset :=
  ⟨h.factory, h.initial, h.initial, h.saved⟩

lemma FileOf.setNamed (h : FileOf node r) {name : String} {value : Nat}
    (hr : r.setNamed name value = .ok r') : FileOf node r' := by
  unfold Registers.setNamed at hr
  split at hr
  · cases hr
  · next index _ =>
    have hset := h.set index value
    split at hr
    · next heq =>
      obtain rfl := Except.ok.inj hr
      rwa [heq] at hset
    · cases hr

lemma FileOf.setAll (h : FileOf node r) (values : Overrides) :
    FileOf node (r.setAll values).1 := by
  induction values generalizing r with
  | nil => exact h
  | cons entry rest ih =>
    obtain ⟨name, value⟩ := entry
    simp only [Registers.setAll]
    split
    · next hr => exact ih (h.setNamed hr)
    · exact h

lemma FileOf.override (h : FileOf node r) (values : Overrides) :
    FileOf node (r.override values).1 := by
  have hset := h.setAll values
  unfold Registers.override
  split
  · next heq =>
    rw [heq] at hset
    exact hset.save
  · next heq =>
    rw [heq] at hset
    exact hset

lemma FileOf.afterRequest (h : FileOf node r) (request : Request) :
    FileOf node (r.afterRequest request) := by
  unfold Registers.afterRequest
  split
  · exact h.reset
  · exact h.save
  · exact h.set _ _
  · exact h

end Registers

namespace Node
variable {c : Configuration} {n : Node}

lemma fileOf_ofConfiguration (h : ofConfiguration c = .ok n) :
    n.registers.FileOf c.identity.node := by
  obtain ⟨blank, registers, hblank, hoverride, -, rfl⟩ := ofConfiguration_built h
  have hfile := (Registers.fileOf_forNode hblank).override c.parameters
  rwa [hoverride] at hfile

lemma Reachable.fileOf (h : n.Reachable c) : n.registers.FileOf c.identity.node := by
  induction h with
  | fresh h => exact fileOf_ofConfiguration h
  | line h f t line ih =>
    rw [(run_after f _ t line).1]
    exact ih.afterRequest _
  | switched h enabled ih => exact ih
  | drained h ih => exact ih

/-- Whatever lines have been run on a node, its registers are within their bounds. Only a line that
saves changes what is saved, and a factory reset takes back all values in use. -/
theorem registers_invariant (h : n.Reachable c) :
    (∀ values ∈ [n.registers.factory, n.registers.live, n.registers.saved],
      values.length = 19 ∧ values[0]? = some 27 ∧
      ∀ (index : Nat) (info : RegisterInfo) (value : Nat), Registers.info? index = some info →
        values[index]? = some value → info.low ≤ value ∧ value ≤ info.high) ∧
    n.registers.factory = Registers.initial.set nodeIdIndex c.identity.node.toNat ∧
    n.registers.factory[nodeIdIndex]? = some c.identity.node.toNat ∧
    ∀ (f : Features) (t : TestMode) (line : String),
      let after := (Dispatch.run f n t line).board.registers
      after.factory = n.registers.factory ∧
      (Request.parse line = .here (.ok .save) →
        after = { n.registers with saved := n.registers.live }) ∧
      (Request.parse line ≠ .here (.ok .save) → after.saved = n.registers.saved) ∧
      (Request.parse line = .here (.ok .factoryReset) →
        after = { n.registers with live := n.registers.factory }) := by
  have hfile := h.fileOf
  refine ⟨fun values hvalues => ?_, hfile.factory, ?_, fun f t line => ?_⟩
  · have hvalid : Registers.Valid values := by
      simp only [List.mem_cons, List.not_mem_nil, or_false] at hvalues
      obtain rfl | rfl | rfl := hvalues
      · exact hfile.initial
      · exact hfile.live
      · exact hfile.saved
    refine ⟨hvalid.length, hvalid.format, fun index info value hinfo hvalue => ?_⟩
    simpa [RegisterInfo.accepts] using hvalid.within index info value hinfo hvalue
  · rw [hfile.factory]
    exact List.getElem?_set_self (by decide)
  · have hafter : (Dispatch.run f n t line).board.registers =
        n.registers.afterRequest (.parse line) := congrArg Node.registers (run_after f n t line).1
    dsimp only
    rw [hafter]
    refine ⟨Request.factory_same _ _, fun hsave => ?_, fun hother => ?_, fun hreset => ?_⟩
    · rw [hsave]
      rfl
    · refine Request.saved_same (f := f) (fun howns => ?_) n.registers
      generalize Request.parse line = r at hother howns
      cases howns
      exact hother rfl
    · rw [hreset]
      rfl

/-- Register 3 is set, saved, set once more and then brought back with all others. -/
theorem registers_invariant_reset : ∃ n, ofConfiguration .standard = .ok n ∧
    let set := (Dispatch.run ⟨false, false⟩ n .clear "ATS3=7").board
    let saved := (Dispatch.run ⟨false, false⟩ set .clear "AT&W").board
    let reset := (Dispatch.run ⟨false, false⟩ saved .clear "AT&F").board
    reset.Reachable .standard ∧ reset.registers.live[3]? = some 25 ∧
      reset.registers.saved[3]? = some 7 ∧ reset.registers.factory[nodeIdIndex]? = some 0 := by
  obtain ⟨n, hn⟩ : ∃ n, ofConfiguration .standard = .ok n := ⟨_, rfl⟩
  refine ⟨n, hn, ?_⟩
  intro set saved reset
  have hsaved : saved.Reachable .standard :=
    ((Reachable.fresh hn).line ⟨false, false⟩ .clear "ATS3=7").line ⟨false, false⟩ .clear "AT&W"
  have hreset := hsaved.line ⟨false, false⟩ .clear "AT&F"
  have hback : reset.registers = { saved.registers with live := saved.registers.factory } :=
    ((registers_invariant hsaved).2.2.2 ⟨false, false⟩ .clear "AT&F").2.2.2 rfl
  refine ⟨hreset, ?_, ?_, (registers_invariant hreset).2.2.1⟩
  · rw [hback, (registers_invariant hsaved).2.1]
    rfl
  · cases hn
    decide +kernel

end Node

end RadioModem
