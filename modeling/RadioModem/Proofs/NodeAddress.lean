import RadioModem.Proofs.Registers
import RadioModem.Proofs.Stream

/-!
# The address of a node

The address stands in front of every reply, and one of the registers holds it from start-up on. The
register can be written like any other, and then the two agree only as long as the address itself is
what was written last.
-/
namespace RadioModem

/-- What a line puts into the register of the address, if it puts anything there. -/
def Request.addressGiven? (node : Address) : Request → Option Nat
  | here (.ok .factoryReset) => some node.toNat
  | here (.ok (.writeRegister index value)) =>
    if index = nodeIdIndex ∧ nodeIdInfo.accepts value = true then some value else none
  | _ => none

namespace Registers
variable {node : Address} {r : Registers}

/-- The address has a register and left the factory in it. -/
lemma FileOf.get_factory (h : FileOf node r) : r.reset.get nodeIdIndex = node.toNat := by
  have hfactory : r.factory[nodeIdIndex]? = some node.toNat := by
    rw [h.factory]
    exact List.getElem?_set_self (by decide)
  rw [get, Registers.reset, hfactory, Option.getD_some]

lemma FileOf.get_afterRequest (h : FileOf node r) (request : Request) :
    (r.afterRequest request).get nodeIdIndex =
      (request.addressGiven? node).getD (r.get nodeIdIndex) := by
  unfold Registers.afterRequest
  split
  · exact h.get_factory
  · rfl
  · next index value =>
    rw [h.get_set, Request.addressGiven?]
    by_cases hi : index = nodeIdIndex
    · subst hi
      have hwritable : writable nodeIdIndex value = nodeIdInfo.accepts value := rfl
      rw [hwritable]
      split <;> rfl
    · simp [hi, Ne.symm hi]
  · next hreset hsave hwrite =>
    have hnone : request.addressGiven? node = none := by
      unfold Request.addressGiven?
      split
      · exact absurd rfl hreset
      · exact absurd rfl (hwrite _ _)
      · rfl
    rw [hnone, Option.getD_none]

end Registers

namespace Moment
variable {node : Address}

def addressGiven? (node : Address) (x : Moment) : Option Nat :=
  x.line?.bind fun line => (Request.parse line).addressGiven? node

lemma next_registers (x : Moment) : x.next.node.registers =
    x.line?.elim x.session.node.registers fun line =>
      x.session.node.registers.afterRequest (.parse line) := by
  obtain ⟨running, hnext⟩ := x.next_after
  rw [hnext]
  cases x.line? <;> rfl

lemma next_address {x : Moment} (h : x.session.node.registers.FileOf node) :
    x.next.node.registers.FileOf node ∧
      x.next.node.registers.get nodeIdIndex =
        (x.addressGiven? node).getD (x.session.node.registers.get nodeIdIndex) := by
  rw [next_registers, addressGiven?]
  cases x.line? with
  | none => exact ⟨h, rfl⟩
  | some line => exact ⟨h.afterRequest _, h.get_afterRequest _⟩

end Moment

/-- What was last put into the register is in it. -/
theorem Trace.address {s s' : Session} {xs : List Moment} {node : Address} (h : Trace s xs s')
    (hfile : s.node.registers.FileOf node) : s'.node.registers.get nodeIdIndex =
      (xs.filterMap (Moment.addressGiven? node)).getLast?.getD
        (s.node.registers.get nodeIdIndex) := by
  induction h with
  | nil => rfl
  | @moment s s' signal xs rest ih =>
    obtain ⟨hnext, hgiven⟩ := Moment.next_address (x := ⟨s, signal⟩) hfile
    -- What this moment puts there counts only if nothing is put there later.
    rw [ih hnext, hgiven, List.filterMap_cons]
    cases Moment.addressGiven? node ⟨s, signal⟩ with
    | none => rfl
    | some given => rw [List.getLast?_cons, Option.getD_some, Option.getD_some]
  | drained rest ih => exact ih hfile

/-- A board is only built if the two agree. -/
lemma Node.address_ofConfiguration {c : Configuration} {n : Node}
    (h : ofConfiguration c = .ok n) :
    n.registers.get nodeIdIndex = c.identity.node.toNat := by
  obtain ⟨blank, registers, -, -, hheld, rfl⟩ := ofConfiguration_built h
  exact hheld

namespace Session
variable {c : Configuration} {s : Session}

/-- The address of the configuration stands in front of all that the dispatcher writes, and the
register has what a line has put into it last. So the two agree exactly if no line has put another
number there since the last that has put the address there. -/
theorem address_agrees_iff (h : ofConfiguration c = .ok s) (es : List SessionEvent) :
    let register := (s.after es).node.registers.get nodeIdIndex
    let given := (s.history es).filterMap (Moment.addressGiven? c.identity.node)
    (∀ x ∈ s.history es, x.polled.reply ++ x.reports = frames c.identity.node x.said) ∧
    (∀ (f : Features) (t : TestMode), (Dispatch.run f (s.after es).node t "ATS15?").reply =
      frame c.identity.node (toString register)) ∧
    register = given.getLast?.getD c.identity.node.toNat ∧
    (register = c.identity.node.toNat ↔ ∀ last ∈ given.getLast?, last = c.identity.node.toNat) := by
  intro register given
  obtain ⟨node, hn, rfl⟩ := ofConfiguration_ok h
  have hidentity : node.identity = c.identity := (Node.fresh_ofConfiguration hn).identity
  have htrace := history_trace (ofParts (.ofSettings c.modem) node) es
  obtain ⟨⟨hend, -⟩, hmoments⟩ := htrace.node
  have hregister : register = given.getLast?.getD c.identity.node.toNat := by
    rw [← Node.address_ofConfiguration hn]
    exact htrace.address (Node.fileOf_ofConfiguration hn)
  refine ⟨fun x hx => ?_, fun f t => ?_, hregister, ?_⟩
  · rw [x.replied, (hmoments x hx).1]
    exact congrArg (fun i : Identity => frames i.node x.said) hidentity
  · have hindex : nodeIdIndex < Registers.count := by decide
    refine (Node.reads_register (f := f) hindex t).trans ?_
    rw [hend]
    exact congrArg (fun i : Identity => frame i.node (toString register)) hidentity
  · rw [hregister]
    cases given.getLast? with
    | none => simp
    | some last => simp

/-- The third node of a network, with a guard window of one tick. -/
def third : Configuration :=
  { Configuration.standard with
    identity := { Identity.standard with node := 3 }
    modem := { ModemSettings.standard with guardTicks := 1 } }

/-- An escape, another address and the question for it. -/
def readdressing : List SessionEvent :=
  [.tick, .serial "+++".toUTF8.toList, .tick, .serial "ATS15=9\r".toUTF8.toList]

theorem address_agrees_iff_readdressing : ∃ s, ofConfiguration third = .ok s ∧
    (s.after (readdressing.take 3)).node.registers.get nodeIdIndex = 3 ∧
    (s.after readdressing).node.registers.get nodeIdIndex = 9 ∧
    (Dispatch.run .basic (s.after readdressing).node .clear "ATS15?").reply = "[3] 9\n" := by
  have hagrees := address_agrees_iff (c := third) rfl
  have hnine := (hagrees readdressing).2.2.1.trans
    (show _ = 9 by decide +kernel)
  refine ⟨_, rfl, (hagrees (readdressing.take 3)).2.2.2.mpr (by decide +kernel), hnine, ?_⟩
  rw [(hagrees readdressing).2.1, hnine]
  rfl

/-- The register of the address may be given another number, and every reply keeps the address. -/
theorem address_written : ¬∀ (c : Configuration) (s : Session) (es : List SessionEvent),
    c.validated = .ok c → ofConfiguration c = .ok s →
      (s.after es).node.registers.get nodeIdIndex = c.identity.node.toNat := by
  intro h
  exact absurd (h third _ readdressing rfl rfl) (by decide +kernel)

end Session

end RadioModem
