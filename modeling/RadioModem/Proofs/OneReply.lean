import RadioModem.Proofs.Changes
import RadioModem.Proofs.Replies

/-!
# One reply to a line

A local command is answered once, by a verdict or by data, and only the commands that leave command
mode, change the test modes or stop the board are answered by nothing. A list of pins is data too,
so where there are no pins the answer is missing.
-/
namespace RadioModem

/-- Commands that are run without a word. -/
def Command.Silent : Command → Prop
  | forceUpdate | testMode _ | online | reset => True
  | _ => False

def Request.Silent : Request → Prop
  | ignored | remote _ _ => True
  | here (.ok command) => command.Silent
  | here (.error _) => False

/-- The texts of a single reply: one verdict, or data and no verdict. -/
def OneReply (texts : List String) : Prop :=
  texts = [okText] ∨ texts = [errorText] ∨
    texts ≠ [] ∧ ∀ text ∈ texts, text ≠ okText ∧ text ≠ errorText

namespace Node

/-- Nodes that a configuration leads to: lines are run on them, the watchdog is switched and the
relay is drained. -/
inductive Reachable (c : Configuration) : Node → Prop
  | fresh {n : Node} (h : ofConfiguration c = .ok n) : Reachable c n
  | line {n : Node} (h : Reachable c n) (f : Features) (t : TestMode) (line : String) :
      Reachable c (Dispatch.run f n t line).board
  | switched {n : Node} (h : Reachable c n) (enabled : Bool) :
      Reachable c { n with watchdog := enabled }
  | drained {n : Node} (h : Reachable c n) : Reachable c { n with relay := .empty }

/-- Nothing is said exactly to the lines that are run without a word, and every other line gets a
single reply. -/
structure RepliesOnce (f : Features) (n : Node) (t : TestMode) (line : String) : Prop where
  silent_iff : (Dispatch.run f n t line).reply = "" ↔ (Request.parse line).Silent
  once : ¬(Request.parse line).Silent → ∃ texts,
    (Dispatch.run f n t line).reply = frames n.identity.node texts ∧ OneReply texts

end Node

section
variable {n : Node} {f : Features} {r : Request}

lemma texts_eq_nil_iff_of_length {texts : List String} {count : Nat} (h : texts.length = count) :
    texts = [] ↔ count = 0 := by rw [← h, List.length_eq_zero_iff]

lemma Command.texts_eq_nil_iff (c : Command) :
    c.texts n = [] ↔ c.Silent ∨ c = .pinList ∧ n.pins.count = 0 := by
  cases c with
  | info query =>
    have hlength := query.texts_length (n := n)
    rw [texts, texts_eq_nil_iff_of_length hlength]
    cases query <;> simp [Query.lineCount, Silent]
  | pinList =>
    simp [texts, Pins.texts, Silent]
  | pin index action => cases action <;> simp [texts, Silent]
  | extended request => cases request <;> simp [texts, Silent]
  | readRegister | attention | factoryReset | save | forceUpdate | testMode | writeRegister
  | online | reset => simp [texts, Silent]

lemma Command.taken_of_silent {c : Command} (h : c.Silent) : c.refusal? f n = none := by
  cases c with
  | forceUpdate | testMode | online | reset => rfl
  | attention | factoryReset | save | extended | info | pinList | pin | readRegister
  | writeRegister => exact h.elim

/-- Only the silent lines and a list of no pins are answered by nothing. -/
lemma Request.texts_eq_nil_iff :
    r.texts f n = [] ↔ r.Silent ∨ r = here (.ok .pinList) ∧ n.pins.count = 0 := by
  cases hr : r.refusal? f n with
  | some refusal =>
    rw [texts_refused hr]
    refine iff_of_false (by simp) ?_
    rintro (hsilent | ⟨rfl, -⟩)
    · cases r with
      | ignored | remote => cases hr
      | here command =>
        cases command with
        | ok c => cases (Command.taken_of_silent hsilent).symm.trans hr
        | error refusal => exact hsilent
    · cases hr
  | none =>
    cases r with
    | ignored | remote => exact iff_of_true rfl (.inl trivial)
    | here command =>
      cases command with
      | error refusal => cases hr
      | ok c => simpa [texts_taken hr, Silent] using c.texts_eq_nil_iff

lemma oneReply_singleton (text : String) : OneReply [text] := by
  by_cases hok : text = okText
  · exact .inl (by rw [hok])
  by_cases herror : text = errorText
  · exact .inr (.inl (by rw [herror]))
  exact .inr (.inr ⟨by simp, List.forall_mem_singleton.mpr ⟨hok, herror⟩⟩)

lemma Query.texts_worded {query : Query} (h : query.Worded) : ∃ text, query.texts n = [text] := by
  rcases h with rfl | rfl
  · exact ⟨_, rfl⟩
  · exact ⟨_, rfl⟩

/-- The words of a configuration may read like a verdict; they are one line all the same. -/
lemma Request.texts_oneReply (h : r.texts f n ≠ []) : OneReply (r.texts f n) := by
  by_cases hworded : ∃ query, r = here (.ok (.info query)) ∧ query.Worded
  · obtain ⟨query, rfl, hquery⟩ := hworded
    obtain ⟨text, htext⟩ := Query.texts_worded (n := n) hquery
    rw [texts_taken rfl, Command.texts, htext]
    exact oneReply_singleton text
  · obtain ⟨hok, herror, -⟩ := texts_verdict (f := f) (n := n) (r := r)
      fun query hr hquery => hworded ⟨query, hr, hquery⟩
    by_cases hmem : okText ∈ r.texts f n
    · exact .inl (hok hmem)
    by_cases hmem' : errorText ∈ r.texts f n
    · exact .inr (.inl (herror hmem'))
    exact .inr (.inr ⟨h, fun text ht =>
      ⟨ne_of_mem_of_not_mem ht hmem, ne_of_mem_of_not_mem ht hmem'⟩⟩)

end

/-! ### The number of pins -/

namespace Pins

@[simp] lemma setDirection_count (b : Pins) (index : Nat) (d : PinDirection) :
    (b.setDirection index d).count = b.count := by simp [setDirection, count]

@[simp] lemma setValue_count (b : Pins) (index level : Nat) :
    (b.setValue index level).1.count = b.count := by
  unfold setValue
  split
  · simp [count]
  · rfl

@[simp] lemma afterRequest_count (b : Pins) (r : Request) : (b.afterRequest r).count = b.count := by
  unfold afterRequest
  split <;> simp

end Pins

namespace Node
variable {c : Configuration} {n : Node}

lemma pins_ofConfiguration (h : ofConfiguration c = .ok n) : n.pins.count = c.pins.count := by
  obtain ⟨blank, registers, -, -, -, rfl⟩ := ofConfiguration_built h
  simp [Pins.ofSettings, Pins.count]

lemma Reachable.identity (h : n.Reachable c) : n.identity = c.identity := by
  induction h with
  | fresh h => exact (fresh_ofConfiguration h).identity
  | line h f t line ih => exact (run_keeps f _ t line).identity.trans ih
  | switched h enabled ih => exact ih
  | drained h ih => exact ih

/-- A node keeps the pins of its configuration. -/
lemma Reachable.pins (h : n.Reachable c) : n.pins.count = c.pins.count := by
  induction h with
  | fresh h => exact pins_ofConfiguration h
  | line h f t line ih =>
    rw [(run_after f _ t line).1]
    exact (Pins.afterRequest_count _ _).trans ih
  | switched h enabled ih => exact ih
  | drained h ih => exact ih

/-! ### The reply -/

/-- Every line gets the reply that belongs to it, except that a node without pins has nothing to say
where its pins are asked for. -/
theorem repliesOnce_iff (h : n.Reachable c) (f : Features) (t : TestMode) (line : String) :
    (RepliesOnce f n t line ↔ ¬(Request.parse line = .here (.ok .pinList) ∧ c.pins.count = 0)) ∧
    (Request.parse line = .here (.ok .pinList) ∧ c.pins.count = 0 →
      (Dispatch.run f n t line).reply = "") := by
  have hempty : (Dispatch.run f n t line).reply = "" ↔ (Request.parse line).Silent ∨
      Request.parse line = .here (.ok .pinList) ∧ c.pins.count = 0 := by
    rw [run_reply, frames_eq_empty_iff, Request.texts_eq_nil_iff, h.pins]
  refine ⟨⟨fun hreplies hpins => ?_, fun hpins => ⟨?_, fun hsilent => ?_⟩⟩,
    fun hpins => hempty.mpr (.inr hpins)⟩
  · have hsilent := hreplies.silent_iff.mp (hempty.mpr (.inr hpins))
    rw [hpins.1] at hsilent
    exact hsilent
  · rw [hempty, or_iff_left hpins]
  · refine ⟨_, run_reply f n t line, Request.texts_oneReply fun hnil => ?_⟩
    rw [Request.texts_eq_nil_iff, h.pins] at hnil
    exact hnil.elim hsilent hpins

/-- A configuration without pins. -/
def pinless : Configuration := { Configuration.standard with pins := ⟨0, []⟩ }

theorem repliesOnce_iff_pinless :
    (∃ n, ofConfiguration .standard = .ok n ∧ n.Reachable .standard ∧
      RepliesOnce ⟨false, false⟩ n .clear "ATPP") ∧
    ∃ n, ofConfiguration pinless = .ok n ∧ n.Reachable pinless ∧
      (Dispatch.run ⟨false, false⟩ n .clear "ATPP").reply = "" := by
  obtain ⟨n, hn⟩ : ∃ n, ofConfiguration .standard = .ok n := ⟨_, rfl⟩
  obtain ⟨bare, hbare⟩ : ∃ n, ofConfiguration pinless = .ok n := ⟨_, rfl⟩
  refine ⟨⟨n, hn, .fresh hn, ?_⟩, bare, hbare, .fresh hbare, ?_⟩
  · exact (repliesOnce_iff (.fresh hn) ⟨false, false⟩ .clear "ATPP").1.mpr
      fun hpins => absurd hpins.2 (by decide)
  · exact (repliesOnce_iff (.fresh hbare) ⟨false, false⟩ .clear "ATPP").2 ⟨rfl, rfl⟩

/-- A node without pins does not answer the question for them. -/
theorem pinList_unanswered : ¬∀ (c : Configuration) (n : Node) (f : Features) (t : TestMode)
    (line : String), c.validated = .ok c → n.Reachable c → RepliesOnce f n t line := by
  intro h
  obtain ⟨n, hn⟩ : ∃ n, ofConfiguration pinless = .ok n := ⟨_, rfl⟩
  have hreplies := h pinless n ⟨false, false⟩ .clear "ATPP" rfl (.fresh hn)
  have hempty : (Dispatch.run ⟨false, false⟩ n .clear "ATPP").reply = "" := by
    rw [run_reply, frames_eq_empty_iff, Request.texts_eq_nil_iff, pins_ofConfiguration hn]
    exact .inr ⟨rfl, rfl⟩
  exact hreplies.silent_iff.mp hempty

end Node

end RadioModem
