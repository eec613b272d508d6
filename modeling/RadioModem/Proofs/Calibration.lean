import RadioModem.Proofs.OneReply

/-!
# The calibration area over time

What an area is after any calls. Each channel holds what it last took, an area that looks complete
can be locked, and a locked one is as it was when it was locked, for good. A node changes its area
by the calls that its lines make, and answers each of these lines by what the area said.
-/
namespace RadioModem

namespace Calibration

/-- The last value that was written to a channel. -/
def lastWritten {α : Type} (writes : List (Nat × α)) (channel : Nat) : Option α :=
  (writes.filter fun write => write.1 = channel).getLast?.map Prod.snd

section
variable {α β : Type} {writes : List (Nat × α)} {channel : Nat}

lemma lastWritten_concat (writes : List (Nat × α)) (written : Nat) (value : α) (channel : Nat) :
    lastWritten (writes ++ [(written, value)]) channel =
      if written = channel then some value else lastWritten writes channel := by
  unfold lastWritten
  rw [List.filter_append]
  split <;> simp [*]

lemma lastWritten_map (f : α → β) (writes : List (Nat × α)) (channel : Nat) :
    lastWritten (writes.map (Prod.map id f)) channel = (lastWritten writes channel).map f := by
  simp [lastWritten, List.filter_map, Function.comp_def]

lemma lastWritten_eq_none_iff : lastWritten writes channel = none ↔
    ∀ value, (channel, value) ∉ writes := by
  simp only [lastWritten, Option.map_eq_none_iff, List.getLast?_eq_none_iff,
    List.filter_eq_nil_iff, decide_eq_true_eq, Prod.forall]
  exact ⟨fun h value hmem => h channel value hmem rfl,
    fun h written value hmem he => h value (he ▸ hmem)⟩

end

/-- What is asked of a calibration area. -/
inductive AreaCall
  | get (channel : Nat)
  | set (channel : Nat) (value : UInt8)
  | lock
  deriving DecidableEq, Repr

def step (c : Calibration) : AreaCall → Calibration
  | .get _ => c
  | .set channel value => (c.set channel value).1
  | .lock => c.lock.1

def after (c : Calibration) (calls : List AreaCall) : Calibration := calls.foldl step c

/-- The write that a call asks for, if the area takes it. -/
def taken? (c : Calibration) : AreaCall → Option (Nat × UInt8)
  | .set channel value => if (c.set channel value).2 then some (channel, value) else none
  | .get _ | .lock => none

/-- The writes that are taken in the course of some calls. -/
def taken (c : Calibration) : List AreaCall → List (Nat × UInt8)
  | [] => []
  | call :: calls => (c.taken? call).toList ++ (c.step call).taken calls

variable {c : Calibration} {channel channels : Nat} {writes : List (Nat × UInt8)}

/-! ### Single calls -/

lemma complete_iff_get : c.complete = true ↔ ∀ n < c.values.length, c.get n ≠ unwritten := by
  rw [complete_iff, List.mem_iff_getElem]
  constructor
  · intro h n hn he
    rw [get, List.getElem?_eq_getElem hn, Option.getD_some] at he
    exact h ⟨n, hn, he⟩
  · rintro h ⟨n, hn, he⟩
    refine h n hn ?_
    rw [get, List.getElem?_eq_getElem hn, Option.getD_some]
    exact he

lemma set_cases (c : Calibration) (channel : Nat) (value : UInt8) :
    (c.locked = false ∧ channel < c.values.length ∧
      c.set channel value = ({ c with values := c.values.set channel value }, true)) ∨
    ((c.locked = true ∨ c.values.length ≤ channel) ∧ c.set channel value = (c, false)) := by
  unfold set
  split
  · next h =>
    have htaken : c.locked = false ∧ channel < c.values.length := by simpa using h
    exact .inl ⟨htaken.1, htaken.2, rfl⟩
  · next h =>
    refine .inr ⟨?_, rfl⟩
    cases hlocked : c.locked with
    | true => exact .inl rfl
    | false => exact .inr (by simpa [hlocked] using h)

lemma get_written (h : channel < c.values.length) (value : UInt8) (n : Nat) :
    ({ c with values := c.values.set channel value } : Calibration).get n =
      if channel = n then value else c.get n := by
  unfold get
  split
  · next he => rw [← he, List.getElem?_set_self h, Option.getD_some]
  · next hne => rw [List.getElem?_set_ne hne]

lemma lock_cases (c : Calibration) :
    (c.complete = true ∧ c.lock = ({ c with locked := true }, true)) ∨
      (c.complete = false ∧ c.lock = (c, false)) := by
  unfold lock
  cases hcomplete : c.complete with
  | true => exact .inl ⟨rfl, rfl⟩
  | false => exact .inr ⟨rfl, rfl⟩

lemma lock_taken (c : Calibration) : c.lock.2 = c.complete := by
  rcases c.lock_cases with ⟨hcomplete, hlock⟩ | ⟨hcomplete, hlock⟩
  · rw [hlock, hcomplete]
  · rw [hlock, hcomplete]

/-! ### Locked areas -/

lemma set_of_locked (h : c.locked = true) (channel : Nat) (value : UInt8) :
    c.set channel value = (c, false) := by
  rcases c.set_cases channel value with ⟨hfree, -⟩ | ⟨-, hset⟩
  · cases hfree.symm.trans h
  · exact hset

lemma step_of_locked (h : c.locked = true) (call : AreaCall) : c.step call = c := by
  cases call with
  | get channel => rfl
  | set channel value => rw [step, set_of_locked h]
  | lock =>
    rcases c.lock_cases with ⟨-, hlock⟩ | ⟨-, hlock⟩
    · rw [step, hlock, ← h]
    · rw [step, hlock]

lemma after_of_locked (h : c.locked = true) (calls : List AreaCall) : c.after calls = c := by
  induction calls with
  | nil => rfl
  | cons call calls ih => rw [after, List.foldl_cons, step_of_locked h, ← after, ih]

/-! ### What an area holds -/

/-- An area and the writes that it took. Whether it is complete is looked at when it is locked; it
stays so because nothing is written from then on. -/
structure Holds (channels : Nat) (c : Calibration) (writes : List (Nat × UInt8)) : Prop where
  size : c.values.length = channels
  value : ∀ n, c.get n = (lastWritten writes n).getD unwritten
  complete : c.locked = true → c.complete = true

lemma holds_ofChannels (channels : Nat) : Holds channels (ofChannels channels) [] where
  size := List.length_replicate
  value n := by
    rw [get, ofChannels, List.getElem?_replicate]
    split <;> rfl
  complete := nofun

lemma Holds.step (h : Holds channels c writes) (call : AreaCall) :
    Holds channels (c.step call) (writes ++ (c.taken? call).toList) := by
  cases call with
  | get channel => simpa [Calibration.step, taken?] using h
  | set channel value =>
    rcases c.set_cases channel value with ⟨hfree, hchannel, hset⟩ | ⟨-, hset⟩
    · -- Only here a value changes, and the history ends with it. The area is not locked yet.
      simp only [Calibration.step, taken?, hset, if_true, Option.toList_some]
      refine ⟨(List.length_set ..).trans h.size, fun n => ?_, fun hlocked => ?_⟩
      · rw [get_written hchannel, lastWritten_concat, h.value, apply_ite (Option.getD · unwritten)]
        rfl
      · cases hfree.symm.trans hlocked
    · simpa [Calibration.step, taken?, hset] using h
  | lock =>
    rcases c.lock_cases with ⟨hcomplete, hlock⟩ | ⟨-, hlock⟩
    · simp only [Calibration.step, taken?, hlock, Option.toList_none, List.append_nil]
      exact ⟨h.size, h.value, fun _ => hcomplete⟩
    · simpa [Calibration.step, taken?, hlock] using h

theorem Holds.after (h : Holds channels c writes) (calls : List AreaCall) :
    Holds channels (c.after calls) (writes ++ c.taken calls) := by
  induction calls generalizing c writes with
  | nil => simpa [taken, Calibration.after] using h
  | cons call calls ih =>
    rw [taken, ← List.append_assoc]
    exact ih (h.step call)

lemma holds_after (channels : Nat) (calls : List AreaCall) :
    Holds channels ((ofChannels channels).after calls) ((ofChannels channels).taken calls) :=
  (holds_ofChannels channels).after calls

lemma Holds.lock_taken_iff (h : Holds channels c writes) :
    c.lock.2 = true ↔ ∀ n < channels, c.get n ≠ unwritten := by
  rw [lock_taken, complete_iff_get, h.size]

/-- To lock an area twice is to lock it once. -/
lemma Holds.locked_lock (h : Holds channels c writes) : c.lock.1.locked = c.lock.2 := by
  rcases c.lock_cases with ⟨-, hlock⟩ | ⟨hcomplete, hlock⟩
  · rw [hlock]
  · rw [hlock, Bool.eq_false_iff]
    exact fun hlocked => by cases hcomplete.symm.trans (h.complete hlocked)

/-- A locked area has a value for every channel, and nothing that is asked of it changes one. -/
lemma Holds.frozen (h : Holds channels c writes) (hlocked : c.locked = true) :
    (∀ n < channels, c.get n ≠ unwritten) ∧
      ∀ later, (c.after later).locked = true ∧ (∀ n, (c.after later).get n = c.get n) ∧
        ∀ n value, ((c.after later).set n value).2 = false := by
  have hcomplete : c.complete = true := h.complete hlocked
  rw [complete_iff_get, h.size] at hcomplete
  refine ⟨hcomplete, fun later => ?_⟩
  rw [after_of_locked hlocked]
  exact ⟨hlocked, fun n => rfl, fun n value => by rw [set_of_locked hlocked]⟩

/-! ### Answers -/

def verdictText (taken : Bool) : String := if taken then okText else errorText

lemma verdictText_eq_ok_iff {taken : Bool} : verdictText taken = okText ↔ taken = true := by
  cases taken <;> decide

lemma verdictText_eq_error_iff {taken : Bool} :
    verdictText taken = errorText ↔ taken = false := by
  cases taken <;> decide

/-- The text that answers a call on a line of its own. -/
def told (c : Calibration) : AreaCall → String
  | .get channel => toString (c.get channel).toNat
  | .set channel value => verdictText (c.set channel value).2
  | .lock => verdictText c.lock.2

end Calibration

/-! ### Lines -/

open Calibration

/-- The call that a command makes of a calibration area. -/
def Extended.call? : Extended → Option AreaCall
  | .power _ => none
  | .readChannel channel => some (.get channel)
  | .writeChannel channel value => some (.set channel (UInt8.ofNat value))
  | .lockCalibration => some .lock

def Calibration.AreaCall.request : AreaCall → Extended
  | .get channel => .readChannel channel
  | .set channel value => .writeChannel channel value.toNat
  | .lock => .lockCalibration

namespace Request

def call? (f : Features) (r : Request) : Option AreaCall := (r.extended? f).bind Extended.call?

/-- The calls that some lines make of the calibration area of their node. -/
def calls (f : Features) (lines : List String) : List AreaCall :=
  lines.filterMap fun line => (parse line).call? f

variable {f : Features} {r : Request} {call : AreaCall}

lemma calls_cons (f : Features) (line : String) (lines : List String) :
    calls f (line :: lines) = ((parse line).call? f).toList ++ calls f lines :=
  filterMap_cons_append _ _ _

/-- On a board that has extended commands, each makes its call. -/
lemma call?_of_parse {line : String} {request : Extended} (hf : f.extendedCommands = true)
    (h : parse line = .here (.ok (.extended request))) :
    (parse line).call? f = request.call? := by
  rw [h, call?, extended?, if_pos hf, Option.bind_some]

lemma call?_request (call : AreaCall) : call.request.call? = some call := by
  cases call with
  | get | lock => rfl
  | set channel value => simp [Calibration.AreaCall.request, Extended.call?]

/-- Every call that can be written on a line is made by one. -/
lemma exists_lines (hf : f.extendedCommands = true) (calls : List AreaCall)
    (h : ∀ call ∈ calls, (Command.extended call.request).Writable) :
    ∃ lines, Request.calls f lines = calls := by
  refine ⟨calls.map fun call => (Command.extended call.request).print, ?_⟩
  rw [Request.calls, List.filterMap_map]
  refine (List.filterMap_congr fun call hcall => ?_).trans List.filterMap_some
  rw [Function.comp_apply, call?_of_parse hf (parse_print (h call hcall)), call?_request]

end Request

namespace Node
variable {c : Configuration} {n : Node} {area : Calibration} {f : Features} {t : TestMode}

/-- A node and its test modes after some lines. -/
def afterLines (f : Features) (n : Node) (t : TestMode) : List String → Node × TestMode
  | [] => (n, t)
  | line :: lines =>
    (Dispatch.run f n t line).board.afterLines f (Dispatch.run f n t line).tests lines

lemma calibration_ofConfiguration (h : ofConfiguration c = .ok n)
    (henabled : c.calibration.enabled = true) :
    n.calibration = some (.ofChannels c.calibration.channels) := by
  obtain ⟨blank, registers, -, -, -, rfl⟩ := ofConfiguration_built h
  exact if_pos henabled

lemma afterExtended_eq (area : Calibration) (request : Extended) :
    area.afterExtended request = request.call?.elim area area.step := by
  cases request <;> rfl

lemma run_calibration (ha : n.calibration = some area) (line : String) :
    (Dispatch.run f n t line).board.calibration =
      some (((Request.parse line).call? f).elim area area.step) := by
  rw [(run_after f n t line).1, afterRequest, ha, Option.map_some, Request.call?]
  cases (Request.parse line).extended? f with
  | none => rfl
  | some request => exact congrArg some (afterExtended_eq area request)

/-- The area behind some lines is the area behind their calls. -/
theorem afterLines_calibration (ha : n.calibration = some area) (t : TestMode)
    (lines : List String) :
    (n.afterLines f t lines).1.calibration = some (area.after (Request.calls f lines)) := by
  induction lines generalizing n t area with
  | nil => exact ha
  | cons line lines ih =>
    have hrun : (Dispatch.run f n t line).board.calibration = _ := run_calibration ha line
    rw [afterLines, ih hrun, Request.calls_cons]
    cases (Request.parse line).call? f <;> rfl

lemma afterLines_identity (f : Features) (n : Node) (t : TestMode) (lines : List String) :
    (n.afterLines f t lines).1.identity = n.identity := by
  induction lines generalizing n t with
  | nil => rfl
  | cons line lines ih => exact (ih _ _).trans (run_keeps f n t line).identity

/-- A node that is built keeps its identity behind any lines. -/
lemma identity_behind (h : ofConfiguration c = .ok n) (f : Features) (t : TestMode)
    (lines : List String) : (n.afterLines f t lines).1.identity = c.identity :=
  (n.afterLines_identity f t lines).trans (fresh_ofConfiguration h).identity

/-- A change is answered by whether its store takes it. -/
lemma judged_texts {taken : Bool} {P : Prop} [Decidable P] (h : taken = true ↔ P) (r : Refusal) :
    (if (if P then none else some r).isSome then [errorText] else [okText]) =
      [verdictText taken] := by
  by_cases hP : P
  · rw [if_pos hP, h.mpr hP]
    rfl
  · rw [if_neg hP, Bool.eq_false_iff.mpr (mt h.mp hP)]
    rfl

lemma texts_call {request : Extended} {call : AreaCall} (ha : n.calibration = some area)
    (hf : f.extendedCommands = true) (hcall : request.call? = some call) :
    (Request.here (.ok (.extended request))).texts f n = [area.told call] := by
  have hrefusal : (Request.here (.ok (.extended request))).refusal? f n = request.refusal? n :=
    if_pos hf
  rw [Request.texts, hrefusal]
  cases request with
  | power pwm => cases hcall
  | readChannel channel =>
    obtain rfl := Option.some.inj hcall
    simp [Extended.refusal?, ha, Command.texts, told, Node.channel]
  | writeChannel channel value =>
    obtain rfl := Option.some.inj hcall
    have htaken := (setChannel_judges ha channel (UInt8.ofNat value)).taken_iff
    simp only [setChannel, ha] at htaken
    simp only [Extended.refusal?, ha, Option.elim_some]
    exact judged_texts htaken _
  | lockCalibration =>
    obtain rfl := Option.some.inj hcall
    have htaken := (lockCalibration_judges ha).taken_iff
    simp only [lockCalibration, ha] at htaken
    simp only [Extended.refusal?, ha, Option.elim_some]
    exact judged_texts htaken _

/-- A line that makes a call is answered by what the area says to the call. -/
lemma reply_call {line : String} {call : AreaCall} (ha : n.calibration = some area)
    (hcall : (Request.parse line).call? f = some call) (t : TestMode) :
    (Dispatch.run f n t line).reply = frame n.identity.node (area.told call) := by
  obtain ⟨request, hrequest, hcall⟩ := Option.bind_eq_some_iff.mp hcall
  obtain ⟨hparse, hf⟩ := Request.extended?_eq_some hrequest
  rw [run_reply, hparse, texts_call ha hf hcall, frames_singleton]

/-- Behind some lines a node has the area that their calls leave, and answers for it. -/
lemma lines_calibrate (h : ofConfiguration c = .ok n) (henabled : c.calibration.enabled = true)
    (f : Features) (t : TestMode) (lines : List String) :
    let behind := n.afterLines f t lines
    let area := (ofChannels c.calibration.channels).after (Request.calls f lines)
    behind.1.calibration = some area ∧
      ∀ line call, (Request.parse line).call? f = some call →
        (Dispatch.run f behind.1 behind.2 line).reply =
          frame c.identity.node (area.told call) := by
  intro behind area
  have harea : behind.1.calibration = some area :=
    afterLines_calibration (calibration_ofConfiguration h henabled) t lines
  refine ⟨harea, fun line call hcall => ?_⟩
  rw [reply_call harea hcall, identity_behind h]

end Node

namespace Calibration

/-- An area can be locked exactly while no channel looks erased, and once locked it keeps the last
value that each channel took. The same holds of the area of a node behind any lines. -/
theorem locked_for_good :
    (∀ (channels : Nat) (calls : List AreaCall),
      let area := (ofChannels channels).after calls
      (area.lock.2 = true ↔ ∀ n < channels, area.get n ≠ unwritten) ∧
      area.lock.1.locked = area.lock.2 ∧
      (area.locked = true →
        (∀ n < channels, area.get n ≠ unwritten) ∧
        ∀ later, (area.after later).locked = true ∧ (∀ n, (area.after later).get n = area.get n) ∧
          ∀ n value, ((area.after later).set n value).2 = false) ∧
      ∀ n, area.get n = (lastWritten ((ofChannels channels).taken calls) n).getD unwritten) ∧
    (∀ (c : Configuration) (node : Node), Node.ofConfiguration c = .ok node →
      c.calibration.enabled = true → ∀ (f : Features) (t : TestMode) (lines : List String),
      let behind := node.afterLines f t lines
      let area := (ofChannels c.calibration.channels).after (Request.calls f lines)
      behind.1.calibration = some area ∧
      ∀ line call, (Request.parse line).call? f = some call →
        (Dispatch.run f behind.1 behind.2 line).reply = frame c.identity.node (area.told call)) ∧
    ∀ f : Features, f.extendedCommands = true → ∀ calls : List AreaCall,
      (∀ call ∈ calls, (Command.extended call.request).Writable) →
      ∃ lines, Request.calls f lines = calls := by
  refine ⟨fun channels calls => ?_,
    fun c node h henabled f t lines => Node.lines_calibrate h henabled f t lines,
    fun f hf calls hcalls => Request.exists_lines hf calls hcalls⟩
  have hholds := holds_after channels calls
  exact ⟨hholds.lock_taken_iff, hholds.locked_lock, hholds.frozen, hholds.value⟩

/-- Two channels of calibration. -/
def pair : Configuration := { Configuration.standard with calibration := ⟨true, 2⟩ }

/-- The lock is refused until both channels are written; then neither is written again. -/
theorem locked_for_good_pair : ∃ node, Node.ofConfiguration pair = .ok node ∧
    let f : Features := ⟨true, false⟩
    let half := node.afterLines f .clear ["AT+C0=7"]
    let full := node.afterLines f .clear ["AT+C0=7", "AT+L", "AT+C1=264", "AT+L"]
    (Dispatch.run f half.1 half.2 "AT+L").reply = "[0] ERROR\n" ∧
    full.1.calibration = some ⟨[7, 8], true⟩ ∧
    (Dispatch.run f full.1 full.2 "AT+C0=9").reply = "[0] ERROR\n" ∧
    (∀ later, ((⟨[7, 8], true⟩ : Calibration).after later).get 0 = 7) ∧
    ∃ lines, Request.calls f lines = [.set 4294967295 7, .lock] := by
  obtain ⟨node, hnode⟩ : ∃ node, Node.ofConfiguration pair = .ok node := ⟨_, rfl⟩
  obtain ⟨hareas, hlines, hcalls⟩ := locked_for_good
  have hbehind := hlines pair node hnode rfl ⟨true, false⟩ .clear
  have hfull := hbehind ["AT+C0=7", "AT+L", "AT+C1=264", "AT+L"]
  have hlocked := (hareas 2 [.set 0 7, .set 1 8, .lock]).2.2.1 (by decide)
  have hwritable : ∀ call ∈ [AreaCall.set 4294967295 7, AreaCall.lock],
      (Command.extended call.request).Writable := by
    simp [AreaCall.request, Command.Writable, numberLimit]
  refine ⟨node, hnode, ?_, ?_, ?_, fun later => (hlocked.2 later).2.1 0,
    hcalls ⟨true, false⟩ rfl _ hwritable⟩
  · exact ((hbehind ["AT+C0=7"]).2 "AT+L" .lock (by decide +kernel)).trans (by decide +kernel)
  · exact hfull.1.trans (by decide +kernel)
  · exact (hfull.2 "AT+C0=9" (.set 0 9) (by decide +kernel)).trans (by decide +kernel)

end Calibration

end RadioModem
