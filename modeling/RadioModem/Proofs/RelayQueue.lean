import RadioModem.Proofs.Relay

/-!
# What a relay queue keeps

A relay queue after any calls. Of the commands that are forwarded between two drains it keeps the
newest, as many as it holds. A command leaves the queue only behind all that were forwarded before
it, whether it is drained or dropped.
-/
namespace RadioModem.RelayQueue

/-- What is asked of a relay queue. -/
inductive QueueCall
  | forward (command : Relayed)
  | drain
  deriving DecidableEq, Repr

/-- How a command leaves the queue. -/
inductive Departure
  | drained
  | dropped
  deriving DecidableEq, Repr

def QueueCall.forwarded? : QueueCall → Option Relayed
  | forward command => some command
  | drain => none

/-- The commands that some calls forward. -/
def forwarded (calls : List QueueCall) : List Relayed := calls.filterMap QueueCall.forwarded?

def step (q : RelayQueue) : QueueCall → RelayQueue
  | .forward command => q.forward command.destination command.command
  | .drain => q.drain.2

def after (q : RelayQueue) (calls : List QueueCall) : RelayQueue := calls.foldl step q

/-- What a full queue gives up for one more command. -/
def oldest (q : RelayQueue) : List Relayed := if q.isFull then q.waiting.take 1 else []

/-- The commands that leave the queue by a call. -/
def leaving (q : RelayQueue) : QueueCall → List (Relayed × Departure)
  | .forward _ => q.oldest.map (·, .dropped)
  | .drain => q.drain.1.map (·, .drained)

/-- The commands that leave the queue in the course of some calls, one after the other. -/
def departures (q : RelayQueue) : List QueueCall → List (Relayed × Departure)
  | [] => []
  | call :: calls => q.leaving call ++ (q.step call).departures calls

/-- What the drains among some calls hand out. -/
def drains (q : RelayQueue) : List QueueCall → List (List Relayed)
  | [] => []
  | .forward command :: calls => (q.step (.forward command)).drains calls
  | .drain :: calls => q.drain.1 :: (q.step .drain).drains calls

variable {q : RelayQueue}

/-! ### Single calls -/

lemma step_forward_waiting (h : q.size ≤ relayDepth) (command : Relayed) :
    (q.step (.forward command)).waiting = (q.waiting ++ [command]).rtake relayDepth :=
  forward_waiting h _ _

lemma step_size (h : q.size ≤ relayDepth) (call : QueueCall) :
    (q.step call).size ≤ relayDepth := by
  cases call with
  | drain => exact Nat.zero_le _
  | forward command =>
    rw [size, step_forward_waiting h]
    exact length_rtake_le _ _

/-- What leaves by a call stood in front of what stays, and a new command stands behind it. -/
lemma leaving_append_step (q : RelayQueue) (call : QueueCall) :
    (q.leaving call).map Prod.fst ++ (q.step call).waiting =
      q.waiting ++ call.forwarded?.toList := by
  cases call with
  | drain => simp [leaving, step, drain, empty, QueueCall.forwarded?, Function.comp_def]
  | forward command =>
    have hroom : q.oldest ++ (if q.isFull then q.waiting.tail else q.waiting) = q.waiting := by
      unfold oldest
      split
      · rw [← List.drop_one, List.take_append_drop]
      · exact List.nil_append _
    have hfirst : (q.oldest.map fun c => (c, Departure.dropped)).map Prod.fst = q.oldest := by
      rw [List.map_map]
      exact List.map_id _
    rw [leaving, hfirst, step, forward, ← List.append_assoc, hroom]
    rfl

/-! ### Runs -/

lemma after_size (h : q.size ≤ relayDepth) (calls : List QueueCall) :
    (q.after calls).size ≤ relayDepth := by
  induction calls generalizing q with
  | nil => exact h
  | cons call calls ih => exact ih (step_size h call)

lemma departures_append_after (q : RelayQueue) (calls : List QueueCall) :
    (q.departures calls).map Prod.fst ++ (q.after calls).waiting =
      q.waiting ++ forwarded calls := by
  induction calls generalizing q with
  | nil => exact (List.append_nil _).symm
  | cons call calls ih =>
    have hforwarded : forwarded (call :: calls) = call.forwarded?.toList ++ forwarded calls :=
      filterMap_cons_append _ _ _
    calc ((q.departures (call :: calls)).map Prod.fst) ++ (q.after (call :: calls)).waiting
      _ = (q.leaving call).map Prod.fst ++
          (((q.step call).departures calls).map Prod.fst ++
            ((q.step call).after calls).waiting) := by
        rw [departures, List.map_append, List.append_assoc]
        rfl
      _ = (q.leaving call).map Prod.fst ++ (q.step call).waiting ++ forwarded calls := by
        rw [ih, List.append_assoc]
      _ = q.waiting ++ forwarded (call :: calls) := by
        rw [leaving_append_step, hforwarded, List.append_assoc]

lemma departures_drained (q : RelayQueue) (calls : List QueueCall) :
    ((q.departures calls).filter (·.2 = .drained)).map Prod.fst = (q.drains calls).flatten := by
  induction calls generalizing q with
  | nil => rfl
  | cons call calls ih =>
    rw [departures, List.filter_append, List.map_append, ih]
    cases call with
    | forward command =>
      have hnone : (q.leaving (.forward command)).filter (·.2 = .drained) = [] := by
        simp [leaving]
      rw [hnone, drains, List.map_nil, List.nil_append]
    | drain =>
      have hall : ((q.leaving .drain).filter (·.2 = .drained)).map Prod.fst = q.drain.1 := by
        simp [leaving, List.filter_map, Function.comp_def]
      rw [hall, drains, List.flatten_cons]

/-- What waits at first counts among the commands up to the first drain. -/
lemma drains_append_after (h : q.size ≤ relayDepth) (calls : List QueueCall) :
    q.drains calls ++ [(q.after calls).waiting] =
      (((calls.splitOn .drain).map forwarded).modifyHead (q.waiting ++ ·)).map
        (List.rtake · relayDepth) := by
  induction calls generalizing q with
  | nil =>
    have hall : (q.waiting ++ forwarded []).rtake relayDepth = q.waiting := by
      rw [forwarded, List.filterMap_nil, List.append_nil, rtake_of_length_le h]
    rw [List.splitOn_nil, List.map_singleton, List.modifyHead_cons, List.map_singleton, hall]
    rfl
  | cons call calls ih =>
    obtain ⟨batch, batches, hsplit⟩ :=
      List.exists_cons_of_ne_nil (List.splitOn_ne_nil QueueCall.drain calls)
    cases call with
    | forward command =>
      have hnext := ih (step_size h (.forward command))
      have hother : ¬(QueueCall.forward command == .drain) = true := by simp
      have hbatch : forwarded (.forward command :: batch) = command :: forwarded batch := rfl
      rw [List.splitOn_cons_eq_if_modifyHead, if_neg hother, hsplit]
      rw [hsplit] at hnext
      simp only [List.modifyHead_cons, List.map_cons] at hnext ⊢
      rw [step_forward_waiting h, rtake_rtake_append, List.append_assoc] at hnext
      rw [hbatch]
      exact hnext
    | drain =>
      have hnext := ih (q := empty) (Nat.zero_le _)
      rw [List.splitOn_cons_eq_if_modifyHead, if_pos (by simp), List.map_cons,
        List.modifyHead_cons, List.map_cons, forwarded, List.filterMap_nil, List.append_nil,
        rtake_of_length_le h, drains, List.cons_append]
      rw [hsplit] at hnext ⊢
      exact congrArg (q.waiting :: ·) hnext

/-- A queue never holds more than 32 commands. A drain hands out the newest of those forwarded since
the drain before it, oldest first, and nothing is missing in this order but what was dropped. -/
theorem keeps_newest (calls : List QueueCall) :
    (empty.after calls).size ≤ 32 ∧
    empty.drains calls ++ [(empty.after calls).waiting] =
      ((calls.splitOn .drain).map fun batch => (forwarded batch).rtake 32) ∧
    empty.after (calls ++ [.drain]) = empty ∧
    (empty.departures calls).map Prod.fst ++ (empty.after calls).waiting = forwarded calls ∧
    ((empty.departures calls).filter (·.2 = .drained)).map Prod.fst =
      (empty.drains calls).flatten := by
  have hroom : empty.size ≤ relayDepth := Nat.zero_le _
  refine ⟨after_size hroom calls, ?_, ?_, empty.departures_append_after calls,
    empty.departures_drained calls⟩
  · rw [drains_append_after hroom]
    cases calls.splitOn .drain with
    | nil => rfl
    | cons batch batches =>
      rw [List.map_cons, List.modifyHead_cons, List.map_cons, List.map_map]
      rfl
  · rw [after, List.foldl_append]
    rfl

end RadioModem.RelayQueue
