import SupernoteModule.Lib.Exclusive
import SupernoteModule.Runtime.DeferredDestruction
import Mathlib.Data.List.Nodup

/-!
# Every accepted cleanup runs once, in order

The accepted cleanups are, in acceptance order, the ones that ran, the one the worker holds and the
ones still queued. That equation is the whole argument: nothing leaves it except by running.
-/

namespace SupernoteModule.Runtime.DeferredDestruction

open SupernoteModule.Lib Function

@[simp] theorem acceptedOf_append (history events : List Event) :
    acceptedOf (history ++ events) = acceptedOf history ++ acceptedOf events :=
  List.filterMap_append

@[simp] theorem executedOf_append (history events : List Event) :
    executedOf (history ++ events) = executedOf history ++ executedOf events :=
  List.filterMap_append

@[simp] theorem acceptedOf_nil : acceptedOf [] = [] := rfl

@[simp] theorem executedOf_nil : executedOf [] = [] := rfl

@[simp] theorem acceptedOf_accepted (cleanup : Nat) : acceptedOf [.accepted cleanup] = [cleanup] :=
  rfl

@[simp] theorem executedOf_accepted (cleanup : Nat) : executedOf [.accepted cleanup] = [] := rfl

@[simp] theorem acceptedOf_executed (cleanup : Nat) : acceptedOf [.executed cleanup] = [] := rfl

@[simp] theorem executedOf_executed (cleanup : Nat) : executedOf [.executed cleanup] = [cleanup] :=
  rfl

/-- A worker that cannot be joined holds nothing. -/
theorem Worker.unrun_of_not_joinable {worker : Worker} (hworker : worker.joinable = false) :
    worker.unrun = [] := by
  cases worker <;> first | rfl | cases hworker

theorem Worker.inFlight_of_not_joinable {worker : Worker} (hworker : worker.joinable = false) :
    worker.inFlight = [] := by
  cases worker <;> first | rfl | cases hworker

theorem Worker.working_of_not_joinable {worker : Worker} (hworker : worker.joinable = false) :
    worker.working = false := by
  cases worker <;> first | rfl | cases hworker

/-- What the facility keeps true, whoever calls it. -/
structure Inv (capacity : Nat) (state : State) (history : List Event) : Prop where
  fifo : acceptedOf history = executedOf history ++ (state.worker.unrun ++ state.queue)
  balance : (acceptedOf history).length =
    state.processed + state.failures + state.queue.length + state.worker.inFlight.length
  nodup : (acceptedOf history).Nodup
  accepted_iff : ∀ cleanup, cleanup ∈ acceptedOf history ↔
    state.submissions cleanup = .queued ∨ state.submissions cleanup = .returned true
  bounded : state.queue.length ≤ capacity
  idle : state.worker.working = false → state.queue = []
  stopped : state.worker.working = false → state.worker = .unstarted ∨ state.stopping = true
  draining : ∀ call, state.drains call ≠ .absent → state.stopping = true
  drained : ∀ call, state.drains call = .returned → state.worker.joinable = false

/-- What `submit` does: it turns the cleanup away, leaving at most a started worker behind, or it
queues the cleanup for a worker that runs. -/
theorem submit_cases (capacity cleanup : Nat) (nonempty : Bool) (faults : Faults) (state : State) :
    (∃ result, (result = .empty ∨ result = .returned false) ∧
      state.submit capacity cleanup nonempty faults =
        ({ state with submissions := update state.submissions cleanup result }, [])) ∨
    (state.stopping = false ∧ state.worker.joinable = false ∧
      state.submit capacity cleanup nonempty faults =
        ({ state with
            worker := .waiting
            submissions := update state.submissions cleanup (.returned false) }, [])) ∨
    (∃ worker, state.stopping = false ∧ state.queue.length < capacity ∧
      (worker = state.worker ∧ worker.joinable = true ∨
        worker = .waiting ∧ state.worker.joinable = false) ∧
      state.submit capacity cleanup nonempty faults =
        ({ state with
            worker := worker
            queue := state.queue ++ [cleanup]
            highWater := max state.highWater (state.queue.length + 1)
            submissions := update state.submissions cleanup .queued }, [.accepted cleanup])) := by
  unfold State.submit
  by_cases hempty : nonempty = false
  · exact .inl ⟨.empty, .inl rfl, by simp [hempty]⟩
  by_cases hstopping : state.stopping = true
  · exact .inl ⟨.returned false, .inr rfl, by simp [hempty, hstopping]⟩
  by_cases hfull : capacity ≤ state.queue.length
  · exact .inl ⟨.returned false, .inr rfl, by simp [hempty, hstopping, hfull]⟩
  simp only [Bool.not_eq_false, Bool.not_eq_true] at hempty hstopping
  cases hjoin : state.worker.joinable with
  | true =>
      by_cases hgrowth : faults.queueGrowth = true
      · exact .inl ⟨.returned false, .inr rfl, by simp [hempty, hstopping, hfull, hgrowth]⟩
      · exact .inr (.inr ⟨state.worker, hstopping, by omega, .inl ⟨rfl, hjoin⟩, by
          simp [hempty, hstopping, hfull, hgrowth]⟩)
  | false =>
      by_cases hstart : faults.threadStart = true
      · exact .inl ⟨.returned false, .inr rfl, by simp [hempty, hstopping, hfull, hstart]⟩
      by_cases hgrowth : faults.queueGrowth = true
      · exact .inr (.inl ⟨hstopping, rfl, by simp [hempty, hstopping, hfull, hstart, hgrowth]⟩)
      · exact .inr (.inr ⟨.waiting, hstopping, by omega, .inr ⟨rfl, rfl⟩, by
          simp [hempty, hstopping, hfull, hstart, hgrowth]⟩)

variable {capacity : Nat} {state : State} {history : List Event}

theorem Inv.initial : Inv capacity State.init [] where
  fifo := rfl
  balance := rfl
  nodup := List.nodup_nil
  accepted_iff cleanup := by simp [State.init]
  bounded := Nat.zero_le capacity
  idle _ := rfl
  stopped _ := .inl rfl
  draining _ hdrain := absurd rfl hdrain
  drained _ hdrain := by cases hdrain

/-- A call that is turned away was not accepted before and is not accepted now. -/
theorem Inv.accepted_iff_update (hinv : Inv capacity state history) {cleanup : Nat}
    (hcall : state.submissions cleanup = .absent) {result : Submission}
    (hresult : result = .empty ∨ result = .returned false) (other : Nat) :
    other ∈ acceptedOf history ↔
      update state.submissions cleanup result other = .queued ∨
        update state.submissions cleanup result other = .returned true := by
  rw [hinv.accepted_iff other]
  rcases eq_or_ne other cleanup with rfl | hne
  · rcases hresult with rfl | rfl <;> simp [hcall]
  · rw [update_of_ne hne]

/-- Before anybody asked for a stop no drain has begun. -/
theorem Inv.not_returned (hinv : Inv capacity state history) (hstopping : state.stopping = false)
    (call : Nat) : state.drains call ≠ .returned := by
  intro hcall
  have hstop := hinv.draining call (by rw [hcall]; simp)
  rw [hstopping] at hstop
  cases hstop

/-- While the worker comes back to the queue no drain has returned. -/
theorem Inv.not_returned_of_joinable (hinv : Inv capacity state history)
    (hworker : state.worker.joinable = true) (call : Nat) : state.drains call ≠ .returned := by
  intro hcall
  have hjoin := hinv.drained call hcall
  rw [hworker] at hjoin
  cases hjoin

/-- A submission that finds the worker not running starts it over an empty queue. -/
theorem Inv.submit_started (hinv : Inv capacity state history) {cleanup : Nat}
    (hcall : state.submissions cleanup = .absent) (hstopping : state.stopping = false)
    (hjoin : state.worker.joinable = false) :
    Inv capacity
      { state with
          worker := .waiting
          submissions := update state.submissions cleanup (.returned false) } history where
  fifo := by rw [hinv.fifo, Worker.unrun_of_not_joinable hjoin]; rfl
  balance := by rw [hinv.balance, Worker.inFlight_of_not_joinable hjoin]; rfl
  nodup := hinv.nodup
  accepted_iff := hinv.accepted_iff_update hcall (.inr rfl)
  bounded := hinv.bounded
  idle := nofun
  stopped := nofun
  draining := hinv.draining
  drained call hreturned := absurd hreturned (hinv.not_returned hstopping call)

theorem Inv.submit_queued (hinv : Inv capacity state history) {cleanup : Nat}
    (hcall : state.submissions cleanup = .absent) (hstopping : state.stopping = false)
    (hroom : state.queue.length < capacity) {worker : Worker}
    (hworker : worker = state.worker ∧ worker.joinable = true ∨
      worker = .waiting ∧ state.worker.joinable = false) :
    Inv capacity
      { state with
          worker := worker
          queue := state.queue ++ [cleanup]
          highWater := max state.highWater (state.queue.length + 1)
          submissions := update state.submissions cleanup .queued }
      (history ++ [.accepted cleanup]) := by
  have hnew : cleanup ∉ acceptedOf history := by
    rw [hinv.accepted_iff, hcall]
    simp
  have hsame : worker.unrun = state.worker.unrun ∧ worker.inFlight = state.worker.inFlight := by
    rcases hworker with ⟨rfl, _⟩ | ⟨rfl, hjoin⟩
    · exact ⟨rfl, rfl⟩
    · exact ⟨(Worker.unrun_of_not_joinable hjoin).symm,
        (Worker.inFlight_of_not_joinable hjoin).symm⟩
  have hworking : worker.working = true := by
    rcases hworker with ⟨rfl, hjoin⟩ | ⟨rfl, _⟩
    · by_contra hidle
      rcases hinv.stopped (Bool.not_eq_true _ ▸ hidle) with hunstarted | hstop
      · rw [hunstarted] at hjoin
        cases hjoin
      · rw [hstopping] at hstop
        cases hstop
    · rfl
  constructor
  · simp [hsame.1, hinv.fifo]
  · have hbalance := hinv.balance
    simp only [acceptedOf_append, acceptedOf_accepted, List.length_append, List.length_cons,
      List.length_nil, hsame.2]
    omega
  · rw [acceptedOf_append, acceptedOf_accepted, List.nodup_append]
    refine ⟨hinv.nodup, List.nodup_singleton cleanup, fun a ha b hb hab => hnew ?_⟩
    rw [List.mem_singleton] at hb
    rwa [← hb, ← hab]
  · intro other
    rw [acceptedOf_append, acceptedOf_accepted, List.mem_append, List.mem_singleton,
      hinv.accepted_iff other]
    rcases eq_or_ne other cleanup with rfl | hne
    · simp
    · simp [hne]
  · simp only [List.length_append, List.length_cons, List.length_nil]
    omega
  · exact fun hidle => absurd hworking (by simp [hidle])
  · exact fun hidle => absurd hworking (by simp [hidle])
  · exact hinv.draining
  · exact fun call hreturned => absurd hreturned (hinv.not_returned hstopping call)

theorem Inv.submit (hinv : Inv capacity state history) {cleanup : Nat} (nonempty : Bool)
    (faults : Faults) (hcall : state.submissions cleanup = .absent) :
    Inv capacity (state.submit capacity cleanup nonempty faults).1
      (history ++ (state.submit capacity cleanup nonempty faults).2) := by
  rcases submit_cases capacity cleanup nonempty faults state with
    ⟨result, hresult, heq⟩ | ⟨hstopping, hjoin, heq⟩ | ⟨worker, hstopping, hroom, hworker, heq⟩
  · rw [heq, List.append_nil]
    exact { hinv with accepted_iff := hinv.accepted_iff_update hcall hresult }
  · rw [heq, List.append_nil]
    exact hinv.submit_started hcall hstopping hjoin
  · rw [heq]
    exact hinv.submit_queued hcall hstopping hroom hworker

theorem Inv.submitReturn (hinv : Inv capacity state history) {cleanup : Nat}
    (hcall : state.submissions cleanup = .queued) :
    Inv capacity
      { state with submissions := update state.submissions cleanup (.returned true) } history := by
  refine { hinv with accepted_iff := fun other => ?_ }
  rw [hinv.accepted_iff other]
  rcases eq_or_ne other cleanup with rfl | hne
  · simp [hcall]
  · simp [hne]

theorem Inv.wake (hinv : Inv capacity state history) (hworker : state.worker = .waiting)
    (hready : state.stopping = true ∨ state.queue ≠ []) : Inv capacity state.wake history := by
  have hreturned := hinv.not_returned_of_joinable (by rw [hworker]; rfl)
  have hfifo := hinv.fifo
  have hbalance := hinv.balance
  have hbounded := hinv.bounded
  unfold State.wake
  cases hqueue : state.queue with
  | nil =>
      have hstopping := hready.resolve_right fun h => h hqueue
      rw [hworker, hqueue] at hfifo hbalance
      exact {
        fifo := hfifo
        balance := hbalance
        nodup := hinv.nodup
        accepted_iff := hinv.accepted_iff
        bounded := Nat.zero_le capacity
        idle := fun _ => rfl
        stopped := fun _ => .inr hstopping
        draining := hinv.draining
        drained := fun call hcall => absurd hcall (hreturned call) }
  | cons cleanup rest =>
      rw [hworker, hqueue] at hfifo hbalance
      rw [hqueue] at hbounded
      refine {
        fifo := hfifo
        balance := ?_
        nodup := hinv.nodup
        accepted_iff := hinv.accepted_iff
        bounded := Nat.le_of_succ_le hbounded
        idle := nofun
        stopped := nofun
        draining := hinv.draining
        drained := fun call hcall => absurd hcall (hreturned call) }
      rw [hbalance]
      simp only [Worker.inFlight, List.length_cons, List.length_nil]
      omega

theorem Inv.execute (hinv : Inv capacity state history) {cleanup : Nat} (threw : Bool)
    (hworker : state.worker = .holding cleanup) :
    Inv capacity { state with worker := .ran cleanup threw }
      (history ++ [.executed cleanup]) := by
  have hreturned := hinv.not_returned_of_joinable (by rw [hworker]; rfl)
  have hfifo := hinv.fifo
  have hbalance := hinv.balance
  rw [hworker] at hfifo hbalance
  exact {
    fifo := by simpa [Worker.unrun] using hfifo
    balance := by simpa [Worker.inFlight] using hbalance
    nodup := by simpa using hinv.nodup
    accepted_iff := by simpa using hinv.accepted_iff
    bounded := hinv.bounded
    idle := nofun
    stopped := nofun
    draining := hinv.draining
    drained := fun call hcall => absurd hcall (hreturned call) }

theorem Inv.count (hinv : Inv capacity state history) {cleanup : Nat} {threw : Bool}
    (hworker : state.worker = .ran cleanup threw) : Inv capacity (state.count threw) history := by
  have hreturned := hinv.not_returned_of_joinable (by rw [hworker]; rfl)
  have hfifo := hinv.fifo
  have hbalance := hinv.balance
  rw [hworker] at hfifo hbalance
  simp only [Worker.inFlight, List.length_cons, List.length_nil] at hbalance
  cases threw <;> exact {
    fifo := hfifo
    balance := by
      simp only [State.count, Worker.inFlight, List.length_nil, if_true, Bool.false_eq_true,
        if_false]
      omega
    nodup := hinv.nodup
    accepted_iff := hinv.accepted_iff
    bounded := hinv.bounded
    idle := nofun
    stopped := nofun
    draining := hinv.draining
    drained := fun call hcall => absurd hcall (hreturned call) }

theorem Inv.drain (hinv : Inv capacity state history) (call : Nat) :
    Inv capacity
      { state with stopping := true, drains := update state.drains call .stopping } history :=
  { hinv with
    stopped := fun _ => .inr rfl
    draining := fun _ _ => rfl
    drained := forall_update
      (p := fun _ (drain : Drain) => drain = .returned → state.worker.joinable = false)
      nofun fun other _ => hinv.drained other }

theorem Inv.drainCheck (hinv : Inv capacity state history) {call : Nat}
    (hcall : state.drains call = .stopping) :
    Inv capacity
      { state with
          drains := update state.drains call
            (if state.worker.joinable then .joining else .returned) } history := by
  have hstopping := hinv.draining call (by rw [hcall]; simp)
  refine { hinv with
    draining := fun _ _ => hstopping
    drained := forall_update
      (p := fun _ (drain : Drain) => drain = .returned → state.worker.joinable = false)
      (fun hreturned => ?_) fun other _ => hinv.drained other }
  split at hreturned
  · cases hreturned
  · rename_i hjoin
    simpa using hjoin

theorem Inv.drainJoin (hinv : Inv capacity state history) {call : Nat}
    (hcall : state.drains call = .joining) (hworker : state.worker = .exited) :
    Inv capacity
      { state with worker := .joined, drains := update state.drains call .returned } history := by
  have hstopping := hinv.draining call (by rw [hcall]; simp)
  have hfifo := hinv.fifo
  have hbalance := hinv.balance
  rw [hworker] at hfifo hbalance
  exact { hinv with
    fifo := hfifo
    balance := hbalance
    idle := fun _ => hinv.idle (by rw [hworker]; rfl)
    stopped := fun _ => .inr hstopping
    draining := fun _ _ => hstopping
    drained := fun _ _ => rfl }

theorem invariant (capacity : Nat) : (machine capacity).Invariant (Inv capacity) where
  init := .initial
  step label state history hinv henabled := by
    cases label with
    | submit cleanup nonempty faults => exact hinv.submit nonempty faults henabled
    | submitReturn cleanup => exact Machine.keeps_of_silent rfl (hinv.submitReturn henabled)
    | wake => exact Machine.keeps_of_silent rfl (hinv.wake henabled.1 henabled.2)
    | execute cleanup threw => exact hinv.execute threw henabled
    | count cleanup threw => exact Machine.keeps_of_silent rfl (hinv.count henabled)
    | drain call => exact Machine.keeps_of_silent rfl (hinv.drain call)
    | drainCheck call => exact Machine.keeps_of_silent rfl (hinv.drainCheck henabled)
    | drainJoin call => exact Machine.keeps_of_silent rfl (hinv.drainJoin henabled.1 henabled.2)

/-- What `submit` and `drain_and_shutdown` promise about the cleanups they were called for. -/
structure Contract (capacity : Nat) (state : State) (history : List Event) : Prop where
  in_order : acceptedOf history =
    executedOf history ++ (state.worker.unrun ++ state.queue)
  once : (acceptedOf history).Nodup
  kept : ∀ cleanup, state.submissions cleanup = .returned true → cleanup ∈ acceptedOf history
  refused : ∀ cleanup, state.submissions cleanup = .returned false → cleanup ∉ executedOf history
  drained : (∃ call, state.drains call = .returned) → executedOf history = acceptedOf history
  progress : executedOf history ≠ acceptedOf history →
    ∃ label, label.ofWorker = true ∧ (machine capacity).enabled label state
  bounded : state.queue.length ≤ capacity
  balance : (acceptedOf history).length =
    state.processed + state.failures + state.queue.length + state.worker.inFlight.length

theorem Inv.drained_all (hinv : Inv capacity state history) {call : Nat}
    (hcall : state.drains call = .returned) : executedOf history = acceptedOf history := by
  have hjoin := hinv.drained call hcall
  rw [hinv.fifo, Worker.unrun_of_not_joinable hjoin,
    hinv.idle (Worker.working_of_not_joinable hjoin), List.append_nil, List.append_nil]

/-- While a cleanup is owed the worker is never stuck. -/
theorem Inv.progress (hinv : Inv capacity state history)
    (howed : executedOf history ≠ acceptedOf history) :
    ∃ label, label.ofWorker = true ∧ (machine capacity).enabled label state := by
  have hfifo := hinv.fifo
  cases hworker : state.worker with
  | holding cleanup => exact ⟨.execute cleanup false, rfl, hworker⟩
  | ran cleanup threw => exact ⟨.count cleanup threw, rfl, hworker⟩
  | waiting =>
      refine ⟨.wake, rfl, hworker, .inr fun hqueue => howed ?_⟩
      rw [hfifo, hworker, hqueue]
      simp [Worker.unrun]
  | unstarted | exited | joined =>
      have hqueue := hinv.idle (by rw [hworker]; rfl)
      refine absurd ?_ howed
      rw [hfifo, hworker, hqueue]
      simp [Worker.unrun]

/-- **Every accepted cleanup runs exactly once, in acceptance order, before a drain returns.** -/
theorem accepted_executed_exactly_once (capacity : Nat) {state : State} {history : List Event}
    (hreach : (machine capacity).Reaches state history) : Contract capacity state history := by
  have hinv := hreach.invariant (invariant capacity)
  exact {
    in_order := hinv.fifo
    once := hinv.nodup
    kept := fun cleanup hcall => (hinv.accepted_iff cleanup).mpr (.inr hcall)
    refused := fun cleanup hcall hexecuted => by
      have haccepted : cleanup ∈ acceptedOf history := by
        rw [hinv.fifo]
        exact List.mem_append_left _ hexecuted
      rw [hinv.accepted_iff, hcall] at haccepted
      simp at haccepted
    drained := fun ⟨_, hcall⟩ => hinv.drained_all hcall
    progress := hinv.progress
    bounded := hinv.bounded
    balance := hinv.balance }

/-- Two submissions, the first of which throws, and a drain that waits for both. -/
theorem accepted_executed_exactly_once_drained :
    ∃ state history, (machine 2).Reaches state history ∧
      state.drains 0 = .returned ∧ state.submissions 7 = .returned true ∧
      acceptedOf history = [7, 8] ∧ Contract 2 state history := by
  obtain ⟨state, history, hreach, hrun⟩ := Machine.exists_reaches_of_exec (m := machine 2)
    [.submit 7 true ⟨false, false⟩, .submit 8 true ⟨false, false⟩, .submitReturn 7, .wake,
      .execute 7 true, .drain 0, .drainCheck 0, .count 7 true, .wake, .execute 8 false,
      .count 8 false, .wake, .drainJoin 0]
    (p := fun state history => decide (state.drains 0 = .returned ∧
      state.submissions 7 = .returned true ∧ acceptedOf history = [7, 8])) (by decide)
  obtain ⟨hdrain, hsubmit, haccepted⟩ := of_decide_eq_true hrun
  exact ⟨state, history, hreach, hdrain, hsubmit, haccepted,
    accepted_executed_exactly_once 2 hreach⟩

end SupernoteModule.Runtime.DeferredDestruction
