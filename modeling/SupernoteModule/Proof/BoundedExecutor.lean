import SupernoteModule.Lib.Exclusive
import SupernoteModule.Runtime.BoundedExecutor
import Mathlib.Data.List.Nodup
import Mathlib.Data.List.Count

/-!
# Every accepted task runs at most once

An accepted task is in the queue, or it was popped by one worker, or it was removed by one `cancel`,
or it was dropped by the shutdown: the four shares are disjoint and cover the accepted tasks. A body
starts only for a popped task, so a removed task never runs.
-/

namespace SupernoteModule.Runtime.BoundedExecutor

open SupernoteModule.Lib Function

/-- The tasks still in the queue. -/
def State.queued (state : State) : List Nat := state.queue.map Item.call

/-- How the accepted tasks are shared out, and which identities the queue holds. -/
structure Shares (capacity : Nat) (state : State) (history : List Event) : Prop where
  nodup : (acceptedOf history).Nodup
  split : ∀ call, (acceptedOf history).count call =
    (poppedOf history).count call + state.queued.count call + (removedOf history).count call +
      (droppedOf history).count call
  order : (poppedOf history ++ state.queued).Sublist (acceptedOf history)
  accepted_iff : ∀ call, call ∈ acceptedOf history ↔ ∃ id, (state.submissions call).id? = some id
  identity : ∀ item ∈ state.queue, (state.submissions item.call).id? = some item.id
  fresh : ∀ call id, (state.submissions call).id? = some id → id < state.nextId
  distinct : ∀ call other id, (state.submissions call).id? = some id →
    (state.submissions other).id? = some id → call = other
  bounded : state.queue.length ≤ capacity
  requested : ∀ cancel call id, state.cancels cancel = .requested call id →
    (state.submissions call).id? = some id
  removed_iff : ∀ call, call ∈ removedOf history ↔
    ∃ cancel, state.cancels cancel = .returned call true

/-- The worker has popped the task and may still run it. -/
def Holds (call : Nat) (worker : Worker) : Prop := worker.unrun? = some call

theorem holds_popped {call : Nat} {item : Item} (hholds : Holds call (.popped item)) :
    item.call = call :=
  Option.some.inj hholds

/-- A popped task is in the hands of one worker until its body starts. -/
structure Hands (state : State) (history : List Event) : Prop where
  popped : ∀ worker call, Holds call (state.workers worker) → call ∈ poppedOf history
  one : ∀ call, AtMostOne (Holds call) state.workers
  ran_popped : ∀ call ∈ ranOf history, call ∈ poppedOf history
  ran_vacant : ∀ call ∈ ranOf history, Vacant (Holds call) state.workers
  ran_nodup : (ranOf history).Nodup

structure Inv (capacity : Nat) (state : State) (history : List Event) : Prop where
  shares : Shares capacity state history
  hands : Hands state history

variable {workerCount capacity : Nat} {state : State} {history : List Event}

theorem Inv.initial : Inv capacity State.init [] where
  shares := {
    nodup := List.nodup_nil
    split := fun _ => rfl
    order := List.Sublist.refl _
    accepted_iff := fun call => by simp [State.init, acceptedOf, Submission.id?]
    identity := fun _ h => by cases h
    fresh := fun _ _ h => by cases h
    distinct := fun _ _ _ h => by cases h
    bounded := Nat.zero_le capacity
    requested := fun _ _ _ h => by cases h
    removed_iff := fun call => by simp [State.init, removedOf] }
  hands := {
    popped := fun _ _ h => by cases h
    one := fun _ _ _ h => by cases h
    ran_popped := fun _ h => by cases h
    ran_vacant := fun _ h => by cases h
    ran_nodup := List.nodup_nil }

/-! ### What each step leaves alone -/

/-- The shares only depend on the queue, the identities handed out and the cancel calls. -/
theorem Shares.congr (hshares : Shares capacity state history) {next : State}
    (hqueue : next.queue = state.queue) (hnext : state.nextId ≤ next.nextId)
    (hids : ∀ call, (next.submissions call).id? = (state.submissions call).id?)
    (hcancels : next.cancels = state.cancels) : Shares capacity next history where
  nodup := hshares.nodup
  split := by simpa [State.queued, hqueue] using hshares.split
  order := by simpa [State.queued, hqueue] using hshares.order
  accepted_iff := by simpa [hids] using hshares.accepted_iff
  identity := by simpa [hids, hqueue] using hshares.identity
  fresh call id hcall := by
    rw [hids] at hcall
    exact Nat.lt_of_lt_of_le (hshares.fresh call id hcall) hnext
  distinct := by simpa [hids] using hshares.distinct
  bounded := hqueue ▸ hshares.bounded
  requested := by simpa [hids, hcancels] using hshares.requested
  removed_iff := by simpa [hcancels] using hshares.removed_iff

/-- A cancel call that has not returned true may move to any point that its handle allows. -/
theorem Shares.setCancel (hshares : Shares capacity state history) {cancel : Nat} {point : Cancel}
    (hold : ∀ call, state.cancels cancel ≠ .returned call true)
    (hrequested : ∀ call id, point = .requested call id → (state.submissions call).id? = some id)
    (hremoved : ∀ call, point ≠ .returned call true) (cancelled : Nat → Bool) :
    Shares capacity { state.setCancel cancel point with cancelled := cancelled } history :=
  { hshares with
    requested := fun other call id hother => by
      revert call id
      exact forall_update (p := fun _ (point : Cancel) => ∀ call id, point = .requested call id →
        (state.submissions call).id? = some id) hrequested (fun other _ => hshares.requested other)
        other
    removed_iff := fun call => by
      rw [hshares.removed_iff]
      constructor
      · rintro ⟨other, hother⟩
        refine ⟨other, ?_⟩
        change update state.cancels cancel point other = _
        rwa [update_of_ne]
        rintro rfl
        exact hold call hother
      · rintro ⟨other, hother⟩
        exact ⟨other,
          forall_update (p := fun other (point : Cancel) => point = .returned call true →
          state.cancels other = .returned call true) (fun h => absurd h (hremoved call))
          (fun _ _ h => h) other hother⟩ }

/-- An event that neither accepts, pops, removes nor drops a task changes no share. -/
theorem Shares.ran (hshares : Shares capacity state history) (call : Nat) :
    Shares capacity state (history ++ [.ran call]) := by
  have haccepted : acceptedOf (history ++ [.ran call]) = acceptedOf history := by
    simp [acceptedOf, Event.accepted?]
  have hpopped : poppedOf (history ++ [.ran call]) = poppedOf history := by
    simp [poppedOf, poppedByOf, Event.popped?]
  have hremoved : removedOf (history ++ [.ran call]) = removedOf history := by
    simp [removedOf, Event.removed?]
  have hdropped : droppedOf (history ++ [.ran call]) = droppedOf history := by
    simp [droppedOf, Event.dropped?]
  exact {
    nodup := haccepted ▸ hshares.nodup
    split := by rw [haccepted, hpopped, hremoved, hdropped]; exact hshares.split
    order := by rw [haccepted, hpopped]; exact hshares.order
    accepted_iff := by rw [haccepted]; exact hshares.accepted_iff
    identity := hshares.identity
    fresh := hshares.fresh
    distinct := hshares.distinct
    bounded := hshares.bounded
    requested := hshares.requested
    removed_iff := by rw [hremoved]; exact hshares.removed_iff }

/-- A step after which every worker holds at most what it held before. -/
theorem Hands.mono (hhands : Hands state history) {next : State} {events : List Event}
    (hholds : ∀ worker call, Holds call (next.workers worker) → Holds call (state.workers worker))
    (hpopped : poppedOf events = []) (hran : ranOf events = []) :
    Hands next (history ++ events) := by
  have hpopped' : poppedOf (history ++ events) = poppedOf history := by
    simpa [poppedOf, poppedByOf] using hpopped
  have hran' : ranOf (history ++ events) = ranOf history := by
    simpa [ranOf] using hran
  exact {
    popped := fun worker call h => hpopped' ▸ hhands.popped worker call (hholds worker call h)
    one := fun call worker other h h' =>
      hhands.one call (hholds worker call h) (hholds other call h')
    ran_popped := by rw [hpopped', hran']; exact hhands.ran_popped
    ran_vacant := fun call h worker hworker =>
      hhands.ran_vacant call (hran' ▸ h) worker (hholds worker call hworker)
    ran_nodup := hran' ▸ hhands.ran_nodup }

theorem Hands.silent (hhands : Hands state history) {next : State}
    (hholds : ∀ worker call, Holds call (next.workers worker) → Holds call (state.workers worker)) :
    Hands next history := by
  rw [← List.append_nil history]
  exact hhands.mono hholds rfl rfl

theorem holds_of_update {worker : Nat} {point : Worker}
    (hpoint : ∀ call, Holds call point → Holds call (state.workers worker)) (other call : Nat) :
    Holds call (update state.workers worker point other) → Holds call (state.workers other) :=
  forall_update (p := fun other point => Holds call point → Holds call (state.workers other))
    (hpoint call) (fun _ _ h => h) other

/-! ### Submitting -/

theorem Inv.setSubmission (hinv : Inv capacity state history) {call : Nat} {submission : Submission}
    (hid : submission.id? = (state.submissions call).id?) :
    Inv capacity (state.setSubmission call submission) history where
  shares := hinv.shares.congr rfl (Nat.le_refl _)
    (forall_update
      (p := fun other (point : Submission) => point.id? = (state.submissions other).id?)
      hid fun _ _ => rfl) rfl
  hands := hinv.hands.silent fun _ _ h => h

theorem Inv.ensureStarted (hinv : Inv capacity state history) {call : Nat} (nonempty : Bool)
    (started : Nat) (hcall : state.submissions call = .absent) :
    Inv capacity (state.ensureStarted workerCount call nonempty started) history := by
  have hnone : (state.submissions call).id? = none := by rw [hcall]; rfl
  unfold State.ensureStarted
  split
  · exact hinv.setSubmission hnone.symm
  split
  · exact hinv.setSubmission hnone.symm
  split
  · exact hinv.setSubmission hnone.symm
  constructor
  · refine hinv.shares.congr rfl (Nat.le_refl _) ?_ rfl
    refine forall_update (p := fun other (point : Submission) =>
      point.id? = (state.submissions other).id?) ?_ fun _ _ => rfl
    rw [hnone]
    split <;> rfl
  · refine hinv.hands.silent fun worker other hholds => ?_
    -- a thread that has just been started holds nothing
    simp only at hholds
    split at hholds
    · cases hholds
    · exact hholds

/-- The accepted task takes the next identity and goes to the back of the queue. -/
theorem Inv.queueTask_accepted (hinv : Inv capacity state history) {call : Nat}
    (hcall : state.submissions call = .started) (hroom : state.queue.length < capacity) :
    Inv capacity
      { state with
          queue := state.queue ++ [⟨state.nextId, call⟩]
          nextId := state.nextId + 1
          submissions := update state.submissions call (.handing state.nextId) }
      (history ++ [.accepted call]) := by
  have hshares := hinv.shares
  have hnew : call ∉ acceptedOf history := by
    rw [hshares.accepted_iff, hcall]
    rintro ⟨id, hid⟩
    cases hid
  have haccepted : acceptedOf (history ++ [.accepted call]) = acceptedOf history ++ [call] := by
    simp [acceptedOf, Event.accepted?]
  have hpopped : poppedOf (history ++ [.accepted call]) = poppedOf history := by
    simp [poppedOf, poppedByOf, Event.popped?]
  have hremoved : removedOf (history ++ [.accepted call]) = removedOf history := by
    simp [removedOf, Event.removed?]
  have hdropped : droppedOf (history ++ [.accepted call]) = droppedOf history := by
    simp [droppedOf, Event.dropped?]
  have hid : ∀ other id, (update state.submissions call (.handing state.nextId) other).id? =
    some id ↔
      (other = call ∧ id = state.nextId) ∨ (state.submissions other).id? = some id := by
    intro other id
    rcases eq_or_ne other call with rfl | hne
    · simp [Submission.id?, hcall, eq_comm]
    · simp [hne]
  constructor
  · constructor
    · rw [haccepted, List.nodup_append]
      refine ⟨hshares.nodup, List.nodup_singleton call, fun a ha b hb hab => hnew ?_⟩
      rw [List.mem_singleton] at hb
      rwa [← hb, ← hab]
    · intro other
      rw [haccepted, hpopped, hremoved, hdropped]
      have hsplit := hshares.split other
      simp only [State.queued, List.map_append, List.map_cons, List.map_nil,
        List.count_append] at hsplit ⊢
      omega
    · rw [haccepted, hpopped]
      simp only [State.queued, List.map_append, List.map_cons, List.map_nil, ← List.append_assoc]
      exact hshares.order.append_right [call]
    · intro other
      rw [haccepted, List.mem_append, List.mem_singleton, hshares.accepted_iff]
      simp only [hid]
      constructor
      · rintro (⟨id, hother⟩ | rfl)
        · exact ⟨id, .inr hother⟩
        · exact ⟨state.nextId, .inl ⟨rfl, rfl⟩⟩
      · rintro ⟨id, ⟨rfl, _⟩ | hother⟩
        · exact .inr rfl
        · exact .inl ⟨id, hother⟩
    · intro item hitem
      rw [hid]
      rcases List.mem_append.mp hitem with hold | hlast
      · exact .inr (hshares.identity item hold)
      · rw [List.mem_singleton] at hlast
        subst hlast
        exact .inl ⟨rfl, rfl⟩
    · intro other id hother
      rcases (hid other id).mp hother with ⟨_, rfl⟩ | hold
      · exact Nat.lt_succ_self _
      · exact Nat.lt_succ_of_lt (hshares.fresh other id hold)
    · intro first second id hfirst hsecond
      rcases (hid first id).mp hfirst with ⟨rfl, rfl⟩ | hfirst'
      · rcases (hid second _).mp hsecond with ⟨rfl, _⟩ | hsecond'
        · rfl
        · exact absurd (hshares.fresh second _ hsecond') (Nat.lt_irrefl _)
      · rcases (hid second id).mp hsecond with ⟨rfl, rfl⟩ | hsecond'
        · exact absurd (hshares.fresh first _ hfirst') (Nat.lt_irrefl _)
        · exact hshares.distinct first second id hfirst' hsecond'
    · simp only [List.length_append, List.length_cons, List.length_nil]
      omega
    · intro cancel other id hcancel
      exact (hid other id).mpr (.inr (hshares.requested cancel other id hcancel))
    · rw [hremoved]
      exact hshares.removed_iff
  · exact hinv.hands.mono (fun _ _ h => h) rfl rfl

theorem Inv.queueTask (hinv : Inv capacity state history) {call : Nat} (grows : Bool)
    (hcall : state.submissions call = .started) :
    Inv capacity (state.queueTask capacity call grows).1
      (history ++ (state.queueTask capacity call grows).2) := by
  have hnone : (state.submissions call).id? = none := by rw [hcall]; rfl
  unfold State.queueTask
  split
  · rw [List.append_nil]
    exact hinv.setSubmission hnone.symm
  rename_i hopen
  split
  · rw [List.append_nil]
    have hnext : Inv capacity (state.setSubmission call .threw) history :=
      hinv.setSubmission hnone.symm
    exact ⟨hnext.shares.congr rfl (Nat.le_succ _) (fun _ => rfl) rfl,
      hnext.hands.silent fun _ _ h => h⟩
  · exact hinv.queueTask_accepted hcall (Nat.lt_of_not_le fun h => hopen (.inr h))

/-! ### Workers -/

theorem Inv.setWorker (hinv : Inv capacity state history) {worker : Nat} {point : Worker}
    (hpoint : ∀ call, Holds call point → Holds call (state.workers worker)) :
    Inv capacity (state.setWorker worker point) history where
  shares := hinv.shares.congr rfl (Nat.le_refl _) (fun _ => rfl) rfl
  hands := hinv.hands.silent (holds_of_update hpoint)

/-- A popped task leaves the queue for the hands of its worker. -/
theorem Inv.pop_cons (hinv : Inv capacity state history) {item : Item} {rest : List Item}
    (hqueue : state.queue = item :: rest) (worker : Nat) :
    Inv capacity { state.setWorker worker (.popped item) with queue := rest }
      (history ++ [.popped worker item.call]) := by
  have hshares := hinv.shares
  have hhands := hinv.hands
  have haccepted : acceptedOf (history ++ [.popped worker item.call]) = acceptedOf history := by
    simp [acceptedOf, Event.accepted?]
  have hpopped : poppedOf (history ++ [.popped worker item.call]) =
      poppedOf history ++ [item.call] := by
    simp [poppedOf, poppedByOf, Event.popped?]
  have hremoved : removedOf (history ++ [.popped worker item.call]) = removedOf history := by
    simp [removedOf, Event.removed?]
  have hdropped : droppedOf (history ++ [.popped worker item.call]) = droppedOf history := by
    simp [droppedOf, Event.dropped?]
  have hran : ranOf (history ++ [.popped worker item.call]) = ranOf history := by
    simp [ranOf, Event.ran?]
  have horder := hshares.order
  have hbounded := hshares.bounded
  simp only [State.queued, hqueue, List.map_cons, List.length_cons] at horder hbounded
  -- the task was queued, so nobody had popped it
  have hnew : item.call ∉ poppedOf history := by
    have hnodup := hshares.nodup.sublist horder
    rw [List.nodup_append] at hnodup
    exact fun hmem => hnodup.2.2 _ hmem _ List.mem_cons_self rfl
  constructor
  · constructor
    · rw [haccepted]
      exact hshares.nodup
    · intro call
      rw [haccepted, hpopped, hremoved, hdropped]
      have hsplit := hshares.split call
      simp only [State.queued, hqueue, List.map_cons, List.count_append, List.count_cons,
        List.count_nil] at hsplit ⊢
      omega
    · rw [haccepted, hpopped, List.append_assoc]
      exact horder
    · rw [haccepted]
      exact hshares.accepted_iff
    · exact fun other hother => hshares.identity other (hqueue ▸ List.mem_cons_of_mem item hother)
    · exact hshares.fresh
    · exact hshares.distinct
    · exact Nat.le_of_succ_le hbounded
    · exact hshares.requested
    · rw [hremoved]
      exact hshares.removed_iff
  · constructor
    · intro other call hholds
      rw [hpopped, List.mem_append, List.mem_singleton]
      revert hholds
      exact forall_update (p := fun _ point => Holds call point → call ∈ poppedOf history ∨
        call = item.call) (fun hholds => .inr (holds_popped hholds).symm)
        (fun other _ hholds => .inl (hhands.popped other call hholds)) other
    · intro call
      by_cases hcall : item.call = call
      · subst hcall
        exact Vacant.atMostOne_update fun other hholds => hnew (hhands.popped other _ hholds)
      · exact (hhands.one call).update_of_not fun hholds => hcall (holds_popped hholds)
    · intro call hcall
      rw [hran] at hcall
      rw [hpopped]
      exact List.mem_append_left _ (hhands.ran_popped call hcall)
    · intro call hcall
      rw [hran] at hcall
      refine (hhands.ran_vacant call hcall).update_of_not fun hholds => hnew ?_
      rw [holds_popped hholds]
      exact hhands.ran_popped call hcall
    · rw [hran]
      exact hhands.ran_nodup

theorem Inv.pop (hinv : Inv capacity state history) (worker : Nat) :
    Inv capacity (state.pop worker).1 (history ++ (state.pop worker).2) := by
  unfold State.pop
  split
  · rw [List.append_nil]
    exact hinv.setWorker fun _ hholds => by cases hholds
  · rename_i item rest hqueue
    exact hinv.pop_cons hqueue worker

/-- The body of a task starts in the only hands that hold the task, which then let go of it. -/
theorem Inv.run (hinv : Inv capacity state history) {worker : Nat} {item : Item}
    (hworker : state.workers worker = .cleared item) :
    Inv capacity (state.setWorker worker (.running item)) (history ++ [.ran item.call]) := by
  have hhands := hinv.hands
  have hholds : Holds item.call (state.workers worker) := by
    rw [hworker]
    rfl
  have hran : ranOf (history ++ [.ran item.call]) = ranOf history ++ [item.call] := by
    simp [ranOf, Event.ran?]
  have hpopped : poppedOf (history ++ [.ran item.call]) = poppedOf history := by
    simp [poppedOf, poppedByOf, Event.popped?]
  have hnone : ∀ call, ¬ Holds call (.running item) := fun call h => by cases h
  constructor
  · exact (hinv.shares.ran item.call).congr rfl (Nat.le_refl _) (fun _ => rfl) rfl
  · constructor
    · intro other call hother
      rw [hpopped]
      exact hhands.popped other call
        (holds_of_update (fun call h => absurd h (hnone call)) other call hother)
    · exact fun call => (hhands.one call).update_of_not (hnone call)
    · intro call hcall
      rw [hpopped]
      rw [hran, List.mem_append, List.mem_singleton] at hcall
      rcases hcall with hold | rfl
      · exact hhands.ran_popped call hold
      · exact hhands.popped worker _ hholds
    · intro call hcall
      rw [hran, List.mem_append, List.mem_singleton] at hcall
      rcases hcall with hold | rfl
      · exact (hhands.ran_vacant call hold).update_of_not (hnone call)
      · exact (hhands.one item.call).vacant_update hholds (hnone item.call)
    · rw [hran, List.nodup_append]
      refine ⟨hhands.ran_nodup, List.nodup_singleton _, fun a ha b hb hab => ?_⟩
      rw [List.mem_singleton] at hb
      exact hhands.ran_vacant a ha worker (hab ▸ hb ▸ hholds)

/-! ### Cancelling and stopping -/

theorem Inv.cancel (hinv : Inv capacity state history) {cancel call : Nat} {handle : Handle}
    (hcancel : state.cancels cancel = .absent) (hcall : state.submissions call = .returned handle) :
    Inv capacity (state.cancel cancel call handle) history := by
  have hold : ∀ other, state.cancels cancel ≠ .returned other true := by
    intro other h
    rw [hcancel] at h
    cases h
  refine ⟨?_, hinv.hands.silent fun worker other => ?_⟩
  · cases handle with
    | empty => exact hinv.shares.setCancel hold (fun _ _ h => by cases h) (fun _ h => by cases h) _
    | refused =>
        exact hinv.shares.setCancel hold (fun _ _ h => by cases h) (fun _ h => by cases h) _
    | accepted id =>
        refine hinv.shares.setCancel hold (fun other otherId hpoint => ?_)
          (fun _ h => by cases h) _
        cases hpoint
        rw [hcall]
        rfl
  · cases handle <;> exact id

/-- The item that `cancel_queued` finds is the one the handle was returned for. -/
theorem Shares.find_call (hshares : Shares capacity state history) {cancel call id : Nat}
    (hcancel : state.cancels cancel = .requested call id) {item : Item}
    (hitem : item ∈ state.queue) (hid : item.id = id) : item.call = call := by
  refine hshares.distinct _ _ id ?_ (hshares.requested cancel call id hcancel)
  rw [← hid]
  exact hshares.identity item hitem

/-- An erased task leaves the queue for the removed ones. -/
theorem Shares.erase (hshares : Shares capacity state history) {cancel call id : Nat}
    (hcancel : state.cancels cancel = .requested call id) {item : Item}
    (hitem : item ∈ state.queue) (hid : item.id = id) :
    Shares capacity
      { state.setCancel cancel (.returned call true) with
          queue := state.queue.eraseP (fun item => item.id = id) }
      (history ++ [.removed call]) := by
  obtain ⟨found, before, after, _, hfound, hsplit, herase⟩ :=
    List.exists_of_eraseP hitem (p := fun item => item.id = id) (by simpa using hid)
  have hsame : found.call = call :=
    hshares.find_call hcancel (by simp [hsplit]) (of_decide_eq_true hfound)
  have haccepted : acceptedOf (history ++ [.removed call]) = acceptedOf history := by
    simp [acceptedOf, Event.accepted?]
  have hpopped : poppedOf (history ++ [.removed call]) = poppedOf history := by
    simp [poppedOf, poppedByOf, Event.popped?]
  have hremoved : removedOf (history ++ [.removed call]) = removedOf history ++ [call] := by
    simp [removedOf, Event.removed?]
  have hdropped : droppedOf (history ++ [.removed call]) = droppedOf history := by
    simp [droppedOf, Event.dropped?]
  constructor
  · exact haccepted ▸ hshares.nodup
  · intro other
    rw [haccepted, hpopped, hremoved, hdropped]
    have hcount := hshares.split other
    rw [State.queued, hsplit] at hcount
    simp only [State.queued, herase]
    simp only [List.map_append, List.map_cons, List.count_append, List.count_cons,
      List.count_nil, hsame] at hcount ⊢
    omega
  · rw [haccepted, hpopped]
    exact ((List.eraseP_sublist.map Item.call).append_left _).trans hshares.order
  · rw [haccepted]
    exact hshares.accepted_iff
  · exact fun other hother => hshares.identity other (List.mem_of_mem_eraseP hother)
  · exact hshares.fresh
  · exact hshares.distinct
  · exact Nat.le_trans List.length_eraseP_le hshares.bounded
  · exact fun other => forall_update (p := fun _ (point : Cancel) => ∀ task id,
      point = .requested task id → (state.submissions task).id? = some id)
      (fun _ _ h => by cases h) (fun other _ => hshares.requested other) other
  · intro task
    rw [hremoved, List.mem_append, List.mem_singleton, hshares.removed_iff]
    constructor
    · rintro (⟨other, hother⟩ | rfl)
      · refine ⟨other, ?_⟩
        change update state.cancels cancel _ other = _
        rwa [update_of_ne]
        rintro rfl
        rw [hcancel] at hother
        cases hother
      · exact ⟨cancel, update_self ..⟩
    · rintro ⟨other, hother⟩
      exact forall_update (p := fun _ (point : Cancel) => point = .returned task true →
        (∃ cancel, state.cancels cancel = .returned task true) ∨ task = call)
        (fun h => .inr (by cases h; rfl)) (fun other _ h => .inl ⟨other, h⟩) other hother

theorem Inv.cancelQueued (hinv : Inv capacity state history) {cancel call id : Nat}
    (hcancel : state.cancels cancel = .requested call id) :
    Inv capacity (state.cancelQueued cancel call id).1
      (history ++ (state.cancelQueued cancel call id).2) := by
  unfold State.cancelQueued
  cases hfind : state.queue.find? (fun item => item.id = id) with
  | none =>
      have hold : ∀ other, state.cancels cancel ≠ .returned other true := by
        intro other h
        rw [hcancel] at h
        cases h
      simp only [List.append_nil]
      exact ⟨hinv.shares.setCancel hold (fun _ _ h => by cases h) (fun _ h => by cases h)
        state.cancelled, hinv.hands.silent fun _ _ h => h⟩
  | some item =>
      have hitem : item ∈ state.queue := List.mem_of_find?_eq_some hfind
      have hid : item.id = id := by simpa using List.find?_some hfind
      obtain rfl := hinv.shares.find_call hcancel hitem hid
      exact ⟨hinv.shares.erase hcancel hitem hid, hinv.hands.mono (fun _ _ h => h) rfl rfl⟩

theorem filterMap_dropped (queue : List Item) :
    acceptedOf (queue.map fun item => .dropped item.call) = [] ∧
      poppedByOf (queue.map fun item => .dropped item.call) = [] ∧
      ranOf (queue.map fun item => .dropped item.call) = [] ∧
      removedOf (queue.map fun item => .dropped item.call) = [] ∧
      droppedOf (queue.map fun item => .dropped item.call) = queue.map Item.call := by
  refine ⟨?_, ?_, ?_, ?_, ?_⟩ <;> induction queue with
  | nil => rfl
  | cons item rest ih =>
      simp_all [acceptedOf, poppedByOf, ranOf, removedOf, droppedOf, Event.accepted?,
        Event.popped?, Event.ran?, Event.removed?, Event.dropped?]

theorem Inv.shutdown (hinv : Inv capacity state history) (call : Nat) :
    Inv capacity (state.shutdown call).1 (history ++ (state.shutdown call).2) := by
  have hshares := hinv.shares
  unfold State.shutdown
  split
  · rw [List.append_nil]
    exact ⟨hshares.congr rfl (Nat.le_refl _) (fun _ => rfl) rfl,
      hinv.hands.silent fun _ _ h => h⟩
  · obtain ⟨haccepted, hpopped, hran, hremoved, hdropped⟩ := filterMap_dropped state.queue
    have haccepted' : acceptedOf (history ++ state.queue.map fun item => .dropped item.call) =
        acceptedOf history := by
      simpa [acceptedOf] using haccepted
    have hpopped' : poppedOf (history ++ state.queue.map fun item => .dropped item.call) =
        poppedOf history := by
      simpa [poppedOf, poppedByOf] using hpopped
    have hremoved' : removedOf (history ++ state.queue.map fun item => .dropped item.call) =
        removedOf history := by
      simpa [removedOf] using hremoved
    have hdropped' : droppedOf (history ++ state.queue.map fun item => .dropped item.call) =
        droppedOf history ++ state.queued := by
      rw [droppedOf, List.filterMap_append]
      exact congrArg _ hdropped
    refine ⟨?_, hinv.hands.mono (fun _ _ h => h) (by rw [poppedOf, hpopped]; rfl) hran⟩
    exact {
      nodup := haccepted' ▸ hshares.nodup
      split := fun other => by
        rw [haccepted', hpopped', hremoved', hdropped']
        have hcount := hshares.split other
        simp only [State.queued, List.map_nil, List.count_append, List.count_nil] at hcount ⊢
        omega
      order := by
        rw [haccepted', hpopped']
        exact ((List.nil_sublist _).append_left _).trans hshares.order
      accepted_iff := by rw [haccepted']; exact hshares.accepted_iff
      identity := fun _ h => by cases h
      fresh := hshares.fresh
      distinct := hshares.distinct
      bounded := Nat.zero_le capacity
      requested := hshares.requested
      removed_iff := by rw [hremoved']; exact hshares.removed_iff }

theorem invariant (workerCount capacity : Nat) :
    (machine workerCount capacity).Invariant (Inv capacity) where
  init := .initial
  step label state history hinv henabled := by
    cases label with
    | ensureStarted call nonempty started =>
        exact Machine.keeps_of_silent rfl (hinv.ensureStarted nonempty started henabled)
    | queue call grows => exact hinv.queueTask grows henabled
    | handle call id =>
        refine Machine.keeps_of_silent rfl (hinv.setSubmission ?_)
        rw [show state.submissions call = .handing id from henabled]
        rfl
    | pop worker => exact hinv.pop worker
    | prepare worker item =>
        refine Machine.keeps_of_silent rfl (hinv.setWorker fun call hholds => ?_)
        rw [show state.workers worker = .popped item from henabled]
        exact hholds
    | check worker item =>
        refine Machine.keeps_of_silent rfl (hinv.setWorker fun call hholds => ?_)
        rw [show state.workers worker = .prepared item from henabled]
        split at hholds
        · cases hholds
        · exact hholds
    | run worker item => exact hinv.run henabled
    | finish worker item =>
        exact Machine.keeps_of_silent rfl (hinv.setWorker fun _ hholds => by cases hholds)
    | cancel cancel call handle =>
        exact Machine.keeps_of_silent rfl (hinv.cancel henabled.1 henabled.2)
    | cancelQueued cancel call id => exact hinv.cancelQueued henabled
    | shutdown call => exact hinv.shutdown call
    | shutdownReturn call =>
        exact Machine.keeps_of_silent rfl
          ⟨hinv.shares.congr rfl (Nat.le_refl _) (fun _ => rfl) rfl,
            hinv.hands.silent fun _ _ h => h⟩

/-! ### The contract -/

/-- What `submit`, `cancel` and `shutdown` promise about the tasks they were called for. -/
structure Contract (capacity : Nat) (state : State) (history : List Event) : Prop where
  ran_once : (ranOf history).Nodup
  removed_never_runs : ∀ call ∈ removedOf history, call ∉ ranOf history
  cancelled_iff : ∀ call, call ∈ removedOf history ↔
    ∃ cancel, state.cancels cancel = .returned call true
  popped_in_order : (poppedOf history ++ state.queued).Sublist (acceptedOf history)
  bounded : state.queue.length ≤ capacity
  refused_never_runs : ∀ call, state.submissions call = .returned .empty ∨
    state.submissions call = .returned .refused ∨ state.submissions call = .threw →
      call ∉ ranOf history
  covered : ∀ call ∈ acceptedOf history, call ∉ removedOf history → call ∉ droppedOf history →
    (call ∈ state.queued ∧ ∀ worker, (worker, call) ∉ poppedByOf history) ∨
      (call ∉ state.queued ∧ ∃! worker, (worker, call) ∈ poppedByOf history)

theorem Shares.popped_nodup (hshares : Shares capacity state history) :
    (poppedOf history ++ state.queued).Nodup :=
  hshares.nodup.sublist hshares.order

/-- The four shares are disjoint. -/
theorem Shares.removed_not_popped (hshares : Shares capacity state history) {call : Nat}
    (hcall : call ∈ removedOf history) : call ∉ poppedOf history := by
  intro hpopped
  have honce := List.nodup_iff_count_le_one.mp hshares.nodup call
  have hsplit := hshares.split call
  have := List.count_pos_iff.mpr hcall
  have := List.count_pos_iff.mpr hpopped
  omega

theorem mem_poppedOf {call : Nat} :
    call ∈ poppedOf history ↔ ∃ worker, (worker, call) ∈ poppedByOf history := by
  simp [poppedOf]

/-- A task that was popped was popped by one worker. -/
theorem Shares.existsUnique_popped (hshares : Shares capacity state history) {call : Nat}
    (hcall : call ∈ poppedOf history) : ∃! worker, (worker, call) ∈ poppedByOf history := by
  obtain ⟨worker, hworker⟩ := mem_poppedOf.mp hcall
  refine ⟨worker, hworker, fun other hother => ?_⟩
  have hnodup : (poppedOf history).Nodup := (List.nodup_append.mp hshares.popped_nodup).1
  have hpair := List.inj_on_of_nodup_map hnodup hother hworker rfl
  exact congrArg Prod.fst hpair

theorem Shares.covered (hshares : Shares capacity state history) {call : Nat}
    (hcall : call ∈ acceptedOf history) (hremoved : call ∉ removedOf history)
    (hdropped : call ∉ droppedOf history) :
    (call ∈ state.queued ∧ ∀ worker, (worker, call) ∉ poppedByOf history) ∨
      (call ∉ state.queued ∧ ∃! worker, (worker, call) ∈ poppedByOf history) := by
  have hdisjoint := (List.nodup_append.mp hshares.popped_nodup).2.2
  by_cases hqueued : call ∈ state.queued
  · refine .inl ⟨hqueued, fun worker hworker => ?_⟩
    exact hdisjoint call (mem_poppedOf.mpr ⟨worker, hworker⟩) call hqueued rfl
  · refine .inr ⟨hqueued, hshares.existsUnique_popped ?_⟩
    have hsplit := hshares.split call
    rw [List.count_eq_zero.mpr hqueued, List.count_eq_zero.mpr hremoved,
      List.count_eq_zero.mpr hdropped] at hsplit
    have := List.count_pos_iff.mpr hcall
    exact List.count_pos_iff.mp (by omega)

/-- **Every accepted task runs at most once, and never after a successful cancel.** -/
theorem submitted_at_most_once (workerCount capacity : Nat) {state : State} {history : List Event}
    (hreach : (machine workerCount capacity).Reaches state history) :
    Contract capacity state history := by
  obtain ⟨hshares, hhands⟩ := hreach.invariant (invariant workerCount capacity)
  have hran : ∀ call ∈ ranOf history, ∃ id, (state.submissions call).id? = some id := by
    intro call hcall
    have hpopped := hhands.ran_popped call hcall
    rw [← hshares.accepted_iff]
    exact hshares.order.subset (List.mem_append_left _ hpopped)
  exact {
    ran_once := hhands.ran_nodup
    removed_never_runs := fun call hcall hrun =>
      hshares.removed_not_popped hcall (hhands.ran_popped call hrun)
    cancelled_iff := hshares.removed_iff
    popped_in_order := hshares.order
    bounded := hshares.bounded
    refused_never_runs := fun call hcall hrun => by
      obtain ⟨id, hid⟩ := hran call hrun
      rcases hcall with h | h | h <;> rw [h] at hid <;> cases hid
    covered := fun call => hshares.covered }

/-- Two workers, of three tasks one is cancelled in the queue and one runs. -/
theorem submitted_at_most_once_cancelled :
    ∃ state history, (machine 2 3).Reaches state history ∧ acceptedOf history = [4, 5, 6] ∧
      removedOf history = [5] ∧ ranOf history = [4] ∧ Contract 3 state history := by
  obtain ⟨state, history, hreach, hrun⟩ := Machine.exists_reaches_of_exec (m := machine 2 3)
    [.ensureStarted 4 true 2, .queue 4 true, .handle 4 1, .ensureStarted 5 true 2, .queue 5 true,
      .pop 1, .handle 5 2, .ensureStarted 6 true 0, .queue 6 true, .cancel 0 5 (.accepted 2),
      .prepare 1 ⟨1, 4⟩, .cancelQueued 0 5 2, .check 1 ⟨1, 4⟩, .run 1 ⟨1, 4⟩]
    (p := fun _ history => decide (acceptedOf history = [4, 5, 6] ∧ removedOf history = [5] ∧
      ranOf history = [4])) (by decide)
  obtain ⟨haccepted, hremoved, hran⟩ := of_decide_eq_true hrun
  exact ⟨state, history, hreach, haccepted, hremoved, hran, submitted_at_most_once 2 3 hreach⟩

end SupernoteModule.Runtime.BoundedExecutor
