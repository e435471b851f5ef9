import SupernoteModule.Lib.Exclusive
import SupernoteModule.Runtime.Retirement

/-!
# No retirement is lost

Between storing the mark and learning whether the queue took the job, the thread that stored it
answers for the mark. A retired runtime without a mark is answered for by a thread that is still on
its way to the retry worker, by the retry worker itself, or by the restart flag.
-/

namespace SupernoteModule.Runtime.Retirement

open SupernoteModule.Lib Function

/-- The thread has stored the mark and has not learned the answer of the queue, or has not yet taken
the mark back. -/
def Point.Submits (runtime : Nat) : Point → Prop
  | .submitting marked | .unmarking marked => marked = runtime
  | .absent | .marking _ | .ensuring | .returned _ | .waiting | .sleeping => False

/-- A call at this point ends in a mark on the runtime or makes sure of the retry worker. -/
def Point.Ensures (runtime : Nat) : Point → Prop
  | .marking candidate | .unmarking candidate => candidate = runtime
  | .ensuring => True
  | .absent | .submitting _ | .returned _ | .waiting | .sleeping => False

/-- Somebody answers for a retired runtime without a mark. -/
def Answered (state : State) (runtime : Nat) : Prop :=
  state.threads .retry ≠ .absent ∨ state.restartRequired = true ∨
    Occupied (Point.Ensures runtime) state.threads

def emplacedCount (history : List Event) (runtime : Nat) : Nat :=
  history.count (.emplaced runtime)

def cleanedCount (history : List Event) (runtime : Nat) : Nat :=
  history.count (.cleaned runtime)

/-- How often the runtime is in the map or in the hands of the cleanup worker. -/
def State.held (state : State) (runtime : Nat) : Nat :=
  (if runtime ∈ state.retired then 1 else 0) +
    if state.worker = .cleaning runtime then 1 else 0

/-- What retirement keeps true. -/
structure Inv (state : State) (history : List Event) : Prop where
  bounded : state.retired.card ≤ retiredRuntimeLimit
  marked : ∀ runtime ∈ state.scheduled, Occupied (Point.Submits runtime) state.threads ∨
    runtime ∈ state.jobs ∨ state.worker = .popped runtime
  answered : ∀ runtime ∈ state.retired, runtime ∉ state.scheduled → Answered state runtime
  conserved : ∀ runtime, emplacedCount history runtime =
    cleanedCount history runtime + state.held runtime

variable {state : State} {history : List Event} {actor : Actor} {index runtime : Nat}

theorem threads_setThread_self {point : Point} :
    (state.setThread actor point).threads actor = point :=
  update_self ..

theorem threads_setThread_of_ne {point : Point} {other : Actor} (hother : other ≠ actor) :
    (state.setThread actor point).threads other = state.threads other :=
  update_of_ne hother ..

theorem Inv.initial : Inv .init [] where
  bounded := Nat.zero_le _
  marked _ h := absurd h (Finset.notMem_empty _)
  answered _ h := absurd h (Finset.notMem_empty _)
  conserved _ := rfl

/-- One thread moves: it answers for what it answered for before, or hands it on. -/
theorem Inv.move (hinv : Inv state history) {next : State} {point : Point}
    (hthreads : next.threads = update state.threads actor point) (hpoint : point ≠ .absent)
    (hflag : state.restartRequired = true → next.restartRequired = true)
    (hjobs : ∀ runtime ∈ state.jobs, runtime ∈ next.jobs) (hworker : next.worker = state.worker)
    (hretired : next.retired = state.retired)
    (hmarked : ∀ runtime ∈ next.scheduled, point.Submits runtime ∨ runtime ∈ next.jobs ∨
      runtime ∈ state.scheduled ∧ ¬ (state.threads actor).Submits runtime)
    (hanswered : ∀ runtime ∈ state.retired, runtime ∉ next.scheduled →
      point.Ensures runtime ∨ actor = .retry ∨
        runtime ∉ state.scheduled ∧ ¬ (state.threads actor).Ensures runtime) :
    Inv next history := by
  have hrunning : state.threads .retry ≠ .absent ∨ actor = .retry →
      next.threads .retry ≠ .absent := by
    intro h
    rw [hthreads]
    rcases eq_or_ne .retry actor with rfl | hne
    · rwa [update_self]
    · rw [update_of_ne hne]
      exact h.resolve_right hne.symm
  refine { bounded := hretired ▸ hinv.bounded, marked := ?_, answered := ?_, conserved := ?_ }
  · intro runtime hmem
    rcases hmarked runtime hmem with h | h | ⟨hold, hnot⟩
    · exact .inl (hthreads ▸ occupied_update h)
    · exact .inr (.inl h)
    · rw [hthreads, hworker]
      exact (hinv.marked runtime hold).imp (fun h => h.update_of_not hnot)
        (Or.imp_left (hjobs runtime))
  · intro runtime hmem hunmarked
    rcases hanswered runtime (hretired ▸ hmem) hunmarked with h | h | ⟨hold, hnot⟩
    · exact .inr (.inr (hthreads ▸ occupied_update h))
    · exact .inl (hrunning (.inr h))
    · rcases hinv.answered runtime (hretired ▸ hmem) hold with h | h | h
      · exact .inl (hrunning (.inl h))
      · exact .inr (.inl (hflag h))
      · exact .inr (.inr (hthreads ▸ h.update_of_not hnot))
  · intro runtime
    rw [hinv.conserved, State.held, State.held, hretired, hworker]

theorem Actor.resume_ne_absent (actor : Actor) (scheduled : Bool) :
    actor.resume scheduled ≠ .absent := by
  cases actor <;> cases scheduled <;> nofun

theorem Actor.resume_false (actor : Actor) :
    (actor.resume false).Ensures runtime ∨ actor = .retry := by
  cases actor with
  | call index => exact .inl trivial
  | retry => exact .inr rfl

theorem Inv.mark (hinv : Inv state history) (hactor : state.threads actor = .marking runtime)
    {stored : Bool} : Inv (state.mark actor runtime stored) history := by
  have hother : ∀ other, other ≠ runtime → ¬ (state.threads actor).Ensures other := by
    rintro other hne h
    rw [hactor] at h
    exact hne h.symm
  have hsubmits : ∀ other, ¬ (state.threads actor).Submits other := by
    rw [hactor]
    exact fun _ => id
  rw [State.mark]
  split
  next hskip =>
    refine hinv.move rfl (actor.resume_ne_absent true) id (fun _ => id) rfl rfl ?_ ?_
    · exact fun other hmem => .inr (.inr ⟨hmem, hsubmits other⟩)
    · intro other hretired hunmarked
      refine .inr (.inr ⟨hunmarked, hother other ?_⟩)
      rintro rfl
      exact hskip.elim (fun h => h hretired) hunmarked
  next =>
    split
    · refine hinv.move rfl nofun id (fun _ => id) rfl rfl ?_ ?_
      · intro other hmem
        rcases Finset.mem_insert.mp hmem with h | h
        · exact .inl h.symm
        · exact .inr (.inr ⟨h, hsubmits other⟩)
      · intro other _ hunmarked
        obtain ⟨hne, hold⟩ := not_or.mp (fun h => hunmarked (Finset.mem_insert.mpr h))
        exact .inr (.inr ⟨hold, hother other hne⟩)
    · refine hinv.move rfl nofun id (fun _ => id) rfl rfl ?_ ?_
      · exact fun other hmem => .inr (.inr ⟨hmem, hsubmits other⟩)
      · intro other _ hunmarked
        rcases eq_or_ne runtime other with rfl | hne
        · exact .inl rfl
        · exact .inr (.inr ⟨hunmarked, hother other hne.symm⟩)

theorem Inv.submit (hinv : Inv state history) (hactor : state.threads actor = .submitting runtime)
    {accepted : Bool} : Inv (state.submit actor runtime accepted) history := by
  have hother : ∀ other, other ≠ runtime → ¬ (state.threads actor).Submits other := by
    rintro other hne h
    rw [hactor] at h
    exact hne h.symm
  have hensures : ∀ other, ¬ (state.threads actor).Ensures other := by
    rw [hactor]
    exact fun _ => id
  rw [State.submit]
  split
  · refine hinv.move rfl (actor.resume_ne_absent true) id
      (fun _ => List.mem_append_left _) rfl rfl ?_ ?_
    · intro other hmem
      rcases eq_or_ne other runtime with rfl | hne
      · exact .inr (.inl (List.mem_append_right _ (List.mem_singleton_self _)))
      · exact .inr (.inr ⟨hmem, hother other hne⟩)
    · exact fun other _ hunmarked => .inr (.inr ⟨hunmarked, hensures other⟩)
  · refine hinv.move rfl nofun id (fun _ => id) rfl rfl ?_ ?_
    · intro other hmem
      rcases eq_or_ne runtime other with rfl | hne
      · exact .inl rfl
      · exact .inr (.inr ⟨hmem, hother other hne.symm⟩)
    · exact fun other _ hunmarked => .inr (.inr ⟨hunmarked, hensures other⟩)

theorem Inv.unmark (hinv : Inv state history) (hactor : state.threads actor = .unmarking runtime) :
    Inv { state.setThread actor (actor.resume false) with
      scheduled := state.scheduled.erase runtime } history := by
  have hother : ∀ other, other ≠ runtime → ¬ (state.threads actor).Submits other ∧
      ¬ (state.threads actor).Ensures other := by
    rintro other hne
    rw [hactor]
    exact ⟨fun h => hne h.symm, fun h => hne h.symm⟩
  refine hinv.move rfl (actor.resume_ne_absent false) id (fun _ => id) rfl rfl ?_ ?_
  · intro other hmem
    obtain ⟨hne, hold⟩ := Finset.mem_erase.mp hmem
    exact .inr (.inr ⟨hold, (hother other hne).1⟩)
  · intro other _ hunmarked
    rcases eq_or_ne other runtime with rfl | hne
    · exact (actor.resume_false).imp_right .inl
    · refine .inr (.inr ⟨fun h => hunmarked (Finset.mem_erase.mpr ⟨hne, h⟩), (hother other hne).2⟩)

/-- A thread that neither holds a mark nor answers for a runtime moves. -/
theorem Inv.setThread (hinv : Inv state history) {point : Point} (hpoint : point ≠ .absent)
    (hsubmits : ∀ runtime, ¬ (state.threads actor).Submits runtime)
    (hensures : ∀ runtime, ¬ (state.threads actor).Ensures runtime) :
    Inv (state.setThread actor point) history := by
  refine hinv.move rfl hpoint id (fun _ => id) rfl rfl ?_ ?_
  · exact fun other hmem => .inr (.inr ⟨hmem, hsubmits other⟩)
  · exact fun other _ hunmarked => .inr (.inr ⟨hunmarked, hensures other⟩)

/-- The limit is raised to the flag, nothing else changes. -/
theorem Inv.requireRestart (hinv : Inv state history) :
    Inv { state with restartRequired := true } history :=
  { hinv with answered := fun _ _ _ => .inr (.inl rfl) }

theorem emplacedCount_emplaced (other : Nat) :
    emplacedCount (history ++ [.emplaced runtime]) other =
      emplacedCount history other + if runtime = other then 1 else 0 := by
  simp [emplacedCount, List.count_append, List.count_singleton]

theorem cleanedCount_emplaced (other : Nat) :
    cleanedCount (history ++ [.emplaced runtime]) other = cleanedCount history other := by
  simp [cleanedCount, List.count_append]

theorem emplacedCount_cleaned (other : Nat) :
    emplacedCount (history ++ [.cleaned runtime]) other = emplacedCount history other := by
  simp [emplacedCount, List.count_append]

theorem cleanedCount_cleaned (other : Nat) :
    cleanedCount (history ++ [.cleaned runtime]) other =
      cleanedCount history other + if runtime = other then 1 else 0 := by
  simp [cleanedCount, List.count_append, List.count_singleton]

theorem Inv.retire (hinv : Inv state history) (hactor : state.threads (.call index) = .absent)
    {stored : Bool} :
    Inv (state.retire index runtime stored).1
      (history ++ (state.retire index runtime stored).2) := by
  have hsubmits : ∀ other, ¬ (state.threads (.call index)).Submits other := by
    rw [hactor]
    exact fun _ => id
  have hensures : ∀ other, ¬ (state.threads (.call index)).Ensures other := by
    rw [hactor]
    exact fun _ => id
  have hmarking : Inv (state.setThread (.call index) (.marking runtime)) history :=
    hinv.setThread nofun hsubmits hensures
  rw [State.retire]
  split
  next => rwa [List.append_nil]
  next hnew =>
    split
    next =>
      have hreturned : Inv (state.setThread (.call index) (.returned false)) history :=
        hinv.setThread nofun hsubmits hensures
      rw [List.append_nil]
      exact hreturned.requireRestart
    next hroom =>
      refine { hmarking with bounded := ?_, answered := ?_, conserved := ?_ }
      · obtain ⟨hlt, _⟩ := not_or.mp hroom
        change (insert runtime state.retired).card ≤ _
        rw [Finset.card_insert_of_notMem hnew]
        omega
      · intro other hmem hunmarked
        rcases Finset.mem_insert.mp hmem with rfl | h
        · exact .inr (.inr (occupied_update rfl))
        · exact hmarking.answered other h hunmarked
      · intro other
        have hold := hinv.conserved other
        rw [State.held] at hold
        rw [emplacedCount_emplaced, cleanedCount_emplaced, hold, State.held]
        change _ = _ + ((if other ∈ insert runtime state.retired then 1 else 0) +
          if state.worker = .cleaning other then 1 else 0)
        rcases eq_or_ne runtime other with rfl | hne
        · rw [if_neg hnew, if_pos rfl, if_pos (Finset.mem_insert_self _ _)]
          omega
        · have hiff : other ∈ insert runtime state.retired ↔ other ∈ state.retired := by
            rw [Finset.mem_insert, or_iff_right hne.symm]
          rw [if_neg hne, Nat.add_zero, if_congr hiff rfl rfl]

/-- A call may leave when the retry worker or the flag answers for whatever it answered for. -/
theorem Inv.leave (hinv : Inv state history) (hactor : state.threads (.call index) = .ensuring)
    (hanswer : state.threads .retry ≠ .absent ∨ state.restartRequired = true) (retired : Bool) :
    Inv (state.setThread (.call index) (.returned retired)) history := by
  refine { hinv with marked := ?_, answered := fun other _ _ => ?_ }
  · intro other hmem
    refine (hinv.marked other hmem).imp_left fun h => h.update_of_not ?_
    rw [hactor]
    exact id
  · refine hanswer.imp ?_ .inl
    intro hrunning
    have hne : Actor.retry ≠ .call index := nofun
    rwa [threads_setThread_of_ne hne]

theorem Inv.ensureRetryWorker (hinv : Inv state history)
    (hactor : state.threads (.call index) = .ensuring) {started : Bool} :
    Inv (state.ensureRetryWorker index started) history := by
  rw [State.ensureRetryWorker]
  split
  next hrunning => exact hinv.leave hactor (.inl hrunning) true
  next hstopped =>
    have habsent := not_not.mp hstopped
    split
    · have hne : Actor.call index ≠ .retry := nofun
      have hwaiting : Inv (state.setThread .retry .waiting) history := by
        refine hinv.setThread nofun ?_ ?_
        · rw [habsent]
          exact fun _ => id
        · rw [habsent]
          exact fun _ => id
      refine hwaiting.leave ((threads_setThread_of_ne hne).trans hactor) (.inl ?_) true
      rw [threads_setThread_self]
      nofun
    · exact hinv.requireRestart.leave hactor (.inr rfl) false

/-- The next job leaves the queue; its body has not begun. -/
theorem Inv.popJob (hinv : Inv state history) (hidle : state.worker = .idle)
    (hhead : state.jobs.head? = some runtime) :
    Inv { state with jobs := state.jobs.tail, worker := .popped runtime } history := by
  obtain ⟨rest, hjobs⟩ := List.head?_eq_some_iff.mp hhead
  refine { hinv with marked := ?_, conserved := ?_ }
  · intro other hmem
    refine (hinv.marked other hmem).imp_right fun h => ?_
    rcases h with h | h
    · rw [hjobs] at h ⊢
      rcases List.mem_cons.mp h with rfl | h
      · exact .inr rfl
      · exact .inl h
    · rw [hidle] at h
      cases h
  · intro other
    rw [hinv.conserved, State.held, State.held, hidle]
    rfl

/-- The body of a job takes the mark and the runtime out in one critical section. -/
theorem Inv.runJob (hinv : Inv state history) (hpopped : state.worker = .popped runtime) :
    Inv (state.runJob runtime) history := by
  have hmarked : ∀ other ∈ state.scheduled.erase runtime,
      Occupied (Point.Submits other) state.threads ∨ other ∈ state.jobs := by
    intro other hmem
    obtain ⟨hne, hold⟩ := Finset.mem_erase.mp hmem
    refine (hinv.marked other hold).imp_right fun h => h.resolve_right ?_
    rw [hpopped]
    rintro ⟨⟩
    exact hne rfl
  have hunmarked : ∀ other, other ≠ runtime → other ∉ state.scheduled.erase runtime →
      other ∉ state.scheduled :=
    fun other hne hnot h => hnot (Finset.mem_erase.mpr ⟨hne, h⟩)
  rw [State.runJob]
  split
  next hmem =>
    refine {
      bounded := Nat.le_trans (Finset.card_erase_le) hinv.bounded
      marked := fun other h => (hmarked other h).imp_right .inl
      answered := ?_
      conserved := ?_ }
    · intro other hother hnot
      obtain ⟨hne, hold⟩ := Finset.mem_erase.mp hother
      exact hinv.answered other hold (hunmarked other hne hnot)
    · intro other
      rw [hinv.conserved, State.held, State.held, hpopped]
      change _ = _ + ((if other ∈ state.retired.erase runtime then 1 else 0) +
        if Worker.cleaning runtime = .cleaning other then 1 else 0)
      have hpopped' : Worker.popped runtime ≠ .cleaning other := nofun
      rw [if_neg hpopped']
      rcases eq_or_ne runtime other with rfl | hne
      · rw [if_pos hmem, if_pos rfl, if_neg (Finset.notMem_erase _ _)]
      · have hcleaning : Worker.cleaning runtime ≠ .cleaning other := fun h => hne (by cases h; rfl)
        have hiff : other ∈ state.retired.erase runtime ↔ other ∈ state.retired := by
          rw [Finset.mem_erase, and_iff_right hne.symm]
        rw [if_neg hcleaning, if_congr hiff rfl rfl]
  next hgone =>
    refine {
      bounded := hinv.bounded
      marked := fun other h => (hmarked other h).imp_right .inl
      answered := ?_
      conserved := ?_ }
    · intro other hother hnot
      refine hinv.answered other hother (hunmarked other ?_ hnot)
      rintro rfl
      exact hgone hother
    · intro other
      rw [hinv.conserved, State.held, State.held, hpopped]
      rfl

theorem Inv.cleanupPhysical (hinv : Inv state history)
    (hcleaning : state.worker = .cleaning runtime) :
    Inv { state with worker := .idle } (history ++ [.cleaned runtime]) := by
  refine { hinv with marked := ?_, conserved := ?_ }
  · intro other hmem
    refine (hinv.marked other hmem).imp_right fun h => .inl (h.resolve_right ?_)
    rw [hcleaning]
    nofun
  · intro other
    rw [emplacedCount_cleaned, cleanedCount_cleaned, hinv.conserved, State.held, State.held,
      hcleaning]
    have hidle : Worker.idle ≠ .cleaning other := nofun
    change _ = _ + ((if other ∈ state.retired then 1 else 0) +
      if Worker.idle = .cleaning other then 1 else 0)
    rw [if_neg hidle]
    rcases eq_or_ne runtime other with rfl | hne
    · rw [if_pos rfl, if_pos rfl]
      omega
    · have hne' : Worker.cleaning runtime ≠ .cleaning other := fun h => hne (by cases h; rfl)
      rw [if_neg hne', if_neg hne, Nat.add_zero (cleanedCount history other)]

theorem invariant : machine.Invariant Inv where
  init := .initial
  step label state history hinv henabled := by
    cases label with
    | retire index runtime stored => exact hinv.retire henabled
    | mark actor runtime stored => exact Machine.keeps_of_silent rfl (hinv.mark henabled)
    | submit actor runtime accepted => exact Machine.keeps_of_silent rfl (hinv.submit henabled)
    | unmark actor runtime => exact Machine.keeps_of_silent rfl (hinv.unmark henabled)
    | ensureRetryWorker index started =>
        exact Machine.keeps_of_silent rfl (hinv.ensureRetryWorker henabled)
    | pick runtime =>
        refine Machine.keeps_of_silent rfl (hinv.setThread nofun ?_ ?_)
        · rw [henabled.1]
          exact fun _ => id
        · rw [henabled.1]
          exact fun _ => id
    | wake =>
        have hsleeping : state.threads .retry = .sleeping := henabled
        refine Machine.keeps_of_silent rfl (hinv.setThread nofun ?_ ?_)
        · rw [hsleeping]
          exact fun _ => id
        · rw [hsleeping]
          exact fun _ => id
    | popJob runtime => exact Machine.keeps_of_silent rfl (hinv.popJob henabled.1 henabled.2)
    | runJob runtime => exact Machine.keeps_of_silent rfl (hinv.runJob henabled)
    | cleanupPhysical runtime => exact hinv.cleanupPhysical henabled

/-! ### What follows for every run -/

/-- A runtime leaves the map only for the hands of the cleanup worker. -/
theorem worker_of_left {label : Label} (hmem : runtime ∈ state.retired)
    (hleft : runtime ∉ (machine.step label state).1.retired) :
    (machine.step label state).1.worker = .cleaning runtime := by
  cases label with
  | retire index other stored =>
      refine absurd ?_ hleft
      change runtime ∈ (state.retire index other stored).1.retired
      rw [State.retire]
      split
      · exact hmem
      · split
        · exact hmem
        · exact Finset.mem_insert_of_mem hmem
  | mark actor other stored =>
      refine absurd ?_ hleft
      change runtime ∈ (state.mark actor other stored).retired
      rw [State.mark]
      split
      · exact hmem
      · split <;> exact hmem
  | submit actor other accepted =>
      refine absurd ?_ hleft
      change runtime ∈ (state.submit actor other accepted).retired
      rw [State.submit]
      split <;> exact hmem
  | ensureRetryWorker index started =>
      refine absurd ?_ hleft
      change runtime ∈ (state.ensureRetryWorker index started).retired
      rw [State.ensureRetryWorker]
      split
      · exact hmem
      · split <;> exact hmem
  | unmark _ _ | pick _ | wake | popJob _ | cleanupPhysical _ => exact absurd hmem hleft
  | runJob other =>
      change (state.runJob other).worker = _
      change runtime ∉ (state.runJob other).retired at hleft
      rw [State.runJob] at hleft ⊢
      split at hleft
      next hother =>
        rw [if_pos hother]
        have hsame : runtime = other := by
          by_contra hne
          exact hleft (Finset.mem_erase.mpr ⟨hne, hmem⟩)
        rw [hsame]
      next => exact absurd hmem hleft

/-- The cleanup worker keeps the runtime in its hands until it calls `cleanup_physical`. -/
theorem cleaned_of_worker {label : Label} (hcleaning : state.worker = .cleaning runtime)
    (henabled : machine.enabled label state) :
    (machine.step label state).1.worker = .cleaning runtime ∨
      (machine.step label state).2 = [.cleaned runtime] := by
  cases label with
  | retire index other stored =>
      refine .inl ?_
      change (state.retire index other stored).1.worker = _
      rw [State.retire]
      split
      · exact hcleaning
      · split <;> exact hcleaning
  | mark actor other stored =>
      refine .inl ?_
      change (state.mark actor other stored).worker = _
      rw [State.mark]
      split
      · exact hcleaning
      · split <;> exact hcleaning
  | submit actor other accepted =>
      refine .inl ?_
      change (state.submit actor other accepted).worker = _
      rw [State.submit]
      split <;> exact hcleaning
  | ensureRetryWorker index started =>
      refine .inl ?_
      change (state.ensureRetryWorker index started).worker = _
      rw [State.ensureRetryWorker]
      split
      · exact hcleaning
      · split <;> exact hcleaning
  | unmark _ _ | pick _ | wake => exact .inl hcleaning
  | popJob other =>
      rw [henabled.1] at hcleaning
      cases hcleaning
  | runJob other =>
      rw [show state.worker = _ from henabled] at hcleaning
      cases hcleaning
  | cleanupPhysical other =>
      rw [show state.worker = _ from henabled] at hcleaning
      cases hcleaning
      exact .inr rfl

/-- What retirement guarantees in a reachable state. -/
structure Contract (state : State) (history : List Event) : Prop where
  bounded : state.retired.card ≤ retiredRuntimeLimit
  conserved : ∀ runtime, emplacedCount history runtime =
    cleanedCount history runtime + state.held runtime
  leaves : ∀ label, machine.enabled label state → ∀ runtime ∈ state.retired,
    runtime ∉ (machine.step label state).1.retired →
      (machine.step label state).1.worker = .cleaning runtime
  cleans : ∀ label, machine.enabled label state → ∀ runtime, state.worker = .cleaning runtime →
    (machine.step label state).1.worker = .cleaning runtime ∨
      (machine.step label state).2 = [.cleaned runtime]
  marked : ∀ runtime ∈ state.scheduled, Occupied (Point.Submits runtime) state.threads ∨
    runtime ∈ state.jobs ∨ state.worker = .popped runtime
  answered : (∀ index, ¬ state.inside index) → ∀ runtime ∈ state.retired,
    runtime ∉ state.scheduled → state.threads .retry ≠ .absent ∨ state.restartRequired = true

/-- **No retirement is lost.** -/
theorem retirement_contract (hreach : machine.Reaches state history) : Contract state history := by
  have hinv := hreach.invariant invariant
  refine {
    bounded := hinv.bounded
    conserved := hinv.conserved
    leaves := fun _ _ _ hmem hleft => worker_of_left hmem hleft
    cleans := fun _ henabled _ hcleaning => cleaned_of_worker hcleaning henabled
    marked := hinv.marked
    answered := ?_ }
  intro houtside runtime hmem hunmarked
  rcases hinv.answered runtime hmem hunmarked with h | h | ⟨actor, h⟩
  · exact .inl h
  · exact .inr h
  · cases actor with
    | retry =>
        refine .inl fun habsent => ?_
        rw [habsent] at h
        exact h
    | call index =>
        refine absurd ⟨fun habsent => ?_, fun retired hreturned => ?_⟩ (houtside index)
        · rw [habsent] at h
          exact h
        · rw [hreturned] at h
          exact h

/-- A refused submission leaves the runtime to the retry worker, whose own submission is taken. -/
theorem retirement_contract_retried :
    ∃ state history, machine.Reaches state history ∧ state.threads (.call 0) = .returned true ∧
      state.retired = {7} ∧ state.scheduled = ∅ ∧ emplacedCount history 5 = 1 ∧
      cleanedCount history 5 = 1 ∧ Contract state history := by
  obtain ⟨state, history, hreach, hrun⟩ := Machine.exists_reaches_of_exec (m := machine)
    [.retire 0 5 true, .mark (.call 0) 5 true, .submit (.call 0) 5 false, .unmark (.call 0) 5,
      .ensureRetryWorker 0 true, .pick 5, .retire 1 7 true, .mark .retry 5 true,
      .submit .retry 5 true, .popJob 5, .retire 2 5 true, .mark (.call 2) 5 true, .runJob 5,
      .cleanupPhysical 5]
    (p := fun state history => decide (state.threads (.call 0) = .returned true ∧
      state.retired = {7} ∧ state.scheduled = ∅ ∧ emplacedCount history 5 = 1 ∧
      cleanedCount history 5 = 1)) (by decide)
  obtain ⟨hcall, hretired, hscheduled, hemplaced, hcleaned⟩ := of_decide_eq_true hrun
  exact ⟨state, history, hreach, hcall, hretired, hscheduled, hemplaced, hcleaned,
    retirement_contract hreach⟩

end SupernoteModule.Runtime.Retirement
