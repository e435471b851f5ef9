import SupernoteModule.Lib.Exclusive
import SupernoteModule.Runtime.PendingOperation
import Mathlib.Tactic.Set

/-!
# A hook is invoked exactly once, whatever comes first

The winner is decided outside the mutex, so a hook may be installed before or after it is known.
Between the two there is always exactly one place the hook is in: not installed yet, stored, taken
by the winning call, about to run in `set_cancel_hook`, already run, or dropped by a completion.
-/

namespace SupernoteModule.Runtime.PendingOperation.Claims

open SupernoteModule.Lib Function

variable {Work Hook : Type*}

/-- The call has won and has not returned. -/
def Claim.Owns : Claim Hook → Prop
  | .requesting | .taking | .running _ | .clearing => True
  | .absent | .returned _ => False

/-- The call has won a cancellation and has not entered its critical section. -/
def Claim.WillTake : Claim Hook → Prop
  | .requesting | .taking => True
  | .absent | .running _ | .clearing | .returned _ => False

/-- The call is about to run the hook it has taken. -/
def Claim.Runs : Claim Hook → Prop
  | .running _ => True
  | .absent | .requesting | .taking | .clearing | .returned _ => False

/-- The call has won a completion and has not entered its critical section. -/
def Claim.Clears : Claim Hook → Prop
  | .clearing => True
  | .absent | .requesting | .taking | .running _ | .returned _ => False

theorem Claim.WillTake.owns {claim : Claim Hook} (hclaim : claim.WillTake) : claim.Owns := by
  cases claim <;> first | exact trivial | cases hclaim

theorem Claim.Runs.owns {claim : Claim Hook} (hclaim : claim.Runs) : claim.Owns := by
  cases claim <;> first | exact trivial | cases hclaim

theorem Claim.Clears.owns {claim : Claim Hook} (hclaim : claim.Clears) : claim.Owns := by
  cases claim <;> first | exact trivial | cases hclaim

/-- Where the hook is, while the given hooks have been invoked. -/
inductive Fate (hook : Hook) (state : State Work Hook) (hooks : List Hook) : Prop where
  | ready : state.setHook = .absent → state.operation.cancelHook = none → hooks = [] →
      Vacant Claim.Runs state.claims → Fate hook state hooks
  | stored : state.setHook = .returned → state.operation.cancelHook = some hook → hooks = [] →
      Vacant Claim.Runs state.claims →
      (state.operation.winner.isCancellation = true → Occupied Claim.WillTake state.claims) →
      (state.operation.winner = .completing → Occupied Claim.Clears state.claims) →
      Fate hook state hooks
  | taken (call : Nat) : state.setHook = .returned → state.operation.cancelHook = none →
      hooks = [] → state.claims call = .running hook → Fate hook state hooks
  | now : state.setHook = .running → state.operation.cancelHook = none → hooks = [] →
      Vacant Claim.Runs state.claims → state.operation.winner.isCancellation = true →
      Fate hook state hooks
  | ran : state.setHook = .returned → state.operation.cancelHook = none → hooks = [hook] →
      Vacant Claim.Runs state.claims → state.operation.winner.isCancellation = true →
      Fate hook state hooks
  | dropped : state.setHook = .returned → state.operation.cancelHook = none → hooks = [] →
      Vacant Claim.Runs state.claims → state.operation.winner = .completing → Fate hook state hooks

/-- What the calls on one operation keep true. -/
structure Inv (work : Work) (hook : Hook) (state : State Work Hook)
    (history : List (Event Work Hook)) : Prop where
  fate : Fate hook state (hooksOf history)
  one : AtMostOne Claim.Owns state.claims
  undecided : state.operation.winner = .pending → Vacant Claim.Owns state.claims
  takes : ∀ call, (state.claims call).WillTake → state.operation.winner.isCancellation = true
  runs : ∀ call, (state.claims call).Runs → state.operation.winner.isCancellation = true
  clears : ∀ call, (state.claims call).Clears → state.operation.winner = .completing
  installed : state.setWork = .returned → state.operation.work = some work
  cancelled : state.setWork = .returned → state.operation.winner.isCancellation = true →
    work ∈ cancelsOf history ∨ Occupied Claim.WillTake state.claims

variable {work : Work} {hook : Hook} {state : State Work Hook} {history : List (Event Work Hook)}

theorem Inv.initial : Inv work hook (State.init : State Work Hook) [] where
  fate := .ready rfl rfl rfl fun _ h => h
  one := fun _ _ h => absurd h id
  undecided _ _ h := h
  takes _ h := absurd h id
  runs _ h := absurd h id
  clears _ h := absurd h id
  installed h := by cases h
  cancelled h := by cases h

/-- A call that does not own the operation may return. -/
theorem Inv.returnClaim (hinv : Inv work hook state history) {call : Nat} {won : Bool}
    (hcall : ¬ (state.claims call).Owns) :
    Inv work hook (state.setClaim call (.returned won)) history := by
  have hwill : ¬ (state.claims call).WillTake := fun h => hcall h.owns
  have hclears : ¬ (state.claims call).Clears := fun h => hcall h.owns
  refine {
    fate := ?_
    one := hinv.one.update_of_not id
    undecided := fun h => (hinv.undecided h).update_of_not id
    takes := forall_update (p := fun _ (claim : Claim Hook) => claim.WillTake → _)
      (fun h => absurd h id) fun other _ => hinv.takes other
    runs := forall_update (p := fun _ (claim : Claim Hook) => claim.Runs → _)
      (fun h => absurd h id) fun other _ => hinv.runs other
    clears := forall_update (p := fun _ (claim : Claim Hook) => claim.Clears → _)
      (fun h => absurd h id) fun other _ => hinv.clears other
    installed := hinv.installed
    cancelled := fun hwork hwinner =>
      (hinv.cancelled hwork hwinner).imp_right fun h => h.update_of_not hwill }
  cases hinv.fate with
  | ready hset hstored hran hruns => exact .ready hset hstored hran (hruns.update_of_not id)
  | stored hset hstored hran hruns htake hclear =>
      exact .stored hset hstored hran (hruns.update_of_not id)
        (fun h => (htake h).update_of_not hwill) fun h => (hclear h).update_of_not hclears
  | taken other hset hstored hran hother =>
      refine .taken other hset hstored hran ?_
      change update state.claims call _ other = _
      rwa [update_of_ne]
      rintro rfl
      rw [hother] at hcall
      exact hcall trivial
  | now hset hstored hran hruns hwinner =>
      exact .now hset hstored hran (hruns.update_of_not id) hwinner
  | ran hset hstored hran hruns hwinner =>
      exact .ran hset hstored hran (hruns.update_of_not id) hwinner
  | dropped hset hstored hran hruns hwinner =>
      exact .dropped hset hstored hran (hruns.update_of_not id) hwinner

/-- The exchange that decides the winner makes its call the owner. -/
theorem Inv.decide (hinv : Inv work hook state history) {call : Nat} {winner : OperationWinner}
    (hpending : state.operation.winner = .pending) (hwinner : winner ≠ .pending) :
    Inv work hook
      { state.setClaim call (if winner.isCancellation then .requesting else .clearing) with
          operation := { state.operation with winner := winner } } history := by
  have hvacant := hinv.undecided hpending
  set claim : Claim Hook := if winner.isCancellation then .requesting else .clearing with hclaim
  have hruns : ¬ claim.Runs := by
    rw [hclaim]
    split <;> exact id
  have hvacantRuns : Vacant Claim.Runs state.claims := fun other h => hvacant other h.owns
  have htakes : claim.WillTake ↔ winner.isCancellation = true := by
    rw [hclaim]
    split <;> simp_all [Claim.WillTake]
  have hclears : claim.Clears ↔ winner = .completing := by
    rw [hclaim]
    cases winner <;> simp_all [Claim.Clears, OperationWinner.isCancellation]
  refine {
    fate := ?_
    one := hvacant.atMostOne_update
    undecided := fun h => absurd h hwinner
    takes := forall_update (p := fun _ (claim : Claim Hook) => claim.WillTake → _)
      htakes.mp fun other _ h => absurd h.owns (hvacant other)
    runs := forall_update (p := fun _ (claim : Claim Hook) => claim.Runs → _)
      (fun h => absurd h hruns) fun other _ h => absurd h.owns (hvacant other)
    clears := forall_update (p := fun _ (claim : Claim Hook) => claim.Clears → _)
      hclears.mp fun other _ h => absurd h.owns (hvacant other)
    installed := hinv.installed
    cancelled := fun _ h => .inr (occupied_update (htakes.mpr h)) }
  cases hinv.fate with
  | ready hset hstored hran _ => exact .ready hset hstored hran (hvacantRuns.update_of_not hruns)
  | stored hset hstored hran _ _ _ =>
      exact .stored hset hstored hran (hvacantRuns.update_of_not hruns)
        (fun h => occupied_update (htakes.mpr h)) fun h => occupied_update (hclears.mpr h)
  | taken other _ _ _ hother =>
      refine absurd ?_ (hvacant other)
      rw [hother]
      exact trivial
  | now _ _ _ _ hcancel | ran _ _ _ _ hcancel =>
      rw [hpending] at hcancel
      cases hcancel
  | dropped _ _ _ _ hcompleting =>
      rw [hpending] at hcompleting
      cases hcompleting

theorem Inv.exchange (hinv : Inv work hook state history) {call : Nat} {winner : OperationWinner}
    (hcall : state.claims call = .absent) (hwinner : winner ≠ .pending) :
    Inv work hook (state.exchange call winner) history := by
  unfold State.exchange
  by_cases hpending : state.operation.winner = .pending
  · rw [exchange_pending hpending]
    exact hinv.decide hpending hwinner
  · rw [exchange_of_ne hpending]
    exact hinv.returnClaim (by rw [hcall]; exact id)

theorem Inv.requestCancel (hinv : Inv work hook state history) {call : Nat}
    (hcall : state.claims call = .requesting) :
    Inv work hook
      { state.setClaim call .taking with operation := state.operation.requestCancel } history := by
  have howns : (state.claims call).Owns := by rw [hcall]; exact trivial
  have hcancel := hinv.takes call (by rw [hcall]; exact trivial)
  have hnotClears : state.operation.winner ≠ .completing := by
    rintro h
    rw [h] at hcancel
    cases hcancel
  have hwill : Occupied Claim.WillTake (update state.claims call .taking) := occupied_update trivial
  refine {
    fate := ?_
    one := hinv.one.update_of_holds howns
    undecided := fun h => absurd howns (hinv.undecided h call)
    takes := fun _ _ => hcancel
    runs := forall_update (p := fun _ (claim : Claim Hook) => claim.Runs → _)
      (fun h => absurd h id) fun other _ => hinv.runs other
    clears := forall_update (p := fun _ (claim : Claim Hook) => claim.Clears → _)
      (fun h => absurd h id) fun other _ => hinv.clears other
    installed := hinv.installed
    cancelled := fun _ _ => .inr hwill }
  cases hinv.fate with
  | ready hset hstored hran hruns => exact .ready hset hstored hran (hruns.update_of_not id)
  | stored hset hstored hran hruns _ _ =>
      exact .stored hset hstored hran (hruns.update_of_not id) (fun _ => hwill)
        fun h => absurd h hnotClears
  | taken other _ _ _ hother =>
      have hsame := hinv.one howns (j := other) (by rw [hother]; exact trivial)
      rw [← hsame, hcall] at hother
      cases hother
  | now hset hstored hran hruns hwinner =>
      exact .now hset hstored hran (hruns.update_of_not id) hwinner
  | ran hset hstored hran hruns hwinner =>
      exact .ran hset hstored hran (hruns.update_of_not id) hwinner
  | dropped _ _ _ _ hwinner => exact absurd hwinner hnotClears

theorem hooksOf_map_workCancelled (works : List Work) :
    hooksOf (works.map fun work => (.workCancelled work : Event Work Hook)) = [] := by
  induction works with
  | nil => rfl
  | cons _ _ ih => exact ih

theorem mem_cancelsOf_append {events : List (Event Work Hook)} (hwork : work ∈ cancelsOf history) :
    work ∈ cancelsOf (history ++ events) := by
  rw [cancelsOf, List.filterMap_append]
  exact List.mem_append_left _ hwork

theorem mem_cancelsOf_workCancelled :
    work ∈ cancelsOf (history ++ [(.workCancelled work : Event Work Hook)]) := by
  simp [cancelsOf, Event.work?]

/-- The winner of a cancellation asks the installed work to cancel and takes the stored hook. -/
theorem Inv.takeHook (hinv : Inv work hook state history) {call : Nat}
    (hcall : state.claims call = .taking) :
    Inv work hook (state.takeHook call).1 (history ++ (state.takeHook call).2) := by
  have howns : (state.claims call).Owns := by rw [hcall]; exact trivial
  have hcancel := hinv.takes call (by rw [hcall]; exact trivial)
  have hhooks : hooksOf (history ++ (state.takeHook call).2) = hooksOf history := by
    rw [hooksOf, List.filterMap_append]
    exact (congrArg _ (hooksOf_map_workCancelled state.operation.work.toList)).trans
      (List.append_nil _)
  have hnotClears : state.operation.winner ≠ .completing := by
    rintro h
    rw [h] at hcancel
    cases hcancel
  set claim : Claim Hook := state.operation.cancelHook.elim (.returned true) .running with hclaim
  have hnotWill : ¬ claim.WillTake := by
    rw [hclaim]
    cases state.operation.cancelHook <;> exact id
  have hnotClearing : ¬ claim.Clears := by
    rw [hclaim]
    cases state.operation.cancelHook <;> exact id
  refine {
    fate := ?_
    one := hinv.one.update_of_holds howns
    undecided := fun h => absurd howns (hinv.undecided h call)
    takes := fun _ _ => hcancel
    runs := fun _ _ => hcancel
    clears := forall_update (p := fun _ (claim : Claim Hook) => claim.Clears → _)
      (fun h => absurd h hnotClearing) fun other _ => hinv.clears other
    installed := hinv.installed
    cancelled := fun hset _ => .inl ?_ }
  · rw [hhooks]
    cases hinv.fate with
    | ready hset hstored hran hruns =>
        exact .ready hset rfl hran (hruns.update_of_not (by rw [hstored]; exact id))
    | stored hset hstored hran _ _ _ =>
        have hclaim' : claim = .running hook := by rw [hclaim, hstored]; rfl
        exact .taken call hset rfl hran (by
          change update state.claims call claim call = _
          rw [update_self, hclaim'])
    | taken other _ _ _ hother =>
        have hsame := hinv.one howns (j := other) (by rw [hother]; exact trivial)
        rw [← hsame, hcall] at hother
        cases hother
    | now hset hstored hran hruns hwinner =>
        exact .now hset rfl hran (hruns.update_of_not (by rw [hstored]; exact id)) hwinner
    | ran hset hstored hran hruns hwinner =>
        exact .ran hset rfl hran (hruns.update_of_not (by rw [hstored]; exact id)) hwinner
    | dropped _ _ _ _ hwinner => exact absurd hwinner hnotClears
  · have hwork := hinv.installed hset
    rw [show (state.takeHook call).2 = state.operation.work.toList.map .workCancelled from rfl,
      hwork]
    exact mem_cancelsOf_workCancelled

/-- The hook that a call runs is the one that was stored, and nobody else runs it. -/
theorem Inv.runHook (hinv : Inv work hook state history) {call : Nat} {taken : Hook}
    (hcall : state.claims call = .running taken) :
    Inv work hook (state.setClaim call (.returned true)) (history ++ [.hookRan taken]) := by
  have hruns : (state.claims call).Runs := by rw [hcall]; exact trivial
  have hcancel := hinv.runs call hruns
  have hother : ∀ other, (state.claims other).Runs → other = call := fun other h =>
    hinv.one h.owns hruns.owns
  have hvacant : Vacant Claim.Runs (update state.claims call (.returned true)) := by
    refine forall_update (p := fun _ (claim : Claim Hook) => ¬ claim.Runs) id
      fun other hne h => hne (hother other h)
  refine {
    fate := ?_
    one := hinv.one.update_of_not id
    undecided := fun h => absurd hruns.owns (hinv.undecided h call)
    takes := fun _ _ => hcancel
    runs := fun _ _ => hcancel
    clears := forall_update (p := fun _ (claim : Claim Hook) => claim.Clears → _)
      (fun h => absurd h id) fun other _ => hinv.clears other
    installed := hinv.installed
    cancelled := fun hset h => (hinv.cancelled hset h).imp mem_cancelsOf_append
      fun h => h.update_of_not (by rw [hcall]; exact id) }
  cases hinv.fate with
  | taken other hset hstored hran htaken =>
      have hsame := hother other (by rw [htaken]; exact trivial)
      rw [hsame, hcall] at htaken
      cases htaken
      refine .ran hset hstored ?_ hvacant hcancel
      rw [hooksOf, List.filterMap_append]
      exact congrArg (· ++ [hook]) hran
  | ready _ _ _ hnone | stored _ _ _ hnone _ _ | now _ _ _ hnone _ | ran _ _ _ hnone _
  | dropped _ _ _ hnone _ => exact absurd hruns (hnone call)

theorem Inv.clearHook (hinv : Inv work hook state history) {call : Nat}
    (hcall : state.claims call = .clearing) :
    Inv work hook
      { state.setClaim call (.returned true) with operation := state.operation.clearHook }
      history := by
  have howns : (state.claims call).Owns := by rw [hcall]; exact trivial
  have hcompleting := hinv.clears call (by rw [hcall]; exact trivial)
  have hnotCancel : state.operation.winner.isCancellation ≠ true := by
    rw [hcompleting]
    nofun
  refine {
    fate := ?_
    one := hinv.one.update_of_not id
    undecided := fun h => absurd howns (hinv.undecided h call)
    takes := forall_update (p := fun _ (claim : Claim Hook) => claim.WillTake → _)
      (fun h => absurd h id) fun other _ => hinv.takes other
    runs := forall_update (p := fun _ (claim : Claim Hook) => claim.Runs → _)
      (fun h => absurd h id) fun other _ => hinv.runs other
    clears := fun _ _ => hcompleting
    installed := hinv.installed
    cancelled := fun _ h => absurd h hnotCancel }
  cases hinv.fate with
  | ready hset _ hran hruns => exact .ready hset rfl hran (hruns.update_of_not id)
  | stored hset _ hran hruns _ _ =>
      exact .dropped hset rfl hran (hruns.update_of_not id) hcompleting
  | taken other _ _ _ hother =>
      exact absurd (hinv.runs other (by rw [hother]; exact trivial)) hnotCancel
  | now _ _ _ _ hwinner | ran _ _ _ _ hwinner => exact absurd hwinner hnotCancel
  | dropped hset _ hran hruns _ =>
      exact .dropped hset rfl hran (hruns.update_of_not id) hcompleting

theorem Inv.installWork (hinv : Inv work hook state history) :
    Inv work hook (state.installWork work).1 (history ++ (state.installWork work).2) := by
  have hevents : (state.installWork work).2 =
      (if state.operation.winner = .pending then none else some work).toList.map .workCancelled :=
        rfl
  have hhooks : hooksOf (history ++ (state.installWork work).2) = hooksOf history := by
    rw [hooksOf, List.filterMap_append]
    exact (congrArg _ (hooksOf_map_workCancelled _)).trans (List.append_nil _)
  refine { hinv with
    fate := ?_
    installed := fun _ => rfl
    cancelled := fun _ hcancel => .inl ?_ }
  · rw [hhooks]
    cases hinv.fate with
    | ready hset hstored hran hruns => exact .ready hset hstored hran hruns
    | stored hset hstored hran hruns htake hclear =>
        exact .stored hset hstored hran hruns htake hclear
    | taken other hset hstored hran hother => exact .taken other hset hstored hran hother
    | now hset hstored hran hruns hwinner => exact .now hset hstored hran hruns hwinner
    | ran hset hstored hran hruns hwinner => exact .ran hset hstored hran hruns hwinner
    | dropped hset hstored hran hruns hwinner => exact .dropped hset hstored hran hruns hwinner
  · have hdecided : state.operation.winner ≠ .pending := by
      rintro h
      change state.operation.winner.isCancellation = true at hcancel
      rw [h] at hcancel
      cases hcancel
    rw [hevents, if_neg hdecided]
    exact mem_cancelsOf_workCancelled

/-- Before the call the hook is nowhere; the call stores it, or runs it, or drops it. -/
theorem Inv.installHook (hinv : Inv work hook state history) (hset : state.setHook = .absent) :
    Inv work hook (state.installHook hook) history := by
  have hready : state.operation.cancelHook = none ∧ hooksOf history = [] ∧
      Vacant Claim.Runs state.claims := by
    cases hinv.fate with
    | ready _ hstored hran hruns => exact ⟨hstored, hran, hruns⟩
    | stored h | taken _ h | now h | ran h | dropped h =>
        rw [hset] at h
        cases h
  obtain ⟨hstored, hran, hruns⟩ := hready
  cases hwinner : state.operation.winner with
  | pending =>
      have heq : state.installHook hook =
          { state with
              operation := { state.operation with cancelHook := some hook }
              setHook := .returned } := by
        simp [State.installHook, PendingOperation.setCancelHook, hwinner]
      rw [heq]
      exact { hinv with
        fate := .stored rfl rfl hran hruns
          (fun h => by simp [hwinner, OperationWinner.isCancellation] at h)
          (fun h => by simp [hwinner] at h) }
  | completing =>
      have heq : state.installHook hook = { state with setHook := .returned } := by
        simp [State.installHook, PendingOperation.setCancelHook, hwinner,
          OperationWinner.isCancellation]
      rw [heq]
      exact { hinv with fate := .dropped rfl hstored hran hruns hwinner }
  | cancelledByFeature | cancelledByRuntime =>
      have heq : state.installHook hook = { state with setHook := .running } := by
        simp [State.installHook, PendingOperation.setCancelHook, hwinner,
          OperationWinner.isCancellation]
      rw [heq]
      exact { hinv with fate := .now rfl hstored hran hruns (by
        change state.operation.winner.isCancellation = true
        rw [hwinner]
        rfl) }

theorem Inv.runHookNow (hinv : Inv work hook state history) (hset : state.setHook = .running) :
    Inv work hook { state with setHook := .returned } (history ++ [.hookRan hook]) := by
  refine { hinv with
    fate := ?_
    cancelled := fun hwork hcancel => (hinv.cancelled hwork hcancel).imp_left mem_cancelsOf_append }
  cases hinv.fate with
  | now _ hstored hran hruns hwinner =>
      refine .ran rfl hstored ?_ hruns hwinner
      rw [hooksOf, List.filterMap_append]
      exact congrArg (· ++ [hook]) hran
  | ready h | stored h | taken _ h | ran h | dropped h =>
      rw [hset] at h
      cases h

theorem invariant (work : Work) (hook : Hook) : (machine work hook).Invariant (Inv work hook) where
  init := .initial
  step label state history hinv henabled := by
    cases label with
    | exchange call winner =>
        exact Machine.keeps_of_silent rfl (hinv.exchange henabled.1 henabled.2)
    | requestCancel call => exact Machine.keeps_of_silent rfl (hinv.requestCancel henabled)
    | takeHook call => exact hinv.takeHook henabled
    | runHook call taken => exact hinv.runHook henabled
    | clearHook call => exact Machine.keeps_of_silent rfl (hinv.clearHook henabled)
    | setWork => exact hinv.installWork
    | setCancelHook => exact Machine.keeps_of_silent rfl (hinv.installHook henabled)
    | runHookNow => exact hinv.runHookNow henabled

/-- **The hook runs once for a cancellation and never otherwise, and a cancellation reaches the
work**, in whatever order the claims and the two installations came. -/
theorem hook_invoked_exactly_once (work : Work) (hook : Hook) {state : State Work Hook}
    {history : List (Event Work Hook)} (hreach : (machine work hook).Reaches state history)
    (hquiet : state.Quiet) :
    hooksOf history = (if state.operation.winner.isCancellation then [hook] else []) ∧
      (state.operation.winner.isCancellation = true → work ∈ cancelsOf history) := by
  have hinv := hreach.invariant (invariant work hook)
  obtain ⟨hclaims, hwork, hset⟩ := hquiet
  have hvacant : Vacant Claim.Owns state.claims := by
    intro call howns
    rcases hclaims call with h | ⟨won, h⟩ <;> rw [h] at howns <;> exact howns
  have hnoTake : ¬ Occupied Claim.WillTake state.claims := fun ⟨call, h⟩ => hvacant call h.owns
  have hnoClear : ¬ Occupied Claim.Clears state.claims := fun ⟨call, h⟩ => hvacant call h.owns
  constructor
  · cases hinv.fate with
    | ready h | now h =>
        rw [hset] at h
        cases h
    | taken call _ _ _ h =>
        refine absurd ?_ (hvacant call)
        rw [h]
        exact trivial
    | stored _ _ hran _ htake hclear =>
        rw [hran, if_neg fun h => hnoTake (htake h)]
    | ran _ _ hran _ hwinner => rw [hran, if_pos hwinner]
    | dropped _ _ hran _ hwinner =>
        rw [hran, hwinner]
        rfl
  · exact fun hcancel => (hinv.cancelled hwork hcancel).resolve_right hnoTake

/-- A feature close that wins between the two halves of the installation, against a completion. -/
theorem hook_invoked_exactly_once_late :
    ∃ (state : State Nat Nat) (history : List (Event Nat Nat)),
      (machine 3 8).Reaches state history ∧ state.Quiet ∧
        state.operation.winner = .cancelledByFeature ∧
        hooksOf history = [8] ∧ 3 ∈ cancelsOf history := by
  obtain ⟨⟨state, history⟩, hrun⟩ : ∃ run, (machine 3 8).exec
      [.setCancelHook, .exchange 0 .cancelledByFeature, .exchange 1 .completing, .requestCancel 0,
        .takeHook 0, .setWork, .runHook 0 8] State.init [] = some run := ⟨_, rfl⟩
  have hreach := Machine.Reaches.exec _ .init hrun
  have hstate := congrArg Prod.fst (Option.some.inj hrun)
  have hquiet : state.Quiet := by
    rw [← show _ = state from hstate]
    refine ⟨fun call => ?_, rfl, rfl⟩
    match call with
    | 0 => exact .inr ⟨true, rfl⟩
    | 1 => exact .inr ⟨false, rfl⟩
    | _ + 2 => exact .inl rfl
  have hwinner : state.operation.winner = .cancelledByFeature := by
    rw [← show _ = state from hstate]
    rfl
  obtain ⟨hhooks, hcancels⟩ := hook_invoked_exactly_once 3 8 hreach hquiet
  rw [hwinner] at hhooks hcancels
  exact ⟨state, history, hreach, hquiet, hwinner, hhooks, hcancels rfl⟩

end SupernoteModule.Runtime.PendingOperation.Claims
