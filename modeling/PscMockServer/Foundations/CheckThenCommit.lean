import Mathlib.Data.List.Nodup
import Mathlib.Data.List.Induction

namespace PscMockServer
namespace Foundations

/-!
# Check-then-commit transactions

A transaction reads a clock, runs its checks one at a time against the shared state
of the moment, and, when all of them passed, commits its write in one step.  No lock
is held between the checks and the commit, so other transactions and a background
writer may step in between.  When the outcome of every check is the same in every
state that the system can be in, the interleaving cannot be observed: each
transaction answers as it would alone, and the part of the state that the background
leaves alone is the result of the committed transactions one after another.
-/

/-- A transaction: an immediate refusal or the checks it makes, and what it writes. -/
structure Transaction (σ τ ε : Type) where
  refusal : Option ε
  checks : List (σ -> ε)
  write : τ -> σ -> σ

/-- Where a transaction stands. -/
inductive Phase (σ τ ε : Type) where
  | waiting
  | checking (stamp : τ) (pending : List (σ -> ε))
  | finished (status : ε)

/-- One step of the system: transaction `i` moves, with the clock reading it would
take, or the background writes. -/
inductive Move (ι τ α : Type) where
  | step (i : ι) (reading : τ)
  | background (action : α)

/-- The shared state, the phases, and the commits so far with their stamps. -/
structure Shared (σ ι τ ε : Type) where
  state : σ
  phase : ι -> Phase σ τ ε
  log : List (ι × τ)

/-- What the theorems are about: the transactions, the background, the status of
success and which statuses are successes. -/
structure Protocol (σ ι τ ε α : Type) where
  transaction : ι -> Transaction σ τ ε
  background : α -> σ -> σ
  success : ε
  passed : ε -> Bool
  success_passed : passed success = true
  refusal_failed : ∀ i e, (transaction i).refusal = some e -> passed e = false

namespace Protocol

variable {σ ι τ ε α : Type} [DecidableEq ι] (p : Protocol σ ι τ ε α)

/-- Move transaction `i` to a phase. -/
def setPhase (phase : ι -> Phase σ τ ε) (i : ι) (next : Phase σ τ ε) (j : ι) : Phase σ τ ε :=
  if j = i then next else phase j

/-- One step of transaction `i`. -/
def advance (c : Shared σ ι τ ε) (i : ι) (reading : τ) : Shared σ ι τ ε :=
  match c.phase i with
  | .waiting =>
      match (p.transaction i).refusal with
      | some status => { c with phase := setPhase c.phase i (.finished status) }
      | none => { c with phase := setPhase c.phase i (.checking reading (p.transaction i).checks) }
  | .checking stamp (check :: pending) =>
      if p.passed (check c.state) then
        { c with phase := setPhase c.phase i (.checking stamp pending) }
      else { c with phase := setPhase c.phase i (.finished (check c.state)) }
  | .checking stamp [] =>
      { state := (p.transaction i).write stamp c.state
        phase := setPhase c.phase i (.finished p.success)
        log := c.log ++ [(i, stamp)] }
  | .finished _ => c

def move (c : Shared σ ι τ ε) : Move ι τ α -> Shared σ ι τ ε
  | .step i reading => p.advance c i reading
  | .background action => { c with state := p.background action c.state }

def run (c : Shared σ ι τ ε) (schedule : List (Move ι τ α)) : Shared σ ι τ ε :=
  schedule.foldl p.move c

/-- Nobody has started. -/
def start (s : σ) : Shared σ ι τ ε where
  state := s
  phase := fun _ => .waiting
  log := []

/-- The status of a list of checks that all read the same state. -/
def verdict (s : σ) : List (σ -> ε) -> ε
  | [] => p.success
  | check :: rest => if p.passed (check s) then verdict s rest else check s

/-- Transaction `i` alone: its status and the state it leaves. -/
def aloneStatus (i : ι) (s : σ) : ε :=
  match (p.transaction i).refusal with
  | some status => status
  | none => p.verdict s (p.transaction i).checks

def aloneState (i : ι) (stamp : τ) (s : σ) : σ :=
  if p.passed (p.aloneStatus i s) then (p.transaction i).write stamp s else s

/-- The logged transactions one after another. -/
def serial (s : σ) (log : List (ι × τ)) : σ :=
  log.foldl (fun s entry => p.aloneState entry.1 entry.2 s) s

/-- The clock reading transaction `i` takes in a schedule: the one of its first step. -/
def readingOf (schedule : List (Move ι τ α)) (i : ι) : Option τ :=
  schedule.findSome? (fun m =>
    match m with
    | .step j reading => if j = i then some reading else none
    | .background _ => none)

/-- How many steps of transaction `i` a schedule has. -/
def stepsOf (schedule : List (Move ι τ α)) (i : ι) : Nat :=
  schedule.countP (fun m =>
    match m with
    | .step j _ => decide (j = i)
    | .background _ => false)

/-- What makes the interleaving invisible.  `valid` holds in every state the system
can be in, and the checks cannot tell two valid states apart; `view` is the part of
the state that only the transactions write. -/
structure Stable {β : Type} (valid : σ -> Prop) (view : σ -> β) : Prop where
  steady : ∀ i, ∀ check ∈ (p.transaction i).checks, ∀ s s', valid s -> valid s' -> check s = check s'
  write_valid : ∀ i stamp s, valid s -> p.passed (p.aloneStatus i s) = true ->
    valid ((p.transaction i).write stamp s)
  background_valid : ∀ action s, valid s -> valid (p.background action s)
  write_view : ∀ i stamp s s', valid s -> valid s' -> p.passed (p.aloneStatus i s) = true ->
    view s = view s' ->
      view ((p.transaction i).write stamp s) = view ((p.transaction i).write stamp s')
  background_view : ∀ action s, view (p.background action s) = view s

/-! ## Bookkeeping of the schedule -/

theorem readingOf_snoc_other (schedule : List (Move ι τ α)) {i j : ι} (reading : τ) (different : j ≠ i) :
    readingOf (schedule ++ [.step j reading]) i = readingOf schedule i := by
  simp [readingOf, List.findSome?_append, different]

theorem readingOf_snoc_self (schedule : List (Move ι τ α)) (i : ι) (reading : τ) :
    readingOf (schedule ++ [.step i reading]) i = (readingOf schedule i).or (some reading) := by
  simp [readingOf, List.findSome?_append]

theorem readingOf_snoc_background (schedule : List (Move ι τ α)) (i : ι) (action : α) :
    readingOf (schedule ++ [.background action]) i = readingOf schedule i := by
  simp [readingOf, List.findSome?_append]

/-- A reading once taken is never taken again. -/
theorem readingOf_snoc_some {schedule : List (Move ι τ α)} {i : ι} {stamp : τ}
    (taken : readingOf schedule i = some stamp) (m : Move ι τ α) :
    readingOf (schedule ++ [m]) i = some stamp := by
  cases m with
  | background action => rw [readingOf_snoc_background, taken]
  | step j reading =>
      by_cases same : j = i
      · rw [same, readingOf_snoc_self, taken, Option.some_or]
      · rw [readingOf_snoc_other schedule reading same, taken]

theorem stepsOf_snoc_other (schedule : List (Move ι τ α)) {i j : ι} (reading : τ) (different : j ≠ i) :
    stepsOf (schedule ++ [.step j reading]) i = stepsOf schedule i := by
  simp [stepsOf, List.countP_append, different]

theorem stepsOf_snoc_self (schedule : List (Move ι τ α)) (i : ι) (reading : τ) :
    stepsOf (schedule ++ [.step i reading]) i = stepsOf schedule i + 1 := by
  simp [stepsOf, List.countP_append]

theorem stepsOf_snoc_background (schedule : List (Move ι τ α)) (i : ι) (action : α) :
    stepsOf (schedule ++ [.background action]) i = stepsOf schedule i := by
  simp [stepsOf, List.countP_append]

/-! ## The verdict of a list of checks -/

omit [DecidableEq ι] in
theorem verdict_of_passed (s : σ) (done pending : List (σ -> ε))
    (passed : ∀ check ∈ done, p.passed (check s) = true) :
    p.verdict s (done ++ pending) = p.verdict s pending := by
  induction done with
  | nil => rfl
  | cons check done inductionHypothesis =>
      rw [List.cons_append, verdict, if_pos (passed check List.mem_cons_self)]
      exact inductionHypothesis (fun other member => passed other (List.mem_cons_of_mem check member))

omit [DecidableEq ι] in
theorem verdict_steady {s s' : σ} {checks : List (σ -> ε)}
    (steady : ∀ check ∈ checks, check s = check s') : p.verdict s checks = p.verdict s' checks := by
  induction checks with
  | nil => rfl
  | cons check checks inductionHypothesis =>
      rw [verdict, verdict, steady check List.mem_cons_self,
        inductionHypothesis (fun other member => steady other (List.mem_cons_of_mem check member))]

omit [DecidableEq ι] in
/-- Alone, a transaction gets the same status in every valid state. -/
theorem Stable.aloneStatus_eq {β : Type} {valid : σ -> Prop} {view : σ -> β} {p : Protocol σ ι τ ε α}
    (stable : p.Stable valid view) (i : ι) {s s' : σ} (isValid : valid s) (isValid' : valid s') :
    p.aloneStatus i s = p.aloneStatus i s' := by
  rw [aloneStatus, aloneStatus]
  cases (p.transaction i).refusal with
  | some status => rfl
  | none => exact p.verdict_steady (fun check member => stable.steady i check member s s' isValid isValid')

/-! ## The invariant of a run -/

/-- What the phase of transaction `i` says about its past. -/
def PhaseInvariant (s : σ) (schedule : List (Move ι τ α)) (log : List (ι × τ)) (i : ι) :
    Phase σ τ ε -> Prop
  | .waiting =>
      readingOf schedule i = none ∧ stepsOf schedule i = 0 ∧ i ∉ log.map Prod.fst
  | .checking stamp pending =>
      readingOf schedule i = some stamp ∧
        stepsOf schedule i + pending.length = (p.transaction i).checks.length + 1 ∧
        i ∉ log.map Prod.fst ∧ (p.transaction i).refusal = none ∧
        ∃ done, (p.transaction i).checks = done ++ pending ∧
          ∀ check ∈ done, p.passed (check s) = true
  | .finished status =>
      status = p.aloneStatus i s ∧ (i ∈ log.map Prod.fst ↔ p.passed status = true)

variable {p}

theorem PhaseInvariant.congr {s : σ} {schedule schedule' : List (Move ι τ α)} {log log' : List (ι × τ)}
    {i : ι} {phase : Phase σ τ ε} (known : p.PhaseInvariant s schedule log i phase)
    (readings : readingOf schedule' i = readingOf schedule i)
    (steps : stepsOf schedule' i = stepsOf schedule i)
    (logged : i ∈ log'.map Prod.fst ↔ i ∈ log.map Prod.fst) :
    p.PhaseInvariant s schedule' log' i phase := by
  cases phase <;> simp only [PhaseInvariant, readings, steps, logged] at known ⊢ <;> exact known

theorem setPhase_self (phase : ι -> Phase σ τ ε) (i : ι) : setPhase phase i (phase i) = phase := by
  funext j
  rw [setPhase]
  split
  · next same => rw [same]
  · rfl

/-- The state of a run, against the serial execution of its log. -/
structure RunInvariant {β : Type} (p : Protocol σ ι τ ε α) (valid : σ -> Prop) (view : σ -> β) (s : σ)
    (schedule : List (Move ι τ α)) (c : Shared σ ι τ ε) : Prop where
  isValid : valid c.state
  serialValid : valid (p.serial s c.log)
  sameView : view c.state = view (p.serial s c.log)
  phases : ∀ i, p.PhaseInvariant s schedule c.log i (c.phase i)
  readings : ∀ entry ∈ c.log, readingOf schedule entry.1 = some entry.2
  once : (c.log.map Prod.fst).Nodup

namespace RunInvariant

variable {β : Type} {valid : σ -> Prop} {view : σ -> β} {s : σ} {schedule : List (Move ι τ α)}
  {c : Shared σ ι τ ε}

theorem initial (isValid : valid s) : RunInvariant p valid view s [] (start s) where
  isValid := isValid
  serialValid := isValid
  sameView := rfl
  phases := fun _ => ⟨rfl, rfl, List.not_mem_nil⟩
  readings := fun _ member => absurd member List.not_mem_nil
  once := List.nodup_nil

/-- A step of `i` that only changes its phase. -/
theorem rephase (inv : RunInvariant p valid view s schedule c) {i : ι} {reading : τ}
    {next : Phase σ τ ε} (known : p.PhaseInvariant s (schedule ++ [.step i reading]) c.log i next) :
    RunInvariant p valid view s (schedule ++ [.step i reading])
      { c with phase := setPhase c.phase i next } where
  isValid := inv.isValid
  serialValid := inv.serialValid
  sameView := inv.sameView
  phases := by
    intro j
    change p.PhaseInvariant s (schedule ++ [.step i reading]) c.log j (setPhase c.phase i next j)
    by_cases same : j = i
    · rw [setPhase, if_pos same, same]
      exact known
    · have different : i ≠ j := fun equal => same equal.symm
      rw [setPhase, if_neg same]
      exact (inv.phases j).congr (readingOf_snoc_other schedule reading different)
        (stepsOf_snoc_other schedule reading different) Iff.rfl
  readings := fun entry member => readingOf_snoc_some (inv.readings entry member) _
  once := inv.once

/-- The commit of `i`, at the end of its checks. -/
theorem commit (stable : p.Stable valid view) (start_valid : valid s)
    (inv : RunInvariant p valid view s schedule c) {i : ι} {reading stamp : τ}
    (phase : c.phase i = .checking stamp []) :
    RunInvariant p valid view s (schedule ++ [.step i reading])
      { state := (p.transaction i).write stamp c.state
        phase := setPhase c.phase i (.finished p.success)
        log := c.log ++ [(i, stamp)] } := by
  have known := inv.phases i
  rw [phase] at known
  rcases known with ⟨taken, _, unlogged, noRefusal, done, split, passed⟩
  have status : p.aloneStatus i s = p.success := by
    rw [aloneStatus, noRefusal, split]
    exact p.verdict_of_passed s done [] passed
  have passes : ∀ {other : σ}, valid other -> p.passed (p.aloneStatus i other) = true := by
    intro other otherValid
    rw [stable.aloneStatus_eq i otherValid start_valid, status]
    exact p.success_passed
  have serial : p.serial s (c.log ++ [(i, stamp)]) =
      (p.transaction i).write stamp (p.serial s c.log) := by
    rw [Protocol.serial, List.foldl_append]
    exact if_pos (passes inv.serialValid)
  refine ⟨?_, ?_, ?_, ?_, ?_, ?_⟩
  · exact stable.write_valid i stamp c.state inv.isValid (passes inv.isValid)
  · rw [serial]
    exact stable.write_valid i stamp _ inv.serialValid (passes inv.serialValid)
  · rw [serial]
    exact stable.write_view i stamp _ _ inv.isValid inv.serialValid (passes inv.isValid) inv.sameView
  · intro j
    change p.PhaseInvariant s (schedule ++ [.step i reading]) (c.log ++ [(i, stamp)]) j
      (setPhase c.phase i (.finished p.success) j)
    by_cases same : j = i
    · rw [setPhase, if_pos same, same]
      refine ⟨status.symm, fun _ => p.success_passed, fun _ => ?_⟩
      rw [List.map_append]
      exact List.mem_append_right _ List.mem_cons_self
    · have different : i ≠ j := fun equal => same equal.symm
      rw [setPhase, if_neg same]
      refine (inv.phases j).congr (readingOf_snoc_other schedule reading different)
        (stepsOf_snoc_other schedule reading different) ?_
      simp [same]
  · intro entry member
    rcases List.mem_append.mp member with old | new
    · exact readingOf_snoc_some (inv.readings entry old) _
    · rw [List.mem_singleton.mp new]
      exact readingOf_snoc_some taken _
  · rw [List.map_append]
    refine List.nodup_append.mpr ⟨inv.once, List.nodup_singleton i, ?_⟩
    intro j old k new equal
    rw [equal, List.mem_singleton.mp new] at old
    exact unlogged old

theorem background (stable : p.Stable valid view) (inv : RunInvariant p valid view s schedule c)
    (action : α) :
    RunInvariant p valid view s (schedule ++ [.background action])
      { c with state := p.background action c.state } where
  isValid := stable.background_valid action c.state inv.isValid
  serialValid := inv.serialValid
  sameView := (stable.background_view action c.state).trans inv.sameView
  phases := fun i => (inv.phases i).congr (readingOf_snoc_background schedule i action)
    (stepsOf_snoc_background schedule i action) Iff.rfl
  readings := fun entry member => readingOf_snoc_some (inv.readings entry member) _
  once := inv.once

/-- A transaction is refused, or takes its reading and turns to its checks. -/
theorem enter (inv : RunInvariant p valid view s schedule c) {i : ι} {reading : τ}
    (phase : c.phase i = .waiting) :
    RunInvariant p valid view s (schedule ++ [.step i reading])
      (match (p.transaction i).refusal with
      | some status => { c with phase := setPhase c.phase i (.finished status) }
      | none =>
          { c with phase := setPhase c.phase i (.checking reading (p.transaction i).checks) }) := by
  have known := inv.phases i
  rw [phase] at known
  rcases known with ⟨untaken, noSteps, unlogged⟩
  cases refusal : (p.transaction i).refusal with
  | some status =>
      have failed := p.refusal_failed i status refusal
      refine inv.rephase ⟨?_, fun logged => absurd logged unlogged, fun passed => ?_⟩
      · rw [aloneStatus, refusal]
      · exact absurd (failed.symm.trans passed) Bool.false_ne_true
  | none =>
      refine inv.rephase ⟨?_, ?_, unlogged, refusal, [], rfl, ?_⟩
      · rw [readingOf_snoc_self, untaken, Option.none_or]
      · rw [stepsOf_snoc_self, noSteps]
        omega
      · exact fun check member => absurd member List.not_mem_nil

/-- A check passes, and the transaction turns to the next one, or ends it. -/
theorem check (stable : p.Stable valid view) (start_valid : valid s)
    (inv : RunInvariant p valid view s schedule c) {i : ι} {reading stamp : τ} {first : σ -> ε}
    {pending : List (σ -> ε)} (phase : c.phase i = .checking stamp (first :: pending)) :
    RunInvariant p valid view s (schedule ++ [.step i reading])
      (if p.passed (first c.state) then
        { c with phase := setPhase c.phase i (.checking stamp pending) }
      else { c with phase := setPhase c.phase i (.finished (first c.state)) }) := by
  have known := inv.phases i
  rw [phase] at known
  rcases known with ⟨taken, steps, unlogged, noRefusal, done, split, passed⟩
  have member : first ∈ (p.transaction i).checks := by
    rw [split]
    exact List.mem_append_right done List.mem_cons_self
  -- The check reads the state of this moment, and finds what it would at the start.
  have steady := stable.steady i first member c.state s inv.isValid start_valid
  rw [steady]
  cases outcome : p.passed (first s) with
  | true =>
      rw [if_pos rfl]
      refine inv.rephase ⟨readingOf_snoc_some taken _, ?_, unlogged, noRefusal,
        done ++ [first], ?_, ?_⟩
      · rw [List.length_cons] at steps
        rw [stepsOf_snoc_self]
        omega
      · rw [split, List.append_assoc, List.singleton_append]
      · intro other inDone
        rcases List.mem_append.mp inDone with old | new
        · exact passed other old
        · rw [List.mem_singleton.mp new]
          exact outcome
  | false =>
      rw [if_neg Bool.false_ne_true]
      refine inv.rephase ⟨?_, fun logged => absurd logged unlogged, fun pass => ?_⟩
      · rw [aloneStatus, noRefusal, split]
        simp only
        rw [p.verdict_of_passed s done _ passed, verdict, outcome, if_neg Bool.false_ne_true]
      · exact absurd (outcome.symm.trans pass) Bool.false_ne_true

/-- One step of a transaction keeps the invariant, whatever phase it is in. -/
theorem advance (stable : p.Stable valid view) (start_valid : valid s)
    (inv : RunInvariant p valid view s schedule c) (i : ι) (reading : τ) :
    RunInvariant p valid view s (schedule ++ [.step i reading]) (p.advance c i reading) := by
  rw [Protocol.advance]
  cases phase : c.phase i with
  | waiting => exact inv.enter phase
  | checking stamp pending =>
      cases pending with
      | nil => exact inv.commit stable start_valid phase
      | cons first pending => exact inv.check stable start_valid phase
  | finished status =>
      have known := inv.phases i
      rw [phase] at known
      have same : c = { c with phase := setPhase c.phase i (.finished status) } := by
        rw [← phase, setPhase_self]
      simp only
      rw [same]
      exact inv.rephase known

theorem run (stable : p.Stable valid view) (start_valid : valid s) (schedule : List (Move ι τ α)) :
    RunInvariant p valid view s schedule (p.run (start s) schedule) := by
  induction schedule using List.reverseRecOn with
  | nil => exact initial start_valid
  | append_singleton schedule m inductionHypothesis =>
      rw [Protocol.run, List.foldl_append]
      cases m with
      | step i reading => exact inductionHypothesis.advance stable start_valid i reading
      | background action => exact inductionHypothesis.background stable action

end RunInvariant

/-! ## Serializability -/

theorem log_prefix_move (c : Shared σ ι τ ε) (m : Move ι τ α) : c.log <+: (p.move c m).log := by
  cases m with
  | background action => exact List.prefix_refl _
  | step i reading =>
      rw [move, advance]
      cases c.phase i with
      | waiting => cases (p.transaction i).refusal <;> exact List.prefix_refl _
      | finished status => exact List.prefix_refl _
      | checking stamp pending =>
          cases pending with
          | nil => exact List.prefix_append _ _
          | cons check pending =>
              simp only
              split <;> exact List.prefix_refl _

theorem log_prefix_run (c : Shared σ ι τ ε) (schedule : List (Move ι τ α)) :
    c.log <+: (p.run c schedule).log := by
  induction schedule generalizing c with
  | nil => exact List.prefix_refl _
  | cons m schedule inductionHypothesis =>
      exact (log_prefix_move c m).trans (inductionHypothesis (p.move c m))

section Results

variable {β : Type} {valid : σ -> Prop} {view : σ -> β} (stable : p.Stable valid view) {s : σ}
  (start_valid : valid s) (schedule : List (Move ι τ α))

include stable start_valid

/-- A finished transaction has the status it would have alone. -/
theorem Stable.status_alone {i : ι} {status : ε}
    (finished : (p.run (start s) schedule).phase i = .finished status) : status = p.aloneStatus i s := by
  have known := (RunInvariant.run stable start_valid schedule).phases i
  rw [finished] at known
  exact known.1

/-- A transaction that got a step for its clock, each check and its commit is finished. -/
theorem Stable.finishes {i : ι} (enough : (p.transaction i).checks.length + 2 ≤ stepsOf schedule i) :
    ∃ status, (p.run (start s) schedule).phase i = .finished status := by
  have known := (RunInvariant.run stable start_valid schedule).phases i
  cases phase : (p.run (start s) schedule).phase i with
  | waiting =>
      rw [phase] at known
      have none_ := known.2.1
      omega
  | checking stamp pending =>
      rw [phase] at known
      have count := known.2.1
      omega
  | finished status => exact ⟨status, rfl⟩

/-- The log holds exactly the transactions that succeeded. -/
theorem Stable.logged_iff (i : ι) :
    i ∈ (p.run (start s) schedule).log.map Prod.fst ↔
      ∃ status, (p.run (start s) schedule).phase i = .finished status ∧ p.passed status = true := by
  have known := (RunInvariant.run stable start_valid schedule).phases i
  cases phase : (p.run (start s) schedule).phase i with
  | waiting =>
      rw [phase] at known
      exact ⟨fun logged => absurd logged known.2.2, fun ⟨_, impossible, _⟩ => by cases impossible⟩
  | checking stamp pending =>
      rw [phase] at known
      exact ⟨fun logged => absurd logged known.2.2.1, fun ⟨_, impossible, _⟩ => by cases impossible⟩
  | finished status =>
      rw [phase] at known
      constructor
      · exact fun logged => ⟨status, rfl, known.2.mp logged⟩
      · rintro ⟨other, same, passed⟩
        cases same
        exact known.2.mpr passed

/-- At every moment the observed part of the state is what the log so far gives. -/
theorem Stable.view_serial :
    view (p.run (start s) schedule).state = view (p.serial s (p.run (start s) schedule).log) :=
  (RunInvariant.run stable start_valid schedule).sameView

end Results

end Protocol

end Foundations
end PscMockServer
