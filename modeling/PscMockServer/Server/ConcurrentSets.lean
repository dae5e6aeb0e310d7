import PscMockServer.Foundations.CheckThenCommit
import PscMockServer.Server.SetTransaction

namespace PscMockServer
namespace Server

open Foundations Gnmi Utils Backend

/-!
# Concurrent Sets

Any number of Set RPCs in flight.  Each one reads the clock, asks `writable` once per
operation and commits its batch, with no lock over the three phases; the simulator
ticks in between.  The answer of `writable` depends on the schema only, so this is a
check-then-commit system whose checks cannot see the other requests.
-/

/-- A Set RPC as the steps of `Set::run`. -/
def setTransaction (request : SetRequest) : Transaction World Int Status where
  refusal :=
    if 0 < request.extensionSize then
      some ⟨.unimplemented, "Extensions not implemented".toList⟩
    else none
  checks := (Gnmi.Set.checks registry request).map (fun check w => check w.stores)
  write := fun now w =>
    { w with stores := (registry.commit w.stores (Gnmi.Set.buildBatch request now)).1 }

/-- A tick of the simulator thread. -/
structure Tick where
  now : Int
  draws : Nat -> PscPowerSensorProvider.Draw

/-- The system of some Set requests and the simulator. -/
def setProtocol {n : Nat} (requests : Fin n -> SetRequest) :
    Protocol World (Fin n) Int Status Tick where
  transaction := fun i => setTransaction (requests i)
  background := fun tick w => w.act (.tick tick.now tick.draws)
  success := Status.OK
  passed := Status.isOk
  success_passed := rfl
  refusal_failed := by
    intro i status refused
    simp only [setTransaction] at refused
    split at refused
    · cases refused
      rfl
    · cases refused

/-- Requests run one after another, each with the time of its log entry. -/
def serialSets {n : Nat} (requests : Fin n -> SetRequest) (stores : Stores) (log : List (Fin n × Int)) :
    Stores :=
  log.foldl (fun stores entry => (Gnmi.Set.run registry stores entry.2 (requests entry.1)).1) stores

theorem verdict_eq_firstError {n : Nat} {requests : Fin n -> SetRequest} (w : World)
    (checks : List (Stores -> Status)) :
    (setProtocol requests).verdict w (checks.map (fun check w => check w.stores)) =
      firstError (checks.map (fun check => check w.stores)) := by
  induction checks with
  | nil => rfl
  | cons check checks inductionHypothesis =>
      rw [List.map_cons, Protocol.verdict, inductionHypothesis, List.map_cons, firstError_cons]
      rfl

variable {n : Nat} {requests : Fin n -> SetRequest}

/-- Alone, a transaction of the protocol is `Set::run`. -/
theorem alone_eq_run (i : Fin n) (now : Int) (w : World) :
    (setProtocol requests).aloneStatus i w =
        (Gnmi.Set.run registry w.stores now (requests i)).2.1 ∧
      (setProtocol requests).aloneState i now w =
        { w with stores := (Gnmi.Set.run registry w.stores now (requests i)).1 } := by
  have status : (setProtocol requests).aloneStatus i w =
      (Gnmi.Set.run registry w.stores now (requests i)).2.1 := by
    rw [Protocol.aloneStatus, Gnmi.Set.run]
    simp only [setProtocol, setTransaction]
    by_cases extended : 0 < (requests i).extensionSize
    · rw [if_pos extended, if_pos extended]
    · rw [if_neg extended, if_neg extended]
      refine (verdict_eq_firstError w _).trans ?_
      cases passed : (firstError
          ((Gnmi.Set.checks registry (requests i)).map (fun check => check w.stores))).isOk with
      | false => simp
      | true => simp [firstError_eq_OK passed]
  refine ⟨status, ?_⟩
  rw [Protocol.aloneState, status, Gnmi.Set.run]
  simp only [setProtocol, setTransaction]
  by_cases extended : 0 < (requests i).extensionSize
  · simp [extended, Status.isOk]
  · rw [if_neg extended]
    cases passed : (firstError
        ((Gnmi.Set.checks registry (requests i)).map (fun check => check w.stores))).isOk with
    | false => simp [passed]
    | true => simp [Status.isOk, Status.OK]

/-- Succeeding alone means being accepted. -/
theorem acceptable_of_passed {i : Fin n} {w : World} (good : w.Good)
    (passed : ((setProtocol requests).aloneStatus i w).isOk = true) : Acceptable (requests i) := by
  rw [(alone_eq_run i 0 w).1] at passed
  rcases set_cases good.1 (requests i) 0 with ⟨failed, _⟩ | ⟨_, acceptable, _⟩
  · exact absurd (failed.symm.trans passed) Bool.false_ne_true
  · exact acceptable

theorem write_acceptable {i : Fin n} (acceptable : Acceptable (requests i)) (now : Int) (w : World) :
    ((setProtocol requests).transaction i).write now w =
      { w with stores := { w.stores with
          config := w.stores.config.commitStamped (Gnmi.Set.buildBatch (requests i) now) } } := by
  simp only [setProtocol, setTransaction]
  rw [registry_commit_config w.stores _ (acceptable.ops_listed now)]

/-- No check of a Set sees another Set, and no tick touches the configuration. -/
theorem sets_stable (requests : Fin n -> SetRequest) :
    (setProtocol requests).Stable World.Good (fun w => w.stores.config) where
  steady := by
    intro i check member s s' good good'
    rcases List.mem_map.mp member with ⟨check, listed, rfl⟩
    exact good.1.checks_steady good'.1 listed
  write_valid := by
    intro i now w good passed
    have acceptable := acceptable_of_passed good passed
    have kept := good.1.set (requests i) now
    rcases set_cases good.1 (requests i) now with ⟨_, _, refused⟩ | ⟨_, _, done⟩
    · rw [(alone_eq_run i now w).1] at passed
      rcases set_cases good.1 (requests i) now with ⟨failed, _⟩ | ⟨noExtension, _⟩
      · exact absurd (failed.symm.trans passed) Bool.false_ne_true
      · exact absurd acceptable (refused noExtension)
    · rw [done] at kept
      rw [write_acceptable acceptable]
      exact ⟨kept, good.2⟩
  background_valid := fun tick _ good => good.act (.tick tick.now tick.draws)
  write_view := by
    intro i now w w' good _ passed same
    have acceptable := acceptable_of_passed good passed
    rw [write_acceptable acceptable, write_acceptable acceptable]
    exact congrArg (fun config =>
      StoreBackedProvider.commitStamped config (Gnmi.Set.buildBatch (requests i) now)) same
  background_view := fun _ _ => rfl

theorem serial_eq_serialSets (w : World) (log : List (Fin n × Int)) :
    (setProtocol requests).serial w log = { w with stores := serialSets requests w.stores log } := by
  induction log generalizing w with
  | nil => rfl
  | cons entry log inductionHypothesis =>
      rw [Protocol.serial, List.foldl_cons, (alone_eq_run entry.1 entry.2 w).2]
      exact inductionHypothesis _

/-- Concurrent Sets are serializable in the order of their commits.  Each finished
request has the status it has alone in any reachable state; each request that gets
its steps finishes; the log lists the accepted requests once each with the time they
read; and at every moment the configuration store is the one the commits so far give
when run one after another. -/
theorem concurrent_sets_serializable (sensorNow configNow : Int) (before : List Action)
    (requests : Fin n -> SetRequest) (schedule : List (Move (Fin n) Int Tick)) :
    let w := (initialWorld sensorNow configNow).run before
    let final := (setProtocol requests).run (Protocol.start w) schedule
    (∀ i status, final.phase i = .finished status -> ∀ stores now, Reachable stores ->
        status = (Gnmi.Set.run registry stores now (requests i)).2.1) ∧
      (∀ i, (Gnmi.Set.checks registry (requests i)).length + 2 ≤ Protocol.stepsOf schedule i ->
        ∃ status, final.phase i = .finished status) ∧
      (final.log.map Prod.fst).Nodup ∧
      (∀ i, i ∈ final.log.map Prod.fst ↔
        ∃ status, final.phase i = .finished status ∧ status.isOk = true) ∧
      (∀ entry ∈ final.log, Protocol.readingOf schedule entry.1 = some entry.2) ∧
      final.state.stores.config = (serialSets requests w.stores final.log).config ∧
      ∀ front back, schedule = front ++ back ->
        ((setProtocol requests).run (Protocol.start w) front).log <+: final.log ∧
          ((setProtocol requests).run (Protocol.start w) front).state.stores.config =
            (serialSets requests w.stores
              ((setProtocol requests).run (Protocol.start w) front).log).config := by
  intro w final
  have good : w.Good := (initialWorld_good sensorNow configNow).run before
  have stable := sets_stable requests
  have serial : ∀ moves, ((setProtocol requests).run (Protocol.start w) moves).state.stores.config =
      (serialSets requests w.stores
        ((setProtocol requests).run (Protocol.start w) moves).log).config := by
    intro moves
    have view := stable.view_serial good moves
    rw [serial_eq_serialSets] at view
    exact view
  have inv := Protocol.RunInvariant.run stable good schedule
  refine ⟨?_, ?_, inv.once, stable.logged_iff good schedule, inv.readings, serial schedule, ?_⟩
  · intro i status finished stores now reachable
    have alone := stable.status_alone good schedule finished
    have other : World.Good ⟨stores, PscPowerSensorProvider.buildWalks⟩ := ⟨reachable.invariant, rfl⟩
    rw [alone, stable.aloneStatus_eq i good other]
    exact (alone_eq_run i now _).1
  · intro i enough
    refine stable.finishes good schedule ?_
    simp only [setProtocol, setTransaction, List.length_map]
    exact enough
  · intro front back split
    refine ⟨?_, serial front⟩
    have whole : final = (setProtocol requests).run
        ((setProtocol requests).run (Protocol.start w) front) back := by
      change (setProtocol requests).run (Protocol.start w) schedule = _
      rw [split, Protocol.run, List.foldl_append]
      rfl
    rw [whole]
    exact Protocol.log_prefix_run _ back

end Server
end PscMockServer
