import PscMockServer.Server.LastWrites

namespace PscMockServer
namespace Server

open Foundations Gnmi Utils Backend

/-!
# Independent Sets

Set RPCs in flight at once that are about different leaves.  Serializability leaves open
in which order they take effect; for independent requests that order decides nothing,
so every schedule ends in one and the same configuration.
-/

variable {n : Nat}

/-- No two of the requests address the same leaf. -/
def Independent (requests : Fin n -> SetRequest) : Prop :=
  ∀ i j, i ≠ j -> ∀ key, Addresses (requests i) key -> ¬ Addresses (requests j) key

/-- The requests of a log as the actions of a run. -/
def logActions (requests : Fin n -> SetRequest) (log : List (Fin n × Int)) : List Action :=
  log.map (fun entry => .set (requests entry.1) entry.2)

theorem serialSets_eq_run (requests : Fin n -> SetRequest) (w : World) (log : List (Fin n × Int)) :
    serialSets requests w.stores log = (w.run (logActions requests log)).stores := by
  induction log generalizing w with
  | nil => rfl
  | cons entry log inductionHypothesis =>
      exact inductionHypothesis (w.act (.set (requests entry.1) entry.2))

/-- The accepted Sets of a log come from its entries. -/
theorem mem_acceptedSets_logActions {requests : Fin n -> SetRequest} {log : List (Fin n × Int)}
    {set : SetRequest × Int} (member : set ∈ acceptedSets (logActions requests log)) :
    ∃ i, (i, set.2) ∈ log ∧ set.1 = requests i := by
  rcases List.mem_filterMap.mp member with ⟨action, listed, isSet⟩
  rcases List.mem_map.mp listed with ⟨entry, logged, rfl⟩
  rw [acceptedSet] at isSet
  split at isSet
  · cases isSet
    exact ⟨entry.1, logged, rfl⟩
  · cases isSet

section Schedules

variable {requests : Fin n -> SetRequest} (independent : Independent requests) {w : World} (good : w.Good)
  {schedule : List (Move (Fin n) Int Tick)}

include good

/-- A request in the log is an accepted one, logged with the time it read. -/
theorem accepted_of_logged {i : Fin n} {now : Int}
    (logged : (i, now) ∈ ((setProtocol requests).run (Protocol.start w) schedule).log) :
    ((requests i).extensionSize = 0 ∧ Acceptable (requests i)) ∧
      Protocol.readingOf schedule i = some now := by
  have stable := sets_stable requests
  obtain ⟨status, finished, passed⟩ :=
    (stable.logged_iff good schedule i).mp (List.mem_map_of_mem logged)
  have alone := stable.status_alone good schedule finished
  refine ⟨?_, (Protocol.RunInvariant.run stable good schedule).readings _ logged⟩
  rw [alone, (alone_eq_run i now w).1] at passed
  rcases set_cases good.1 (requests i) now with ⟨failed, _⟩ | ⟨plain, acceptable, _⟩
  · exact absurd (failed.symm.trans passed) Bool.false_ne_true
  · exact ⟨plain, acceptable⟩

/-- A finished request that is acceptable is in the log. -/
theorem logged_of_accepted {i : Fin n} {status : Status}
    (finished : ((setProtocol requests).run (Protocol.start w) schedule).phase i = .finished status)
    (plain : (requests i).extensionSize = 0) (acceptable : Acceptable (requests i)) :
    ∃ now, (i, now) ∈ ((setProtocol requests).run (Protocol.start w) schedule).log := by
  have stable := sets_stable requests
  have passed : status.isOk = true := by
    rw [stable.status_alone good schedule finished, (alone_eq_run i 0 w).1]
    rcases set_cases good.1 (requests i) 0 with ⟨_, _, refused⟩ | ⟨_, _, done⟩
    · exact absurd acceptable (refused plain)
    · rw [done]
      rfl
  obtain ⟨entry, logged, rfl⟩ :=
    List.mem_map.mp ((stable.logged_iff good schedule i).mpr ⟨status, finished, passed⟩)
  exact ⟨entry.2, logged⟩

theorem run_leaves :
    ((setProtocol requests).run (Protocol.start w) schedule).state.stores.config.store.leaves =
      leavesAfter w.stores.config.store.leaves (acceptedSets (logActions requests
        ((setProtocol requests).run (Protocol.start w) schedule).log)) := by
  have view := (sets_stable requests).view_serial good schedule
  rw [serial_eq_serialSets] at view
  rw [view]
  dsimp only
  rw [serialSets_eq_run, good.run_config]

include independent

/-- A leaf that an accepted request addresses holds what this request wrote. -/
theorem run_leaf_of_logged {i : Fin n} {now : Int}
    (logged : (i, now) ∈ ((setProtocol requests).run (Protocol.start w) schedule).log) {key : Str}
    (addressed : Addresses (requests i) key) :
    (((setProtocol requests).run (Protocol.start w) schedule).state.stores.config.store.leaves)[key]? =
      written (requests i) now key := by
  have accepted := (accepted_of_logged good logged).1
  have once := (Protocol.RunInvariant.run (sets_stable requests) good schedule).once
  rw [run_leaves good]
  rcases List.append_of_mem logged with ⟨front, back, split⟩
  rw [split, List.map_append, List.map_cons] at once
  have whole : acceptedSets (logActions requests (front ++ (i, now) :: back)) =
      acceptedSets (logActions requests front) ++ (requests i, now) ::
        acceptedSets (logActions requests back) := by
    rw [logActions, List.map_append, acceptedSets_append, List.map_cons, acceptedSets, acceptedSets,
      List.filterMap_cons, acceptedSet, if_pos accepted]
    rfl
  rw [split, whole]
  apply leavesAfter_find addressed
  intro set member other
  rcases mem_acceptedSets_logActions member with ⟨j, inBack, isRequest⟩
  have different : i ≠ j := by
    rintro rfl
    have apart := (List.nodup_append.mp once).2.1
    exact (List.nodup_cons.mp apart).1 (List.mem_map.mpr ⟨_, inBack, rfl⟩)
  rw [isRequest] at other
  exact independent i j different key addressed other

/-- In two schedules that finish every request a leaf ends up with one value, and with one
time when the requests read the same times. -/
theorem schedules_agree {other : List (Move (Fin n) Int Tick)}
    (finished : ∀ i, ∃ status,
      ((setProtocol requests).run (Protocol.start w) schedule).phase i = .finished status)
    (otherFinished : ∀ i, ∃ status,
      ((setProtocol requests).run (Protocol.start w) other).phase i = .finished status) (key : Str) :
    let first := (((setProtocol requests).run (Protocol.start w) schedule).state.stores.config.store.leaves)[key]?
    let second := (((setProtocol requests).run (Protocol.start w) other).state.stores.config.store.leaves)[key]?
    first.map Leaf.val = second.map Leaf.val ∧
      ((∀ i, Protocol.readingOf schedule i = Protocol.readingOf other i) -> first = second) := by
  intro first second
  by_cases touched : ∃ i, ((requests i).extensionSize = 0 ∧ Acceptable (requests i)) ∧
      Addresses (requests i) key
  · rcases touched with ⟨i, accepted, addressed⟩
    rcases finished i with ⟨status, done⟩
    rcases otherFinished i with ⟨otherStatus, otherDone⟩
    rcases logged_of_accepted good done accepted.1 accepted.2 with ⟨now, logged⟩
    rcases logged_of_accepted good otherDone accepted.1 accepted.2 with ⟨later, otherLogged⟩
    have isFirst : first = written (requests i) now key := run_leaf_of_logged independent good logged addressed
    have isSecond : second = written (requests i) later key :=
      run_leaf_of_logged independent good otherLogged addressed
    rw [isFirst, isSecond]
    refine ⟨written_value (requests i) now later key, fun readings => ?_⟩
    have read := (accepted_of_logged good logged).2
    rw [readings i, (accepted_of_logged good otherLogged).2] at read
    rw [Option.some.inj read]
  · have kept : ∀ moves,
        (((setProtocol requests).run (Protocol.start w) moves).state.stores.config.store.leaves)[key]? =
        w.stores.config.store.leaves[key]? := by
      intro moves
      rw [run_leaves good]
      apply leavesAfter_untouched
      intro set member addressed
      rcases mem_acceptedSets_logActions member with ⟨i, logged, isRequest⟩
      exact touched ⟨i, (accepted_of_logged good logged).1, isRequest ▸ addressed⟩
    have same : first = second := (kept schedule).trans (kept other).symm
    exact ⟨congrArg (Option.map Leaf.val) same, fun _ => same⟩

end Schedules

/-- Independent Sets commute.  Any number of requests, no two about the same leaf, started
together in any reachable state and interleaved with each other and with ticks in any two
ways, leave the same configuration values and answer with the same statuses; when the
requests read the same times, they leave the same configuration store. -/
theorem independent_sets_commute (sensorNow configNow : Int) (before : List Action)
    (requests : Fin n -> SetRequest) (independent : Independent requests)
    (schedule other : List (Move (Fin n) Int Tick)) :
    let w := (initialWorld sensorNow configNow).run before
    let final := (setProtocol requests).run (Protocol.start w) schedule
    let otherFinal := (setProtocol requests).run (Protocol.start w) other
    (∀ i status otherStatus, final.phase i = .finished status ->
        otherFinal.phase i = .finished otherStatus -> status = otherStatus) ∧
      ((∀ i, ∃ status, final.phase i = .finished status) ->
        (∀ i, ∃ status, otherFinal.phase i = .finished status) ->
        (∀ key, LeafStore.valueAt final.state.stores.config.store.leaves key =
          LeafStore.valueAt otherFinal.state.stores.config.store.leaves key) ∧
        ((∀ i, Protocol.readingOf schedule i = Protocol.readingOf other i) ->
          final.state.stores.config = otherFinal.state.stores.config)) := by
  intro w final otherFinal
  have good : w.Good := (initialWorld_good sensorNow configNow).run before
  have stable := sets_stable requests
  refine ⟨fun i status otherStatus finished otherFinished => ?_, fun finished otherFinished => ?_⟩
  · rw [stable.status_alone good schedule finished, stable.status_alone good other otherFinished]
  · have agree := schedules_agree independent good finished otherFinished
    refine ⟨fun key => (agree key).1, fun readings => ?_⟩
    have inv := (Protocol.RunInvariant.run stable good schedule).isValid.1
    have otherInv := (Protocol.RunInvariant.run stable good other).isValid.1
    have leaves : final.state.stores.config.store.leaves = otherFinal.state.stores.config.store.leaves :=
      Std.ExtTreeMap.ext_getElem? (fun key => (agree key).2 readings)
    have schema : final.state.stores.config.schema = otherFinal.state.stores.config.schema :=
      inv.configSchema.trans otherInv.configSchema.symm
    calc final.state.stores.config
        = ⟨⟨final.state.stores.config.store.leaves⟩, final.state.stores.config.schema⟩ := rfl
      _ = ⟨⟨otherFinal.state.stores.config.store.leaves⟩, otherFinal.state.stores.config.schema⟩ := by
          rw [leaves, schema]
      _ = otherFinal.state.stores.config := rfl

/-- A Set of the time zone. -/
def rezone : SetRequest where
  replace := [{
    path := some { elem := [⟨"system".toList, .empty⟩, ⟨"clock".toList, .empty⟩, ⟨"config".toList, .empty⟩,
      ⟨"timezone-name".toList, .empty⟩] }
    val := some (.stringVal "Asia/Tokyo".toList) }]

/-- A Set of the host name beside a Set of the time zone. -/
def hostAndZone (i : Fin 2) : SetRequest :=
  if i = 0 then renameTwice else rezone

/-- The host name takes its steps, then the time zone. -/
def hostFirst : List (Move (Fin 2) Int Tick) :=
  List.replicate 5 (.step 0 7) ++ List.replicate 3 (.step 1 8)

/-- The other order. -/
def zoneFirst : List (Move (Fin 2) Int Tick) :=
  List.replicate 3 (.step 1 8) ++ List.replicate 5 (.step 0 7)

theorem independent_hostAndZone : Independent hostAndZone := by
  have host : ∀ xpath ∈ Gnmi.Set.targets renameTwice,
      stripPathQuotes xpath = "/system/config/hostname".toList := by
    decide +kernel
  have zone : ∀ xpath ∈ Gnmi.Set.targets rezone,
      stripPathQuotes xpath = "/system/clock/config/timezone-name".toList := by
    decide +kernel
  have apart : ∀ key, Addresses renameTwice key -> ¬ Addresses rezone key := by
    rintro key ⟨xpath, listed, rfl⟩ ⟨other, otherListed, same⟩
    rw [host xpath listed, zone other otherListed] at same
    exact absurd same (by decide)
  intro i j different key first second
  by_cases isHost : i = 0
  · by_cases isHost' : j = 0
    · exact different (isHost.trans isHost'.symm)
    · rw [hostAndZone, if_pos isHost] at first
      rw [hostAndZone, if_neg isHost'] at second
      exact apart key first second
  · by_cases isHost' : j = 0
    · rw [hostAndZone, if_neg isHost] at first
      rw [hostAndZone, if_pos isHost'] at second
      exact apart key second first
    · exact different (by omega)

/-- Either order finishes both. -/
theorem finishes_hostAndZone {w : World} (good : w.Good) {schedule : List (Move (Fin 2) Int Tick)}
    (enough : ∀ i : Fin 2, (if i = 0 then 5 else 3) ≤ Protocol.stepsOf schedule i) (i : Fin 2) :
    ∃ status, ((setProtocol hostAndZone).run (Protocol.start w) schedule).phase i = .finished status := by
  have hostChecks : (Gnmi.Set.checks registry renameTwice).length = 3 := rfl
  have zoneChecks : (Gnmi.Set.checks registry rezone).length = 1 := rfl
  have counted : ((setTransaction (hostAndZone i)).checks).length =
      (Gnmi.Set.checks registry (hostAndZone i)).length := List.length_map _
  apply (sets_stable hostAndZone).finishes good schedule
  refine Nat.le_trans (Nat.le_of_eq ?_) (enough i)
  change (setTransaction (hostAndZone i)).checks.length + 2 = _
  rw [counted, hostAndZone]
  split
  · rw [hostChecks]
  · rw [zoneChecks]

/-- The two, one after the other, in either order. -/
theorem independent_sets_commute_hostAndZone :
    ((setProtocol hostAndZone).run (Protocol.start ((initialWorld 1 2).run [])) hostFirst).state.stores.config =
      ((setProtocol hostAndZone).run (Protocol.start ((initialWorld 1 2).run []))
        zoneFirst).state.stores.config := by
  have good := (initialWorld_good 1 2).run []
  exact ((independent_sets_commute 1 2 [] hostAndZone independent_hostAndZone hostFirst zoneFirst).2
    (finishes_hostAndZone good (by decide)) (finishes_hostAndZone good (by decide))).2 (by decide)

end Server
end PscMockServer
