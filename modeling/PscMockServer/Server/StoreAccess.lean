import PscMockServer.Backend.StoreLocks
import PscMockServer.Foundations.ManyLocks
import PscMockServer.Server.LastWrites
import PscMockServer.Telemetry.TornRecords

namespace PscMockServer
namespace Server

open Foundations Foundations.SharedLock Gnmi Utils Backend
open Backend.PscPowerSensorProvider (Walk tickBatch)

/-!
# What the threads of the server find

The handlers and the simulator reach the two stores through three calls: a Set that has
passed its checks commits its batch, a tick commits its values, and a Get or Subscribe
takes a snapshot.  Each store has its own mutex.  That the rest of this development takes
these calls for single events, and their states for a sequence, is what is shown here.
-/

/-- The two stores. -/
inductive Domain where
  | sensors
  | configuration
deriving DecidableEq

def Domain.store (s : Stores) : Domain -> LeafStore
  | .sensors => s.sensor.store
  | .configuration => s.config.store

/-- A call of a thread. -/
inductive Access where
  | set (request : SetRequest) (now : Int)
  | tick (now : Int) (walks : List Walk)
  | look (query : Str)

namespace Access

/-- A Set commits only after its checks, and a path that no provider owns is refused
before any snapshot. -/
def Allowed : Access -> Prop
  | .set request _ => Acceptable request
  | .tick _ _ => True
  | .look query => registry.owns query = true

/-- The store the registry, or the simulator, goes to. -/
def domain : Access -> Domain
  | .set _ _ => .configuration
  | .tick _ _ => .sensors
  | .look query =>
      if DataProviderRegistry.matchesPrefix query sensorPrefix then .sensors else .configuration

/-- The call of that store.  The ops of a batch are stamped before the store is locked. -/
def call (s : Stores) : Access -> Call
  | .set request now => .commit ⟨(Gnmi.Set.buildBatch request now).ops.map s.config.stampOp⟩
  | .tick now walks => .commit ⟨(tickBatch now walks).ops.map s.sensor.stampOp⟩
  | .look query => .snapshot query

/-- The access as a single event. -/
def act : Access -> Stores -> Stores
  | .set request now, s => (registry.commit s (Gnmi.Set.buildBatch request now)).1
  | .tick now walks, s => { s with sensor := s.sensor.commitStamped (tickBatch now walks) }
  | .look _, s => s

/-- In the system of concurrent Sets this is what a request writes. -/
theorem act_set (request : SetRequest) (now : Int) (w : World) :
    (setTransaction request).write now w = { w with stores := (set request now).act w.stores } := rfl

/-- And in a run this is what a tick writes. -/
theorem act_tick (now : Int) (draws : Nat -> PscPowerSensorProvider.Draw) (w : World) :
    (w.act (.tick now draws)).stores =
      (tick now (PscPowerSensorProvider.stepWalks draws w.walks)).act w.stores := rfl

/-- The accesses of a run that change the stores: its accepted Sets and its ticks. -/
def ofRun : List Walk -> List Action -> List Access
  | _, [] => []
  | walks, .set request now :: rest =>
      (if request.extensionSize = 0 ∧ Acceptable request then [set request now] else []) ++ ofRun walks rest
  | walks, .tick now draws :: rest =>
      let moved := PscPowerSensorProvider.stepWalks draws walks
      tick now moved :: ofRun moved rest

/-- Every run is a sequence of accesses. -/
theorem run_ofRun {w : World} (good : w.Good) (actions : List Action) :
    (∀ access ∈ ofRun w.walks actions, access.Allowed) ∧
      (w.run actions).stores = (ofRun w.walks actions).foldl (fun s access => access.act s) w.stores := by
  induction actions generalizing w with
  | nil => exact ⟨fun access none_ => absurd none_ List.not_mem_nil, rfl⟩
  | cons action rest inductionHypothesis =>
      have further := inductionHypothesis (good.act action)
      rw [World.run, List.foldl_cons]
      cases action with
      | tick now draws =>
          refine ⟨List.forall_mem_cons.mpr ⟨trivial, further.1⟩, further.2.trans ?_⟩
          rw [ofRun, List.foldl_cons, act_tick]
          rfl
      | set request now =>
          rcases set_cases good.1 request now with ⟨_, unchanged, refused⟩ | ⟨plain, acceptable, done⟩
          · have same : w.act (.set request now) = w := by rw [World.act, unchanged]
            rw [ofRun, if_neg (fun both => refused both.1 both.2), List.nil_append]
            rw [same] at further ⊢
            exact further
          · have committed : (w.act (.set request now)).stores = (set request now).act w.stores := by
              rw [World.act, done, act,
                registry_commit_config w.stores _ (Acceptable.ops_listed acceptable now)]
            rw [ofRun, if_pos ⟨plain, acceptable⟩, List.singleton_append, List.foldl_cons, ← committed]
            exact ⟨List.forall_mem_cons.mpr ⟨acceptable, further.1⟩, further.2⟩

/-! ## One access on one store -/

/-- The answer of a query depends on the store it goes to only. -/
theorem look_snapshot (s : Stores) {query : Str} (owned : registry.owns query = true) :
    (registry.snapshot s query).snap = ((look query).domain.store s).snapshot query := by
  rw [registry_owns] at owned
  apply Std.ExtTreeMap.ext_getElem?
  intro key
  rw [DataProviderRegistry.snapshot_find, registry_routes, domain]
  simp only [List.findSome?_cons, List.findSome?_nil, PscPowerSensorProvider.provider,
    SystemConfigProvider.provider, storeBackedProvider]
  cases toSensor : DataProviderRegistry.matchesPrefix query sensorPrefix with
  | true =>
      rw [routes_exclusive toSensor, if_pos rfl, if_pos rfl, Domain.store]
      cases (s.sensor.store.snapshot query)[key]? <;> rfl
  | false =>
      rw [toSensor, Bool.false_or] at owned
      rw [owned, if_neg Bool.false_ne_true, if_neg Bool.false_ne_true, if_pos rfl, Domain.store]
      cases (s.config.store.snapshot query)[key]? <;> rfl

/-- The stores have the schemas of these. -/
structure SameSchemas (s t : Stores) : Prop where
  sensor : t.sensor.schema = s.sensor.schema
  config : t.config.schema = s.config.schema

theorem stampOp_eq {provider other : StoreBackedProvider} (same : other.schema = provider.schema) :
    other.stampOp = provider.stampOp := by
  funext op
  rw [StoreBackedProvider.stampOp, StoreBackedProvider.stampOp, StoreBackedProvider.schemaType,
    StoreBackedProvider.schemaType, same]

theorem act_sameSchemas {s t : Stores} (same : SameSchemas s t) {access : Access} (allowed : access.Allowed) :
    SameSchemas s (access.act t) := by
  cases access with
  | set request now =>
      rw [act, registry_commit_config t _ (Acceptable.ops_listed allowed now)]
      exact ⟨same.sensor, same.config⟩
  | tick now walks => exact ⟨same.sensor, same.config⟩
  | look query => exact same

/-- What an access does to the leaves is what its call does to those of its store. -/
theorem act_leaves {s t : Stores} (same : SameSchemas s t) {access : Access} (allowed : access.Allowed) :
    (fun d : Domain => (d.store (access.act t)).leaves) =
      Function.update (fun d : Domain => (d.store t).leaves) access.domain
        ((access.call s).code.effect (access.domain.store t).leaves) := by
  rw [Call.effect_code]
  funext d
  cases access with
  | set request now =>
      rw [act, registry_commit_config t _ (Acceptable.ops_listed allowed now), call,
        ← stampOp_eq same.config]
      cases d with
      | sensors => rfl
      | configuration => rfl
  | tick now walks =>
      rw [call, ← stampOp_eq same.sensor]
      cases d with
      | sensors => rfl
      | configuration => rfl
  | look query =>
      rw [Function.update_apply]
      split
      · next isDomain => rw [isDomain]; rfl
      · rfl

end Access

/-! ## The accesses of many threads -/

section Threads

variable {ι : Type} [DecidableEq ι] (accesses : ι -> Access)

/-- The stores after accesses that are done at once, one after the other. -/
def statesAfter (s : Stores) (order : List ι) : Stores :=
  order.foldl (fun s i => (accesses i).act s) s

/-- Where the accesses are once the threads have done what the scheduler let them. -/
def contended (s : Stores) (schedule : List ι) : Objects Domain Snapshot Locals ι :=
  Objects.run (fun i => ((accesses i).call s).code) (fun i => (accesses i).domain)
    (Objects.start (fun d => (d.store s).leaves)) schedule

/-- The access has returned. -/
def ReturnedWith (s : Stores) (schedule : List ι) (i : ι) (locals : Option Locals) : Prop :=
  ((contended accesses s schedule).object (accesses i).domain).stage i = .returned locals

omit [DecidableEq ι] in
theorem serial_statesAfter {accesses : ι -> Access} (allowed : ∀ i, (accesses i).Allowed) (s : Stores)
    (order : List ι) :
    Objects.serial (fun i => ((accesses i).call s).code) (fun i => (accesses i).domain)
        (fun d => (d.store s).leaves) order =
      fun d => (d.store (statesAfter accesses s order)).leaves := by
  suffices every : ∀ t, Access.SameSchemas s t ->
      Objects.serial (fun i => ((accesses i).call s).code) (fun i => (accesses i).domain)
          (fun d => (d.store t).leaves) order =
        fun d => (d.store (statesAfter accesses t order)).leaves from every s ⟨rfl, rfl⟩
  induction order with
  | nil => exact fun _ _ => rfl
  | cons i order inductionHypothesis =>
      intro t same
      rw [Objects.serial, List.foldl_cons, ← Access.act_leaves same (allowed i)]
      exact inductionHypothesis _ (Access.act_sameSchemas same (allowed i))

/-- A look that has returned took the snapshot of the state in which its turn came. -/
theorem look_answer {accesses : ι -> Access} (allowed : ∀ i, (accesses i).Allowed) {s : Stores}
    {schedule : List ι} {i : ι} {query : Str} (looks : accesses i = .look query) {locals : Option Locals}
    (returned : ReturnedWith accesses s schedule i locals) :
    ∃ front rest, (contended accesses s schedule).order = front ++ i :: rest ∧
      (Call.snapshot query).answer locals =
        .taken (registry.snapshot (statesAfter accesses s front) query).snap := by
  rcases (Objects.linear_run _ _ _ schedule).answered i locals returned with ⟨front, rest, split, answers⟩
  refine ⟨front, rest, split, ?_⟩
  have owned := allowed i
  rw [serial_statesAfter allowed] at answers
  dsimp only at answers
  rw [looks] at answers owned
  rw [Access.look_snapshot _ owned]
  exact Call.answer_alone answers

/-- The looks are one after the other: each has returned at some moment at which the next has
not. -/
def InTurn (s : Stores) (schedule : List ι) (looks : List ι) : Prop :=
  ∀ k i j, looks[k]? = some i -> looks[k + 1]? = some j -> ∃ front more, schedule = front ++ more ∧
    (∃ locals, ReturnedWith accesses s front i locals) ∧
      ∀ locals, ¬ ReturnedWith accesses s front j locals

/-- The turn of each look. -/
def turnOf (s : Stores) (schedule : List ι) (looks : List ι) (k : Nat) : Nat :=
  match looks[k]? with
  | some i => (contended accesses s schedule).order.idxOf i
  | none => (contended accesses s schedule).order.length

theorem turnOf_le (s : Stores) (schedule : List ι) (looks : List ι) (k : Nat) :
    turnOf accesses s schedule looks k ≤ (contended accesses s schedule).order.length := by
  unfold turnOf
  split
  · exact List.idxOf_le_length
  · exact le_refl _

theorem turnOf_monotone {accesses : ι -> Access} {s : Stores} {schedule looks : List ι}
    (inTurn : InTurn accesses s schedule looks) : Monotone (turnOf accesses s schedule looks) := by
  apply monotone_nat_of_le_succ
  intro k
  cases second : looks[k + 1]? with
  | none =>
      have last : turnOf accesses s schedule looks (k + 1) = (contended accesses s schedule).order.length := by
        rw [turnOf, second]
      rw [last]
      exact turnOf_le accesses s schedule looks k
  | some j =>
      have inside : k < looks.length := Nat.lt_of_succ_lt (List.getElem?_eq_some_iff.mp second).1
      have first : looks[k]? = some looks[k] := List.getElem?_eq_getElem inside
      rcases inTurn k _ j first second with ⟨before, more, rfl, ⟨locals, returned⟩, open_⟩
      rw [turnOf, turnOf, first, second]
      dsimp only
      by_cases listed : j ∈ (contended accesses s (before ++ more)).order
      · rcases List.append_of_mem listed with ⟨front, rest, split⟩
        have earlier := Objects.precedes _ before more returned open_ split
        have once := (Objects.linear_run (fun i => ((accesses i).call s).code)
          (fun i => (accesses i).domain) (fun d => (d.store s).leaves) (before ++ more)).once
        rw [contended] at split ⊢
        rw [split] at once ⊢
        have apart : j ∉ front := fun member =>
          (List.nodup_middle.mp once).notMem (List.mem_append_left rest member)
        rw [List.idxOf_append_of_mem earlier, List.idxOf_append_of_notMem apart]
        exact (List.idxOf_lt_length_of_mem earlier).le.trans (Nat.le_add_right _ _)
      · rw [List.idxOf_of_notMem listed]
        exact List.idxOf_le_length

/-- Each look of a list in turn takes the snapshot of its subscription in some state of the
sequence, and never in an earlier one than the look before. -/
theorem looks_in_turn {accesses : ι -> Access} (allowed : ∀ i, (accesses i).Allowed) {s : Stores}
    {schedule looks : List ι} (inTurn : InTurn accesses s schedule looks) :
    ∃ readings : Telemetry.Readings Stores,
      (∀ t, readings.states t =
        statesAfter accesses s ((contended accesses s schedule).order.take t)) ∧
      ∀ k sub i locals, looks[k]? = some i -> accesses i = .look (gnmiToXpath sub.path) ->
        ReturnedWith accesses s schedule i locals ->
        (Call.snapshot (gnmiToXpath sub.path)).answer locals =
          .taken (Subscribe.readOf registry readings.found sub k) := by
  refine ⟨⟨fun t => statesAfter accesses s ((contended accesses s schedule).order.take t),
    turnOf accesses s schedule looks, turnOf_monotone inTurn⟩, fun t => rfl, ?_⟩
  intro k sub i locals isLook looking returned
  rcases look_answer allowed looking returned with ⟨front, rest, split, answer⟩
  have once := (Objects.linear_run (fun i => ((accesses i).call s).code)
    (fun i => (accesses i).domain) (fun d => (d.store s).leaves) schedule).once
  rw [contended] at split
  rw [split] at once
  have apart : i ∉ front := fun member =>
    (List.nodup_middle.mp once).notMem (List.mem_append_left rest member)
  have turn : (contended accesses s schedule).order.take (turnOf accesses s schedule looks k) = front := by
    rw [turnOf, isLook, contended]
    dsimp only
    rw [split, List.idxOf_append_of_notMem apart, List.idxOf_cons_self, Nat.add_zero, List.take_left]
  rw [answer, Subscribe.readOf, Telemetry.Readings.found]
  dsimp only
  rw [turn]

/-- The accesses that have returned are done in one order of single events. -/
structure Atomic (s : Stores) (schedule : List ι) : Prop where
  once : (contended accesses s schedule).order.Nodup
  listed : ∀ i, i ∈ (contended accesses s schedule).order ↔ ∃ locals, ReturnedWith accesses s schedule i locals
  look : ∀ i query locals, accesses i = .look query -> ReturnedWith accesses s schedule i locals ->
    ∃ front rest, (contended accesses s schedule).order = front ++ i :: rest ∧
      (Call.snapshot query).answer locals =
        .taken (registry.snapshot (statesAfter accesses s front) query).snap
  settled : ∀ d : Domain,
    (∀ i pending, ((contended accesses s schedule).object d).stage i ≠ .writing pending) ->
      ((contended accesses s schedule).object d).state =
        (d.store (statesAfter accesses s (contended accesses s schedule).order)).leaves
  realTime : ∀ i j locals, ReturnedWith accesses s schedule i locals ->
    (∀ locals, ¬ ReturnedWith accesses s schedule j locals) ->
    ∀ more front rest, (contended accesses s (schedule ++ more)).order = front ++ j :: rest -> i ∈ front

/-- The accesses of all threads are single events on one sequence of states.  However the
threads share the two stores, the accesses that have returned are done in one order, where
what has returned is before what has not, and every access can still return.  A look takes
the snapshot of the state in which its turn comes, and a store that nobody is writing is
that of the last state.  Looks that a thread takes in turn, as for the subscriptions of a
list, find states at moments that do not go back. -/
theorem accesses_are_atomic (s : Stores) (allowed : ∀ i, (accesses i).Allowed) (schedule : List ι) :
    Atomic accesses s schedule ∧
    (∀ i, ∃ more locals, ReturnedWith accesses s (schedule ++ more) i locals) ∧
    ∀ looks : List ι, InTurn accesses s schedule looks ->
      ∃ readings : Telemetry.Readings Stores,
        (∀ t, readings.states t =
          statesAfter accesses s ((contended accesses s schedule).order.take t)) ∧
        ∀ k sub i locals, looks[k]? = some i -> accesses i = .look (gnmiToXpath sub.path) ->
          ReturnedWith accesses s schedule i locals ->
          (Call.snapshot (gnmiToXpath sub.path)).answer locals =
            .taken (Subscribe.readOf registry readings.found sub k) := by
  have linear := Objects.linear_run (fun i => ((accesses i).call s).code) (fun i => (accesses i).domain)
    (fun d => (d.store s).leaves) schedule
  refine ⟨?_, fun i => ?_, fun looks inTurn => looks_in_turn allowed inTurn⟩
  · constructor
    · exact linear.once
    · exact linear.listed
    · exact fun i query locals looks returned => look_answer allowed looks returned
    · intro d noWriter
      have settled := linear.settled d noWriter
      rw [serial_statesAfter allowed] at settled
      exact settled
    · intro i j locals returned open_ more front rest split
      exact Objects.precedes _ schedule more returned open_ split
  · exact Objects.can_return _ (fun i => ((accesses i).call s).finishes) schedule i

end Threads

/-! ## A Set between two looks -/

/-- A list's two looks at the record of the time server, and a Set that changes both leaves. -/
def lookSetLook (i : Fin 3) : Access :=
  match i with
  | 0 => .look (gnmiToXpath Telemetry.portSub.path)
  | 1 => .set Telemetry.changeBoth 3
  | 2 => .look (gnmiToXpath Telemetry.versionSub.path)

/-- The Set tries to lock the store while the first look goes over the leaves, and the second
look while the Set writes. -/
def firstLook : List (Fin 3) :=
  [0, 1, 0, 1] ++ List.replicate 9 0

def wholeCall : List (Fin 3) :=
  firstLook ++ ([1, 2, 1, 2, 1, 1] ++ List.replicate 11 2)

theorem lookSetLook_allowed (i : Fin 3) : (lookSetLook i).Allowed := by
  match i with
  | 0 => exact (by decide +kernel : registry.owns (gnmiToXpath Telemetry.portSub.path) = true)
  | 1 =>
      rw [lookSetLook, Access.Allowed, Acceptable]
      simp only [declaredConfig_iff]
      decide +kernel
  | 2 => exact (by decide +kernel : registry.owns (gnmiToXpath Telemetry.versionSub.path) = true)

theorem accesses_are_atomic_changeBoth :
    (contended lookSetLook Telemetry.beforeChange wholeCall).order = [0, 1, 2] ∧
      ∃ readings : Telemetry.Readings Stores,
        (∀ t, readings.states t =
          statesAfter lookSetLook Telemetry.beforeChange (([0, 1, 2] : List (Fin 3)).take t)) ∧
        ∀ locals, ReturnedWith lookSetLook Telemetry.beforeChange wholeCall 2 locals ->
          (Call.snapshot (gnmiToXpath Telemetry.versionSub.path)).answer locals =
            .taken (Subscribe.readOf registry readings.found Telemetry.versionSub 1) := by
  have order : (contended lookSetLook Telemetry.beforeChange wholeCall).order = [0, 1, 2] := by
    decide +kernel
  have first : (contended lookSetLook Telemetry.beforeChange firstLook).order = [0] := by
    decide +kernel
  have early := (accesses_are_atomic lookSetLook Telemetry.beforeChange lookSetLook_allowed firstLook).1
  have inTurn : InTurn lookSetLook Telemetry.beforeChange wholeCall [0, 2] := by
    intro k i j isFirst isSecond
    have only : k = 0 := by
      have inside : k + 1 < 2 := (List.getElem?_eq_some_iff.mp isSecond).1
      omega
    subst only
    cases isFirst
    cases isSecond
    refine ⟨firstLook, _, rfl, (early.listed 0).mp (first ▸ List.mem_cons_self), fun locals returned => ?_⟩
    have listed := (early.listed 2).mpr ⟨locals, returned⟩
    rw [first] at listed
    exact absurd listed (by decide)
  rcases (accesses_are_atomic lookSetLook Telemetry.beforeChange lookSetLook_allowed wholeCall).2.2 _ inTurn with
    ⟨readings, states, reads⟩
  rw [order] at states
  exact ⟨order, readings, states, fun locals => reads 1 Telemetry.versionSub 2 locals rfl rfl⟩

end Server
end PscMockServer
