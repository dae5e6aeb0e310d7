import PscMockServer.Gnmi.Streams
import PscMockServer.Server.Queries
import PscMockServer.Telemetry.EmitterScripts

namespace PscMockServer
namespace Telemetry

open Foundations Gnmi Utils Backend

/-!
# Registries that serve stored leaves

The results on subscriptions do not depend on the two providers of this server.  They
need that a snapshot is the part of the stored leaves its query selects, that stored
paths are canonical, and that containers are answered lawfully.
-/

/-- In the valid states, the registry answers queries from one body of stored leaves. -/
structure Serves {σ : Type} (reg : DataProviderRegistry σ) (Valid : σ -> Prop)
    (stored : σ -> Str -> Option Leaf) : Prop where
  find : ∀ {s}, Valid s -> ∀ query key : Str, (reg.snapshot s query).snap[key]? =
    if reg.owns query = true ∧ selects (stripPathQuotes query) key = true then stored s key else none
  canonical : ∀ {s}, Valid s -> ∀ key leaf, stored s key = some leaf -> Canonical key
  law : AtomicLaw reg.atomicPrefix

/-- Every key of the snapshot is canonical and selected by the query. -/
def Drawn (query : Str) (snap : Snapshot) : Prop :=
  ∀ (key : Str) (leaf : Leaf), snap[key]? = some leaf ->
    Canonical key ∧ selects (stripPathQuotes query) key = true

theorem Drawn.canonical {query : Str} {snap : Snapshot} (drawn : Drawn query snap) : CanonicalKeys snap :=
  fun key leaf found => (drawn key leaf found).1

namespace Serves

variable {σ : Type} {reg : DataProviderRegistry σ} {Valid : σ -> Prop} {stored : σ -> Str -> Option Leaf}

theorem snapshot_iff (serves : Serves reg Valid stored) {s : σ} (valid : Valid s) (query key : Str)
    (leaf : Leaf) :
    (reg.snapshot s query).snap[key]? = some leaf ↔
      (reg.owns query = true ∧ selects (stripPathQuotes query) key = true) ∧ stored s key = some leaf := by
  rw [serves.find valid]
  split
  · next answered => exact (and_iff_right answered).symm
  · next refused =>
      exact ⟨fun impossible => absurd impossible.symm (Option.some_ne_none leaf),
        fun both => absurd both.1 refused⟩

theorem drawn (serves : Serves reg Valid stored) {s : σ} (valid : Valid s) (query : Str) :
    Drawn query (reg.snapshot s query).snap := by
  intro key leaf found
  have known := (serves.snapshot_iff valid query key leaf).mp found
  exact ⟨serves.canonical valid key leaf known.2, known.1.2⟩

/-- A key of merged reads was read by one of the subscriptions. -/
theorem mergedReads_drawn (serves : Serves reg Valid stored) {found : Nat -> σ}
    (valid : ∀ i, Valid (found i)) {subs : List Subscription} {i : Nat} {key : Str} {leaf : Leaf}
    (read : (Subscribe.mergedReads reg found subs i ∅)[key]? = some leaf) :
    Canonical key ∧ ∃ sub ∈ subs, selects (stripPathQuotes (gnmiToXpath sub.path)) key = true := by
  rw [Subscribe.mergedReads_empty_find] at read
  rcases Subscribe.firstRead_source read with ⟨front, sub, rest, rfl, own, _⟩
  have known := serves.drawn (valid _) _ key leaf own
  exact ⟨known.1, sub, List.mem_append_right front List.mem_cons_self, known.2⟩

theorem mergedReads_canonical (serves : Serves reg Valid stored) {found : Nat -> σ}
    (valid : ∀ i, Valid (found i)) (subs : List Subscription) (i : Nat) :
    CanonicalKeys (Subscribe.mergedReads reg found subs i ∅) :=
  fun _ _ read => (serves.mergedReads_drawn valid read).1

end Serves

/-- Every state the stream looks at is valid. -/
structure ValidTiming {σ : Type} (Valid : σ -> Prop) (timing : Subscribe.StreamTiming σ) : Prop where
  initial : ∀ i, Valid (timing.initialAt i)
  baseline : ∀ i, Valid (timing.baselineAt i)
  sample : ∀ pass ∈ timing.passes, ∀ i, Valid (pass.sampleAt i)
  poll : ∀ pass ∈ timing.passes, ∀ j, Valid (pass.pollAt j)

/-- So is the state of the look before a poll. -/
theorem ValidTiming.before {σ : Type} {Valid : σ -> Prop} {timing : Subscribe.StreamTiming σ}
    (valid : ValidTiming Valid timing) {front : List (Subscribe.LoopPass σ)} {pass : Subscribe.LoopPass σ}
    (isFront : front ++ [pass] <+: timing.passes) (i j : Nat) :
    Valid (Subscribe.stateBefore timing i j front) := by
  rcases List.eq_nil_or_concat' front with rfl | ⟨earlier, last, rfl⟩
  · exact valid.baseline i
  · rw [Subscribe.stateBefore_snoc]
    exact valid.poll last (mem_of_snoc ((List.prefix_append _ [pass]).trans isFront)) j

end Telemetry

/-! ## The registry of this server -/

namespace Server

open Foundations Gnmi Utils Backend Telemetry

/-- The leaf stored at a path by either provider. -/
def storedLeaf (s : Stores) (key : Str) : Option Leaf :=
  (s.sensor.store.leaves[key]?).or (s.config.store.leaves[key]?)

theorem storedLeaf_iff {s : Stores} (inv : Invariant s) (key : Str) (leaf : Leaf) :
    storedLeaf s key = some leaf ↔ Holds s key leaf := by
  rw [storedLeaf, Holds]
  cases sensor : s.sensor.store.leaves[key]? with
  | none => simp
  | some own =>
      have foreign : s.config.store.leaves[key]? ≠ some leaf := by
        intro config
        have inSensor := sensorPaths_routed key (inv.sensor_leaf sensor).1
        have apart := configPaths_apart key (inv.config_leaf config).1
        exact apart.1 ((List.prefix_append sensorPrefix ['[']).trans inSensor)
      simp [foreign]

theorem registry_serves : Serves registry Invariant storedLeaf where
  find := by
    intro s inv query key
    apply Option.ext
    intro leaf
    rw [Server.snapshot_iff inv, Selects, ← storedLeaf_iff inv]
    split
    · next answered => exact ⟨fun both => both.2.1, fun stored => ⟨answered.1, stored, answered.2⟩⟩
    · next refused =>
        exact ⟨fun both => absurd ⟨both.1, both.2.2⟩ refused,
          fun impossible => absurd impossible.symm (Option.some_ne_none leaf)⟩
  canonical := fun inv key leaf stored => inv.holds_canonical ((storedLeaf_iff inv key leaf).mp stored)
  law := registry_atomicLaw

end Server
end PscMockServer
