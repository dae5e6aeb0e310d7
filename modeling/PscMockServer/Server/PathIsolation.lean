import PscMockServer.Backend.OmittedKeys
import PscMockServer.Server.LastWrites

namespace PscMockServer
namespace Server

open Foundations Gnmi Utils Backend

/-!
# Different paths do not meet

Where the parts of two paths can be told apart, different paths have different store keys.
No Set on the one writes or removes the leaf of the other, no provider is even handed an
operation on it, and a query for the one finds the leaf of the other only from above: the
names of the query come first in the leaf's, and its keys do, or it has none.
-/

/-! ## Different keys -/

/-- A path without origin whose normalised text determines its elements. -/
structure Separable (path : Path) : Prop where
  noOrigin : path.origin = []
  clear : ∀ elem ∈ path.elem, Unambiguous elem

theorem Separable.storeKey_eq {path : Path} (separable : Separable path) :
    storeKey path = elementsText id path.elem :=
  stripPathQuotes_gnmiToXpath separable.noOrigin
    (fun elem member => (separable.clear elem member).quoteFree)

/-- Two such paths with one store key have the same elements. -/
theorem Separable.elem_eq {path other : Path} (separable : Separable path)
    (otherSeparable : Separable other) (same : storeKey path = storeKey other) :
    path.elem = other.elem := by
  rw [separable.storeKey_eq, otherSeparable.storeKey_eq] at same
  exact elementsText_injective separable.clear otherSeparable.clear same

theorem Separable.storeKey_ne {path other : Path} (separable : Separable path)
    (otherSeparable : Separable other) (different : path.nodes ≠ other.nodes) :
    storeKey path ≠ storeKey other := by
  intro same
  apply different
  rw [Path.nodes, Path.nodes, separable.elem_eq otherSeparable same]

/-- A path that addresses a canonical leaf has the elements of that leaf, none with a bracket. -/
theorem Separable.bracketFree {path : Path} (separable : Separable path)
    (canonical : Canonical (storeKey path)) : ∀ elem ∈ path.elem, BracketFree elem := by
  rcases canonical with ⟨segments, _, isText⟩
  have originPlain : plain [] = true := rfl
  have known := writtenElems_canonical originPlain segments
  rw [writtenElems_of_noOrigin rfl] at known
  have segmentsSeparable : Separable (canonicalPath [] segments) :=
    ⟨rfl, fun elem member => (known elem member).1⟩
  have text : storeKey (canonicalPath [] segments) = xpathOf segments := by
    rw [segmentsSeparable.storeKey_eq, elementsText, xpathOf, canonicalPath, List.map_map]
    exact congrArg (delimited '/') (List.map_congr_left (fun segment _ => elementText_elem segment))
  rw [separable.elem_eq segmentsSeparable (isText.trans text.symm)]
  exact fun elem member => (known elem member).2

/-! ## Who is written, who is read -/

/-- Every operation of the request is on a path other than this one. -/
def OnOthers (request : SetRequest) (other : Path) : Prop :=
  ∀ xpath ∈ Gnmi.Set.targets request, ∃ path, Separable path ∧ path.nodes ≠ other.nodes ∧
    stripPathQuotes xpath = storeKey path

/-- The query is above the leaf, or gives no key and is above it by name. -/
structure Above (query leaf : Path) : Prop where
  names : query.elem.map PathElem.name <+: leaf.elem.map PathElem.name
  keys : NoKeys query.elem ∨ LeadingKeys (query.elem.map PathElem.key) (leaf.elem.map PathElem.key)

theorem OnOthers.not_addresses {request : SetRequest} {other : Path} (separable : Separable other)
    (elsewhere : OnOthers request other) : ¬ Addresses request (storeKey other) := by
  rintro ⟨xpath, target, isKey⟩
  rcases elsewhere xpath target with ⟨path, pathSeparable, different, onPath⟩
  exact pathSeparable.storeKey_ne separable different (onPath.symm.trans isKey)

/-- A Set leaves the leaves it does not address, in both stores. -/
theorem Invariant.set_untouched {s : Stores} (inv : Invariant s) {request : SetRequest} {key : Str}
    (elsewhere : ¬ Addresses request key) (now : Int) :
    let after := (Gnmi.Set.run registry s now request).1
    after.sensor.store.leaves[key]? = s.sensor.store.leaves[key]? ∧
      after.config.store.leaves[key]? = s.config.store.leaves[key]? := by
  intro after
  have effect := inv.set_effect request now
  refine ⟨by rw [effect.1], ?_⟩
  rw [effect.2]
  apply leavesAfter_untouched
  intro set listed
  have isRequest : set.1 = request := by
    by_cases accepted : request.extensionSize = 0 ∧ Acceptable request
    · rw [acceptedSets, List.filterMap_cons, acceptedSet, if_pos accepted] at listed
      rw [List.mem_singleton.mp listed]
    · rw [acceptedSets, List.filterMap_cons, acceptedSet, if_neg accepted] at listed
      cases listed
  rw [isRequest]
  exact elsewhere

/-- What a query for a path selects of the leaves that other paths address. -/
theorem selects_above_iff {path other : Path} (separable : Separable path)
    (otherSeparable : Separable other) (canonical : Canonical (storeKey other)) :
    selects (storeKey path) (storeKey other) = true ↔ Above path other := by
  have free := otherSeparable.bracketFree canonical
  rw [separable.storeKey_eq, otherSeparable.storeKey_eq]
  by_cases noKeys : NoKeys path.elem
  · rw [selects_noKeys_iff separable.clear otherSeparable.clear free noKeys]
    exact ⟨fun names => ⟨names, Or.inl noKeys⟩, Above.names⟩
  · rw [selects_keyed_iff separable.clear otherSeparable.clear noKeys]
    refine ⟨fun both => ⟨both.1, Or.inr both.2⟩, fun above => ⟨above.names, ?_⟩⟩
    exact above.keys.resolve_left noKeys

/-- Different paths never address the same leaf, as far as their text determines them.  They
have different store keys.  Whatever happened before, a Set whose operations are all on
paths other than one, whether it is accepted or not, leaves the leaf of that one in both
stores, and no provider is handed an operation on it; nor does a batch committed to any
store at the one path change what is read at the other.  A query for the one path, however
it is written, finds the leaf of the other exactly if there is one, a provider owns the
query, and the one path is above the other. -/
theorem different_paths_apart {path other : Path} (separable : Separable path)
    (otherSeparable : Separable other) (different : path.nodes ≠ other.nodes)
    (sensorNow configNow : Int) (actions : List Action) :
    let s := ((initialWorld sensorNow configNow).run actions).stores
    storeKey path ≠ storeKey other ∧
    (∀ (request : SetRequest) (now : Int), OnOthers request other ->
      let after := (Gnmi.Set.run registry s now request).1
      after.sensor.store.leaves[storeKey other]? = s.sensor.store.leaves[storeKey other]? ∧
      after.config.store.leaves[storeKey other]? = s.config.store.leaves[storeKey other]? ∧
      ∀ call ∈ registry.handed (Gnmi.Set.buildBatch request now), ∀ op ∈ call.2.ops,
        stripPathQuotes op.xpath ≠ storeKey other) ∧
    (∀ (store : LeafStore) (batch : WriteBatch),
      (∀ op ∈ batch.ops, stripPathQuotes op.xpath = storeKey path) ->
        (store.commit batch).get (gnmiToXpath other) = store.get (gnmiToXpath other)) ∧
    ∀ query, stripPathQuotes query = storeKey path -> ∀ leaf,
      ((registry.snapshot s query).snap[storeKey other]? = some leaf ↔
        registry.owns query = true ∧ Holds s (storeKey other) leaf ∧ Above path other) := by
  intro s
  have inv : Invariant s := ((initialWorld_good sensorNow configNow).run actions).1
  have keys := separable.storeKey_ne otherSeparable different
  refine ⟨keys, fun request now elsewhere => ?_, fun store batch addressed => ?_,
    fun query isKey leaf => ?_⟩
  · have notAddressed := elsewhere.not_addresses otherSeparable
    have kept := inv.set_untouched notAddressed now
    refine ⟨kept.1, kept.2, fun call isCall op inSlice isKey => ?_⟩
    have listed := ((DataProviderRegistry.mem_slice_iff isCall op).mp inSlice).1
    exact notAddressed ⟨op.xpath, Gnmi.Set.mem_batch_targets now listed, isKey⟩
  · exact LeafStore.commit_get_other addressed keys
  · rw [snapshot_iff inv, Selects, isKey, and_congr_right_iff]
    intro _
    rw [and_congr_right_iff]
    exact fun holds => selects_above_iff separable otherSeparable (inv.holds_canonical holds)

def bannerPath : Path :=
  pathWith [plainName "system", plainName "config", plainName "motd-banner"]

/-- The list entry of a time server, with some of the names below it. -/
def inServer (address : String) (below : List String) : Path :=
  pathWith ([plainName "system", plainName "ntp", plainName "servers",
    keyedName "server" "address" address] ++ below.map plainName)

def firstPort : Path :=
  inServer "10.0.0.1" ["config", "port"]

/-- Renaming the host leaves the banner, and the port of a server is read through the entry
of that server but not through that of another one. -/
theorem different_paths_apart_hostname :
    let s := ((initialWorld 1 2).run []).stores
    storeKey hostnamePath ≠ storeKey bannerPath ∧
      (Gnmi.Set.run registry s 3 renameTwice).1.config.store.leaves[storeKey bannerPath]? =
        s.config.store.leaves[storeKey bannerPath]? ∧
      (s.config.store.leaves[storeKey bannerPath]?).isSome = true ∧
      ((registry.snapshot s (gnmiToXpath (inServer "10.0.0.1" []))).snap[
        storeKey firstPort]?).isSome = true ∧
      (registry.snapshot s (gnmiToXpath (inServer "10.0.0.2" []))).snap[
        storeKey firstPort]? = none := by
  intro s
  have hostname : Separable hostnamePath := ⟨rfl, by decide +kernel⟩
  have banner : Separable bannerPath := ⟨rfl, by decide +kernel⟩
  have server : Separable (inServer "10.0.0.1" []) := ⟨rfl, by decide +kernel⟩
  have otherServer : Separable (inServer "10.0.0.2" []) := ⟨rfl, by decide +kernel⟩
  have port : Separable firstPort := ⟨rfl, by decide +kernel⟩
  have renamed := different_paths_apart hostname banner (by decide +kernel) 1 2 []
  have below := different_paths_apart server port (by decide +kernel) 1 2 []
  have aside := different_paths_apart otherServer port (by decide +kernel) 1 2 []
  have onHostname : ∀ xpath ∈ Gnmi.Set.targets renameTwice,
      stripPathQuotes xpath = storeKey hostnamePath := by decide +kernel
  have elsewhere : OnOthers renameTwice bannerPath := fun xpath target =>
    ⟨hostnamePath, hostname, by decide +kernel, onHostname xpath target⟩
  refine ⟨renamed.1, (renamed.2.1 renameTwice 3 elsewhere).2.1, by decide +kernel, ?_, ?_⟩
  · have held : (s.config.store.leaves[storeKey firstPort]?).isSome = true := by
      decide +kernel
    rcases Option.isSome_iff_exists.mp held with ⟨leaf, isLeaf⟩
    have above : Above (inServer "10.0.0.1" []) firstPort :=
      ⟨by decide +kernel, Or.inr (by decide +kernel)⟩
    rw [(below.2.2.2 _ rfl leaf).mpr ⟨by decide +kernel, Or.inr isLeaf, above⟩]
    rfl
  · rw [Option.eq_none_iff_forall_ne_some]
    intro leaf found
    rcases ((aside.2.2.2 _ rfl leaf).mp found).2.2.keys with noKeys | leads
    · exact absurd (noKeys _ (List.mem_of_getElem? (i := 3) rfl)) (List.cons_ne_nil _ _)
    · exact absurd leads (by decide +kernel)

end Server
end PscMockServer
