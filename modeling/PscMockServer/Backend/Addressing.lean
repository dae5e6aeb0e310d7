import PscMockServer.Backend.LeafStore
import PscMockServer.Utils.PathCoding

namespace PscMockServer
namespace Backend

open Foundations Gnmi Utils

/-!
# Which leaf a path addresses

A path addresses the store key that is left of its xpath when the quotes are gone.
Over the alphabet the encoding is meant for, a path that was emitted for a stored leaf
addresses that leaf again.  Two paths can address the same leaf only where a name, key
or value contains a character that ends it, or a double quote.
-/

/-! ## Back to the same leaf -/

/-- Paths survive the way through their xpath, with and without the quotes, and a
canonical xpath survives the way through its path; sent back, it addresses its leaf. -/
theorem path_encoding_round_trips :
    (∀ path : Path, path.origin = [] -> (∀ elem ∈ path.elem, Intended elem) ->
      (xpathToGnmiPath (gnmiToXpath path) {}).nodes = path.nodes ∧
        (xpathToGnmiPath (stripPathQuotes (gnmiToXpath path)) {}).nodes = path.nodes) ∧
    ∀ xpath, CanonicalText xpath ->
      stripPathQuotes (gnmiToXpath (xpathToGnmiPath xpath {})) = xpath ∧
        ∀ store : LeafStore, store.get (gnmiToXpath (xpathToGnmiPath xpath {})) = store.leaves[xpath]? := by
  constructor
  · intro path noOrigin intended
    have read := xpathToGnmiPath_gnmiToXpath noOrigin intended
    rw [read.1, read.2]
    exact ⟨rfl, rfl⟩
  · intro xpath canonical
    refine ⟨canonical.round_trip, fun store => ?_⟩
    rw [LeafStore.get, canonical.round_trip]

/-- An element with two keys, one value empty and one with an equals sign. -/
def twoKeys : PathElem where
  name := "route".toList
  key := ⟨[("prefix".toList, "a=b".toList), ("origin".toList, [])], by decide⟩

def outputVoltage : Str := "/component[name=PSC-0]/state/output-voltage".toList

theorem twoKeys_round_trip :
    (xpathToGnmiPath (gnmiToXpath { elem := [twoKeys] }) {}).nodes = [twoKeys.node] ∧
      stripPathQuotes (gnmiToXpath (xpathToGnmiPath outputVoltage {})) = outputVoltage := by
  have canonical : CanonicalText outputVoltage := by
    refine ⟨(xpathToGnmiPath outputVoltage {}).elem, ?_, ?_⟩
    · decide +kernel
    · decide +kernel
  have both := path_encoding_round_trips
  exact ⟨(both.1 { elem := [twoKeys] } rfl (by decide +kernel)).1, (both.2 outputVoltage canonical).1⟩

/-! ## Different leaves -/

/-- Ops that all address one key leave every other leaf as it is. -/
theorem LeafStore.commit_get_other {store : LeafStore} {batch : WriteBatch} {key other : Str}
    (addressed : ∀ op ∈ batch.ops, stripPathQuotes op.xpath = key) (different : key ≠ stripPathQuotes other) :
    (store.commit batch).get other = store.get other := by
  have step : ∀ (leaves : Snapshot) (op : WriteOp), stripPathQuotes op.xpath = key ->
      (applyOp leaves op)[stripPathQuotes other]? = leaves[stripPathQuotes other]? := by
    intro leaves op isKey
    unfold applyOp
    rw [isKey]
    cases op.kind with
    | set => exact (OrdMap.insert_find _ _ _ _).trans (if_neg different)
    | remove => exact (OrdMap.erase_find _ _ _).trans (if_neg different)
  unfold LeafStore.commit LeafStore.get
  generalize store.leaves = leaves
  generalize batch.ops = ops at addressed
  induction ops generalizing leaves with
  | nil => rfl
  | cons op ops inductionHypothesis =>
      rw [List.foldl_cons]
      have later := inductionHypothesis (applyOp leaves op)
        (fun other member => addressed other (List.mem_cons_of_mem op member))
      exact later.trans (step leaves op (addressed op List.mem_cons_self))

/-- A path with these elements, given as name and keys. -/
def pathWith (elems : List (Str × KeyMap)) : Path where
  elem := elems.map (fun entry => ⟨entry.1, entry.2⟩)

def plainName (name : String) : Str × KeyMap :=
  (name.toList, KeyMap.empty)

def keyedName (name key value : String) : Str × KeyMap :=
  (name.toList, KeyMap.single key.toList value.toList)

/-- Different paths with one store key, one pair for each excluded character. -/
def collisions : List (Path × Path) :=
  [(pathWith [plainName "a/b"], pathWith [plainName "a", plainName "b"]),
    (pathWith [plainName "a[k=v]"], pathWith [keyedName "a" "k" "v"]),
    (pathWith [plainName "a\""], pathWith [plainName "a"]),
    (pathWith [keyedName "a" "k=v" "w"], pathWith [keyedName "a" "k" "v=w"]),
    (pathWith [keyedName "a" "k\"" "v"], pathWith [keyedName "a" "k" "v"]),
    (pathWith [keyedName "a" "k" "v]/b[l=w"], pathWith [keyedName "a" "k" "v", keyedName "b" "l" "w"]),
    (pathWith [keyedName "a" "k" "v\""], pathWith [keyedName "a" "k" "v"])]

/-- Escaping is missing, so accepted paths that differ can share a store key; and a query
also selects the leaves below it, which have other paths. -/
theorem paths_collide :
    (¬ ∀ path other : Path, path.origin = [] -> other.origin = [] ->
        (validateGnmiPath path).isOk = true -> (validateGnmiPath other).isOk = true ->
          path.nodes ≠ other.nodes ->
            stripPathQuotes (gnmiToXpath path) ≠ stripPathQuotes (gnmiToXpath other)) ∧
      (∀ pair ∈ collisions, (validateGnmiPath pair.1).isOk = true ∧
        (validateGnmiPath pair.2).isOk = true ∧ pair.1.nodes ≠ pair.2.nodes ∧
          stripPathQuotes (gnmiToXpath pair.1) = stripPathQuotes (gnmiToXpath pair.2)) ∧
      selects (stripPathQuotes (gnmiToXpath (pathWith [plainName "system"])))
        (stripPathQuotes (gnmiToXpath (pathWith [plainName "system", plainName "hostname"]))) = true := by
  have each : ∀ pair ∈ collisions, (validateGnmiPath pair.1).isOk = true ∧
      (validateGnmiPath pair.2).isOk = true ∧ pair.1.nodes ≠ pair.2.nodes ∧
        stripPathQuotes (gnmiToXpath pair.1) = stripPathQuotes (gnmiToXpath pair.2) := by
    decide +kernel
  refine ⟨fun every => ?_, each, by decide +kernel⟩
  rcases each (pathWith [plainName "a/b"], pathWith [plainName "a", plainName "b"])
    List.mem_cons_self with ⟨accepted, otherAccepted, different, same⟩
  exact every _ _ rfl rfl accepted otherAccepted different same

end Backend
end PscMockServer
