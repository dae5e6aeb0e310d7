import PscMockServer.Backend.Addressing
import PscMockServer.Backend.Selection

namespace PscMockServer
namespace Backend

open Foundations Gnmi Utils

/-!
# Keys that a query omits

A query that gives no key selects every instance.  Once it gives a key, the store compares
the strings only, and a key may be omitted in one place: at the end of the last element.
A key that is omitted before, of a list entry the query goes into, hides every instance
of that list.
-/

/-! ## Queries and the leaves that agree with them -/

/-- Nothing that ends a part of the normalised text occurs inside that part. -/
def ClearPath (path : Path) : Prop :=
  (∀ c ∈ ['/', '[', '"'], c ∉ path.origin) ∧ ∀ elem ∈ path.elem, Unambiguous elem

instance (path : Path) : Decidable (ClearPath path) :=
  inferInstanceAs (Decidable (_ ∧ _))

/-- The names of the leaf begin with those of the query, and every key the query gives is
the leaf's. -/
structure Agrees (query leaf : Path) : Prop where
  names : query.elem.map PathElem.name <+: leaf.elem.map PathElem.name
  keys : ∀ pair ∈ query.elem.zip leaf.elem, ∀ entry ∈ pair.1.key.entries, entry ∈ pair.2.key.entries

/-- The query omits keys of the leaf at most at the end of its last element, and has its
origin. -/
structure OmitsOnlyLast (query leaf : Path) : Prop where
  origins : query.origin = leaf.origin
  keys : LeadingKeys (query.elem.map PathElem.key) (leaf.elem.map PathElem.key)

theorem ClearPath.written {path : Path} (clear : ClearPath path) :
    ∀ elem ∈ writtenElems path, Unambiguous elem := by
  intro elem member
  rcases mem_writtenElems member with ⟨original, listed, front, rfl, inFront⟩
  have known := clear.2 original listed
  refine ⟨fun c special inName => ?_, known.2⟩
  rcases List.mem_append.mp inName with early | inName
  · rcases inFront c early with inOrigin | rfl
    · exact clear.1 c special inOrigin
    · exact absurd special (by decide)
  · exact known.1 c special inName

theorem storeKey_eq {path : Path} (clear : ClearPath path) :
    storeKey path = elementsText id (writtenElems path) :=
  stripPathQuotes_written (fun elem member => (clear.written elem member).quoteFree)

/-- A mark before a name determines the origin. -/
theorem originMark_injective : Function.Injective originMark := by
  intro left right same
  rw [originMark, originMark] at same
  cases left with
  | nil =>
      cases right with
      | nil => rfl
      | cons c right => cases same
  | cons c left =>
      cases right with
      | nil => cases same
      | cons other right => exact List.append_cancel_right same

/-- Where the names agree, the written names do if the origins are the same. -/
theorem written_names_iff_origins {query leaf : Path} (nonempty : query.elem ≠ [])
    (names : query.elem.map PathElem.name <+: leaf.elem.map PathElem.name) :
    (writtenElems query).map PathElem.name <+: (writtenElems leaf).map PathElem.name ↔
      query.origin = leaf.origin := by
  refine ⟨fun written => ?_, fun origins => (written_names_iff origins).mpr names⟩
  rw [writtenElems, writtenElems] at written
  cases queryElems : query.elem with
  | nil => exact absurd queryElems nonempty
  | cons given rest =>
      cases leafElems : leaf.elem with
      | nil =>
          rw [queryElems, leafElems] at names
          exact absurd (List.prefix_nil.mp names) (List.cons_ne_nil _ _)
      | cons element others =>
          rw [queryElems, leafElems] at written names
          have marked : originMark query.origin ++ given.name = originMark leaf.origin ++ element.name :=
            (List.cons_prefix_cons.mp written).1
          rw [(List.cons_prefix_cons.mp names).1] at marked
          exact originMark_injective (List.append_cancel_right marked)

/-! ## Which of them are selected -/

/-- A query that gives some key selects the agreeing leaves of which it omits keys only at
its end. -/
theorem selects_agreeing_iff {query leaf : Path} (clear : ClearPath query) (leafClear : ClearPath leaf)
    (keyed : ¬ NoKeys query.elem) (agrees : Agrees query leaf) :
    selects (storeKey query) (storeKey leaf) = true ↔ OmitsOnlyLast query leaf := by
  have nonempty : query.elem ≠ [] := by
    intro empty
    apply keyed
    rw [empty]
    exact fun elem member => nomatch member
  have writtenKeyed : ¬ NoKeys (writtenElems query) := by
    rw [noKeys_iff_keys, writtenElems_keys, ← noKeys_iff_keys]
    exact keyed
  rw [storeKey_eq clear, storeKey_eq leafClear,
    selects_keyed_iff clear.written leafClear.written writtenKeyed,
    written_names_iff_origins nonempty agrees.names, writtenElems_keys, writtenElems_keys]
  exact ⟨fun both => ⟨both.1, both.2⟩, fun both => ⟨both.origins, both.keys⟩⟩

/-- A stored leaf that agrees with a query that gives some key is selected, by snapshot
and by collect, exactly if the query omits keys of it only at the end. -/
theorem omitted_key_selected_iff {store : LeafStore} {query leaf : Path} {value : Leaf}
    (clear : ClearPath query) (leafClear : ClearPath leaf)
    (stored : store.leaves[storeKey leaf]? = some value) (keyed : ¬ NoKeys query.elem)
    (agrees : Agrees query leaf) :
    ((store.snapshot (gnmiToXpath query))[storeKey leaf]? = some value ↔ OmitsOnlyLast query leaf) ∧
      ∀ list, ∃ entries : List (Str × Leaf), (store.collect (gnmiToXpath query) list).1 =
          list ++ entries.map collectedUpdate ∧
        ((storeKey leaf, value) ∈ entries ↔ OmitsOnlyLast query leaf) := by
  have found : (store.snapshot (gnmiToXpath query))[storeKey leaf]? = some value ↔
      OmitsOnlyLast query leaf := by
    rw [LeafStore.snapshot_find_iff, ← selects_agreeing_iff clear leafClear keyed agrees]
    exact and_iff_right stored
  refine ⟨found, fun list => ⟨_, store.collect_eq _ list, ?_⟩⟩
  rw [Std.ExtTreeMap.mem_toList_iff_getElem?_eq_some]
  exact found

/-! ## A list in a list -/

/-- The speed of port 2 in slot 1. -/
def portSpeed : Path :=
  pathWith [keyedName "slot" "id" "1", keyedName "port" "id" "2", plainName "speed"]

def speedLeaf : Leaf where
  val := .uintVal 100
  collectedNs := 1

def speedStore : LeafStore where
  leaves := (∅ : Snapshot).insert (storeKey portSpeed) speedLeaf

theorem speedStore_find : speedStore.leaves[storeKey portSpeed]? = some speedLeaf :=
  (OrdMap.insert_find _ _ _ _).trans (if_pos rfl)

/-- The ports of slot 1. -/
def anyPort : Path :=
  pathWith [keyedName "slot" "id" "1", plainName "port"]

/-- The port's key may be omitted at the end of the query. -/
theorem speed_of_any_port :
    (speedStore.snapshot (gnmiToXpath anyPort))[storeKey portSpeed]? = some speedLeaf := by
  apply (omitted_key_selected_iff _ _ speedStore_find _ _).1.mpr
  · exact ⟨rfl, by decide⟩
  · decide +kernel
  · decide +kernel
  · exact fun noKeys => absurd (noKeys _ List.mem_cons_self) (List.cons_ne_nil _ _)
  · exact ⟨by decide, by decide +kernel⟩

/-- The speeds of the ports of slot 1, and those of all ports. -/
def anyPortSpeed : Path :=
  pathWith [keyedName "slot" "id" "1", plainName "port", plainName "speed"]

def everyPortSpeed : Path :=
  pathWith [plainName "slot", plainName "port", plainName "speed"]

/-- The port's key may not be omitted before the end of the query, unless all are. -/
theorem port_speed_missed :
    ClearPath anyPortSpeed ∧ ClearPath portSpeed ∧ ¬ NoKeys anyPortSpeed.elem ∧
      Agrees anyPortSpeed portSpeed ∧
      speedStore.leaves[storeKey portSpeed]? = some speedLeaf ∧
      (speedStore.snapshot (gnmiToXpath anyPortSpeed))[storeKey portSpeed]? = none ∧
      (speedStore.collect (gnmiToXpath anyPortSpeed) []).1 = [] ∧
      (speedStore.snapshot (gnmiToXpath everyPortSpeed))[storeKey portSpeed]? = some speedLeaf := by
  refine ⟨by decide +kernel, by decide +kernel, fun noKeys => ?_, ⟨by decide, by decide +kernel⟩,
    speedStore_find, ?_, ?_, ?_⟩
  · exact absurd (noKeys _ List.mem_cons_self) (List.cons_ne_nil _ _)
  · decide +kernel
  · decide +kernel
  · decide +kernel

end Backend
end PscMockServer
