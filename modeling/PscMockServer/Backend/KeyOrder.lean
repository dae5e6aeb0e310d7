import PscMockServer.Backend.OmittedKeys
import PscMockServer.Backend.StoreBackedProvider

namespace PscMockServer
namespace Backend

open Foundations Gnmi Utils

/-!
# The order in which keys are enumerated

A protobuf map may be enumerated in any order, and two enumerations of one map are the
same message.  `gnmi_to_xpath` writes the keys as it meets them, so the xpath depends on
the order as soon as an element has two keys, and with it every answer of the store.
-/

/-! ## Two enumerations of one path -/

/-- The same element, with its key map enumerated in another order. -/
def SameElem (elem other : PathElem) : Prop :=
  elem.name = other.name ∧ elem.key.entries.Perm other.key.entries

instance (elem other : PathElem) : Decidable (SameElem elem other) :=
  inferInstanceAs (Decidable (_ ∧ _))

/-- The same path, with its key maps enumerated in another order. -/
def Enumerates (path other : Path) : Prop :=
  path.origin = other.origin ∧ List.Forall₂ SameElem path.elem other.elem

instance (path other : Path) : Decidable (Enumerates path other) :=
  inferInstanceAs (Decidable (_ ∧ _))

/-- Everything that takes an xpath to a leaf store or a store-backed provider answers the
two alike, whatever is stored. -/
structure AnsweredAlike (xpath other : Str) : Prop where
  commit : ∀ (store : LeafStore) (op : WriteOp),
    store.commit ⟨[{ op with xpath := xpath }]⟩ = store.commit ⟨[{ op with xpath := other }]⟩
  get : ∀ store : LeafStore, store.get xpath = store.get other
  schemaType : ∀ provider : StoreBackedProvider, provider.schemaType xpath = provider.schemaType other
  writable : ∀ provider : StoreBackedProvider, provider.writable xpath = provider.writable other
  snapshot : ∀ store : LeafStore, store.snapshot xpath = store.snapshot other
  collect : ∀ (store : LeafStore) (list : List Update), store.collect xpath list = store.collect other list

/-- All of them look at the normalised string only, and `get` at all of it. -/
theorem answeredAlike_iff (xpath other : Str) :
    AnsweredAlike xpath other ↔ stripPathQuotes xpath = stripPathQuotes other := by
  constructor
  · intro alike
    have leaf : Leaf := { val := .unset, collectedNs := 0 }
    have here : (LeafStore.mk ((∅ : Snapshot).insert (stripPathQuotes xpath) leaf)).get xpath = some leaf := by
      rw [LeafStore.get, OrdMap.insert_find, if_pos rfl]
    rw [alike.get, LeafStore.get, OrdMap.insert_find, Std.ExtTreeMap.getElem?_empty] at here
    by_contra different
    rw [if_neg different] at here
    cases here
  · intro same
    have types : ∀ provider : StoreBackedProvider, provider.schemaType xpath = provider.schemaType other := by
      intro provider
      rw [StoreBackedProvider.schemaType, StoreBackedProvider.schemaType, same]
    refine ⟨fun store op => ?_, fun store => ?_, types, fun provider => ?_, fun store => ?_, fun store list => ?_⟩
    · simp only [LeafStore.commit, List.foldl_cons, List.foldl_nil, LeafStore.applyOp, same]
    · rw [LeafStore.get, LeafStore.get, same]
    · rw [StoreBackedProvider.writable, StoreBackedProvider.writable, types]
    · rw [LeafStore.snapshot, LeafStore.snapshot, same]
    · rw [LeafStore.collect, LeafStore.collect, same]

/-! ## What a key contributes to the normalised string -/

/-- The normalised text of one predicate. -/
def storedPredicate (entry : Str × Str) : Str :=
  '[' :: (stripPathQuotes entry.1 ++ '=' :: (stripPathQuotes entry.2 ++ [']']))

/-- Any two keys of an element read the same in both orders. -/
def KeysCommute (path : Path) : Prop :=
  ∀ elem ∈ path.elem, elem.key.entries.Pairwise (fun first second =>
    storedPredicate first ++ storedPredicate second = storedPredicate second ++ storedPredicate first)

theorem stripPathQuotes_keyPredicates (key : KeyMap) :
    stripPathQuotes (keyPredicates key) = key.entries.flatMap storedPredicate := by
  rw [keyPredicates, stripPathQuotes, List.filter_flatMap]
  apply List.flatMap_congr
  intro entry _
  simp [storedPredicate, stripPathQuotes]

/-- The predicates of one element come out of the string. -/
theorem gnmiToXpath_around (path : Path) {before after : List PathElem} {elem : PathElem}
    (split : path.elem = before ++ elem :: after) :
    ∃ front back : Str, ∀ key : KeyMap,
      gnmiToXpath { path with elem := before ++ { elem with key := key } :: after } =
        front ++ keyPredicates key ++ back := by
  cases before with
  | nil =>
      refine ⟨'/' :: (originMark path.origin ++ elem.name), after.flatMap elemText, fun key => ?_⟩
      rw [gnmiToXpath_written, List.nil_append, writtenElems, List.flatMap_cons, elemText]
      simp only [List.cons_append, List.append_assoc]
  | cons first before =>
      refine ⟨elemText { first with name := originMark path.origin ++ first.name } ++
        before.flatMap elemText ++ '/' :: elem.name, after.flatMap elemText, fun key => ?_⟩
      rw [gnmiToXpath_written, List.cons_append, writtenElems, List.flatMap_cons, List.flatMap_append,
        List.flatMap_cons, elemText, elemText]
      simp only [List.cons_append, List.append_assoc]

/-- Enumerations are written with the same origin before the same names. -/
theorem Enumerates.written {path other : Path} (enumerates : Enumerates path other) :
    List.Forall₂ SameElem (writtenElems path) (writtenElems other) := by
  rcases enumerates with ⟨origins, elems⟩
  rw [writtenElems, writtenElems, ← origins]
  generalize path.elem = ownElems at elems ⊢
  generalize other.elem = otherElems at elems ⊢
  cases elems with
  | nil => exact List.Forall₂.nil
  | cons same rest =>
      exact List.Forall₂.cons ⟨congrArg (fun name => originMark path.origin ++ name) same.1, same.2⟩ rest

/-- Keys that commute leave every enumeration with the same normalised string. -/
theorem storeKey_of_commute {path other : Path} (enumerates : Enumerates path other)
    (commute : KeysCommute path) : storeKey path = storeKey other := by
  have texts : ∀ {elems others : List PathElem}, List.Forall₂ SameElem elems others ->
      (∀ elem ∈ elems, elem.key.entries.Pairwise (fun first second =>
        storedPredicate first ++ storedPredicate second = storedPredicate second ++ storedPredicate first)) ->
      stripPathQuotes (elems.flatMap elemText) = stripPathQuotes (others.flatMap elemText) := by
    intro elems others pairs commute
    induction pairs with
    | nil => rfl
    | @cons elem other elems others same _ inductionHypothesis =>
        have later := inductionHypothesis (fun next member => commute next (List.mem_cons_of_mem elem member))
        have here : stripPathQuotes (keyPredicates elem.key) = stripPathQuotes (keyPredicates other.key) := by
          rw [stripPathQuotes_keyPredicates, stripPathQuotes_keyPredicates]
          exact flatMap_perm same.2 (commute elem List.mem_cons_self)
        rw [List.flatMap_cons, List.flatMap_cons, stripPathQuotes_append, stripPathQuotes_append, later,
          elemText, elemText, stripPathQuotes_cons (by decide), stripPathQuotes_cons (by decide),
          stripPathQuotes_append, stripPathQuotes_append, same.1, here]
  rw [storeKey, storeKey, gnmiToXpath_written, gnmiToXpath_written]
  apply texts enumerates.written
  intro elem member
  have isKey := List.mem_map_of_mem (f := PathElem.key) member
  rw [writtenElems_keys] at isKey
  rcases List.mem_map.mp isKey with ⟨original, listed, sameKey⟩
  rw [← sameKey]
  exact commute original listed

/-- The same path with one key map enumerated as `entries`. -/
theorem enumerates_around {path : Path} {before after : List PathElem} {elem : PathElem} (key : KeyMap)
    (split : path.elem = before ++ elem :: after) (perm : elem.key.entries.Perm key.entries) :
    Enumerates path { path with elem := before ++ { elem with key := key } :: after } := by
  have refl : ∀ elems : List PathElem, List.Forall₂ SameElem elems elems :=
    fun elems => List.forall₂_same.mpr (fun elem _ => ⟨rfl, List.Perm.refl _⟩)
  refine ⟨rfl, ?_⟩
  rw [split]
  exact List.rel_append (refl before) (List.Forall₂.cons ⟨rfl, perm⟩ (refl after))

/-- Two keys that do not commute make two enumerations with different strings. -/
theorem commute_of_storeKey {path : Path}
    (alike : ∀ first second, Enumerates path first -> Enumerates path second ->
      storeKey first = storeKey second) : KeysCommute path := by
  intro elem member
  rcases List.append_of_mem member with ⟨before, after, split⟩
  rcases gnmiToXpath_around path split with ⟨front, back, around⟩
  -- every order of the keys gives the same predicates
  have anyOrder : ∀ entries : List (Str × Str), elem.key.entries.Perm entries ->
      entries.flatMap storedPredicate = elem.key.entries.flatMap storedPredicate := by
    intro entries perm
    let key : KeyMap := ⟨entries, (perm.map Prod.fst).nodup_iff.mp elem.key.nodup⟩
    have same := alike _ _ (enumerates_around key split perm)
      (enumerates_around elem.key split (List.Perm.refl _))
    rw [storeKey, storeKey, around, around, stripPathQuotes_append, stripPathQuotes_append,
      stripPathQuotes_append, stripPathQuotes_append, List.append_cancel_right_eq,
      List.append_cancel_left_eq, stripPathQuotes_keyPredicates, stripPathQuotes_keyPredicates] at same
    exact same
  rw [List.pairwise_iff_forall_sublist]
  intro first second pair
  rcases pair.exists_perm_append with ⟨rest, whole⟩
  have forward := anyOrder (first :: second :: rest) whole
  have backward := anyOrder (second :: first :: rest) (whole.trans (List.Perm.swap second first rest))
  rw [← backward, List.flatMap_cons, List.flatMap_cons, List.flatMap_cons, List.flatMap_cons,
    ← List.append_assoc, ← List.append_assoc, List.append_cancel_right_eq] at forward
  exact forward

/-- Keys that can be told apart in the text commute only when there is at most one. -/
theorem pairwise_commute_iff {elem : PathElem} (clear : Unambiguous elem) :
    elem.key.entries.Pairwise (fun first second =>
      storedPredicate first ++ storedPredicate second = storedPredicate second ++ storedPredicate first) ↔
      elem.key.entries.length ≤ 1 := by
  have keys := elem.key.nodup
  have entriesClear := clear.2
  cases listed : elem.key.entries with
  | nil => exact ⟨fun _ => Nat.zero_le 1, fun _ => List.Pairwise.nil⟩
  | cons first rest =>
      cases rest with
      | nil => exact ⟨fun _ => Nat.le_refl 1, fun _ => List.pairwise_singleton _ _⟩
      | cons second rest =>
          refine ⟨fun commute => ?_, fun short => absurd short (by simp)⟩
          rw [listed] at keys entriesClear
          have free : ∀ entry ∈ first :: second :: rest, '=' ∉ stripPathQuotes entry.1 ∧
              stripPathQuotes entry.1 = entry.1 := by
            intro entry member
            have known := (entriesClear entry member).1
            have same := stripPathQuotes_eq_self (known '"' (by decide))
            rw [same]
            exact ⟨known '=' (by decide), rfl⟩
          have isFirst := free first List.mem_cons_self
          have isSecond := free second (List.mem_cons_of_mem first List.mem_cons_self)
          have both := (List.pairwise_cons.mp commute).1 second List.mem_cons_self
          simp only [storedPredicate, List.cons_append, List.append_assoc, List.cons.injEq, true_and] at both
          have names := (append_delimiter_inj isFirst.1 isSecond.1 both).1
          rw [isFirst.2, isSecond.2] at names
          exact absurd (names ▸ List.mem_cons_self) (List.nodup_cons.mp keys).1

/-- The enumerations of a path are answered alike exactly when any two keys of an element
read the same in both orders; with keys and values that can be cut out of the text, when
no element has two keys. -/
theorem enumeration_order_ignored_iff (path : Path) :
    ((∀ first second, Enumerates path first -> Enumerates path second ->
      AnsweredAlike (gnmiToXpath first) (gnmiToXpath second)) ↔ KeysCommute path) ∧
    ((∀ elem ∈ path.elem, Unambiguous elem) ->
      (KeysCommute path ↔ ∀ elem ∈ path.elem, elem.key.entries.length ≤ 1)) := by
  refine ⟨⟨fun alike => ?_, fun commute first second isFirst isSecond => ?_⟩, fun clear => ?_⟩
  · apply commute_of_storeKey
    intro first second isFirst isSecond
    exact (answeredAlike_iff _ _).mp (alike first second isFirst isSecond)
  · apply (answeredAlike_iff _ _).mpr
    exact (storeKey_of_commute isFirst commute).symm.trans (storeKey_of_commute isSecond commute)
  · constructor
    · exact fun commute elem member => (pairwise_commute_iff (clear elem member)).mp (commute elem member)
    · exact fun single elem member => (pairwise_commute_iff (clear elem member)).mpr (single elem member)

/-- One interface with two keys, enumerated both ways. -/
def slotAndPort : Path where
  elem := [⟨"interface".toList, ⟨[("slot".toList, "1".toList), ("port".toList, "2".toList)], by decide⟩⟩]

def portAndSlot : Path where
  elem := [⟨"interface".toList, ⟨[("port".toList, "2".toList), ("slot".toList, "1".toList)], by decide⟩⟩]

/-- A store with a leaf written through the first enumeration. -/
def slotStore : LeafStore :=
  ({} : LeafStore).commit (({} : WriteBatch).set (gnmiToXpath slotAndPort) (.intVal 1) 1)

/-- What is stored through one enumeration is not found through the other. -/
theorem enumeration_order_matters :
    Enumerates slotAndPort slotAndPort ∧ Enumerates slotAndPort portAndSlot ∧
      slotStore.get (gnmiToXpath slotAndPort) = some { val := .intVal 1, collectedNs := 1 } ∧
      slotStore.get (gnmiToXpath portAndSlot) = none ∧
      ¬ AnsweredAlike (gnmiToXpath slotAndPort) (gnmiToXpath portAndSlot) := by
  have keys : stripPathQuotes (gnmiToXpath slotAndPort) ≠ stripPathQuotes (gnmiToXpath portAndSlot) := by
    decide +kernel
  refine ⟨by decide +kernel, by decide +kernel, by decide +kernel, by decide +kernel, ?_⟩
  exact fun alike => keys ((answeredAlike_iff _ _).mp alike)

end Backend
end PscMockServer
