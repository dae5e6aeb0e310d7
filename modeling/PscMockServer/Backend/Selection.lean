import PscMockServer.Backend.LeafStore
import PscMockServer.Utils.PathPrefix

namespace PscMockServer
namespace Backend

open Foundations Gnmi Utils

/-!
# Which leaves a query selects

The store compares strings.  On paths that can be cut up again the comparison has a
meaning on elements: the names of the query are the first names of the leaf, and either
the query gives no key at all or its keys lead those of the leaf.  With at most one key
for each element that is the subtree of the query.
-/

/-! ## Dropping the predicates -/

/-- No bracket inside a name, a key or a value. -/
def BracketFree (elem : PathElem) : Prop :=
  ('[' ∉ elem.name ∧ ']' ∉ elem.name) ∧
    ∀ entry ∈ elem.key.entries, ('[' ∉ entry.1 ∧ ']' ∉ entry.1) ∧ '[' ∉ entry.2 ∧ ']' ∉ entry.2

/-- The element with its name alone. -/
def bare (elem : PathElem) : PathElem where
  name := elem.name

theorem bare_names (elems : List PathElem) :
    (elems.map bare).map PathElem.name = elems.map PathElem.name := by
  rw [List.map_map]
  rfl

/-- Text without brackets is kept outside a predicate. -/
theorem stripKeysLoop_outside {text : Str} (clean : '[' ∉ text ∧ ']' ∉ text) (rest out : Str) :
    stripKeysLoop (text ++ rest) false out = stripKeysLoop rest false (out ++ text) := by
  induction text generalizing out with
  | nil => rw [List.nil_append, List.append_nil]
  | cons c text inductionHypothesis =>
      simp only [List.mem_cons, not_or] at clean
      rw [List.cons_append, stripKeysLoop, if_neg (fun same => clean.1.1 same.symm),
        if_neg (fun same => clean.2.1 same.symm), if_neg Bool.false_ne_true,
        inductionHypothesis ⟨clean.1.2, clean.2.2⟩, List.append_assoc, List.singleton_append]

/-- Text without brackets is dropped inside a predicate. -/
theorem stripKeysLoop_inside {text : Str} (clean : '[' ∉ text ∧ ']' ∉ text) (rest out : Str) :
    stripKeysLoop (text ++ rest) true out = stripKeysLoop rest true out := by
  induction text with
  | nil => rfl
  | cons c text inductionHypothesis =>
      simp only [List.mem_cons, not_or] at clean
      rw [List.cons_append, stripKeysLoop, if_neg (fun same => clean.1.1 same.symm),
        if_neg (fun same => clean.2.1 same.symm), if_pos rfl]
      exact inductionHypothesis ⟨clean.1.2, clean.2.2⟩

/-- The loop drops every predicate. -/
theorem stripKeysLoop_predicates {entries : List (Str × Str)}
    (free : ∀ entry ∈ entries, ('[' ∉ entry.1 ∧ ']' ∉ entry.1) ∧ '[' ∉ entry.2 ∧ ']' ∉ entry.2)
    (rest out : Str) :
    stripKeysLoop (predicatesText id entries ++ rest) false out = stripKeysLoop rest false out := by
  induction entries with
  | nil => rfl
  | cons entry entries inductionHypothesis =>
      have here := free entry List.mem_cons_self
      have inner : '[' ∉ entry.1 ++ '=' :: entry.2 ∧ ']' ∉ entry.1 ++ '=' :: entry.2 := by
        simp only [List.mem_append, List.mem_cons, not_or]
        exact ⟨⟨here.1.1, by decide, here.2.1⟩, ⟨here.1.2, by decide, here.2.2⟩⟩
      have shape : predicatesText id (entry :: entries) ++ rest =
          '[' :: ((entry.1 ++ '=' :: entry.2) ++ ']' :: (predicatesText id entries ++ rest)) := by
        rw [predicatesText_cons, predicateText]
        simp only [id, List.cons_append, List.append_assoc, List.nil_append]
      rw [shape, stripKeysLoop, if_pos rfl, stripKeysLoop_inside inner, stripKeysLoop,
        if_neg (by decide), if_pos rfl]
      exact inductionHypothesis (fun other member => free other (List.mem_cons_of_mem entry member))

theorem stripKeys_elementsText {elems : List PathElem} (free : ∀ elem ∈ elems, BracketFree elem) :
    stripKeys (elementsText id elems) = elementsText id (elems.map bare) := by
  have loop : ∀ out, stripKeysLoop (elementsText id elems) false out =
      out ++ elementsText id (elems.map bare) := by
    induction elems with
    | nil => exact fun out => (List.append_nil out).symm
    | cons elem elems inductionHypothesis =>
        intro out
        have here := free elem List.mem_cons_self
        have later := inductionHypothesis
          (fun other member => free other (List.mem_cons_of_mem elem member))
        have name : elementText id (bare elem) = elem.name := List.append_nil _
        rw [elementsText_cons, List.map_cons, elementsText_cons, name, stripKeysLoop,
          if_neg (by decide), if_neg (by decide), if_neg Bool.false_ne_true, elementText,
          List.append_assoc, stripKeysLoop_outside here.1, stripKeysLoop_predicates here.2, later]
        simp only [List.append_assoc, List.cons_append, List.nil_append]
  exact loop []

/-! ## What a query selects -/

/-- No element gives a key. -/
def NoKeys (elems : List PathElem) : Prop :=
  ∀ elem ∈ elems, elem.key.entries = []

theorem noKeys_iff_keys (elems : List PathElem) :
    NoKeys elems ↔ ∀ key ∈ elems.map PathElem.key, key.entries = [] := by
  rw [NoKeys, List.forall_mem_map]

/-- The bracket in a query string is the one of a key. -/
theorem bracket_mem_iff {query : List PathElem} (clear : ∀ elem ∈ query, Unambiguous elem) :
    '[' ∈ elementsText id query ↔ ¬ NoKeys query := by
  constructor
  · intro member noKeys
    rcases List.mem_flatMap.mp member with ⟨text, listed, inText⟩
    rcases List.mem_map.mp listed with ⟨elem, isElement, rfl⟩
    rcases List.mem_cons.mp inText with slash | inText
    · exact absurd slash (by decide)
    · rw [elementText, noKeys elem isElement] at inText
      rcases List.mem_append.mp inText with inName | inKeys
      · exact (clear elem isElement).1 '[' (by decide) inName
      · cases inKeys
  · intro keyed
    rw [NoKeys] at keyed
    push Not at keyed
    rcases keyed with ⟨elem, isElement, given⟩
    rcases List.exists_cons_of_ne_nil given with ⟨entry, entries, known⟩
    apply List.mem_flatMap.mpr
    refine ⟨elementText id elem, List.mem_map_of_mem isElement, List.mem_cons_of_mem _ ?_⟩
    rw [elementText, known]
    exact List.mem_append_right _ List.mem_cons_self

/-- A query that gives a key selects the leaves it leads. -/
theorem selects_keyed_iff {query leaf : List PathElem} (clear : ∀ elem ∈ query, Unambiguous elem)
    (leafClear : ∀ elem ∈ leaf, Unambiguous elem) (keyed : ¬ NoKeys query) :
    selects (elementsText id query) (elementsText id leaf) = true ↔
      query.map PathElem.name <+: leaf.map PathElem.name ∧
        LeadingKeys (query.map PathElem.key) (leaf.map PathElem.key) := by
  have bracket : (elementsText id query).contains '[' = true := by
    rw [List.contains_iff_mem, bracket_mem_iff clear]
    exact keyed
  rw [← isPathPrefix_elementsText_iff clear leafClear, selects, if_pos bracket]
  cases isPathPrefix (elementsText id query) (elementsText id leaf) with
  | true => exact ⟨fun _ => rfl, fun _ => rfl⟩
  | false => rfl

/-- Without any key a query compares names. -/
theorem selects_noKeys_iff {query leaf : List PathElem} (clear : ∀ elem ∈ query, Unambiguous elem)
    (leafClear : ∀ elem ∈ leaf, Unambiguous elem) (free : ∀ elem ∈ leaf, BracketFree elem)
    (noKeys : NoKeys query) :
    selects (elementsText id query) (elementsText id leaf) = true ↔
      query.map PathElem.name <+: leaf.map PathElem.name := by
  have noBracket : ¬ (elementsText id query).contains '[' = true := by
    rw [List.contains_iff_mem, bracket_mem_iff clear, not_not]
    exact noKeys
  have bareClear : ∀ elem ∈ leaf.map bare, Unambiguous elem := by
    intro elem member
    rcases List.mem_map.mp member with ⟨original, listed, rfl⟩
    exact ⟨(leafClear original listed).1, fun entry none_ => nomatch none_⟩
  have byName : isPathPrefix (elementsText id query) (elementsText id (leaf.map bare)) = true ↔
      query.map PathElem.name <+: leaf.map PathElem.name := by
    rw [isPathPrefix_elementsText_iff clear bareClear, bare_names]
    refine ⟨And.left, fun names => ⟨names, ?_⟩⟩
    -- the keys on both sides are the empty ones, as many as there are names
    have keys : query.map PathElem.key = (query.map PathElem.name).map (fun _ => KeyMap.empty) := by
      rw [List.map_map]
      exact List.map_congr_left (fun elem member => keyMap_ext (noKeys elem member))
    have bareKeys : (leaf.map bare).map PathElem.key =
        (leaf.map PathElem.name).map (fun _ => KeyMap.empty) := by
      rw [List.map_map, List.map_map]
      rfl
    rcases names with ⟨rest, same⟩
    rw [keys, bareKeys, ← same, List.map_append]
    exact leadingKeys_append _ _
  rw [selects]
  cases direct : isPathPrefix (elementsText id query) (elementsText id leaf) with
  | true =>
      rw [if_pos rfl]
      exact ⟨fun _ => ((isPathPrefix_elementsText_iff clear leafClear).mp direct).1, fun _ => rfl⟩
  | false => rw [if_neg Bool.false_ne_true, if_neg noBracket, stripKeys_elementsText free, byName]

/-! ## Snapshots and collections -/

/-- A snapshot is the store filtered by its query. -/
theorem LeafStore.snapshot_eq (store : LeafStore) (queryXpath : Str) :
    store.snapshot queryXpath =
      store.leaves.filter (fun key _ => selects (stripPathQuotes queryXpath) key) := by
  apply Std.ExtTreeMap.ext_getElem?
  intro key
  apply Option.ext
  intro leaf
  rw [LeafStore.snapshot_find_iff, OrdMap.filter_find]

/-- The update `collect` appends for one leaf. -/
def collectedUpdate (entry : Str × Leaf) : Update where
  path := some (xpathToGnmiPath entry.1 {})
  val := some entry.2.val

/-- `collect` appends the leaves of the snapshot, in order. -/
theorem LeafStore.collect_eq (store : LeafStore) (queryXpath : Str) (list : List Update) :
    (store.collect queryXpath list).1 =
      list ++ (store.snapshot queryXpath).toList.map collectedUpdate := by
  rw [LeafStore.snapshot_eq, Std.ExtTreeMap.toList_filter, LeafStore.collect,
    Std.ExtTreeMap.foldl_eq_foldl_toList]
  generalize store.leaves.toList = entries
  induction entries generalizing list with
  | nil => exact (List.append_nil list).symm
  | cons entry entries inductionHypothesis =>
      rw [List.foldl_cons, List.filter_cons]
      cases selects (stripPathQuotes queryXpath) entry.1 with
      | false =>
          rw [if_neg Bool.false_ne_true, if_neg Bool.false_ne_true]
          exact inductionHypothesis list
      | true =>
          rw [if_pos rfl, if_pos rfl, List.map_cons]
          refine (inductionHypothesis _).trans ?_
          rw [List.append_assoc]
          rfl

/-! ## Canonical paths -/

/-- The key a path is stored under. -/
def storeKey (path : Path) : Str :=
  stripPathQuotes (gnmiToXpath path)

/-- The path with these segments. -/
def canonicalPath (origin : Str) (segments : List Segment) : Path where
  origin := origin
  elem := segments.map Segment.elem

/-- No element of the query gives a key. -/
def Keyless (query : List Segment) : Prop :=
  ∀ segment ∈ query, segment.key = none

theorem entries_nil_iff (segment : Segment) : segment.elem.key.entries = [] ↔ segment.key = none := by
  cases keyed : segment.key with
  | none =>
      have entries : segment.elem.key.entries = [] := by simp only [Segment.elem, keyed]; rfl
      exact ⟨fun _ => rfl, fun _ => entries⟩
  | some entry =>
      have entries : segment.elem.key.entries = [entry] := by simp only [Segment.elem, keyed]; rfl
      rw [entries]
      exact ⟨fun empty => absurd empty (List.cons_ne_nil _ _), fun empty => absurd empty (Option.some_ne_none _)⟩

/-- With at most one key, keys that come first are all keys, unless they are none. -/
theorem key_of_entries {given element : Segment}
    (entries : given.elem.key.entries <+: element.elem.key.entries)
    (known : element.key ≠ none -> given.key ≠ none) : given.key = element.key := by
  cases elementKey : element.key with
  | none =>
      rw [(entries_nil_iff element).mpr elementKey] at entries
      exact (entries_nil_iff given).mp (List.prefix_nil.mp entries)
  | some entry =>
      rcases Option.ne_none_iff_exists'.mp (known (elementKey ▸ Option.some_ne_none entry)) with
        ⟨other, givenKey⟩
      simp only [Segment.elem, givenKey, elementKey] at entries
      have same : other = entry := (List.cons_prefix_cons.mp entries).1
      rw [givenKey, same]

theorem not_mem_entries (segment : Segment) {c : Char} (special : c ∈ reserved) :
    ∀ entry ∈ segment.elem.key.entries, c ∉ entry.1 ∧ c ∉ entry.2 := by
  intro entry listed
  have entryPlain := segment.entries_plain entry listed
  exact ⟨not_mem_of_plain entryPlain.1 special, not_mem_of_plain entryPlain.2 special⟩

/-- An origin before the first name leaves a canonical path unambiguous and free of brackets. -/
theorem writtenElems_canonical {origin : Str} (originPlain : plain origin = true) (segments : List Segment) :
    ∀ elem ∈ writtenElems (canonicalPath origin segments), Unambiguous elem ∧ BracketFree elem := by
  intro elem member
  rcases mem_writtenElems member with ⟨original, listed, front, rfl, inFront⟩
  rcases List.mem_map.mp listed with ⟨segment, _, rfl⟩
  have name : ∀ c ∈ reserved, c ∉ front ++ segment.name := by
    intro c special inName
    rcases List.mem_append.mp inName with early | inName
    · rcases inFront c early with inOrigin | rfl
      · exact not_mem_of_plain originPlain special inOrigin
      · exact absurd special (by decide)
    · exact not_mem_of_plain segment.name_plain special inName
  have opening := not_mem_entries segment (by decide : '[' ∈ reserved)
  have closing := not_mem_entries segment (by decide : ']' ∈ reserved)
  constructor
  · refine ⟨fun c special => ?_, fun entry listed => ⟨fun c special => ?_, fun c special => ?_⟩⟩
    · exact name c ((by decide : ['/', '[', '"'] ⊆ reserved) special)
    · exact (not_mem_entries segment ((by decide : ['=', '"'] ⊆ reserved) special) entry listed).1
    · exact (not_mem_entries segment ((by decide : [']', '"'] ⊆ reserved) special) entry listed).2
  · refine ⟨⟨name '[' (by decide), name ']' (by decide)⟩, fun entry listed => ?_⟩
    have open_ := opening entry listed
    have close := closing entry listed
    exact ⟨⟨open_.1, close.1⟩, open_.2, close.2⟩

/-- The origin before the first names makes no difference to a comparison of names. -/
theorem written_names_iff {query leaf : Path} (origins : query.origin = leaf.origin) :
    (writtenElems query).map PathElem.name <+: (writtenElems leaf).map PathElem.name ↔
      query.elem.map PathElem.name <+: leaf.elem.map PathElem.name := by
  rw [writtenElems, writtenElems, origins]
  cases query.elem with
  | nil => exact ⟨fun _ => List.nil_prefix, fun _ => List.nil_prefix⟩
  | cons given query =>
      cases leaf.elem with
      | nil => exact ⟨fun none_ => absurd (List.prefix_nil.mp none_) (List.cons_ne_nil _ _),
          fun none_ => absurd (List.prefix_nil.mp none_) (List.cons_ne_nil _ _)⟩
      | cons element leaf =>
          rw [List.map_cons, List.map_cons, List.map_cons, List.map_cons, List.cons_prefix_cons,
            List.cons_prefix_cons, List.append_cancel_left_eq]

/-- The keys of the segments, one key map for each. -/
def keysOf (segments : List Segment) : List KeyMap :=
  segments.map (fun segment => segment.elem.key)

/-- What a query selects, in terms of segments. -/
theorem selects_segments_iff {origin : Str} (originPlain : plain origin = true) (query leaf : List Segment) :
    selects (storeKey (canonicalPath origin query)) (storeKey (canonicalPath origin leaf)) = true ↔
      query.map Segment.name <+: leaf.map Segment.name ∧
        (Keyless query ∨ LeadingKeys (keysOf query) (keysOf leaf)) := by
  have known := writtenElems_canonical originPlain query
  have leafKnown := writtenElems_canonical originPlain leaf
  have clear := fun elem member => (known elem member).1
  have leafClear := fun elem member => (leafKnown elem member).1
  have names : ∀ segments : List Segment,
      (canonicalPath origin segments).elem.map PathElem.name = segments.map Segment.name := by
    intro segments
    rw [canonicalPath, List.map_map]
    rfl
  have keys : ∀ segments : List Segment,
      (writtenElems (canonicalPath origin segments)).map PathElem.key = keysOf segments := by
    intro segments
    rw [writtenElems_keys, canonicalPath, List.map_map]
    rfl
  have byName : (writtenElems (canonicalPath origin query)).map PathElem.name <+:
      (writtenElems (canonicalPath origin leaf)).map PathElem.name ↔
        query.map Segment.name <+: leaf.map Segment.name := by
    have origins : (canonicalPath origin query).origin = (canonicalPath origin leaf).origin := rfl
    rw [written_names_iff origins, names, names]
  have keyless : NoKeys (writtenElems (canonicalPath origin query)) ↔ Keyless query := by
    rw [noKeys_iff_keys, keys, keysOf, List.forall_mem_map]
    exact forall₂_congr (fun segment _ => entries_nil_iff segment)
  rw [storeKey, storeKey, stripPathQuotes_written (fun elem member => (clear elem member).quoteFree),
    stripPathQuotes_written (fun elem member => (leafClear elem member).quoteFree)]
  by_cases noKeys : Keyless query
  · rw [selects_noKeys_iff clear leafClear (fun elem member => (leafKnown elem member).2)
      (keyless.mpr noKeys), byName]
    exact ⟨fun front => ⟨front, Or.inl noKeys⟩, And.left⟩
  · rw [selects_keyed_iff clear leafClear (fun none_ => noKeys (keyless.mp none_)), byName, keys, keys]
    exact and_congr_right (fun _ => (or_iff_right noKeys).symm)

/-! ## Subtrees -/

/-- Wherever the leaf has a key within the length of the query, the query gives one. -/
def KeyedLike (query leaf : List Segment) : Prop :=
  ∀ (i : Nat) (given element : Segment), query[i]? = some given -> leaf[i]? = some element ->
    element.key ≠ none -> given.key ≠ none

/-- The leaf is in the subtree of the query: the elements of the query are its first
ones, by name only if the query gives no key. -/
def InSubtree (query leaf : List Segment) : Prop :=
  query <+: leaf ∨ (Keyless query ∧ query.map Segment.name <+: leaf.map Segment.name)

/-- Names and keys that agree position by position. -/
theorem prefix_of_pointwise {query leaf : List Segment}
    (names : query.map Segment.name <+: leaf.map Segment.name)
    (keys : ∀ (i : Nat) (given element : Segment), query[i]? = some given -> leaf[i]? = some element ->
      given.key = element.key) : query <+: leaf := by
  induction query generalizing leaf with
  | nil => exact List.nil_prefix
  | cons given query inductionHypothesis =>
      cases leaf with
      | nil => exact absurd (List.prefix_nil.mp names) (List.cons_ne_nil _ _)
      | cons element leaf =>
          rw [List.map_cons, List.map_cons, List.cons_prefix_cons] at names
          rw [Segment.ext_of_fields names.1 (keys 0 given element rfl rfl)]
          apply List.cons_prefix_cons.mpr
          exact ⟨rfl, inductionHypothesis names.2 (fun i => keys (i + 1))⟩

theorem names_of_front {query leaf : List Segment} (front : query <+: leaf) :
    query.map Segment.name <+: leaf.map Segment.name := by
  rcases front with ⟨rest, rfl⟩
  rw [List.map_append]
  exact List.prefix_append _ _

/-- Without any key the query selects by name. -/
theorem selects_keyless {origin : Str} (originPlain : plain origin = true) {query : List Segment}
    (keyless : Keyless query) (leaf : List Segment) :
    selects (storeKey (canonicalPath origin query)) (storeKey (canonicalPath origin leaf)) = true ↔
      query.map Segment.name <+: leaf.map Segment.name := by
  rw [selects_segments_iff originPlain]
  exact ⟨And.left, fun names => ⟨names, Or.inl keyless⟩⟩

/-- With a key wherever the leaf has one, the query selects by element. -/
theorem selects_keyedLike {origin : Str} (originPlain : plain origin = true) {query leaf : List Segment}
    (keyedLike : KeyedLike query leaf) :
    selects (storeKey (canonicalPath origin query)) (storeKey (canonicalPath origin leaf)) = true ↔
      query <+: leaf := by
  rw [selects_segments_iff originPlain]
  constructor
  · rintro ⟨names, keys⟩
    apply prefix_of_pointwise names
    intro i given element isGiven isElement
    apply key_of_entries _ (keyedLike i given element isGiven isElement)
    rcases keys with keyless | leads
    · rw [(entries_nil_iff given).mpr (keyless given (List.mem_of_getElem? isGiven))]
      exact List.nil_prefix
    · apply leads.entries
      · rw [keysOf, List.getElem?_map, isGiven]
        rfl
      · rw [keysOf, List.getElem?_map, isElement]
        rfl
  · rintro ⟨rest, rfl⟩
    refine ⟨names_of_front (List.prefix_append query rest), Or.inr ?_⟩
    rw [keysOf, keysOf, List.map_append]
    exact leadingKeys_append _ _

/-- For paths of one origin: without any key a query selects by name, with a key wherever
the leaf has one it selects by name and key, and a snapshot or a collection is that
subtree. -/
theorem selection_is_subtree {origin : Str} (originPlain : plain origin = true) (query : List Segment) :
    (Keyless query -> ∀ leaf,
      (selects (storeKey (canonicalPath origin query)) (storeKey (canonicalPath origin leaf)) = true ↔
        query.map Segment.name <+: leaf.map Segment.name)) ∧
    (∀ leaf, KeyedLike query leaf ->
      (selects (storeKey (canonicalPath origin query)) (storeKey (canonicalPath origin leaf)) = true ↔
        query <+: leaf)) ∧
    ∀ store : LeafStore,
      (∀ leaf value, Keyless query ∨ KeyedLike query leaf ->
        ((store.snapshot (gnmiToXpath (canonicalPath origin query)))[
            storeKey (canonicalPath origin leaf)]? = some value ↔
          store.leaves[storeKey (canonicalPath origin leaf)]? = some value ∧ InSubtree query leaf)) ∧
      ∀ list, (store.collect (gnmiToXpath (canonicalPath origin query)) list).1 =
        list ++ (store.snapshot (gnmiToXpath (canonicalPath origin query))).toList.map collectedUpdate := by
  refine ⟨selects_keyless originPlain, fun leaf => selects_keyedLike originPlain,
    fun store => ⟨?_, store.collect_eq _⟩⟩
  intro leaf value known
  have inSubtree : selects (storeKey (canonicalPath origin query))
      (storeKey (canonicalPath origin leaf)) = true ↔ InSubtree query leaf := by
    rcases known with keyless | keyedLike
    · rw [selects_keyless originPlain keyless]
      constructor
      · exact fun names => Or.inr ⟨keyless, names⟩
      · exact fun inside => inside.elim names_of_front And.right
    · constructor
      · exact fun selected => Or.inl ((selects_keyedLike originPlain keyedLike).mp selected)
      · rintro (front | ⟨keyless, names⟩)
        · exact (selects_keyedLike originPlain keyedLike).mpr front
        · exact (selects_keyless originPlain keyless leaf).mpr names
  rw [LeafStore.snapshot_find_iff]
  exact and_congr_right (fun _ => inSubtree)

theorem noKey_plain : (none : Option (Str × Str)).all (fun entry => plain entry.1 && plain entry.2) = true :=
  rfl

/-- A port of slot 1, and its speed. -/
def slotOne : Segment where
  name := "slot".toList
  key := some ("id".toList, "1".toList)
  name_nonempty := rfl
  name_plain := by decide
  key_plain := by decide

def portTwo : Segment where
  name := "port".toList
  key := some ("id".toList, "2".toList)
  name_nonempty := rfl
  name_plain := by decide
  key_plain := by decide

def speed : Segment where
  name := "speed".toList
  name_nonempty := rfl
  name_plain := by decide
  key_plain := noKey_plain

/-- The segment with its name alone. -/
def withoutKey (segment : Segment) : Segment where
  name := segment.name
  name_nonempty := segment.name_nonempty
  name_plain := segment.name_plain
  key_plain := noKey_plain

/-- A query that gives both keys, and one that gives none, select the speed. -/
theorem speed_selected :
    selects (storeKey (canonicalPath [] [slotOne, portTwo]))
        (storeKey (canonicalPath [] [slotOne, portTwo, speed])) = true ∧
      selects (storeKey (canonicalPath [] [withoutKey slotOne, withoutKey portTwo]))
        (storeKey (canonicalPath [] [slotOne, portTwo, speed])) = true := by
  have noOrigin : plain [] = true := rfl
  constructor
  · refine ((selection_is_subtree noOrigin [slotOne, portTwo]).2.1 [slotOne, portTwo, speed] ?_).mpr ?_
    · rintro (_ | _ | i) given element isGiven isElement keyed
      · cases isGiven
        exact Option.some_ne_none _
      · cases isGiven
        exact Option.some_ne_none _
      · cases isGiven
    · exact List.prefix_append [slotOne, portTwo] [speed]
  · refine ((selection_is_subtree noOrigin [withoutKey slotOne, withoutKey portTwo]).1 ?_ _).mpr ?_
    · intro segment member
      simp only [List.mem_cons, List.not_mem_nil, or_false] at member
      rcases member with rfl | rfl
      · rfl
      · rfl
    · exact List.prefix_append [slotOne.name, portTwo.name] [speed.name]

/-- The origin of a query is written before its first name, so a query with an origin does
not select a leaf that was stored without. -/
theorem origin_not_selected :
    ¬ ∀ (origin leafOrigin : Str) (query leaf : List Segment), plain origin = true ->
      plain leafOrigin = true -> Keyless query ->
        (selects (storeKey (canonicalPath origin query)) (storeKey (canonicalPath leafOrigin leaf)) = true ↔
          query.map Segment.name <+: leaf.map Segment.name) := by
  intro every
  have keyless : Keyless [speed] := by
    intro segment member
    rw [List.mem_singleton.mp member]
    rfl
  have selected := (every "openconfig".toList [] [speed] [speed] (by decide) rfl keyless).mpr
    (List.prefix_refl _)
  have missed : selects (storeKey (canonicalPath "openconfig".toList [speed]))
      (storeKey (canonicalPath [] [speed])) = false := by
    decide +kernel
  rw [missed] at selected
  exact absurd selected Bool.false_ne_true

end Backend
end PscMockServer
