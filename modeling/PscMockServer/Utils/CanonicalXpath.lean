import PscMockServer.Utils.Parsing

namespace PscMockServer
namespace Utils

open Foundations Gnmi

/-!
# Canonical xpaths

A canonical xpath is a list of segments, each a nonempty name with at most one
`[key=value]` predicate, and none of the reserved characters inside a name, a key
or a value.  Every leaf path the server declares has this form.  On these strings
the parser reads the segments back, so two of them denote the same gNMI path only
when they are equal, and the slash-boundary prefix order of strings is the prefix
order of element lists.
-/

/-- The characters with a meaning in an xpath. -/
def reserved : Str := ['/', '[', ']', '=', '"', '\'']

/-- No reserved character occurs. -/
def plain (s : Str) : Bool :=
  s.all (fun c => !reserved.contains c)

theorem not_mem_of_plain {s : Str} (isPlain : plain s = true) {c : Char} (special : c ∈ reserved) :
    c ∉ s := by
  intro member
  have clean := List.all_eq_true.mp isPlain c member
  rw [List.contains_iff_mem.mpr special] at clean
  exact absurd clean Bool.false_ne_true

/-- One element of a canonical xpath. -/
structure Segment where
  name : Str
  key : Option (Str × Str) := none
  name_nonempty : name.isEmpty = false
  name_plain : plain name = true
  key_plain : key.all (fun entry => plain entry.1 && plain entry.2) = true

namespace Segment

theorem ext_of_fields {left right : Segment} (names : left.name = right.name)
    (keys : left.key = right.key) : left = right := by
  cases left
  cases right
  cases names
  cases keys
  rfl

/-- The text of a segment after its slash. -/
def text (segment : Segment) : Str :=
  segment.name ++
    match segment.key with
    | none => []
    | some (key, value) => '[' :: (key ++ '=' :: (value ++ [']']))

def elem (segment : Segment) : PathElem where
  name := segment.name
  key :=
    match segment.key with
    | none => KeyMap.empty
    | some (key, value) => KeyMap.single key value

def node (segment : Segment) : Node := segment.elem.node

theorem text_ne_nil (segment : Segment) : segment.text ≠ [] := by
  intro empty
  have nameEmpty := (List.append_eq_nil_iff.mp empty).1
  have nonempty := segment.name_nonempty
  rw [nameEmpty] at nonempty
  cases nonempty

theorem key_entry_plain (segment : Segment) {key value : Str} (keyed : segment.key = some (key, value)) :
    plain key = true ∧ plain value = true := by
  have both := segment.key_plain
  rw [keyed] at both
  exact Bool.and_eq_true_iff.mp both

/-- The keys and values of a segment's element are plain. -/
theorem entries_plain (segment : Segment) :
    ∀ entry ∈ segment.elem.key.entries, plain entry.1 = true ∧ plain entry.2 = true := by
  intro entry listed
  cases keyed : segment.key with
  | none =>
      simp only [Segment.elem, keyed] at listed
      cases listed
  | some known =>
      simp only [Segment.elem, keyed] at listed
      rw [List.mem_singleton.mp listed]
      exact segment.key_entry_plain keyed

/-- A reserved character of a segment is one of its predicate's delimiters. -/
theorem not_mem_text (segment : Segment) {c : Char} (special : c ∈ reserved)
    (notDelimiter : c ≠ '[' ∧ c ≠ '=' ∧ c ≠ ']') : c ∉ segment.text := by
  intro member
  rcases List.mem_append.mp member with inName | inKey
  · exact not_mem_of_plain segment.name_plain special inName
  · cases keyed : segment.key with
    | none => rw [keyed] at inKey; cases inKey
    | some entry =>
        rcases entry with ⟨key, value⟩
        have entryPlain := segment.key_entry_plain keyed
        rw [keyed] at inKey
        simp only [List.mem_cons, List.mem_append, List.not_mem_nil, or_false] at inKey
        rcases inKey with bracket | inName | equals | inValue | close
        · exact notDelimiter.1 bracket
        · exact not_mem_of_plain entryPlain.1 special inName
        · exact notDelimiter.2.1 equals
        · exact not_mem_of_plain entryPlain.2 special inValue
        · exact notDelimiter.2.2 close

theorem slash_not_mem_text (segment : Segment) : '/' ∉ segment.text :=
  segment.not_mem_text (by decide) (by decide)

end Segment

/-- The xpath of a list of segments. -/
def xpathOf (segments : List Segment) : Str :=
  delimited '/' (segments.map Segment.text)

/-- A canonical xpath: at least one segment. -/
def Canonical (xpath : Str) : Prop :=
  ∃ segments : List Segment, segments ≠ [] ∧ xpath = xpathOf segments

theorem segments_delimiterFree (segments : List Segment) :
    DelimiterFree '/' (segments.map Segment.text) := by
  intro block member
  rcases List.mem_map.mp member with ⟨segment, _, rfl⟩
  exact segment.slash_not_mem_text

theorem xpathOf_append (first last : List Segment) :
    xpathOf (first ++ last) = xpathOf first ++ xpathOf last := by
  rw [xpathOf, List.map_append, delimited_append]
  rfl

theorem xpathOf_quoteFree (segments : List Segment) : '"' ∉ xpathOf segments := by
  intro member
  rcases List.mem_flatMap.mp member with ⟨block, inBlocks, inBlock⟩
  rcases List.mem_map.mp inBlocks with ⟨segment, _, rfl⟩
  rcases List.mem_cons.mp inBlock with slash | inText
  · exact absurd slash (by decide)
  · exact segment.not_mem_text (by decide) (by decide) inText

theorem Canonical.quoteFree {xpath : Str} (canonical : Canonical xpath) : '"' ∉ xpath := by
  rcases canonical with ⟨segments, _, rfl⟩
  exact xpathOf_quoteFree segments

theorem Canonical.strip {xpath : Str} (canonical : Canonical xpath) :
    stripPathQuotes xpath = xpath :=
  stripPathQuotes_eq_self canonical.quoteFree

/-! ## Parsing a segment -/

theorem stripValueQuotes_plain {val : Str} (isPlain : plain val = true) :
    stripValueQuotes val = val := by
  rw [stripValueQuotes, if_neg]
  rintro ⟨_, quoted⟩
  rcases quoted with doubleQuote | singleQuote
  · exact not_mem_of_plain isPlain (c := '"') (by decide) (List.mem_of_mem_head? doubleQuote)
  · exact not_mem_of_plain isPlain (c := '\'') (by decide) (List.mem_of_mem_head? singleQuote)

/-- The text of a segment is that of its element, with the values as they are. -/
theorem elementText_elem (segment : Segment) : elementText id segment.elem = segment.text := by
  cases keyed : segment.key with
  | none =>
      simp only [elementText, Segment.elem, Segment.text, keyed]
      rfl
  | some entry =>
      simp only [elementText, Segment.elem, Segment.text, keyed]
      exact congrArg (segment.name ++ ·) (List.append_nil _)

theorem parseElem_text (segment : Segment) : parseElem segment.text = segment.elem := by
  rw [← elementText_elem]
  apply parseElem_elementText
  · exact not_mem_of_plain segment.name_plain (by decide)
  · intro entry listed
    have keyPlain := (segment.entries_plain entry listed).1
    exact ⟨not_mem_of_plain keyPlain (by decide), not_mem_of_plain keyPlain (by decide)⟩
  · intro entry listed
    have valuePlain := (segment.entries_plain entry listed).2
    exact ⟨not_mem_of_plain valuePlain (by decide), stripValueQuotes_plain valuePlain⟩

/-! ## Parsing a canonical xpath -/

/-- The parser reads the segments of a canonical xpath back. -/
theorem xpathToGnmiPath_xpathOf (segments : List Segment) :
    xpathToGnmiPath (xpathOf segments) {} = { elem := segments.map Segment.elem } := by
  have elems : (segments.map Segment.text).map parseElem = segments.map Segment.elem := by
    rw [List.map_map]
    exact List.map_congr_left (fun segment _ => parseElem_text segment)
  rw [xpathOf, xpathToGnmiPath_delimited _ (segments_delimiterFree segments), elems]
  intro part listed
  rcases List.mem_map.mp listed with ⟨segment, _, rfl⟩
  exact segment.text_ne_nil

/-- The elements of a canonical xpath, as a receiver compares them. -/
theorem pathOf_xpathOf (segments : List Segment) :
    pathOf (xpathOf segments) = segments.map Segment.node := by
  rw [pathOf, xpathToGnmiPath_xpathOf]
  simp only [Path.nodes, List.map_map]
  rfl

/-! ## Distinct canonical xpaths are distinct paths -/

theorem single_toMap (key value : Str) :
    (KeyMap.single key value).toMap = (∅ : OrdMap Str Str).insert key value :=
  Std.ExtTreeMap.ofList_singleton

theorem empty_toMap : KeyMap.empty.toMap = ∅ :=
  Std.ExtTreeMap.ofList_nil

theorem Segment.node_injective {left right : Segment} (same : left.node = right.node) :
    left = right := by
  have names : left.name = right.name := congrArg Node.name same
  have keys : left.elem.key.toMap = right.elem.key.toMap := congrArg Node.key same
  refine Segment.ext_of_fields names ?_
  cases leftKey : left.key with
  | none =>
      cases rightKey : right.key with
      | none => rfl
      | some entry =>
          simp only [Segment.elem, leftKey, rightKey, empty_toMap, single_toMap] at keys
          have stored := OrdMap.insert_find (∅ : OrdMap Str Str) entry.1 entry.1 entry.2
          rw [← keys, if_pos rfl, Std.ExtTreeMap.getElem?_empty] at stored
          cases stored
  | some entry =>
      have stored := OrdMap.insert_find (∅ : OrdMap Str Str) entry.1 entry.1 entry.2
      rw [if_pos rfl] at stored
      cases rightKey : right.key with
      | none =>
          simp only [Segment.elem, leftKey, rightKey, empty_toMap, single_toMap] at keys
          rw [keys, Std.ExtTreeMap.getElem?_empty] at stored
          cases stored
      | some other =>
          simp only [Segment.elem, leftKey, rightKey, single_toMap] at keys
          rw [keys, OrdMap.insert_find] at stored
          by_cases sameKey : other.1 = entry.1
          · rw [if_pos sameKey] at stored
            exact congrArg some (Prod.ext sameKey.symm (Option.some.inj stored).symm)
          · rw [if_neg sameKey, Std.ExtTreeMap.getElem?_empty] at stored
            cases stored

theorem segments_eq_of_nodes {left right : List Segment}
    (same : left.map Segment.node = right.map Segment.node) : left = right :=
  List.map_injective_iff.mpr (fun _ _ => Segment.node_injective) same

/-- Canonical xpaths with the same parsed path are equal strings. -/
theorem Canonical.pathOf_injective {left right : Str} (leftCanonical : Canonical left)
    (rightCanonical : Canonical right) (same : pathOf left = pathOf right) : left = right := by
  rcases leftCanonical with ⟨leftSegments, _, rfl⟩
  rcases rightCanonical with ⟨rightSegments, _, rfl⟩
  rw [pathOf_xpathOf, pathOf_xpathOf] at same
  rw [segments_eq_of_nodes same]

/-- A segment is determined by its text, since the parser reads its node from it. -/
theorem Segment.text_injective : Function.Injective Segment.text := by
  intro left right same
  have nodes : [left].map Segment.node = [right].map Segment.node := by
    rw [← pathOf_xpathOf, ← pathOf_xpathOf, xpathOf, xpathOf, List.map_singleton, List.map_singleton, same]
  exact List.singleton_inj.mp (segments_eq_of_nodes nodes)

/-! ## Recognising canonical xpaths -/

/-- The segment an element comes from, when it has the canonical form. -/
def segmentOfElem (elem : PathElem) : Option Segment :=
  match elem.key.entries with
  | [] =>
      if fits : elem.name.isEmpty = false ∧ plain elem.name = true then
        some ⟨elem.name, none, fits.1, fits.2, rfl⟩
      else none
  | [(key, value)] =>
      if fits : elem.name.isEmpty = false ∧ plain elem.name = true ∧
          (plain key && plain value) = true then
        some ⟨elem.name, some (key, value), fits.1, fits.2.1, fits.2.2⟩
      else none
  | _ => none

def segmentsOfElems : List PathElem -> Option (List Segment)
  | [] => some []
  | elem :: rest =>
      match segmentOfElem elem, segmentsOfElems rest with
      | some segment, some segments => some (segment :: segments)
      | _, _ => none

/-- Parse the string and compare it with the xpath of the segments read. -/
def isCanonical (xpath : Str) : Bool :=
  match segmentsOfElems (xpathToGnmiPath xpath {}).elem with
  | some segments => !segments.isEmpty && decide (xpathOf segments = xpath)
  | none => false

theorem segmentOfElem_elem (segment : Segment) : segmentOfElem segment.elem = some segment := by
  cases keyed : segment.key with
  | none =>
      have entries : segment.elem.key.entries = [] := by simp only [Segment.elem, keyed]; rfl
      simp only [segmentOfElem, entries]
      rw [dif_pos ⟨segment.name_nonempty, segment.name_plain⟩]
      exact congrArg some (Segment.ext_of_fields rfl keyed.symm)
  | some entry =>
      rcases entry with ⟨key, value⟩
      have entries : segment.elem.key.entries = [(key, value)] := by
        simp only [Segment.elem, keyed]
        rfl
      have entryPlain := segment.key_entry_plain keyed
      simp only [segmentOfElem, entries]
      rw [dif_pos ⟨segment.name_nonempty, segment.name_plain,
        Bool.and_eq_true_iff.mpr entryPlain⟩]
      exact congrArg some (Segment.ext_of_fields rfl keyed.symm)

theorem segmentsOfElems_elems (segments : List Segment) :
    segmentsOfElems (segments.map Segment.elem) = some segments := by
  induction segments with
  | nil => rfl
  | cons segment segments inductionHypothesis =>
      rw [List.map_cons, segmentsOfElems, segmentOfElem_elem, inductionHypothesis]

theorem isCanonical_iff (xpath : Str) : isCanonical xpath = true ↔ Canonical xpath := by
  constructor
  · intro recognised
    rw [isCanonical] at recognised
    cases read : segmentsOfElems (xpathToGnmiPath xpath {}).elem with
    | none => rw [read] at recognised; cases recognised
    | some segments =>
        rw [read] at recognised
        have parts := Bool.and_eq_true_iff.mp recognised
        refine ⟨segments, ?_, (of_decide_eq_true parts.2).symm⟩
        rintro rfl
        cases parts.1
  · rintro ⟨segments, nonempty, rfl⟩
    have notEmpty : segments.isEmpty = false := List.isEmpty_eq_false_iff.mpr nonempty
    rw [isCanonical, xpathToGnmiPath_xpathOf]
    simp only [segmentsOfElems_elems, notEmpty, Bool.not_false, Bool.true_and, decide_true]

instance (xpath : Str) : Decidable (Canonical xpath) :=
  decidable_of_iff _ (isCanonical_iff xpath)

/-! ## From a received path back to the store key -/

/-- The text of a received element, its keys in map order and without quotes. -/
def nodeText (node : Node) : Str :=
  node.name ++
    node.key.toList.flatMap (fun entry => '[' :: (entry.1 ++ '=' :: (entry.2 ++ [']'])))

/-- The store key a received path addresses. -/
def addressOf (nodes : List Node) : Str :=
  delimited '/' (nodes.map nodeText)

theorem toList_insert_empty (key value : Str) :
    ((∅ : OrdMap Str Str).insert key value).toList = [(key, value)] := by
  have stored : (key, value) ∈ ((∅ : OrdMap Str Str).insert key value).toList :=
    OrdMap.mem_toList_of_find Std.ExtTreeMap.getElem?_insert_self
  have length : ((∅ : OrdMap Str Str).insert key value).toList.length = 1 := by
    rw [Std.ExtTreeMap.length_toList, Std.ExtTreeMap.size_insert]
    simp
  rcases List.length_eq_one_iff.mp length with ⟨entry, only⟩
  rw [only, List.mem_singleton] at stored
  rw [only, stored]

theorem nodeText_node (segment : Segment) : nodeText segment.node = segment.text := by
  cases keyed : segment.key with
  | none =>
      simp only [nodeText, Segment.node, PathElem.node, Segment.elem, Segment.text, keyed, empty_toMap]
      rfl
  | some entry =>
      simp only [nodeText, Segment.node, PathElem.node, Segment.elem, Segment.text, keyed,
        single_toMap, toList_insert_empty, List.flatMap_cons, List.flatMap_nil, List.append_nil]

theorem addressOf_pathOf {xpath : Str} (canonical : Canonical xpath) :
    addressOf (pathOf xpath) = xpath := by
  rcases canonical with ⟨segments, _, rfl⟩
  have texts : nodeText ∘ Segment.node = Segment.text := funext nodeText_node
  rw [pathOf_xpathOf, addressOf, List.map_map, texts]
  rfl

/-! ## Containers -/

/-- `path` is `container` or lies below it, on strings. -/
abbrev Below (container path : Str) : Prop :=
  ExtendsAt '/' container path

/-- What lies below a container splits into the container's elements and the
elements of the relative path the emitter cuts off. -/
theorem Below.split {container path : Str} (canonical : Canonical path)
    (below : Below container path) :
    ∃ first last : List Segment, container = xpathOf first ∧
      path = xpathOf first ++ xpathOf last := by
  rcases canonical with ⟨segments, _, rfl⟩
  rcases extendsAt_split (segments_delimiterFree segments) below with
    ⟨firstTexts, lastTexts, texts, same⟩
  rcases List.map_eq_append_iff.mp texts with ⟨first, last, rfl, rfl, rfl⟩
  exact ⟨first, last, same, xpathOf_append first last⟩

/-- Reading the cut path under the container's path gives the leaf's path. -/
theorem Below.pathOf_drop {container path : Str} (canonical : Canonical path)
    (below : Below container path) :
    pathOf container ++ pathOf (path.drop container.length) = pathOf path := by
  rcases below.split canonical with ⟨first, last, rfl, rfl⟩
  rw [List.drop_left, ← xpathOf_append, pathOf_xpathOf, pathOf_xpathOf, pathOf_xpathOf,
    List.map_append]

/-- Between segments, the string prefix is the prefix of segments. -/
theorem extendsAt_xpathOf_iff (query leaf : List Segment) :
    ExtendsAt '/' (xpathOf query) (xpathOf leaf) ↔ query <+: leaf := by
  have texts := extendsAt_delimited_iff (segments_delimiterFree query) (segments_delimiterFree leaf)
  exact texts.trans (List.prefix_map_iff_of_injective Segment.text_injective)

/-- Below on strings is the prefix order on elements, for a container that some
canonical path lies below. -/
theorem below_iff_prefix {container path other : Str} (canonical : Canonical path)
    (otherCanonical : Canonical other) (below : Below container path) :
    Below container other ↔ pathOf container <+: pathOf other := by
  rcases below.split canonical with ⟨first, last, rfl, rfl⟩
  rcases otherCanonical with ⟨segments, _, rfl⟩
  rw [pathOf_xpathOf, pathOf_xpathOf]
  have nodes : first.map Segment.node <+: segments.map Segment.node ↔ first <+: segments :=
    List.prefix_map_iff_of_injective (fun _ _ => Segment.node_injective)
  exact (extendsAt_xpathOf_iff first segments).trans nodes.symm

end Utils
end PscMockServer
