import PscMockServer.Utils.PathCoding

namespace PscMockServer
namespace Utils

open Foundations Gnmi

/-!
# Which paths a path string is a prefix of

`isPathPrefix` compares strings.  On strings that can be cut up again it compares
elements: the names of the query are the first names of the leaf, every key before the
last element of the query is the same, and the keys of its last element are the first
ones of the element there, in the order they are written.
-/

/-- Two path prefixes of one path are comparable: the shorter one stops at a segment
boundary of the longer one too. -/
theorem isPathPrefix_comparable {first second path : Str} (isFirst : isPathPrefix first path = true)
    (isSecond : isPathPrefix second path = true) :
    isPathPrefix first second = true ∨ isPathPrefix second first = true := by
  have shorter : ∀ {short long : Str}, isPathPrefix short path = true -> long <+: path ->
      short.length ≤ long.length -> isPathPrefix short long = true := by
    intro short long isShort isLong atMost
    apply (isPathPrefix_iff short long).mpr
    rcases Nat.lt_or_eq_of_le atMost with less | same
    · have boundary : ∀ c : Char, short ++ [c] <+: path -> short ++ [c] <+: long := by
        intro c starts
        refine List.prefix_of_prefix_length_le starts isLong ?_
        rw [List.length_append, List.length_singleton]
        exact less
      rcases (isPathPrefix_iff short path).mp isShort with rfl | slash | bracket
      · exact absurd isLong.length_le (Nat.not_le_of_lt less)
      · exact Or.inr (Or.inl (boundary '/' slash))
      · exact Or.inr (Or.inr (boundary '[' bracket))
    · have starts := List.prefix_of_prefix_length_le (starts_of_isPathPrefix isShort) isLong atMost
      exact Or.inl (starts.eq_of_length same).symm
  rcases Nat.le_total first.length second.length with atMost | atMost
  · exact Or.inl (shorter isFirst (starts_of_isPathPrefix isSecond) atMost)
  · exact Or.inr (shorter isSecond (starts_of_isPathPrefix isFirst) atMost)

/-- The keys of the query are those of the leaf, up to its last element; there they are
the first ones. -/
def LeadingKeys : List KeyMap -> List KeyMap -> Prop
  | [], _ => True
  | _ :: _, [] => False
  | [last], key :: _ => last.entries <+: key.entries
  | given :: next :: query, key :: leaf => given = key ∧ LeadingKeys (next :: query) leaf

instance decidableLeadingKeys : (query leaf : List KeyMap) -> Decidable (LeadingKeys query leaf)
  | [], _ => Decidable.isTrue True.intro
  | _ :: _, [] => Decidable.isFalse id
  | [last], key :: _ => inferInstanceAs (Decidable (last.entries <+: key.entries))
  | given :: next :: query, key :: leaf =>
      have := decidableLeadingKeys (next :: query) leaf
      inferInstanceAs (Decidable (given = key ∧ LeadingKeys (next :: query) leaf))

/-- The first keys of a leaf lead it. -/
theorem leadingKeys_append (query rest : List KeyMap) : LeadingKeys query (query ++ rest) := by
  induction query with
  | nil => exact True.intro
  | cons given query inductionHypothesis =>
      cases query with
      | nil => exact List.prefix_refl given.entries
      | cons next query => exact ⟨rfl, inductionHypothesis⟩

/-- Where the query gives keys, the leaf has them. -/
theorem LeadingKeys.entries {query leaf : List KeyMap} (leads : LeadingKeys query leaf) {i : Nat}
    {given key : KeyMap} (isGiven : query[i]? = some given) (isKey : leaf[i]? = some key) :
    given.entries <+: key.entries := by
  induction query generalizing leaf i with
  | nil => cases isGiven
  | cons first query inductionHypothesis =>
      cases leaf with
      | nil => cases isKey
      | cons other leaf =>
          have here : first.entries <+: other.entries := by
            cases query with
            | nil => exact leads
            | cons next query => exact leads.1 ▸ List.prefix_refl _
          cases i with
          | zero =>
              rw [← Option.some.inj isGiven, ← Option.some.inj isKey]
              exact here
          | succ i =>
              cases query with
              | nil => cases isGiven
              | cons next query => exact inductionHypothesis leads.2 isGiven isKey

/-- A path prefix leaves a rest that begins at a boundary. -/
theorem isPathPrefix_iff_rest (pre path : Str) :
    isPathPrefix pre path = true ↔ ∃ rest, path = pre ++ rest ∧ EndsName rest := by
  rw [isPathPrefix_iff]
  constructor
  · rintro (same | ⟨rest, same⟩ | ⟨rest, same⟩)
    · exact ⟨[], same.trans (List.append_nil pre).symm, fun c head => nomatch head⟩
    · refine ⟨'/' :: rest, ?_, fun c head => Or.inl (Option.some.inj head).symm⟩
      rw [← same, List.append_assoc, List.singleton_append]
    · refine ⟨'[' :: rest, ?_, fun c head => Or.inr (Option.some.inj head).symm⟩
      rw [← same, List.append_assoc, List.singleton_append]
  · rintro ⟨rest, rfl, ends⟩
    cases rest with
    | nil => exact Or.inl (List.append_nil pre)
    | cons c rest =>
        rcases ends c rfl with rfl | rfl
        · exact Or.inr (Or.inl ((List.prefix_append_right_inj pre).mpr (List.prefix_append ['/'] rest)))
        · exact Or.inr (Or.inr ((List.prefix_append_right_inj pre).mpr (List.prefix_append ['['] rest)))

/-- Elements that lead the leaf are a prefix of its text. -/
theorem rest_of_leadingKeys {query leaf : List PathElem}
    (names : query.map PathElem.name <+: leaf.map PathElem.name)
    (keys : LeadingKeys (query.map PathElem.key) (leaf.map PathElem.key)) :
    ∃ rest, elementsText id leaf = elementsText id query ++ rest ∧ EndsName rest := by
  induction query generalizing leaf with
  | nil => exact ⟨elementsText id leaf, rfl, (resumes_elementsText id leaf).endsName⟩
  | cons elem query inductionHypothesis =>
      cases leaf with
      | nil => exact absurd (List.prefix_nil.mp names) (List.cons_ne_nil _ _)
      | cons other leaf =>
          rw [List.map_cons, List.map_cons, List.cons_prefix_cons] at names
          rw [elementsText_cons, elementsText_cons, elementText, elementText, names.1]
          cases query with
          | nil =>
              -- the keys that are left over begin with a bracket
              rcases keys with ⟨extra, entries⟩
              refine ⟨predicatesText id extra ++ elementsText id leaf, ?_,
                endsName_predicates extra (resumes_elementsText id leaf).endsName⟩
              have nothing : elementsText id [] = [] := rfl
              rw [← entries, predicatesText, predicatesText, predicatesText, List.flatMap_append, nothing]
              simp only [List.append_assoc, List.cons_append, List.nil_append]
          | cons next query =>
              rcases inductionHypothesis names.2 keys.2 with ⟨rest, same, ends⟩
              have key : elem.key = other.key := keys.1
              refine ⟨rest, ?_, ends⟩
              rw [same, key]
              simp only [List.append_assoc, List.cons_append]

/-- Elements whose text begins with that of the query are led by it. -/
theorem leadingKeys_of_rest {query leaf : List PathElem} {rest : Str}
    (clear : ∀ elem ∈ query, Unambiguous elem) (leafClear : ∀ elem ∈ leaf, Unambiguous elem)
    (same : elementsText id leaf = elementsText id query ++ rest) (ends : EndsName rest) :
    query.map PathElem.name <+: leaf.map PathElem.name ∧
      LeadingKeys (query.map PathElem.key) (leaf.map PathElem.key) := by
  induction query generalizing leaf with
  | nil => exact ⟨List.nil_prefix, True.intro⟩
  | cons elem query inductionHypothesis =>
      cases leaf with
      | nil => rw [elementsText_cons] at same; cases same
      | cons other leaf =>
          rw [elementsText_cons, elementsText_cons, List.cons_append, List.append_assoc] at same
          have texts := (List.cons.inj same).2.symm
          have here := clear elem List.mem_cons_self
          have there := leafClear other List.mem_cons_self
          have resumes := resumes_elementsText id leaf
          rw [List.map_cons, List.map_cons, List.cons_prefix_cons]
          cases query with
          | nil =>
              rcases elementText_cut here there ends resumes texts with ⟨names, extra, entries, _⟩
              exact ⟨⟨names, List.nil_prefix⟩, ⟨extra, entries.symm⟩⟩
          | cons next query =>
              have continues : Resumes (elementsText id (next :: query) ++ rest) := by
                intro c head
                rw [elementsText_cons] at head
                exact (Option.some.inj head).symm
              have parts := elementText_inj here there continues resumes texts
              have later := inductionHypothesis
                (fun elem member => clear elem (List.mem_cons_of_mem _ member))
                (fun elem member => leafClear elem (List.mem_cons_of_mem _ member)) parts.2.symm
              exact ⟨⟨congrArg PathElem.name parts.1, later.1⟩, congrArg PathElem.key parts.1, later.2⟩

/-- On the texts of unambiguous elements, the string prefix is a matter of elements. -/
theorem isPathPrefix_elementsText_iff {query leaf : List PathElem}
    (clear : ∀ elem ∈ query, Unambiguous elem) (leafClear : ∀ elem ∈ leaf, Unambiguous elem) :
    isPathPrefix (elementsText id query) (elementsText id leaf) = true ↔
      query.map PathElem.name <+: leaf.map PathElem.name ∧
        LeadingKeys (query.map PathElem.key) (leaf.map PathElem.key) := by
  rw [isPathPrefix_iff_rest]
  constructor
  · rintro ⟨rest, same, ends⟩
    exact leadingKeys_of_rest clear leafClear same ends
  · exact fun both => rest_of_leadingKeys both.1 both.2

end Utils
end PscMockServer
