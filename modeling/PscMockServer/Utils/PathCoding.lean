import PscMockServer.Utils.CanonicalXpath

namespace PscMockServer
namespace Utils

open Foundations Gnmi

/-!
# Paths as strings and back

`gnmi_to_xpath` writes names, keys and values without escaping, each value between
double quotes, and the store drops the double quotes again.  A string that was put
together from a path can be cut up again as long as no part contains the character
that ends it: a slash or a bracket ends a name, `=` a key, and `]` a value.
-/

/-- A value between double quotes. -/
def quoted (value : Str) : Str :=
  '"' :: (value ++ ['"'])

/-- The text of some elements, with the values written by `raw`. -/
def elementsText (raw : Str -> Str) (elems : List PathElem) : Str :=
  delimited '/' (elems.map (elementText raw))

theorem elementsText_cons (raw : Str -> Str) (elem : PathElem) (elems : List PathElem) :
    elementsText raw (elem :: elems) = '/' :: (elementText raw elem ++ elementsText raw elems) :=
  delimited_cons _ _ _

/-- The xpath of a path has its values in double quotes. -/
theorem gnmiToXpath_quoted (path : Path) :
    gnmiToXpath path = elementsText quoted (writtenElems path) := by
  have predicates : ∀ key : KeyMap, keyPredicates key = predicatesText quoted key.entries := by
    intro key
    apply List.flatMap_congr
    intro entry _
    simp [predicateText, quoted]
  have texts : elemText = fun elem => '/' :: elementText quoted elem := by
    funext elem
    rw [elemText, predicates]
    rfl
  rw [gnmiToXpath_written, texts, elementsText, delimited, List.flatMap_map]

/-! ## Dropping the quotes -/

/-- No double quote inside the element. -/
def QuoteFree (elem : PathElem) : Prop :=
  '"' ∉ elem.name ∧ ∀ entry ∈ elem.key.entries, '"' ∉ entry.1 ∧ '"' ∉ entry.2

theorem stripPathQuotes_cons {c : Char} (notQuote : c ≠ '"') (s : Str) :
    stripPathQuotes (c :: s) = c :: stripPathQuotes s :=
  List.filter_cons_of_pos (decide_eq_true notQuote)

theorem stripPathQuotes_quoted {value : Str} (quoteFree : '"' ∉ value) :
    stripPathQuotes (quoted value) = value := by
  have opening : stripPathQuotes (quoted value) = stripPathQuotes (value ++ ['"']) := rfl
  rw [opening, stripPathQuotes_append, stripPathQuotes_eq_self quoteFree]
  exact List.append_nil value

/-- The normalised text of an element has its values as they are. -/
theorem stripPathQuotes_elementText {elem : PathElem} (quoteFree : QuoteFree elem) :
    stripPathQuotes (elementText quoted elem) = elementText id elem := by
  have predicates : ∀ entries : List (Str × Str),
      (∀ entry ∈ entries, '"' ∉ entry.1 ∧ '"' ∉ entry.2) ->
        stripPathQuotes (predicatesText quoted entries) = predicatesText id entries := by
    intro entries clean
    induction entries with
    | nil => rfl
    | cons entry entries inductionHypothesis =>
        have here := clean entry List.mem_cons_self
        have later := inductionHypothesis
          (fun other member => clean other (List.mem_cons_of_mem entry member))
        rw [predicatesText_cons, predicatesText_cons, stripPathQuotes_append, later, predicateText,
          stripPathQuotes_cons (by decide), stripPathQuotes_append, stripPathQuotes_cons (by decide),
          stripPathQuotes_append, stripPathQuotes_quoted here.2, stripPathQuotes_eq_self here.1]
        rfl
  rw [elementText, stripPathQuotes_append, stripPathQuotes_eq_self quoteFree.1,
    predicates elem.key.entries quoteFree.2]
  rfl

theorem stripPathQuotes_elementsText {elems : List PathElem} (quoteFree : ∀ elem ∈ elems, QuoteFree elem) :
    stripPathQuotes (elementsText quoted elems) = elementsText id elems := by
  induction elems with
  | nil => rfl
  | cons elem elems inductionHypothesis =>
      rw [elementsText_cons, elementsText_cons, stripPathQuotes_cons (by decide), stripPathQuotes_append,
        stripPathQuotes_elementText (quoteFree elem List.mem_cons_self)]
      rw [inductionHypothesis (fun other member => quoteFree other (List.mem_cons_of_mem elem member))]

/-! ## The intended alphabet -/

/-- Only the listed characters have to be tried, not every character there is. -/
instance (chars text : Str) : Decidable (∀ c ∈ chars, c ∉ text) :=
  List.decidableBAll (fun c => c ∉ text) chars

/-- The characters that may not occur in a key value. -/
def reservedInValues : Str := ['/', '[', ']', '"', '\'']

/-- Names and keys are nonempty and plain; a value has no slash, bracket or quote. -/
def Intended (elem : PathElem) : Prop :=
  (elem.name ≠ [] ∧ plain elem.name = true) ∧
    ∀ entry ∈ elem.key.entries, (entry.1 ≠ [] ∧ plain entry.1 = true) ∧
      ∀ c ∈ reservedInValues, c ∉ entry.2

instance (elem : PathElem) : Decidable (Intended elem) :=
  inferInstanceAs (Decidable (_ ∧ _))

theorem Intended.quoteFree {elem : PathElem} (intended : Intended elem) : QuoteFree elem := by
  refine ⟨not_mem_of_plain intended.1.2 (by decide), fun entry member => ?_⟩
  have known := intended.2 entry member
  exact ⟨not_mem_of_plain known.1.2 (by decide), known.2 '"' (by decide)⟩

/-- A text over the intended alphabet has no slash, whichever way the values are written. -/
theorem Intended.slash_not_mem {elem : PathElem} (intended : Intended elem) {raw : Str -> Str}
    (written : ∀ value, '/' ∉ value -> '/' ∉ raw value) : '/' ∉ elementText raw elem := by
  intro member
  rcases List.mem_append.mp member with inName | inKey
  · exact not_mem_of_plain intended.1.2 (by decide) inName
  · rcases List.mem_flatMap.mp inKey with ⟨entry, listed, inEntry⟩
    have known := intended.2 entry listed
    simp only [predicateText, List.mem_cons, List.mem_append, List.not_mem_nil, or_false] at inEntry
    rcases inEntry with bracket | inName | equals | inValue | close
    · exact absurd bracket (by decide)
    · exact not_mem_of_plain known.1.2 (by decide) inName
    · exact absurd equals (by decide)
    · exact written entry.2 (known.2 '/' (by decide)) inValue
    · exact absurd close (by decide)

/-- The parser reads such a text back. -/
theorem parse_elementsText {elems : List PathElem} (intended : ∀ elem ∈ elems, Intended elem)
    {raw : Str -> Str} (written : ∀ value, '/' ∉ value -> '/' ∉ raw value)
    (values : ∀ value, (∀ c ∈ reservedInValues, c ∉ value) ->
      ']' ∉ raw value ∧ stripValueQuotes (raw value) = value) :
    xpathToGnmiPath (elementsText raw elems) {} = { elem := elems } := by
  have read : (elems.map (elementText raw)).map parseElem = elems := by
    rw [List.map_map]
    refine (List.map_congr_left (g := id) ?_).trans (List.map_id elems)
    intro elem member
    apply parseElem_elementText
    · exact not_mem_of_plain (intended elem member).1.2 (by decide)
    · intro entry listed
      have keyPlain := ((intended elem member).2 entry listed).1.2
      exact ⟨not_mem_of_plain keyPlain (by decide), not_mem_of_plain keyPlain (by decide)⟩
    · exact fun entry listed => values entry.2 ((intended elem member).2 entry listed).2
  rw [elementsText, xpathToGnmiPath_delimited, read]
  · intro part listed empty
    rcases List.mem_map.mp listed with ⟨elem, member, rfl⟩
    exact (intended elem member).1.1 (List.append_eq_nil_iff.mp empty).1
  · intro part listed
    rcases List.mem_map.mp listed with ⟨elem, member, rfl⟩
    exact (intended elem member).slash_not_mem written

/-- With the values in double quotes. -/
theorem parse_quoted {elems : List PathElem} (intended : ∀ elem ∈ elems, Intended elem) :
    xpathToGnmiPath (elementsText quoted elems) {} = { elem := elems } := by
  apply parse_elementsText intended
  · intro value clean member
    rcases List.mem_cons.mp member with same | member
    · exact absurd same (by decide)
    · rcases List.mem_append.mp member with inValue | same
      · exact clean inValue
      · exact absurd (List.mem_singleton.mp same) (by decide)
  · intro value clean
    constructor
    · intro member
      rcases List.mem_cons.mp member with same | member
      · exact absurd same (by decide)
      · rcases List.mem_append.mp member with inValue | same
        · exact clean ']' (by decide) inValue
        · exact absurd (List.mem_singleton.mp same) (by decide)
    · have long : (quoted value).length - 2 = value.length := by
        simp [quoted]
      have front : 2 ≤ (quoted value).length ∧
          ((quoted value).head? = some '"' ∨ (quoted value).head? = some '\'') :=
        ⟨by simp [quoted], Or.inl rfl⟩
      rw [stripValueQuotes, if_pos front, long]
      exact slice_append ['"'] value ['"']

/-- With the values as they are. -/
theorem parse_unquoted {elems : List PathElem} (intended : ∀ elem ∈ elems, Intended elem) :
    xpathToGnmiPath (elementsText id elems) {} = { elem := elems } := by
  apply parse_elementsText intended
  · exact fun value clean => clean
  · intro value clean
    refine ⟨clean ']' (by decide), ?_⟩
    rw [stripValueQuotes, if_neg]
    · rfl
    · rintro ⟨_, doubleQuote | singleQuote⟩
      · exact clean '"' (by decide) (List.mem_of_mem_head? doubleQuote)
      · exact clean '\'' (by decide) (List.mem_of_mem_head? singleQuote)

/-! ## Round trips -/

/-- The normalised xpath of a path without double quotes. -/
theorem stripPathQuotes_written {path : Path} (quoteFree : ∀ elem ∈ writtenElems path, QuoteFree elem) :
    stripPathQuotes (gnmiToXpath path) = elementsText id (writtenElems path) := by
  rw [gnmiToXpath_quoted, stripPathQuotes_elementsText quoteFree]

theorem stripPathQuotes_gnmiToXpath {path : Path} (noOrigin : path.origin = [])
    (quoteFree : ∀ elem ∈ path.elem, QuoteFree elem) :
    stripPathQuotes (gnmiToXpath path) = elementsText id path.elem := by
  have written := writtenElems_of_noOrigin noOrigin
  rw [stripPathQuotes_written, written]
  rw [written]
  exact quoteFree

/-- A path over the intended alphabet is read back from its xpath, with and without
the quotes. -/
theorem xpathToGnmiPath_gnmiToXpath {path : Path} (noOrigin : path.origin = [])
    (intended : ∀ elem ∈ path.elem, Intended elem) :
    xpathToGnmiPath (gnmiToXpath path) {} = { elem := path.elem } ∧
      xpathToGnmiPath (stripPathQuotes (gnmiToXpath path)) {} = { elem := path.elem } := by
  constructor
  · rw [gnmiToXpath_quoted, writtenElems_of_noOrigin noOrigin]
    exact parse_quoted intended
  · rw [stripPathQuotes_gnmiToXpath noOrigin (fun elem member => (intended elem member).quoteFree)]
    exact parse_unquoted intended

/-- A canonical quote-free xpath over the intended alphabet: at most one key for each
element. -/
def CanonicalText (xpath : Str) : Prop :=
  ∃ elems : List PathElem, (∀ elem ∈ elems, Intended elem ∧ elem.key.entries.length ≤ 1) ∧
    xpath = elementsText id elems

/-- Such a string is read and written back as it is, but for the quotes. -/
theorem CanonicalText.round_trip {xpath : Str} (canonical : CanonicalText xpath) :
    stripPathQuotes (gnmiToXpath (xpathToGnmiPath xpath {})) = xpath := by
  rcases canonical with ⟨elems, known, rfl⟩
  have intended : ∀ elem ∈ elems, Intended elem := fun elem member => (known elem member).1
  have written : gnmiToXpath { elem := elems } = elementsText quoted elems := by
    rw [gnmiToXpath_quoted, writtenElems_of_noOrigin rfl]
  rw [parse_unquoted intended, written]
  exact stripPathQuotes_elementsText (fun elem member => (intended elem member).quoteFree)

/-! ## When the normalised string determines the path -/

/-- Nothing that ends a part of the normalised text occurs inside that part, and no
double quote does: names are free of `/`, `[` and `"`, keys of `=` and `"`, values of
`]` and `"`. -/
def Unambiguous (elem : PathElem) : Prop :=
  (∀ c ∈ ['/', '[', '"'], c ∉ elem.name) ∧
    ∀ entry ∈ elem.key.entries,
      (∀ c ∈ ['=', '"'], c ∉ entry.1) ∧ ∀ c ∈ [']', '"'], c ∉ entry.2

instance (elem : PathElem) : Decidable (Unambiguous elem) :=
  inferInstanceAs (Decidable (_ ∧ _))

theorem Unambiguous.quoteFree {elem : PathElem} (unambiguous : Unambiguous elem) : QuoteFree elem := by
  refine ⟨unambiguous.1 '"' (by decide), fun entry member => ?_⟩
  have known := unambiguous.2 entry member
  exact ⟨known.1 '"' (by decide), known.2 '"' (by decide)⟩

/-- The rest of the text after the predicates of an element: nothing, or the next
element. -/
def Resumes (rest : Str) : Prop :=
  ∀ c ∈ rest.head?, c = '/'

theorem resumes_elementsText (raw : Str -> Str) (elems : List PathElem) :
    Resumes (elementsText raw elems) := by
  intro c head
  cases elems with
  | nil => cases head
  | cons elem elems =>
      rw [elementsText_cons] at head
      exact (Option.some.inj head).symm

/-- A predicate begins with a bracket, what comes after the predicates does not. -/
theorem predicates_not_resumes (entry : Str × Str) (entries : List (Str × Str)) (rest : Str) :
    ¬ Resumes (predicatesText id (entry :: entries) ++ rest) :=
  fun resumes => absurd (resumes '[' rfl) (by decide)

/-- Nothing that ends a key or a value occurs inside it. -/
def EntriesClear (entries : List (Str × Str)) : Prop :=
  ∀ entry ∈ entries, '=' ∉ entry.1 ∧ ']' ∉ entry.2

theorem Unambiguous.entriesClear {elem : PathElem} (unambiguous : Unambiguous elem) :
    EntriesClear elem.key.entries := by
  intro entry member
  have known := unambiguous.2 entry member
  exact ⟨known.1 '=' (by decide), known.2 ']' (by decide)⟩

/-- Predicates that the text of an element continues after are its first ones. -/
theorem predicatesText_cut {left right : List (Str × Str)} {leftRest rightRest : Str}
    (leftClear : EntriesClear left) (rightClear : EntriesClear right) (rightResumes : Resumes rightRest)
    (same : predicatesText id left ++ leftRest = predicatesText id right ++ rightRest) :
    ∃ extra, right = left ++ extra ∧ leftRest = predicatesText id extra ++ rightRest := by
  induction left generalizing right with
  | nil => exact ⟨right, rfl, same⟩
  | cons entry left inductionHypothesis =>
      cases right with
      | nil =>
          have resumes : Resumes (predicatesText id (entry :: left) ++ leftRest) := by
            rw [same]
            exact rightResumes
          exact absurd resumes (predicates_not_resumes entry left leftRest)
      | cons other right =>
          have opened : entry.1 ++ '=' :: (entry.2 ++ ']' :: (predicatesText id left ++ leftRest)) =
              other.1 ++ '=' :: (other.2 ++ ']' :: (predicatesText id right ++ rightRest)) := by
            rw [predicatesText_cons, predicatesText_cons] at same
            simp only [predicateText, List.cons_append, List.append_assoc, List.nil_append, id,
              List.cons.injEq, true_and] at same
            exact same
          have keys := append_delimiter_inj (leftClear entry List.mem_cons_self).1
            (rightClear other List.mem_cons_self).1 opened
          have values := append_delimiter_inj (leftClear entry List.mem_cons_self).2
            (rightClear other List.mem_cons_self).2 keys.2
          rcases inductionHypothesis
            (fun listed member => leftClear listed (List.mem_cons_of_mem entry member))
            (fun listed member => rightClear listed (List.mem_cons_of_mem other member)) values.2 with
            ⟨extra, later, rest⟩
          refine ⟨extra, ?_, rest⟩
          rw [later, Prod.ext keys.1 values.1, List.cons_append]

/-- A name ends at a slash or at a bracket. -/
def EndsName (rest : Str) : Prop :=
  ∀ c ∈ rest.head?, c = '/' ∨ c = '['

theorem Resumes.endsName {rest : Str} (resumes : Resumes rest) : EndsName rest :=
  fun c head => Or.inl (resumes c head)

theorem endsName_predicates (entries : List (Str × Str)) {rest : Str} (ends : EndsName rest) :
    EndsName (predicatesText id entries ++ rest) := by
  intro c head
  cases entries with
  | nil => exact ends c head
  | cons entry entries => exact Or.inr (Option.some.inj head).symm

/-- An element whose text begins with that of another one has its name, and first its keys. -/
theorem elementText_cut {elem other : PathElem} {rest otherRest : Str} (clear : Unambiguous elem)
    (otherClear : Unambiguous other) (ends : EndsName rest) (resumes : Resumes otherRest)
    (same : elementText id elem ++ rest = elementText id other ++ otherRest) :
    elem.name = other.name ∧
      ∃ extra, other.key.entries = elem.key.entries ++ extra ∧
        rest = predicatesText id extra ++ otherRest := by
  have nameClear : ∀ elem : PathElem, Unambiguous elem -> ∀ c ∈ elem.name, ¬ (c = '/' ∨ c = '[') := by
    rintro elem clear c member (rfl | rfl)
    · exact clear.1 '/' (by decide) member
    · exact clear.1 '[' (by decide) member
  rw [elementText, elementText, List.append_assoc, List.append_assoc] at same
  have names := stopped_append_inj (fun c => c = '/' ∨ c = '[') (nameClear elem clear)
    (nameClear other otherClear) (endsName_predicates elem.key.entries ends)
    (endsName_predicates other.key.entries resumes.endsName) same
  exact ⟨names.1, predicatesText_cut clear.entriesClear otherClear.entriesClear resumes names.2⟩

theorem keyMap_ext {left right : KeyMap} (entries : left.entries = right.entries) : left = right := by
  cases left
  cases right
  cases entries
  rfl

/-- Elements that the next element or nothing follows can be compared on their own. -/
theorem elementText_inj {elem other : PathElem} {rest otherRest : Str} (clear : Unambiguous elem)
    (otherClear : Unambiguous other) (resumes : Resumes rest) (otherResumes : Resumes otherRest)
    (same : elementText id elem ++ rest = elementText id other ++ otherRest) :
    elem = other ∧ rest = otherRest := by
  rcases elementText_cut clear otherClear resumes.endsName otherResumes same with
    ⟨names, extra, entries, rests⟩
  cases extra with
  | nil =>
      rw [List.append_nil] at entries
      have keys : other.key = elem.key := keyMap_ext entries
      have elems : elem = other := by
        cases elem
        cases other
        cases names
        cases keys
        rfl
      exact ⟨elems, rests⟩
  | cons entry extra =>
      rw [rests] at resumes
      exact absurd resumes (predicates_not_resumes entry extra otherRest)

/-- Unambiguous elements are determined by their normalised text. -/
theorem elementsText_injective {left right : List PathElem}
    (leftClear : ∀ elem ∈ left, Unambiguous elem) (rightClear : ∀ elem ∈ right, Unambiguous elem)
    (same : elementsText id left = elementsText id right) : left = right := by
  induction left generalizing right with
  | nil =>
      cases right with
      | nil => rfl
      | cons elem right => rw [elementsText_cons] at same; cases same
  | cons elem left inductionHypothesis =>
      cases right with
      | nil => rw [elementsText_cons] at same; cases same
      | cons other right =>
          rw [elementsText_cons, elementsText_cons] at same
          have parts := elementText_inj (leftClear elem List.mem_cons_self)
            (rightClear other List.mem_cons_self) (resumes_elementsText id left)
            (resumes_elementsText id right) (List.cons.inj same).2
          have rests := inductionHypothesis
            (fun later member => leftClear later (List.mem_cons_of_mem elem member))
            (fun later member => rightClear later (List.mem_cons_of_mem other member)) parts.2
          rw [parts.1, rests]

end Utils
end PscMockServer
