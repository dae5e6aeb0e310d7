import PscMockServer.Utils.Xpath

namespace PscMockServer
namespace Utils

open Foundations Gnmi

/-!
# What the xpath parser reads

The two loops of `xpath_to_gnmi_path` on text that is put together from known pieces.
A predicate whose key has no `=` or `]` and whose value text has no `]` is read as
written, and so is every element text without a slash.  Whatever the string is, the
outer loop adds one element for every text between slashes.
-/

theorem sizeSub_add (a b : Nat) : sizeSub (a + b) a = b := by
  rw [sizeSub, if_pos (Nat.le_add_right a b), Nat.add_sub_cancel_left]

/-! ## The inner loop -/

/-- One predicate, with the value text as it stands between `=` and `]`. -/
def predicateText (key raw : Str) : Str :=
  '[' :: (key ++ '=' :: (raw ++ [']']))

theorem length_predicateText (key raw : Str) :
    (predicateText key raw).length = key.length + raw.length + 3 := by
  simp only [predicateText, List.length_cons, List.length_append, List.length_nil]
  omega

/-- What one iteration of the loop finds when it stands at a predicate. -/
structure ReadsPredicate (part : Str) (k : Nat) (key raw : Str) (eq close : Nat) : Prop where
  atBracket : k < part.length ∧ part[k]? = some '['
  eqFound : findFrom part '=' (k + 1) = some eq
  closeFound : findFrom part ']' (k + 1) = some close
  keyText : slice part (k + 1) (eq - k - 1) = key
  valueText : slice part (eq + 1) (sizeSub (sizeSub close eq) 1) = raw
  ordered : k < eq ∧ eq < close ∧ close < part.length

theorem readsPredicate (seen rest : Str) {key raw : Str} (keyEq : '=' ∉ key) (keyClose : ']' ∉ key)
    (rawClose : ']' ∉ raw) :
    ReadsPredicate (seen ++ (predicateText key raw ++ rest)) seen.length key raw
      (seen.length + 1 + key.length) (seen.length + 1 + (key.length + 1 + raw.length)) := by
  have whole : seen ++ (predicateText key raw ++ rest) =
      seen ++ '[' :: (key ++ '=' :: (raw ++ ']' :: rest)) := by
    simp only [predicateText, List.append_assoc, List.cons_append, List.nil_append]
  have length : (seen ++ (predicateText key raw ++ rest)).length =
      seen.length + (key.length + raw.length + 3 + rest.length) := by
    rw [List.length_append, List.length_append, length_predicateText]
  refine ⟨⟨by omega, ?_⟩, ?_, ?_, ?_, ?_, by omega⟩
  · rw [List.getElem?_append_right (Nat.le_refl _), Nat.sub_self]
    rfl
  · rw [whole]
    exact findFrom_append_cons_hit seen key (raw ++ ']' :: rest) '[' '=' keyEq
  · have clean : ']' ∉ key ++ '=' :: raw := by
      simp [keyClose, rawClose]
    have hit := findFrom_append_cons_hit seen (key ++ '=' :: raw) rest '[' ']' clean
    have width : (key ++ '=' :: raw).length = key.length + 1 + raw.length := by
      simp only [List.length_append, List.length_cons]
      omega
    rw [width, List.append_assoc key] at hit
    rw [whole]
    exact hit
  · have cut := slice_append (seen ++ ['[']) key ('=' :: (raw ++ ']' :: rest))
    have width : seen.length + 1 + key.length - seen.length - 1 = key.length := by omega
    rw [List.length_append, List.append_assoc] at cut
    rw [width, whole]
    exact cut
  · have cut := slice_append (seen ++ '[' :: (key ++ ['='])) raw (']' :: rest)
    have position : (seen ++ '[' :: (key ++ ['='])).length = seen.length + 1 + key.length + 1 := by
      simp only [List.length_append, List.length_cons, List.length_nil]
      omega
    have distance : seen.length + 1 + (key.length + 1 + raw.length) =
        seen.length + 1 + key.length + (1 + raw.length) := by omega
    have same : seen ++ (predicateText key raw ++ rest) =
        seen ++ '[' :: (key ++ ['=']) ++ (raw ++ ']' :: rest) := by
      simp only [predicateText, List.append_assoc, List.cons_append, List.nil_append]
    rw [distance, sizeSub_add, sizeSub_add, ← position, same]
    exact cut

/-- The position right after a predicate. -/
theorem position_after_predicate (seen key raw : Str) :
    seen.length + 1 + (key.length + 1 + raw.length) + 1 = (seen ++ predicateText key raw).length := by
  rw [List.length_append, length_predicateText]
  omega

/-- The loop reads the predicate it stands at and goes on right after it. -/
theorem parsePredicates_step (seen rest : Str) {key raw : Str} (fuel : Nat) (map : KeyMap)
    (keyEq : '=' ∉ key) (keyClose : ']' ∉ key) (rawClose : ']' ∉ raw) :
    parsePredicates (seen ++ (predicateText key raw ++ rest)) (fuel + 1) seen.length map =
      parsePredicates (seen ++ (predicateText key raw ++ rest)) fuel
        (seen ++ predicateText key raw).length (map.set key (stripValueQuotes raw)) := by
  have reads := readsPredicate seen rest keyEq keyClose rawClose
  rw [parsePredicates, if_pos reads.atBracket, reads.eqFound, reads.closeFound]
  simp only [reads.keyText, reads.valueText, position_after_predicate]

/-- Past the text the loop ends. -/
theorem parsePredicates_end (part : Str) (fuel : Nat) (map : KeyMap) :
    parsePredicates part fuel part.length map = map := by
  cases fuel with
  | zero => rfl
  | succ fuel =>
      rw [parsePredicates, if_neg]
      exact fun both => absurd both.1 (Nat.lt_irrefl _)

/-- The predicates of a list of keys, each with its value text. -/
def predicatesText (raw : Str -> Str) (entries : List (Str × Str)) : Str :=
  entries.flatMap (fun entry => predicateText entry.1 (raw entry.2))

theorem predicatesText_cons (raw : Str -> Str) (entry : Str × Str) (entries : List (Str × Str)) :
    predicatesText raw (entry :: entries) =
      predicateText entry.1 (raw entry.2) ++ predicatesText raw entries :=
  List.flatMap_cons

theorem length_le_predicatesText (raw : Str -> Str) (entries : List (Str × Str)) :
    entries.length ≤ (predicatesText raw entries).length := by
  induction entries with
  | nil => exact Nat.le_refl 0
  | cons entry entries inductionHypothesis =>
      rw [predicatesText_cons, List.length_append, length_predicateText, List.length_cons]
      omega

/-- The loop reads every predicate of a list in turn. -/
theorem parsePredicates_entries {raw : Str -> Str} {entries : List (Str × Str)} (seen : Str)
    {fuel : Nat} (enough : entries.length ≤ fuel) (map : KeyMap)
    (keys : ∀ entry ∈ entries, '=' ∉ entry.1 ∧ ']' ∉ entry.1)
    (values : ∀ entry ∈ entries, ']' ∉ raw entry.2 ∧ stripValueQuotes (raw entry.2) = entry.2) :
    parsePredicates (seen ++ predicatesText raw entries) fuel seen.length map =
      entries.foldl (fun map entry => map.set entry.1 entry.2) map := by
  induction entries generalizing seen fuel map with
  | nil =>
      have noText : predicatesText raw [] = [] := rfl
      rw [noText, List.append_nil, parsePredicates_end]
      rfl
  | cons entry entries inductionHypothesis =>
      cases fuel with
      | zero => exact absurd enough (Nat.not_succ_le_zero _)
      | succ fuel =>
          have key := keys entry List.mem_cons_self
          have value := values entry List.mem_cons_self
          rw [predicatesText_cons, parsePredicates_step seen _ fuel map key.1 key.2 value.1, value.2,
            ← List.append_assoc, List.foldl_cons]
          apply inductionHypothesis _ (Nat.le_of_succ_le_succ enough)
          · exact fun other member => keys other (List.mem_cons_of_mem entry member)
          · exact fun other member => values other (List.mem_cons_of_mem entry member)

/-- A new key is listed last. -/
theorem setEntries_of_new {entries : List (Str × Str)} {key value : Str}
    (new : key ∉ entries.map Prod.fst) :
    KeyMap.setEntries key value entries = entries ++ [(key, value)] := by
  induction entries with
  | nil => rfl
  | cons entry entries inductionHypothesis =>
      rw [List.map_cons, List.mem_cons, not_or] at new
      rw [KeyMap.setEntries, if_neg (fun same => new.1 same.symm), inductionHypothesis new.2]
      rfl

/-- Setting distinct new keys one after the other lists them in that order. -/
theorem foldl_set_entries {entries : List (Str × Str)} {map : KeyMap}
    (distinct : ((map.entries ++ entries).map Prod.fst).Nodup) :
    (entries.foldl (fun map entry => map.set entry.1 entry.2) map).entries = map.entries ++ entries := by
  induction entries generalizing map with
  | nil => exact (List.append_nil _).symm
  | cons entry entries inductionHypothesis =>
      have new : entry.1 ∉ map.entries.map Prod.fst := by
        rw [List.map_append, List.nodup_append] at distinct
        intro known
        exact distinct.2.2 entry.1 known entry.1 List.mem_cons_self rfl
      have step : (map.set entry.1 entry.2).entries = map.entries ++ [entry] := setEntries_of_new new
      have regroup : map.entries ++ entry :: entries = (map.set entry.1 entry.2).entries ++ entries := by
        rw [step, List.append_assoc, List.singleton_append]
      rw [regroup] at distinct ⊢
      exact inductionHypothesis distinct

/-- The entries of a map, set one after the other, give the map. -/
theorem foldl_set_empty (map : KeyMap) :
    map.entries.foldl (fun map entry => map.set entry.1 entry.2) KeyMap.empty = map := by
  have listed : (map.entries.foldl (fun map entry => map.set entry.1 entry.2) KeyMap.empty).entries =
      map.entries := foldl_set_entries map.nodup
  cases read : map.entries.foldl (fun map entry => map.set entry.1 entry.2) KeyMap.empty with
  | mk entries nodup =>
      rw [read] at listed
      cases map
      cases listed
      rfl

/-! ## One element -/

/-- The text of an element: its name and its predicates. -/
def elementText (raw : Str -> Str) (elem : PathElem) : Str :=
  elem.name ++ predicatesText raw elem.key.entries

/-- The inner loop starts at the first bracket. -/
theorem findFrom_bracket_iff (part : Str) (bracket : Nat) :
    findFrom part '[' 0 = some bracket ↔
      ∃ name rest, part = name ++ '[' :: rest ∧ '[' ∉ name ∧ bracket = name.length := by
  have hit : ∀ name rest : Str, '[' ∉ name ->
      findFrom (name ++ '[' :: rest) '[' 0 = some name.length := by
    intro name rest bracketFree
    rw [findFrom, List.drop_zero, findIdx?_hit name rest '[' bracketFree, Option.map_some, Nat.zero_add]
  constructor
  · intro found
    by_cases member : '[' ∈ part
    · rcases List.eq_append_cons_of_mem member with ⟨name, rest, rfl, bracketFree⟩
      rw [hit name rest bracketFree] at found
      exact ⟨name, rest, rfl, bracketFree, (Option.some.inj found).symm⟩
    · have missing : findFrom part '[' 0 = none := findFrom_append_miss [] part '[' member
      rw [missing] at found
      cases found
  · intro cut
    rcases cut with ⟨name, rest, rfl, bracketFree, rfl⟩
    exact hit name rest bracketFree

/-- Names without brackets and predicates that can be cut again are read back. -/
theorem parseElem_elementText {raw : Str -> Str} {elem : PathElem} (name : '[' ∉ elem.name)
    (keys : ∀ entry ∈ elem.key.entries, '=' ∉ entry.1 ∧ ']' ∉ entry.1)
    (values : ∀ entry ∈ elem.key.entries, ']' ∉ raw entry.2 ∧ stripValueQuotes (raw entry.2) = entry.2) :
    parseElem (elementText raw elem) = elem := by
  rcases elem with ⟨elemName, key⟩
  cases entries : key.entries with
  | nil =>
      have noText : elementText raw ⟨elemName, key⟩ = elemName := by
        simp [elementText, entries, predicatesText]
      have noKeys : KeyMap.empty = key := by
        rw [← foldl_set_empty key, entries]
        rfl
      have missing : findFrom elemName '[' 0 = none := findFrom_append_miss [] elemName '[' name
      rw [noText, parseElem, missing, ← noKeys]
  | cons entry rest =>
      have opens : ∃ text, predicatesText raw key.entries = '[' :: text := by
        rw [entries]
        exact ⟨_, rfl⟩
      rcases opens with ⟨text, opens⟩
      have found : findFrom (elementText raw ⟨elemName, key⟩) '[' 0 = some elemName.length :=
        (findFrom_bracket_iff _ _).mpr ⟨elemName, text, congrArg (elemName ++ ·) opens, name, rfl⟩
      have nameText : slice (elementText raw ⟨elemName, key⟩) 0 elemName.length = elemName :=
        slice_append [] elemName _
      have enough : key.entries.length ≤ (elementText raw ⟨elemName, key⟩).length := by
        rw [elementText, List.length_append]
        exact (length_le_predicatesText raw key.entries).trans (Nat.le_add_left _ _)
      have parsed := parsePredicates_entries elemName enough KeyMap.empty keys values
      rw [foldl_set_empty] at parsed
      rw [parseElem, found]
      simp only [nameText]
      rw [elementText] at parsed ⊢
      rw [parsed]

/-! ## The outer loop -/

/-- The texts between the slashes. -/
def elementParts (xpath : Str) : List Str :=
  (xpath.splitOn '/').filter (fun part => !part.isEmpty)

theorem elementParts_nil : elementParts [] = [] := by
  simp [elementParts]

theorem elementParts_slash {part : Str} (rest : Str) (slashFree : '/' ∉ part) :
    elementParts (part ++ '/' :: rest) =
      (if part.isEmpty then [] else [part]) ++ elementParts rest := by
  rw [elementParts, List.splitOn_append_cons_self_of_not_mem slashFree, List.filter_cons, elementParts]
  cases part.isEmpty with
  | true => rfl
  | false => rfl

theorem elementParts_of_slashFree {part : Str} (slashFree : '/' ∉ part) :
    elementParts part = if part.isEmpty then [] else [part] := by
  rw [elementParts, List.splitOn_eq_singleton slashFree, List.filter_cons]
  cases part.isEmpty with
  | true => rfl
  | false => rfl

theorem slashFree_of_mem_elementParts {xpath part : Str} (member : part ∈ elementParts xpath) :
    '/' ∉ part := by
  induction length : xpath.length using Nat.strong_induction_on generalizing xpath with
  | h n inductionHypothesis =>
      by_cases slash : '/' ∈ xpath
      · rcases List.eq_append_cons_of_mem slash with ⟨front, rest, rfl, slashFree⟩
        rw [elementParts_slash rest slashFree, List.mem_append] at member
        rcases member with here | later
        · rw [List.mem_ite_nil_left, List.mem_singleton] at here
          rw [here.2]
          exact slashFree
        · rw [List.length_append, List.length_cons] at length
          exact inductionHypothesis rest.length (by omega) later rfl
      · rw [elementParts_of_slashFree slash, List.mem_ite_nil_left, List.mem_singleton] at member
        rw [member.2]
        exact slash

/-- Where the loop stands, the next part is cut off the rest of the string. -/
theorem xpathToGnmiPathLoop_eq (xpath : Str) (fuel pos : Nat) (elem : List PathElem)
    (enough : xpath.length + 1 - pos ≤ fuel) :
    xpathToGnmiPathLoop xpath fuel pos elem =
      elem ++ (elementParts (xpath.drop pos)).map parseElem := by
  induction fuel generalizing pos elem with
  | zero =>
      rw [List.drop_eq_nil_of_le (by omega), elementParts_nil]
      exact (List.append_nil elem).symm
  | succ fuel inductionHypothesis =>
      rw [xpathToGnmiPathLoop]
      by_cases inside : pos < xpath.length
      · rw [if_pos inside]
        by_cases slash : '/' ∈ xpath.drop pos
        · rcases List.eq_append_cons_of_mem slash with ⟨part, rest, cut, slashFree⟩
          have found : findFrom xpath '/' pos = some (pos + part.length) := by
            rw [findFrom, cut, findIdx?_hit part rest '/' slashFree]
            rfl
          have text : slice xpath pos (pos + part.length - pos) = part := by
            rw [slice, cut, Nat.add_sub_cancel_left, List.take_left]
          have after : xpath.drop (pos + part.length + 1) = rest := by
            rw [Nat.add_assoc, ← List.drop_drop, cut, ← List.drop_drop, List.drop_left]
            rfl
          simp only [found, Option.getD_some, text]
          rw [inductionHypothesis _ _ (by omega), inductionHypothesis _ _ (by omega), after, cut,
            elementParts_slash rest slashFree]
          cases part.isEmpty with
          | true => simp
          | false => simp
        · have missing : findFrom xpath '/' pos = none := by
            rw [findFrom, findIdx?_miss _ _ slash]
            rfl
          have text : slice xpath pos (xpath.length - pos) = xpath.drop pos := by
            rw [slice, ← List.length_drop, List.take_length]
          have after : xpath.drop (xpath.length + 1) = [] := List.drop_eq_nil_of_le (Nat.le_succ _)
          simp only [missing, Option.getD_none, text]
          rw [inductionHypothesis _ _ (by omega), inductionHypothesis _ _ (by omega), after,
            elementParts_nil, elementParts_of_slashFree slash]
          cases (xpath.drop pos).isEmpty with
          | true => simp
          | false => simp
      · rw [if_neg inside, List.drop_eq_nil_of_le (Nat.le_of_not_lt inside), elementParts_nil]
        exact (List.append_nil elem).symm

/-- The parser adds one element for every part. -/
theorem xpathToGnmiPath_eq (xpath : Str) (path : Path) :
    xpathToGnmiPath xpath path =
      { path with elem := path.elem ++ (elementParts xpath).map parseElem } := by
  cases xpath with
  | nil => simp [xpathToGnmiPath, elementParts_nil]
  | cons c rest =>
      rw [xpathToGnmiPath, if_neg (by simp), xpathToGnmiPathLoop_eq _ _ _ _ (Nat.sub_le _ _)]
      by_cases slash : c = '/'
      · have parts := elementParts_slash rest (List.not_mem_nil : '/' ∉ ([] : Str))
        rw [List.nil_append] at parts
        simp [slash, parts]
      · rw [List.head?_cons, if_neg (fun same => slash (Option.some.inj same)), List.drop_zero]

/-- Slash-free texts are the parts of the string they are joined to. -/
theorem elementParts_append_delimited {first : Str} {parts : List Str} (slashFree : '/' ∉ first)
    (nonempty : ∀ part ∈ parts, part ≠ []) (free : DelimiterFree '/' parts) :
    elementParts (first ++ delimited '/' parts) = (if first.isEmpty then [] else [first]) ++ parts := by
  induction parts generalizing first with
  | nil =>
      rw [delimited_nil, List.append_nil, List.append_nil]
      exact elementParts_of_slashFree slashFree
  | cons part parts inductionHypothesis =>
      have notEmpty : part.isEmpty = false := by
        rw [List.isEmpty_eq_false_iff]
        exact nonempty part List.mem_cons_self
      have later := inductionHypothesis free.head
        (fun text member => nonempty text (List.mem_cons_of_mem part member)) free.tail
      rw [delimited_cons, elementParts_slash _ slashFree, later, notEmpty]
      simp

/-- The parser reads the parts between the slashes back, one element each. -/
theorem xpathToGnmiPath_delimited {parts : List Str} (nonempty : ∀ part ∈ parts, part ≠ [])
    (free : DelimiterFree '/' parts) :
    xpathToGnmiPath (delimited '/' parts) {} = { elem := parts.map parseElem } := by
  have read := elementParts_append_delimited (List.not_mem_nil : '/' ∉ ([] : Str)) nonempty free
  rw [List.nil_append] at read
  rw [xpathToGnmiPath_eq, read]
  simp

end Utils
end PscMockServer
