import PscMockServer.Foundations.Text
import PscMockServer.Foundations.Delimited
import PscMockServer.Gnmi.Messages
import Mathlib.Algebra.Group.Nat.Defs

namespace PscMockServer
namespace Utils

open Foundations Gnmi

/-!
# Conversions between xpath strings and gNMI paths

The functions of `utils.h`.  A `size_t` position is a `Nat`, `npos` is `none`, and
the one subtraction of positions whose order the code does not check first
(`end - eq - 1`) keeps its wrap at 2^64, which every position is below.
-/

/-! ## gNMI path to xpath -/

/-- The predicates of one element, in the order its key map is enumerated. -/
def keyPredicates (key : KeyMap) : Str :=
  key.entries.flatMap (fun entry => "[".toList ++ entry.1 ++ "=\"".toList ++ entry.2 ++ "\"]".toList)

/-- The loop of `gnmi_to_xpath`; `first` is its first-element flag. -/
def gnmiToXpathLoop (origin : Str) : List PathElem -> Bool -> Str -> Str
  | [], _, str => str
  | node :: rest, first, str =>
      let str := str ++ "/".toList
      let str := if first && !origin.isEmpty then str ++ origin ++ ":".toList else str
      gnmiToXpathLoop origin rest false (str ++ node.name ++ keyPredicates node.key)

/-- `gnmi_to_xpath`. -/
def gnmiToXpath (path : Path) : Str :=
  gnmiToXpathLoop path.origin path.elem true []

/-! ## xpath to gNMI path -/

/-- `a - b` on `size_t`. -/
def sizeSub (a b : Nat) : Nat :=
  if b ≤ a then a - b else a + 2 ^ 64 - b

/-- Drop the surrounding quotes of a key value, when it begins with a quote. -/
def stripValueQuotes (val : Str) : Str :=
  if 2 ≤ val.length ∧ (val.head? = some '"' ∨ val.head? = some '\'') then
    slice val 1 (val.length - 2)
  else val

/-- The inner loop: every `[key=value]` predicate of `part` from position `k` on.
`fuel` bounds the iterations; each one moves `k` past a closing bracket. -/
def parsePredicates (part : Str) : Nat -> Nat -> KeyMap -> KeyMap
  | 0, _, key => key
  | fuel + 1, k, key =>
      if k < part.length ∧ part[k]? = some '[' then
        match findFrom part '=' (k + 1), findFrom part ']' (k + 1) with
        | some eq, some close =>
            let name := slice part (k + 1) (eq - k - 1)
            let val := slice part (eq + 1) (sizeSub (sizeSub close eq) 1)
            parsePredicates part fuel (close + 1) (key.set name (stripValueQuotes val))
        | _, _ => key
      else key

/-- One element of the path, from the text between two slashes. -/
def parseElem (part : Str) : PathElem :=
  match findFrom part '[' 0 with
  | none => { name := part }
  | some bracket =>
      { name := slice part 0 bracket
        key := parsePredicates part part.length bracket KeyMap.empty }

/-- The outer loop: the elements of `xpath` from `pos` on are appended to `elem`. -/
def xpathToGnmiPathLoop (xpath : Str) : Nat -> Nat -> List PathElem -> List PathElem
  | 0, _, elem => elem
  | fuel + 1, pos, elem =>
      if pos < xpath.length then
        let next := (findFrom xpath '/' pos).getD xpath.length
        let part := slice xpath pos (next - pos)
        if part.isEmpty then xpathToGnmiPathLoop xpath fuel (next + 1) elem
        else xpathToGnmiPathLoop xpath fuel (next + 1) (elem ++ [parseElem part])
      else elem

/-- `xpath_to_gnmi_path`, filling the message `path`. -/
def xpathToGnmiPath (xpath : Str) (path : Path) : Path :=
  if xpath.isEmpty then path
  else
    { path with
      elem := xpathToGnmiPathLoop xpath (xpath.length + 1)
        (if xpath.head? = some '/' then 1 else 0) path.elem }

/-- The path of an xpath string, parsed into a fresh message. -/
def pathOf (xpath : Str) : List Node :=
  (xpathToGnmiPath xpath {}).nodes

/-! ## Path matching -/

/-- `stripPathQuotes`. -/
def stripPathQuotes (xpath : Str) : Str :=
  xpath.filter (fun c => decide (c ≠ '"'))

/-- `isPathPrefix`: a string prefix that ends at a segment boundary. -/
def isPathPrefix (pre path : Str) : Bool :=
  if !pre.isPrefixOf path then false
  else if path.length = pre.length then true
  else
    match path[pre.length]? with
    | some next => decide (next = '/') || decide (next = '[')
    | none => false

/-! ## Validation -/

/-- The status of one element in `validateGnmiPath`. -/
def validateElem (elem : PathElem) : Status :=
  if elem.name.isEmpty then ⟨.invalidArgument, "path element has empty name".toList⟩
  else if elem.key.entries.any (fun entry => entry.1.isEmpty) then
    ⟨.invalidArgument, "path element key has empty name".toList⟩
  else Status.OK

/-- The first status that is not OK, or OK: a run of checks with early return. -/
def firstError (checks : List Status) : Status :=
  (checks.find? (fun status => !status.isOk)).getD Status.OK

/-- `validateGnmiPath`. -/
def validateGnmiPath (path : Path) : Status :=
  firstError (path.elem.map validateElem)

example : (gnmiToXpath (xpathToGnmiPath "/a/b[k='x']/c".toList {})) = "/a/b[k=\"x\"]/c".toList := by
  decide

theorem firstError_isOk_iff (checks : List Status) :
    (firstError checks).isOk = true ↔ ∀ status ∈ checks, status.isOk = true := by
  rw [firstError]
  cases found : checks.find? (fun status => !status.isOk) with
  | none =>
      have clean := List.find?_eq_none.mp found
      refine ⟨fun _ status member => ?_, fun _ => rfl⟩
      simpa using clean status member
  | some bad =>
      have failing := List.find?_some found
      have member := List.mem_of_find?_eq_some found
      refine ⟨fun okay => ?_, fun all => all bad member⟩
      rw [Option.getD_some] at okay
      simp [okay] at failing

theorem firstError_cons (status : Status) (rest : List Status) :
    firstError (status :: rest) = if status.isOk then firstError rest else status := by
  rw [firstError, firstError, List.find?_cons]
  cases status.isOk <;> rfl

/-- The first error is one of the checks. -/
theorem firstError_mem {checks : List Status} (failed : (firstError checks).isOk = false) :
    firstError checks ∈ checks := by
  rw [firstError] at failed ⊢
  cases found : checks.find? (fun status => !status.isOk) with
  | none =>
      rw [found] at failed
      cases failed
  | some bad => exact List.mem_of_find?_eq_some found

/-- Without an error the result is OK itself. -/
theorem firstError_eq_OK {checks : List Status} (okay : (firstError checks).isOk = true) :
    firstError checks = Status.OK := by
  rw [firstError, List.find?_eq_none.mpr, Option.getD_none]
  intro status member
  simpa using (firstError_isOk_iff checks).mp okay status member

theorem firstError_append (first second : List Status) :
    firstError (first ++ second) =
      if (firstError first).isOk then firstError second else firstError first := by
  rw [firstError, List.find?_append]
  cases found : first.find? (fun status => !status.isOk) with
  | none =>
      have okay : (firstError first).isOk = true := by rw [firstError, found]; rfl
      rw [if_pos okay, Option.none_or, firstError]
  | some bad =>
      have failing := List.find?_some found
      have failed : ¬ (firstError first).isOk = true := by
        rw [firstError, found, Option.getD_some]
        simpa using failing
      rw [if_neg failed, Option.some_or, firstError, found]

/-- The text of one element without origin. -/
def elemText (elem : PathElem) : Str :=
  '/' :: (elem.name ++ keyPredicates elem.key)

theorem gnmiToXpathLoop_eq {origin : Str} {first : Bool} (unmarked : (first && !origin.isEmpty) = false)
    (elems : List PathElem) (str : Str) :
    gnmiToXpathLoop origin elems first str = str ++ elems.flatMap elemText := by
  induction elems generalizing first str with
  | nil => exact (List.append_nil str).symm
  | cons elem rest inductionHypothesis =>
      rw [gnmiToXpathLoop, unmarked, if_neg Bool.false_ne_true,
        inductionHypothesis (Bool.false_and _), List.flatMap_cons, elemText]
      simp only [List.append_assoc, List.cons_append]
      rfl

/-- What is written of an origin, before the first name. -/
def originMark (origin : Str) : Str :=
  if origin.isEmpty then [] else origin ++ ":".toList

/-- The elements as they are written: the first name has the origin before it. -/
def writtenElems (path : Path) : List PathElem :=
  match path.elem with
  | [] => []
  | elem :: rest => { elem with name := originMark path.origin ++ elem.name } :: rest

theorem writtenElems_of_noOrigin {path : Path} (noOrigin : path.origin = []) :
    writtenElems path = path.elem := by
  rw [writtenElems, noOrigin]
  cases path.elem with
  | nil => rfl
  | cons elem rest => rfl

/-- The origin is no part of a key. -/
theorem writtenElems_keys (path : Path) :
    (writtenElems path).map PathElem.key = path.elem.map PathElem.key := by
  rw [writtenElems]
  cases path.elem with
  | nil => rfl
  | cons elem rest => rfl

/-- A written element is an element of the path, with nothing or the origin before its name. -/
theorem mem_writtenElems {path : Path} {elem : PathElem} (member : elem ∈ writtenElems path) :
    ∃ original ∈ path.elem, ∃ front : Str, elem = { original with name := front ++ original.name } ∧
      ∀ c ∈ front, c ∈ path.origin ∨ c = ':' := by
  rw [writtenElems] at member
  cases elems : path.elem with
  | nil =>
      rw [elems] at member
      cases member
  | cons first rest =>
      rw [elems] at member
      rcases List.mem_cons.mp member with rfl | later
      · refine ⟨first, List.mem_cons_self, originMark path.origin, rfl, fun c inMark => ?_⟩
        rw [originMark] at inMark
        by_cases empty : path.origin.isEmpty = true
        · rw [if_pos empty] at inMark
          cases inMark
        · rw [if_neg empty] at inMark
          exact (List.mem_append.mp inMark).imp_right List.mem_singleton.mp
      · exact ⟨elem, List.mem_cons_of_mem first later, [], rfl, fun c none_ => nomatch none_⟩

/-- The xpath of a path is the concatenation of the texts of its written elements. -/
theorem gnmiToXpath_written (path : Path) :
    gnmiToXpath path = (writtenElems path).flatMap elemText := by
  rw [gnmiToXpath, writtenElems]
  cases path.elem with
  | nil => rfl
  | cons elem rest =>
      have marked : (if (true && !path.origin.isEmpty) = true then
          ([] : Str) ++ "/".toList ++ path.origin ++ ":".toList else [] ++ "/".toList) =
            '/' :: originMark path.origin := by
        rw [originMark]
        cases path.origin.isEmpty with
        | true => rfl
        | false => rfl
      rw [gnmiToXpathLoop, marked, gnmiToXpathLoop_eq (Bool.false_and _), List.flatMap_cons, elemText]
      simp only [List.append_assoc, List.cons_append]

/-- Without origin, the xpath of a path is the concatenation of its elements' texts. -/
theorem gnmiToXpath_eq {path : Path} (noOrigin : path.origin = []) :
    gnmiToXpath path = path.elem.flatMap elemText := by
  rw [gnmiToXpath_written, writtenElems_of_noOrigin noOrigin]

/-- A path prefix is the path itself or stops right before a slash or a bracket. -/
theorem isPathPrefix_iff (pre path : Str) :
    isPathPrefix pre path = true ↔ path = pre ∨ pre ++ ['/'] <+: path ∨ pre ++ ['['] <+: path := by
  rw [isPathPrefix]
  by_cases starts : pre.isPrefixOf path = true
  · rcases List.isPrefixOf_iff_prefix.mp starts with ⟨rest, rfl⟩
    rw [starts, Bool.not_true, if_neg Bool.false_ne_true, List.length_append]
    cases rest with
    | nil => simp
    | cons next rest =>
        have longer : ¬ pre.length + (next :: rest).length = pre.length := by simp
        have atEnd : (pre ++ next :: rest)[pre.length]? = some next := by
          rw [List.getElem?_append_right (Nat.le_refl _), Nat.sub_self]
          rfl
        rw [if_neg longer, atEnd]
        simp only [Bool.or_eq_true, decide_eq_true_eq, List.append_right_eq_self,
          List.cons_ne_nil, false_or, List.prefix_append_right_inj, List.cons_prefix_cons,
          List.nil_prefix, and_true]
        exact ⟨fun here => here.imp Eq.symm Eq.symm, fun here => here.imp Eq.symm Eq.symm⟩
  · have notPrefix : ¬ pre <+: path := fun is => starts (List.isPrefixOf_iff_prefix.mpr is)
    rw [Bool.not_eq_true] at starts
    rw [starts, Bool.not_false, if_pos rfl]
    refine ⟨fun impossible => absurd impossible Bool.false_ne_true, ?_⟩
    rintro (rfl | slash | bracket)
    · exact absurd (List.prefix_refl _) notPrefix
    · exact absurd ((List.prefix_append pre ['/']).trans slash) notPrefix
    · exact absurd ((List.prefix_append pre ['[']).trans bracket) notPrefix

theorem starts_of_isPathPrefix {pre path : Str} (matched : isPathPrefix pre path = true) :
    pre <+: path := by
  rcases (isPathPrefix_iff pre path).mp matched with rfl | slash | bracket
  · exact List.prefix_refl _
  · exact (List.prefix_append pre ['/']).trans slash
  · exact (List.prefix_append pre ['[']).trans bracket

theorem stripPathQuotes_append (first second : Str) :
    stripPathQuotes (first ++ second) = stripPathQuotes first ++ stripPathQuotes second :=
  List.filter_append first second

theorem stripPathQuotes_eq_self {xpath : Str} (quoteFree : '"' ∉ xpath) :
    stripPathQuotes xpath = xpath := by
  rw [stripPathQuotes, List.filter_eq_self]
  intro c member
  exact decide_eq_true (fun same => quoteFree (same ▸ member))

theorem stripPathQuotes_quoteFree (xpath : Str) : '"' ∉ stripPathQuotes xpath := by
  rw [stripPathQuotes, List.mem_filter]
  rintro ⟨_, different⟩
  exact absurd rfl (of_decide_eq_true different)

end Utils
end PscMockServer
