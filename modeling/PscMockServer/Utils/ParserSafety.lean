import PscMockServer.Foundations.Loops
import PscMockServer.Utils.Parsing

namespace PscMockServer
namespace Utils

open Foundations Gnmi StateTransition

/-!
# The parser on arbitrary strings

The two loops of `xpath_to_gnmi_path` as step functions, with every call of `substr`
that an iteration makes.  Both loops are left on every string, and no name has a slash
or a bracket.

The searches for `=` and `]` are independent of one another.  A predicate without `=`
that is followed by one more `=` in its element makes the code subtract a larger index
from a smaller one: the key then runs over the closing bracket into the text that
follows.  On all other strings the parser is safe.
-/

/-! ## The loops -/

/-- One iteration of the inner loop, at a position and with the keys so far. -/
def predicateStep (part : Str) (s : Nat × KeyMap) : Option (Nat × KeyMap) :=
  if s.1 < part.length ∧ part[s.1]? = some '[' then
    match findFrom part '=' (s.1 + 1), findFrom part ']' (s.1 + 1) with
    | some eq, some close =>
        let key := slice part (s.1 + 1) (eq - s.1 - 1)
        let val := slice part (eq + 1) (sizeSub (sizeSub close eq) 1)
        some (close + 1, s.2.set key (stripValueQuotes val))
    | _, _ => none
  else none

/-- One iteration of the outer loop, at a position and with the elements so far. -/
def elementStep (xpath : Str) (s : Nat × List PathElem) : Option (Nat × List PathElem) :=
  if s.1 < xpath.length then
    let next := (findFrom xpath '/' s.1).getD xpath.length
    let part := slice xpath s.1 (next - s.1)
    some (next + 1, if part.isEmpty then s.2 else s.2 ++ [parseElem part])
  else none

/-- Where the outer loop starts. -/
def startPosition (xpath : Str) : Nat :=
  if xpath.head? = some '/' then 1 else 0

theorem parsePredicates_eq_boundedLoop (part : Str) (fuel k : Nat) (key : KeyMap) :
    parsePredicates part fuel k key = boundedLoop (predicateStep part) Prod.snd fuel (k, key) := by
  induction fuel generalizing k key with
  | zero => rfl
  | succ fuel inductionHypothesis =>
      simp only [parsePredicates, boundedLoop, predicateStep]
      by_cases atBracket : k < part.length ∧ part[k]? = some '['
      · rw [if_pos atBracket, if_pos atBracket]
        cases findFrom part '=' (k + 1) with
        | none => rfl
        | some eq =>
            cases findFrom part ']' (k + 1) with
            | none => rfl
            | some close => exact inductionHypothesis _ _
      · rw [if_neg atBracket, if_neg atBracket]

theorem xpathToGnmiPathLoop_eq_boundedLoop (xpath : Str) (fuel pos : Nat) (elem : List PathElem) :
    xpathToGnmiPathLoop xpath fuel pos elem =
      boundedLoop (elementStep xpath) Prod.snd fuel (pos, elem) := by
  induction fuel generalizing pos elem with
  | zero => rfl
  | succ fuel inductionHypothesis =>
      simp only [xpathToGnmiPathLoop, boundedLoop, elementStep]
      by_cases inside : pos < xpath.length
      · rw [if_pos inside, if_pos inside]
        cases (slice xpath pos ((findFrom xpath '/' pos).getD xpath.length - pos)).isEmpty with
        | true => exact inductionHypothesis _ _
        | false => exact inductionHypothesis _ _
      · rw [if_neg inside, if_neg inside]

/-! ## Termination -/

theorem findFrom_bounds {s : Str} {c : Char} {pos i : Nat} (found : findFrom s c pos = some i) :
    pos ≤ i ∧ i < s.length := by
  rw [findFrom, Option.map_eq_some_iff] at found
  rcases found with ⟨j, hit, rfl⟩
  have inside := (List.findIdx?_eq_some_iff_getElem.mp hit).1
  rw [List.length_drop] at inside
  omega

theorem predicateStep_lowers (part : Str) (s next : Nat × KeyMap)
    (step : predicateStep part s = some next) :
    part.length - next.1 < part.length - s.1 := by
  simp only [predicateStep] at step
  split at step
  · rename_i atBracket
    split at step
    · rename_i eq close eqFound closeFound
      have beyond := findFrom_bounds closeFound
      cases step
      dsimp only
      omega
    · cases step
  · cases step

theorem elementStep_lowers (xpath : Str) (s next : Nat × List PathElem)
    (step : elementStep xpath s = some next) :
    xpath.length + 1 - next.1 < xpath.length + 1 - s.1 := by
  simp only [elementStep] at step
  split at step
  · rename_i inside
    have beyond : s.1 ≤ (findFrom xpath '/' s.1).getD xpath.length := by
      cases found : findFrom xpath '/' s.1 with
      | none => exact inside.le
      | some next => exact (findFrom_bounds found).1
    cases step
    dsimp only
    omega
  · cases step

/-- The inner loop is left, with the keys the model computes. -/
theorem predicates_exit (part : Str) (k : Nat) (key : KeyMap) :
    ∃ exit ∈ eval (predicateStep part) (k, key), parsePredicates part part.length k key = exit.2 := by
  rw [parsePredicates_eq_boundedLoop]
  apply boundedLoop_exits Prod.snd (fun s => part.length - s.1) (predicateStep_lowers part)
  exact Nat.sub_le _ _

/-- The outer loop is left, with the elements the model computes. -/
theorem elements_exit (xpath : Str) (path : Path) :
    ∃ exit ∈ eval (elementStep xpath) (startPosition xpath, path.elem),
      (xpathToGnmiPath xpath path).elem = exit.2 := by
  have exits := boundedLoop_exits (s := (startPosition xpath, path.elem)) Prod.snd
    (fun s => xpath.length + 1 - s.1) (elementStep_lowers xpath) (Nat.sub_le _ _)
  rw [← xpathToGnmiPathLoop_eq_boundedLoop] at exits
  rw [xpathToGnmiPath]
  by_cases empty : xpath.isEmpty = true
  · rw [List.isEmpty_iff.mp empty] at exits ⊢
    exact exits
  · rw [if_neg empty]
    exact exits

/-! ## Names -/

theorem parseElem_name_bracketFree (part : Str) : '[' ∉ (parseElem part).name := by
  rw [parseElem]
  cases found : findFrom part '[' 0 with
  | none =>
      by_cases bracket : '[' ∈ part
      · rcases List.eq_append_cons_of_mem bracket with ⟨name, rest, cut, bracketFree⟩
        have hit := (findFrom_bracket_iff part name.length).mpr ⟨name, rest, cut, bracketFree, rfl⟩
        rw [found] at hit
        cases hit
      · exact bracket
  | some bracket =>
      rcases (findFrom_bracket_iff _ _).mp found with ⟨name, rest, rfl, bracketFree, rfl⟩
      have text : slice (name ++ '[' :: rest) 0 name.length = name := slice_append [] name _
      simp only [text]
      exact bracketFree

/-- The name is a front of the part. -/
theorem parseElem_name_starts (part : Str) : (parseElem part).name <+: part := by
  rw [parseElem]
  cases findFrom part '[' 0 with
  | none => exact List.prefix_refl part
  | some bracket => exact List.take_prefix bracket part

/-! ## Calls of substr -/

/-- A call `text.substr(pos, upper - lower)` on a text of length `size`. -/
structure SubstrCall where
  size : Nat
  pos : Nat
  upper : Nat
  lower : Nat

/-- The position is in the text and the subtraction does not wrap. -/
structure SubstrCall.InRange (call : SubstrCall) : Prop where
  position : call.pos ≤ call.size
  noWrap : call.lower ≤ call.upper

/-- The call of an outer iteration: the part. -/
def elementCalls (xpath : Str) (pos : Nat) : List SubstrCall :=
  if pos < xpath.length then
    [⟨xpath.length, pos, (findFrom xpath '/' pos).getD xpath.length, pos⟩]
  else []

/-- The call before the inner loop: the name. -/
def nameCalls (part : Str) : List SubstrCall :=
  match findFrom part '[' 0 with
  | none => []
  | some bracket => [⟨part.length, 0, bracket, 0⟩]

/-- The call that drops the quotes of a value. -/
def quoteCalls (val : Str) : List SubstrCall :=
  if 2 ≤ val.length ∧ (val.head? = some '"' ∨ val.head? = some '\'') then
    [⟨val.length, 1, val.length, 2⟩]
  else []

/-- The calls of an inner iteration: the key, the value and its quotes. -/
def predicateCalls (part : Str) (k : Nat) : List SubstrCall :=
  if k < part.length ∧ part[k]? = some '[' then
    match findFrom part '=' (k + 1), findFrom part ']' (k + 1) with
    | some eq, some close =>
        let val := slice part (eq + 1) (sizeSub (sizeSub close eq) 1)
        ⟨part.length, k + 1, eq, k + 1⟩ :: ⟨part.length, eq + 1, close, eq + 1⟩ :: quoteCalls val
    | _, _ => []
  else []

/-- A state of the inner loop on a part. -/
def InnerState (part : Str) (s : Nat × KeyMap) : Prop :=
  ∃ bracket, findFrom part '[' 0 = some bracket ∧
    Reaches (predicateStep part) (bracket, KeyMap.empty) s

/-- The calls the parser makes on a string. -/
inductive Calls (xpath : Str) : SubstrCall -> Prop where
  | element {s : Nat × List PathElem} {call : SubstrCall}
      (reached : Reaches (elementStep xpath) (startPosition xpath, []) s)
      (made : call ∈ elementCalls xpath s.1) : Calls xpath call
  | name {part : Str} {call : SubstrCall} (parsed : part ∈ elementParts xpath)
      (made : call ∈ nameCalls part) : Calls xpath call
  | predicate {part : Str} {s : Nat × KeyMap} {call : SubstrCall} (parsed : part ∈ elementParts xpath)
      (reached : InnerState part s) (made : call ∈ predicateCalls part s.1) : Calls xpath call

theorem elementCalls_inRange {xpath : Str} {pos : Nat} {call : SubstrCall}
    (made : call ∈ elementCalls xpath pos) : call.InRange := by
  rw [elementCalls, List.mem_ite_nil_right, List.mem_singleton] at made
  rcases made with ⟨inside, rfl⟩
  refine ⟨inside.le, ?_⟩
  cases found : findFrom xpath '/' pos with
  | none => exact inside.le
  | some next => exact (findFrom_bounds found).1

theorem nameCalls_inRange {part : Str} {call : SubstrCall} (made : call ∈ nameCalls part) :
    call.InRange := by
  rw [nameCalls] at made
  split at made
  · cases made
  · rw [List.mem_singleton.mp made]
    exact ⟨Nat.zero_le _, Nat.zero_le _⟩

theorem quoteCalls_inRange {val : Str} {call : SubstrCall} (made : call ∈ quoteCalls val) :
    call.InRange := by
  rw [quoteCalls, List.mem_ite_nil_right, List.mem_singleton] at made
  rcases made with ⟨⟨long, _⟩, rfl⟩
  exact ⟨Nat.le_of_succ_le long, long⟩

/-! ## What an inner iteration finds -/

/-- Key and value text of a predicate: the key ends at the first `=`, the value at the
first `]`. -/
def CleanPredicate (p : Str × Str) : Prop :=
  '=' ∉ p.1 ∧ ']' ∉ p.1 ∧ ']' ∉ p.2

/-- A bracket without `=` before an `=`. -/
def MalformedPredicate (text : Str) : Prop :=
  ∃ body after, text = '[' :: (body ++ ']' :: after) ∧ '=' ∉ body ∧ ']' ∉ body ∧ '=' ∈ after

/-- After an opening bracket one of the delimiters is missing, or the text starts with
the rest of a predicate, or a bracket is closed before the first `=`. -/
theorem bracket_cases (text : Str) :
    ('=' ∉ text ∨ ']' ∉ text) ∨
      (∃ p after, CleanPredicate p ∧ '[' :: text = predicateText p.1 p.2 ++ after) ∨
        MalformedPredicate ('[' :: text) := by
  by_cases closes : ']' ∈ text
  · rcases List.eq_append_cons_of_mem closes with ⟨body, after, rfl, closeFree⟩
    by_cases equals : '=' ∈ body
    · rcases List.eq_append_cons_of_mem equals with ⟨key, raw, rfl, eqFree⟩
      rw [List.mem_append, List.mem_cons, not_or, not_or] at closeFree
      refine Or.inr (Or.inl ⟨(key, raw), after, ⟨eqFree, closeFree.1, closeFree.2.2⟩, ?_⟩)
      simp [predicateText]
    · by_cases later : '=' ∈ after
      · exact Or.inr (Or.inr ⟨body, after, rfl, equals, closeFree, later⟩)
      · apply Or.inl
        apply Or.inl
        simp [equals, later]
  · exact Or.inl (Or.inr closes)

/-- Without an opening bracket the loop is left. -/
theorem predicateStep_of_not_bracket {seen rest : Str} (key : KeyMap) (other : rest.head? ≠ some '[') :
    predicateStep (seen ++ rest) (seen.length, key) = none ∧
      predicateCalls (seen ++ rest) seen.length = [] := by
  have noBracket : (seen ++ rest)[seen.length]? ≠ some '[' := by
    rw [List.getElem?_append_right (Nat.le_refl _), Nat.sub_self, ← List.head?_eq_getElem?]
    exact other
  simp [predicateStep, predicateCalls, noBracket]

/-- Without one of the delimiters the loop is left. -/
theorem predicateStep_of_missing {seen text : Str} (key : KeyMap) (missing : '=' ∉ text ∨ ']' ∉ text) :
    predicateStep (seen ++ '[' :: text) (seen.length, key) = none ∧
      predicateCalls (seen ++ '[' :: text) seen.length = [] := by
  rw [predicateStep, predicateCalls]
  rcases missing with noEq | noClose
  · simp [findFrom_append_cons_miss seen text '[' '=' noEq]
  · have miss := findFrom_append_cons_miss seen text '[' ']' noClose
    cases findFrom (seen ++ '[' :: text) '=' (seen.length + 1) with
    | none => simp
    | some eq => simp [miss]

/-- A clean predicate is read as it stands. -/
theorem predicateStep_clean (seen : Str) {p : Str × Str} (clean : CleanPredicate p) (after : Str)
    (key : KeyMap) :
    predicateStep (seen ++ (predicateText p.1 p.2 ++ after)) (seen.length, key) =
      some ((seen ++ predicateText p.1 p.2).length, key.set p.1 (stripValueQuotes p.2)) := by
  have reads := readsPredicate seen after clean.1 clean.2.1 clean.2.2
  rw [predicateStep, if_pos reads.atBracket]
  simp only [reads.eqFound, reads.closeFound, reads.keyText, reads.valueText, position_after_predicate]

theorem predicateCalls_clean (seen : Str) {p : Str × Str} (clean : CleanPredicate p) (after : Str)
    {call : SubstrCall}
    (made : call ∈ predicateCalls (seen ++ (predicateText p.1 p.2 ++ after)) seen.length) :
    call.InRange := by
  have reads := readsPredicate seen after clean.1 clean.2.1 clean.2.2
  have ordered := reads.ordered
  rw [predicateCalls, if_pos reads.atBracket] at made
  simp only [reads.eqFound, reads.closeFound, List.mem_cons] at made
  rcases made with rfl | rfl | quotes
  · exact ⟨by dsimp only; omega, by dsimp only; omega⟩
  · exact ⟨by dsimp only; omega, by dsimp only; omega⟩
  · exact quoteCalls_inRange quotes

/-- At a malformed predicate the value's length wraps. -/
theorem predicateCalls_malformed (seen : Str) {text : Str} (malformed : MalformedPredicate text) :
    ∃ call ∈ predicateCalls (seen ++ text) seen.length, ¬ call.InRange := by
  rcases malformed with ⟨body, after, rfl, bodyEq, bodyClose, afterEq⟩
  rcases List.eq_append_cons_of_mem afterEq with ⟨front, rest, rfl, frontEq⟩
  have closeFound := findFrom_append_cons_hit seen body (front ++ '=' :: rest) '[' ']' bodyClose
  have noEq : '=' ∉ body ++ ']' :: front := by
    simp [bodyEq, frontEq]
  have eqFound := findFrom_append_cons_hit seen (body ++ ']' :: front) rest '[' '=' noEq
  rw [List.append_assoc body] at eqFound
  have atBracket : seen.length < (seen ++ '[' :: (body ++ ']' :: (front ++ '=' :: rest))).length ∧
      (seen ++ '[' :: (body ++ ']' :: (front ++ '=' :: rest)))[seen.length]? = some '[' := by
    simp
  simp only [List.cons_append] at eqFound
  rw [predicateCalls, if_pos atBracket, eqFound, closeFound]
  refine ⟨_, List.mem_cons_of_mem _ List.mem_cons_self, fun inRange => ?_⟩
  -- the first `=` is beyond the first `]`
  have noWrap := inRange.noWrap
  simp only [List.length_append, List.length_cons] at noWrap
  omega

/-! ## Whole runs of the inner loop -/

/-- The entry is read from one predicate of the part: its key up to the first `=`, its
value from there to the same predicate's `]`. -/
def FromOnePredicate (part : Str) (entry : Str × Str) : Prop :=
  ∃ before raw after, part = before ++ (predicateText entry.1 raw ++ after) ∧
    CleanPredicate (entry.1, raw) ∧ entry.2 = stripValueQuotes raw

/-- After its name and some clean predicates the part goes on with a malformed one. -/
def SwallowsPredicate (part : Str) : Prop :=
  ∃ name preds text, part = name ++ (predicatesText id preds ++ text) ∧ '[' ∉ name ∧
    (∀ p ∈ preds, CleanPredicate p) ∧ MalformedPredicate text

/-- The loop stands behind some clean predicates, and every key is from one of them. -/
structure ReadSoFar (part : Str) (s : Nat × KeyMap) : Prop where
  position : ∃ name preds rest, part = name ++ (predicatesText id preds ++ rest) ∧ '[' ∉ name ∧
    (∀ p ∈ preds, CleanPredicate p) ∧ s.1 = (name ++ predicatesText id preds).length
  entries : ∀ entry ∈ s.2.entries, FromOnePredicate part entry

theorem predicatesText_snoc (preds : List (Str × Str)) (p : Str × Str) :
    predicatesText id (preds ++ [p]) = predicatesText id preds ++ predicateText p.1 p.2 := by
  simp [predicatesText]

/-- One iteration on a part that swallows nothing. -/
theorem ReadSoFar.cases {part : Str} {s : Nat × KeyMap} (good : ReadSoFar part s)
    (safe : ¬ SwallowsPredicate part) :
    (predicateStep part s = none ∧ predicateCalls part s.1 = []) ∨
      ∃ next, predicateStep part s = some next ∧ ReadSoFar part next ∧
        ∀ call ∈ predicateCalls part s.1, call.InRange := by
  rcases s with ⟨k, key⟩
  rcases good.position with ⟨name, preds, rest, rfl, bracketFree, clean, rfl⟩
  have entries := good.entries
  rw [← List.append_assoc]
  by_cases bracket : rest.head? = some '['
  · rcases List.head?_eq_some_iff.mp bracket with ⟨text, rfl⟩
    rcases bracket_cases text with missing | ⟨p, after, cleanHere, same⟩ | malformed
    · exact Or.inl (predicateStep_of_missing key missing)
    · apply Or.inr
      rw [same] at entries ⊢
      refine ⟨_, predicateStep_clean _ cleanHere after key, ⟨?_, ?_⟩, ?_⟩
      · refine ⟨name, preds ++ [p], after, ?_, bracketFree, ?_, ?_⟩
        · simp only [predicatesText_snoc, List.append_assoc]
        · intro q member
          rcases List.mem_append.mp member with before | here
          · exact clean q before
          · rw [List.mem_singleton.mp here]
            exact cleanHere
        · rw [predicatesText_snoc, List.append_assoc]
      · intro entry member
        rcases KeyMap.mem_setEntries member with rfl | before
        · exact ⟨name ++ predicatesText id preds, p.2, after, rfl, cleanHere, rfl⟩
        · rw [List.append_assoc]
          exact entries entry before
      · exact fun call made => predicateCalls_clean _ cleanHere after made
    · exact absurd ⟨name, preds, _, rfl, bracketFree, clean, malformed⟩ safe
  · exact Or.inl (predicateStep_of_not_bracket key bracket)

/-- On a part that swallows nothing every state of the loop is behind clean predicates. -/
theorem InnerState.readSoFar {part : Str} (safe : ¬ SwallowsPredicate part) {s : Nat × KeyMap}
    (inner : InnerState part s) : ReadSoFar part s := by
  rcases inner with ⟨bracket, found, reached⟩
  rcases (findFrom_bracket_iff _ _).mp found with ⟨name, rest, rfl, bracketFree, rfl⟩
  apply invariant_of_reaches (ReadSoFar (name ++ '[' :: rest)) _ _ reached
  · intro s next good iterates
    rcases good.cases safe with ⟨left, _⟩ | ⟨other, step, after, _⟩
    · rw [left] at iterates
      cases iterates
    · rw [step] at iterates
      cases iterates
      exact after
  · refine ⟨⟨name, [], '[' :: rest, rfl, bracketFree, by simp, ?_⟩, by simp [KeyMap.empty]⟩
    simp [predicatesText]

/-- The loop reads clean predicates one after another. -/
theorem reaches_clean {preds : List (Str × Str)} (clean : ∀ p ∈ preds, CleanPredicate p)
    (seen rest : Str) (key : KeyMap) :
    ∃ read, Reaches (predicateStep (seen ++ (predicatesText id preds ++ rest))) (seen.length, key)
      ((seen ++ predicatesText id preds).length, read) := by
  induction preds generalizing seen key with
  | nil =>
      have noText : predicatesText id [] = [] := rfl
      rw [noText, List.append_nil]
      exact ⟨key, Relation.ReflTransGen.refl⟩
  | cons p preds inductionHypothesis =>
      have here := clean p List.mem_cons_self
      have step := predicateStep_clean seen here (predicatesText id preds ++ rest) key
      have later : ∀ q ∈ preds, CleanPredicate q :=
        fun q member => clean q (List.mem_cons_of_mem p member)
      rcases inductionHypothesis later (seen ++ predicateText p.1 p.2)
        (key.set p.1 (stripValueQuotes p.2)) with ⟨read, reached⟩
      rw [predicatesText_cons, id, ← List.append_assoc seen]
      simp only [List.append_assoc] at step reached ⊢
      exact ⟨read, Relation.ReflTransGen.head step reached⟩

/-- On a part that swallows a predicate the loop makes a call whose length wraps. -/
theorem exists_wrap_of_swallows {part : Str} (swallows : SwallowsPredicate part) :
    ∃ s, InnerState part s ∧ ∃ call ∈ predicateCalls part s.1, ¬ call.InRange := by
  rcases swallows with ⟨name, preds, text, rfl, bracketFree, clean, malformed⟩
  rcases reaches_clean clean name text KeyMap.empty with ⟨read, reached⟩
  have opens : ∃ rest, predicatesText id preds ++ text = '[' :: rest := by
    cases preds with
    | nil =>
        rcases malformed with ⟨body, after, same, _⟩
        exact ⟨_, same⟩
    | cons p preds => exact ⟨_, rfl⟩
  rcases opens with ⟨rest, same⟩
  have wraps := predicateCalls_malformed (name ++ predicatesText id preds) malformed
  rw [List.append_assoc] at wraps
  refine ⟨_, ⟨name.length, ?_, reached⟩, wraps⟩
  exact (findFrom_bracket_iff _ _).mpr ⟨name, rest, by rw [same], bracketFree, rfl⟩

/-! ## Every string -/

/-- Safety of the parser on one string. -/
structure ParserSafe (xpath : Str) : Prop where
  elementsEnd : ∀ path : Path, ∃ exit ∈ eval (elementStep xpath) (startPosition xpath, path.elem),
    (xpathToGnmiPath xpath path).elem = exit.2
  predicatesEnd : ∀ part ∈ elementParts xpath, ∀ bracket, findFrom part '[' 0 = some bracket ->
    ∃ exit ∈ eval (predicateStep part) (bracket, KeyMap.empty), (parseElem part).key = exit.2
  lengths : ∀ call, Calls xpath call -> call.InRange
  added : ∀ path : Path,
    (xpathToGnmiPath xpath path).elem = path.elem ++ (elementParts xpath).map parseElem
  names : ∀ part ∈ elementParts xpath, '/' ∉ (parseElem part).name ∧ '[' ∉ (parseElem part).name
  keys : ∀ part ∈ elementParts xpath, ∀ s, InnerState part s ->
    ∀ entry ∈ s.2.entries, FromOnePredicate part entry
  malformed : ∀ part ∈ elementParts xpath, ∀ s, InnerState part s -> ∀ body after : Str,
    part.drop s.1 = '[' :: (body ++ ']' :: after) -> '=' ∉ body -> ']' ∉ body ->
      ∀ next, predicateStep part s = some next -> next.2 = s.2

theorem parseElem_key_exit {part : Str} {bracket : Nat} (found : findFrom part '[' 0 = some bracket) :
    ∃ exit ∈ eval (predicateStep part) (bracket, KeyMap.empty), (parseElem part).key = exit.2 := by
  rw [parseElem, found]
  exact predicates_exit part bracket KeyMap.empty

theorem calls_inRange {xpath : Str} (safe : ∀ part ∈ elementParts xpath, ¬ SwallowsPredicate part)
    {call : SubstrCall} (made : Calls xpath call) : call.InRange := by
  cases made with
  | element _ made => exact elementCalls_inRange made
  | name _ made => exact nameCalls_inRange made
  | predicate parsed inner made =>
      have good := inner.readSoFar (safe _ parsed)
      rcases good.cases (safe _ parsed) with ⟨_, none_⟩ | ⟨_, _, _, inRange⟩
      · rw [none_] at made
        cases made
      · exact inRange _ made

/-- On a part that swallows nothing the loop is left at a predicate without `=`. -/
theorem predicateStep_malformed {part : Str} (safe : ¬ SwallowsPredicate part) {s : Nat × KeyMap}
    (good : ReadSoFar part s) {body after : Str} (cut : part.drop s.1 = '[' :: (body ++ ']' :: after))
    (bodyEq : '=' ∉ body) (bodyClose : ']' ∉ body) : predicateStep part s = none := by
  rcases s with ⟨k, key⟩
  rcases good.position with ⟨name, preds, rest, rfl, bracketFree, clean, rfl⟩
  rw [← List.append_assoc, List.drop_left] at cut
  rw [← List.append_assoc, cut]
  by_cases later : '=' ∈ after
  · have malformed : MalformedPredicate rest := ⟨body, after, cut, bodyEq, bodyClose, later⟩
    exact absurd ⟨name, preds, rest, rfl, bracketFree, clean, malformed⟩ safe
  · exact (predicateStep_of_missing key (Or.inl (by simp [bodyEq, later]))).1

/-- The parser is safe exactly on the strings none of whose elements has a predicate
without `=` before an `=`. -/
theorem parserSafe_iff (xpath : Str) :
    ParserSafe xpath ↔ ∀ part ∈ elementParts xpath, ¬ SwallowsPredicate part := by
  constructor
  · intro safe part parsed swallows
    rcases exists_wrap_of_swallows swallows with ⟨s, inner, call, made, wraps⟩
    exact wraps (safe.lengths call (Calls.predicate parsed inner made))
  · intro safe
    constructor
    · exact elements_exit xpath
    · exact fun part _ bracket found => parseElem_key_exit found
    · exact fun call made => calls_inRange safe made
    · exact fun path => congrArg Path.elem (xpathToGnmiPath_eq xpath path)
    · intro part parsed
      refine ⟨fun slash => ?_, parseElem_name_bracketFree part⟩
      exact slashFree_of_mem_elementParts parsed ((parseElem_name_starts part).subset slash)
    · intro part parsed s inner
      exact (inner.readSoFar (safe part parsed)).entries
    · intro part parsed s inner body after cut bodyEq bodyClose next iterates
      have left := predicateStep_malformed (safe part parsed) (inner.readSoFar (safe part parsed)) cut
        bodyEq bodyClose
      rw [left] at iterates
      cases iterates

/-- The key of a predicate without `=` runs into the predicate after it. -/
theorem swallowed_predicate_unsafe : ¬ ParserSafe "/a[x][y=1]".toList := by
  intro safe
  have parsed : "a[x][y=1]".toList ∈ elementParts "/a[x][y=1]".toList := by decide
  have swallows : SwallowsPredicate "a[x][y=1]".toList :=
    ⟨['a'], [], "[x][y=1]".toList, rfl, by decide, by simp, ['x'], "[y=1]".toList, rfl, by decide,
      by decide, by decide⟩
  rcases exists_wrap_of_swallows swallows with ⟨s, inner, call, made, wraps⟩
  exact wraps (safe.lengths call (Calls.predicate parsed inner made))

example : (parseElem "a[x][y=1]".toList).key.entries =
    [("x][y".toList, "1]".toList), ("y".toList, "1".toList)] := by
  decide

end Utils
end PscMockServer
