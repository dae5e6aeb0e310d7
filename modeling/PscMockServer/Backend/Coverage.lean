import PscMockServer.Backend.Selection

namespace PscMockServer
namespace Backend

open Foundations Utils Gnmi

/-!
# Covered queries

Selection is transitive on canonical leaves: what a query selects below another selected
query, the other one selects too.  The scan of `stripKeys` leaves a canonical text only at
its closing brackets, so a boundary of the text is never inside a predicate and dropping the
predicates keeps it a boundary.
-/

/-- Whether the scan of `stripKeys` is inside a predicate after a text. -/
def insideAfter : Str -> Bool -> Bool
  | [], inKey => inKey
  | c :: rest, inKey =>
      if c = '[' then insideAfter rest true
      else if c = ']' then insideAfter rest false
      else insideAfter rest inKey

/-- Predicates are closed, hold no slash and no bracket, and end at a boundary. -/
def Bracketed : Str -> Bool -> Prop
  | [], inKey => inKey = false
  | c :: rest, inKey =>
      if c = '[' then inKey = false ∧ Bracketed rest true
      else if c = ']' then EndsName rest ∧ Bracketed rest false
      else if c = '/' then inKey = false ∧ Bracketed rest false
      else Bracketed rest inKey

/-! ## The scan -/

theorem stripKeysLoop_out (text : Str) (inKey : Bool) (out : Str) :
    stripKeysLoop text inKey out = out ++ stripKeysLoop text inKey [] := by
  induction text generalizing inKey out with
  | nil => exact (List.append_nil out).symm
  | cons c rest inductionHypothesis =>
      rw [stripKeysLoop, stripKeysLoop]
      split
      · exact inductionHypothesis true out
      · split
        · exact inductionHypothesis false out
        · split
          · exact inductionHypothesis inKey out
          · rw [inductionHypothesis inKey (out ++ [c]), List.nil_append,
              inductionHypothesis inKey [c], List.append_assoc]

theorem stripKeysLoop_append (first rest : Str) (inKey : Bool) (out : Str) :
    stripKeysLoop (first ++ rest) inKey out =
      stripKeysLoop rest (insideAfter first inKey) (stripKeysLoop first inKey out) := by
  induction first generalizing inKey out with
  | nil => rfl
  | cons c first inductionHypothesis =>
      rw [List.cons_append, stripKeysLoop, stripKeysLoop, insideAfter]
      split
      · exact inductionHypothesis true out
      · split
        · exact inductionHypothesis false out
        · split
          · exact inductionHypothesis inKey out
          · exact inductionHypothesis inKey (out ++ [c])

/-- No closing bracket is kept. -/
theorem stripKeysLoop_open {text : Str} (inKey : Bool) {out : Str} (clean : ']' ∉ out) :
    ']' ∉ stripKeysLoop text inKey out := by
  induction text generalizing inKey out with
  | nil => exact clean
  | cons c rest inductionHypothesis =>
      rw [stripKeysLoop]
      split
      · exact inductionHypothesis true clean
      · split
        · exact inductionHypothesis false clean
        · next notClosing =>
            split
            · exact inductionHypothesis inKey clean
            · refine inductionHypothesis inKey ?_
              rw [List.mem_append, List.mem_singleton, not_or]
              exact ⟨clean, fun closing => notClosing closing.symm⟩

theorem stripKeys_of_no_brackets {text : Str} (clean : '[' ∉ text ∧ ']' ∉ text) : stripKeys text = text := by
  have outside := stripKeysLoop_outside clean [] []
  rw [List.append_nil] at outside
  exact outside

/-! ## Bracketed texts -/

theorem bracketed_plain {text : Str} (clean : '[' ∉ text ∧ ']' ∉ text ∧ '/' ∉ text) (rest : Str)
    (inKey : Bool) : Bracketed (text ++ rest) inKey ↔ Bracketed rest inKey := by
  induction text with
  | nil => exact Iff.rfl
  | cons c text inductionHypothesis =>
      simp only [List.mem_cons, not_or] at clean
      rw [List.cons_append, Bracketed, if_neg (Ne.symm clean.1.1), if_neg (Ne.symm clean.2.1.1),
        if_neg (Ne.symm clean.2.2.1)]
      exact inductionHypothesis ⟨clean.1.2, clean.2.1.2, clean.2.2.2⟩

theorem clean_of_plain {text : Str} (isPlain : plain text = true) : '[' ∉ text ∧ ']' ∉ text ∧ '/' ∉ text :=
  ⟨not_mem_of_plain isPlain (by decide), not_mem_of_plain isPlain (by decide),
    not_mem_of_plain isPlain (by decide)⟩

theorem bracketed_segment (segment : Segment) {rest : Str} (resumes : Resumes rest)
    (later : Bracketed rest false) : Bracketed (segment.text ++ rest) false := by
  rw [Segment.text, List.append_assoc, bracketed_plain (clean_of_plain segment.name_plain)]
  cases keyed : segment.key with
  | none => exact later
  | some entry =>
      rcases entry with ⟨key, value⟩
      have entryPlain := segment.key_entry_plain keyed
      have equals : ∀ text, Bracketed ('=' :: text) true ↔ Bracketed text true := fun text => Iff.rfl
      have shape : '[' :: (key ++ '=' :: (value ++ [']'])) ++ rest =
          '[' :: (key ++ '=' :: (value ++ ']' :: rest)) := by
        simp only [List.cons_append, List.append_assoc, List.nil_append]
      dsimp only
      rw [shape, Bracketed, if_pos rfl, bracketed_plain (clean_of_plain entryPlain.1), equals,
        bracketed_plain (clean_of_plain entryPlain.2)]
      exact ⟨rfl, resumes.endsName, later⟩

/-- A canonical text is bracketed. -/
theorem bracketed_xpathOf (segments : List Segment) : Bracketed (xpathOf segments) false := by
  induction segments with
  | nil => rfl
  | cons segment rest inductionHypothesis =>
      have shape : xpathOf (segment :: rest) = '/' :: (segment.text ++ xpathOf rest) := delimited_cons _ _ _
      have resumes : Resumes (xpathOf rest) := by
        intro c head
        cases rest with
        | nil => cases head
        | cons next rest => exact (Option.some.inj head).symm
      rw [shape]
      exact ⟨rfl, bracketed_segment segment resumes inductionHypothesis⟩

theorem outside_at_boundary {first rest : Str} {inKey : Bool} (bracketed : Bracketed (first ++ rest) inKey)
    (ends : EndsName rest) : insideAfter first inKey = false ∧ Bracketed rest false := by
  induction first generalizing inKey with
  | nil =>
      have outside : inKey = false := by
        cases rest with
        | nil => exact bracketed
        | cons c rest =>
            rcases ends c rfl with rfl | rfl
            · exact bracketed.1
            · exact bracketed.1
      rw [outside] at bracketed
      exact ⟨outside, bracketed⟩
  | cons c first inductionHypothesis =>
      rw [List.cons_append, Bracketed] at bracketed
      rw [insideAfter]
      split at bracketed
      · next opening =>
          rw [if_pos opening]
          exact inductionHypothesis bracketed.2
      · next notOpening =>
          rw [if_neg notOpening]
          split at bracketed
          · next closing =>
              rw [if_pos closing]
              exact inductionHypothesis bracketed.2
          · next notClosing =>
              rw [if_neg notClosing]
              split at bracketed
              · rw [bracketed.1]
                exact inductionHypothesis bracketed.2
              · exact inductionHypothesis bracketed

/-- What is left of a rest at a boundary is a rest at a slash. -/
theorem resumes_stripKeysLoop {rest : Str} {inKey : Bool} (bracketed : Bracketed rest inKey)
    (ends : inKey = false -> EndsName rest) : Resumes (stripKeysLoop rest inKey []) := by
  induction rest generalizing inKey with
  | nil => exact fun c head => nomatch head
  | cons c rest inductionHypothesis =>
      rw [Bracketed] at bracketed
      rw [stripKeysLoop]
      split at bracketed
      · next opening =>
          rw [if_pos opening]
          exact inductionHypothesis bracketed.2 (fun outside => absurd outside Bool.false_ne_true.symm)
      · next notOpening =>
          rw [if_neg notOpening]
          split at bracketed
          · next closing =>
              rw [if_pos closing]
              exact inductionHypothesis bracketed.2 (fun _ => bracketed.1)
          · next notClosing =>
              rw [if_neg notClosing]
              cases inKey with
              | true =>
                  rw [if_pos rfl]
                  split at bracketed
                  · cases bracketed.1
                  · exact inductionHypothesis bracketed (fun outside => absurd outside Bool.false_ne_true.symm)
              | false =>
                  have slash := (ends rfl c rfl).resolve_right notOpening
                  rw [if_neg Bool.false_ne_true, stripKeysLoop_out]
                  intro d head
                  exact (Option.some.inj head).symm.trans slash

/-! ## Transitivity -/

theorem isPathPrefix_trans {first second third : Str} (one : isPathPrefix first second = true)
    (two : isPathPrefix second third = true) : isPathPrefix first third = true := by
  rcases (isPathPrefix_iff_rest first second).mp one with ⟨middle, rfl, middleEnds⟩
  rcases (isPathPrefix_iff_rest _ third).mp two with ⟨last, rfl, lastEnds⟩
  refine (isPathPrefix_iff_rest first _).mpr ⟨middle ++ last, List.append_assoc _ _ _, ?_⟩
  cases middle with
  | nil => exact lastEnds
  | cons c middle => exact fun d head => middleEnds d head

/-- Dropping the predicates of a bracketed leaf keeps its path prefixes. -/
theorem isPathPrefix_stripKeys {query leaf : Str} (bracketed : Bracketed leaf false)
    (matched : isPathPrefix query leaf = true) :
    isPathPrefix (stripKeys query) (stripKeys leaf) = true := by
  rcases (isPathPrefix_iff_rest query leaf).mp matched with ⟨rest, rfl, ends⟩
  have boundary := outside_at_boundary bracketed ends
  refine (isPathPrefix_iff_rest _ _).mpr ⟨stripKeys rest, ?_,
    (resumes_stripKeysLoop boundary.2 (fun _ => ends)).endsName⟩
  rw [stripKeys, stripKeysLoop_append, boundary.1, stripKeysLoop_out]
  rfl

theorem selects_iff (query leaf : Str) : selects query leaf = true ↔
    isPathPrefix query leaf = true ∨ '[' ∉ query ∧ isPathPrefix query (stripKeys leaf) = true := by
  rw [selects]
  by_cases direct : isPathPrefix query leaf = true
  · rw [if_pos direct]
    exact iff_of_true rfl (Or.inl direct)
  · rw [if_neg direct, or_iff_right direct]
    by_cases keyed : '[' ∈ query
    · rw [if_pos (List.contains_iff_mem.mpr keyed)]
      exact iff_of_false Bool.false_ne_true (fun both => both.1 keyed)
    · rw [if_neg (fun contains => keyed (List.contains_iff_mem.mp contains)), and_iff_right keyed]

/-- A query that another one selects, selects nothing else than that one does. -/
theorem selects_trans {top query leaf : Str} (bracketed : Bracketed leaf false)
    (covered : selects top query = true) (selected : selects query leaf = true) :
    selects top leaf = true := by
  rw [selects_iff] at covered selected ⊢
  rcases covered with direct | ⟨keyless, stripped⟩
  · rcases selected with here | ⟨queryKeyless, here⟩
    · exact Or.inl (isPathPrefix_trans direct here)
    · exact Or.inr ⟨fun opening => queryKeyless ((starts_of_isPathPrefix direct).subset opening),
        isPathPrefix_trans direct here⟩
  · refine Or.inr ⟨keyless, ?_⟩
    rcases selected with here | ⟨queryKeyless, here⟩
    · exact isPathPrefix_trans stripped (isPathPrefix_stripKeys bracketed here)
    · have closed : ']' ∉ query := fun closing =>
        stripKeysLoop_open false List.not_mem_nil ((starts_of_isPathPrefix here).subset closing)
      rw [stripKeys_of_no_brackets ⟨queryKeyless, closed⟩] at stripped
      exact isPathPrefix_trans stripped here

end Backend
end PscMockServer
