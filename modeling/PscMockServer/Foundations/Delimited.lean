import Mathlib.Data.List.Basic

namespace PscMockServer
namespace Foundations

/-!
# Lists of blocks, each led by a delimiter

`delimited d [b₁, b₂]` is `d b₁ d b₂`.  When no block contains the delimiter the
blocks can be read back, and a prefix that stops right before a delimiter is
itself a list of the first blocks: cutting at a delimiter never cuts a block.
The second fact is what makes "begins with `u` followed by `d`" a statement about
blocks rather than about characters.
-/

variable {α : Type} [DecidableEq α]

/-- The blocks one after another, each preceded by `d`. -/
def delimited (d : α) (blocks : List (List α)) : List α :=
  blocks.flatMap (fun block => d :: block)

/-- No block contains the delimiter. -/
def DelimiterFree (d : α) (blocks : List (List α)) : Prop :=
  ∀ block ∈ blocks, d ∉ block

/-- `whole` is `front`, or continues it with the delimiter. -/
def ExtendsAt (d : α) (front whole : List α) : Prop :=
  whole = front ∨ front ++ [d] <+: whole

instance (d : α) (front whole : List α) : Decidable (ExtendsAt d front whole) :=
  inferInstanceAs (Decidable (_ ∨ _))

omit [DecidableEq α]

@[simp] theorem delimited_nil (d : α) : delimited d [] = [] := rfl

@[simp] theorem delimited_cons (d : α) (block : List α) (blocks : List (List α)) :
    delimited d (block :: blocks) = d :: (block ++ delimited d blocks) := by
  simp only [delimited, List.flatMap_cons, List.cons_append]

theorem delimited_append (d : α) (front back : List (List α)) :
    delimited d (front ++ back) = delimited d front ++ delimited d back :=
  List.flatMap_append

theorem DelimiterFree.tail {d : α} {block : List α} {blocks : List (List α)}
    (free : DelimiterFree d (block :: blocks)) : DelimiterFree d blocks :=
  fun other member => free other (List.mem_cons_of_mem block member)

theorem DelimiterFree.head {d : α} {block : List α} {blocks : List (List α)}
    (free : DelimiterFree d (block :: blocks)) : d ∉ block :=
  free block List.mem_cons_self

/-- Two words without stop characters, each followed by nothing or by a stop character,
can be compared on their own. -/
theorem stopped_append_inj (Stop : α -> Prop) {left right leftRest rightRest : List α}
    (leftFree : ∀ c ∈ left, ¬ Stop c) (rightFree : ∀ c ∈ right, ¬ Stop c)
    (leftStops : ∀ c ∈ leftRest.head?, Stop c) (rightStops : ∀ c ∈ rightRest.head?, Stop c)
    (same : left ++ leftRest = right ++ rightRest) : left = right ∧ leftRest = rightRest := by
  induction left generalizing right with
  | nil =>
      cases right with
      | nil => exact ⟨rfl, same⟩
      | cons y right =>
          have stops := leftStops y (by rw [List.nil_append] at same; rw [same]; rfl)
          exact absurd stops (rightFree y List.mem_cons_self)
  | cons x left inductionHypothesis =>
      cases right with
      | nil =>
          have stops := rightStops x (by rw [List.nil_append] at same; rw [← same]; rfl)
          exact absurd stops (leftFree x List.mem_cons_self)
      | cons y right =>
          have heads := List.cons.inj same
          have parts := inductionHypothesis (fun c member => leftFree c (List.mem_cons_of_mem x member))
            (fun c member => rightFree c (List.mem_cons_of_mem y member)) heads.2
          exact ⟨by rw [heads.1, parts.1], parts.2⟩

/-- The text before the first delimiter is determined, and so is the rest. -/
theorem append_delimiter_inj {d : α} {left right leftRest rightRest : List α}
    (leftFree : d ∉ left) (rightFree : d ∉ right)
    (same : left ++ d :: leftRest = right ++ d :: rightRest) :
    left = right ∧ leftRest = rightRest := by
  have parts : left = right ∧ d :: leftRest = d :: rightRest := by
    refine stopped_append_inj (fun c => d = c) ?_ ?_ ?_ ?_ same
    · exact fun c member stop => leftFree (stop ▸ member)
    · exact fun c member stop => rightFree (stop ▸ member)
    · exact fun c head => Option.some.inj head
    · exact fun c head => Option.some.inj head
  exact ⟨parts.1, (List.cons.inj parts.2).2⟩

/-- Two delimiter-free blocks that are followed by nothing or by the delimiter
can be compared on their own. -/
theorem block_append_inj {d : α} {left right : List α} {leftRest rightRest : List (List α)}
    (leftFree : d ∉ left) (rightFree : d ∉ right)
    (same : left ++ delimited d leftRest = right ++ delimited d rightRest) :
    left = right ∧ delimited d leftRest = delimited d rightRest := by
  have stops : ∀ blocks : List (List α), ∀ c ∈ (delimited d blocks).head?, d = c := by
    intro blocks c head
    cases blocks with
    | nil => cases head
    | cons block blocks =>
        rw [delimited_cons] at head
        exact Option.some.inj head
  apply stopped_append_inj (fun c => d = c) _ _ (stops leftRest) (stops rightRest) same
  · exact fun c member stop => leftFree (stop ▸ member)
  · exact fun c member stop => rightFree (stop ▸ member)

/-- Blocks without the delimiter are determined by their delimited list. -/
theorem delimited_injective {d : α} {left right : List (List α)}
    (leftFree : DelimiterFree d left) (rightFree : DelimiterFree d right)
    (same : delimited d left = delimited d right) : left = right := by
  induction left generalizing right with
  | nil =>
      cases right with
      | nil => rfl
      | cons block blocks => rw [delimited_nil, delimited_cons] at same; cases same
  | cons block blocks inductionHypothesis =>
      cases right with
      | nil => rw [delimited_nil, delimited_cons] at same; cases same
      | cons other others =>
          rw [delimited_cons, delimited_cons] at same
          have parts := block_append_inj leftFree.head rightFree.head (List.cons.inj same).2
          rw [parts.1, inductionHypothesis leftFree.tail rightFree.tail parts.2]

/-- A prefix that is followed by a delimiter ends between two blocks. -/
theorem delimited_cut {d : α} {blocks : List (List α)} (free : DelimiterFree d blocks)
    {front : List α} (cut : front ++ [d] <+: delimited d blocks) :
    ∃ first last, blocks = first ++ last ∧ front = delimited d first ∧ last ≠ [] := by
  induction blocks generalizing front with
  | nil => simp at cut
  | cons block blocks inductionHypothesis =>
      rw [delimited_cons] at cut
      cases front with
      | nil => exact ⟨[], block :: blocks, rfl, rfl, List.cons_ne_nil _ _⟩
      | cons x front =>
          rw [List.cons_append, List.cons_prefix_cons] at cut
          obtain ⟨rfl, cut⟩ := cut
          obtain ⟨rest, whole⟩ := cut
          -- The first block has no delimiter, so the cut lies at its end or later.
          have covered : block <+: front := by
            rcases List.append_eq_append_iff.mp
                (show front ++ (x :: rest) = block ++ delimited x blocks by
                  rw [← whole, List.append_assoc, List.singleton_append]) with
              ⟨middle, blockEq, tailEq⟩ | ⟨middle, frontEq, _⟩
            · cases middle with
              | nil => exact ⟨[], by rw [List.append_nil, blockEq, List.append_nil]⟩
              | cons y middle =>
                  rw [List.cons_append] at tailEq
                  have atFront := (List.cons.inj tailEq).1
                  exact absurd (blockEq ▸ List.mem_append_right front (atFront ▸ List.mem_cons_self))
                    free.head
            · exact ⟨middle, frontEq.symm⟩
          obtain ⟨later, rfl⟩ := covered
          rw [List.append_assoc, List.append_assoc, List.append_cancel_left_eq] at whole
          have laterCut : later ++ [x] <+: delimited x blocks :=
            ⟨rest, by rw [List.append_assoc]; exact whole⟩
          rcases inductionHypothesis free.tail laterCut with ⟨first, last, split, cutAt, nonempty⟩
          exact ⟨block :: first, last, by rw [split, List.cons_append],
            by rw [delimited_cons, cutAt], nonempty⟩

/-- Extension at a delimiter is the prefix order on blocks. -/
theorem extendsAt_delimited_iff {d : α} {first blocks : List (List α)}
    (firstFree : DelimiterFree d first) (free : DelimiterFree d blocks) :
    ExtendsAt d (delimited d first) (delimited d blocks) ↔ first <+: blocks := by
  constructor
  · rintro (same | cut)
    · cases delimited_injective free firstFree same
      exact List.prefix_refl first
    · rcases delimited_cut free cut with ⟨front, back, rfl, same, _⟩
      have frontFree : DelimiterFree d front :=
        fun block member => free block (List.mem_append_left back member)
      rw [delimited_injective firstFree frontFree same]
      exact List.prefix_append front back
  · rintro ⟨back, rfl⟩
    cases back with
    | nil => exact Or.inl (by rw [List.append_nil])
    | cons block blocks =>
        refine Or.inr ⟨block ++ delimited d blocks, ?_⟩
        rw [delimited_append, delimited_cons, List.append_assoc, List.singleton_append]

/-- Whatever a delimited list extends is itself delimited. -/
theorem extendsAt_split {d : α} {blocks : List (List α)} (free : DelimiterFree d blocks)
    {front : List α} (extends_ : ExtendsAt d front (delimited d blocks)) :
    ∃ first last, blocks = first ++ last ∧ front = delimited d first := by
  rcases extends_ with same | cut
  · exact ⟨blocks, [], (List.append_nil blocks).symm, same.symm⟩
  · rcases delimited_cut free cut with ⟨first, last, split, same, _⟩
    exact ⟨first, last, split, same⟩

/-! ## Delimiters at the end -/

/-- Blocks that each end with the delimiter, and what follows the last of them. -/
def terminated (d : α) (blocks : List (List α)) (last : List α) : List α :=
  blocks.flatMap (fun block => block ++ [d]) ++ last

theorem terminated_cons (d : α) (block : List α) (blocks : List (List α)) (last : List α) :
    terminated d (block :: blocks) last = block ++ d :: terminated d blocks last := by
  rw [terminated, terminated, List.flatMap_cons, List.append_assoc, List.append_assoc,
    List.singleton_append]

/-- A reader finds the blocks again. -/
theorem terminated_injective {d : α} {left right : List (List α)} {leftLast rightLast : List α}
    (leftFree : DelimiterFree d left) (rightFree : DelimiterFree d right)
    (leftEnd : d ∉ leftLast) (rightEnd : d ∉ rightLast)
    (same : terminated d left leftLast = terminated d right rightLast) :
    left = right ∧ leftLast = rightLast := by
  induction left generalizing right with
  | nil =>
      cases right with
      | nil => exact ⟨rfl, same⟩
      | cons block blocks =>
          -- the other text has a delimiter, which the last part must not have
          rw [terminated_cons] at same
          have inside : d ∈ terminated d [] leftLast :=
            same ▸ List.mem_append_right block List.mem_cons_self
          exact absurd inside leftEnd
  | cons block blocks inductionHypothesis =>
      cases right with
      | nil =>
          rw [terminated_cons] at same
          have inside : d ∈ terminated d [] rightLast :=
            same ▸ List.mem_append_right block List.mem_cons_self
          exact absurd inside rightEnd
      | cons other others =>
          rw [terminated_cons, terminated_cons] at same
          have here := append_delimiter_inj leftFree.head rightFree.head same
          have later := inductionHypothesis leftFree.tail rightFree.tail here.2
          rw [here.1, later.1]
          exact ⟨rfl, later.2⟩

/-! ## Parts in another order -/

/-- Parts whose texts commute with each other can be written in any order. -/
theorem flatMap_perm {β γ : Type} {text : β -> List γ} {parts others : List β} (perm : parts.Perm others)
    (commute : parts.Pairwise (fun first second => text first ++ text second = text second ++ text first)) :
    parts.flatMap text = others.flatMap text := by
  induction perm with
  | nil => rfl
  | cons part _ inductionHypothesis =>
      rw [List.flatMap_cons, List.flatMap_cons, inductionHypothesis (List.pairwise_cons.mp commute).2]
  | swap first second rest =>
      have here := (List.pairwise_cons.mp commute).1 first List.mem_cons_self
      rw [List.flatMap_cons, List.flatMap_cons, List.flatMap_cons, List.flatMap_cons, ← List.append_assoc,
        here, List.append_assoc]
  | trans front _ firstHypothesis secondHypothesis =>
      exact (firstHypothesis commute).trans
        (secondHypothesis ((front.pairwise_iff (fun same => same.symm)).mp commute))

end Foundations
end PscMockServer
