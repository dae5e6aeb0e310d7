import Mathlib.Data.List.Induction
import Mathlib.Data.List.Nodup
import Mathlib.Logic.Function.Basic
import Mathlib.Logic.Relation

namespace PscMockServer
namespace Foundations
namespace SharedLock

/-!
# Operations under a shared mutex

Operations of many threads work on one state.  A writer takes the mutex alone, changes the
state piece by piece and lets the mutex go; a reader takes it together with other readers and
looks at the state piece by piece.  The pieces interleave in any order.  Still, whatever has
returned acts and answers as if it had been done at once at the moment it let the mutex go.
-/

variable {S L ι : Type}

/-- What an operation does between its lock and its unlock. -/
inductive Code (S L : Type) where
  | write (pieces : List (S -> S))
  | read (start : L) (next : S -> L -> Option L)

/-- A mutex that one writer or any number of readers can hold. -/
structure SharedMutex where
  exclusive : Bool := false
  shared : Nat := 0

/-- Where an operation is.  A writer still has some pieces to do, a reader has what it has
put together so far. -/
inductive Stage (S L : Type) where
  | waiting
  | writing (pending : List (S -> S))
  | reading (soFar : L)
  | returned (answer : Option L)

/-- The state, its mutex and the operations.  `order` is the order of the unlocks, which no
program keeps. -/
structure Config (S L ι : Type) where
  state : S
  mutex : SharedMutex
  stage : ι -> Stage S L
  order : List ι

def start (s : S) : Config S L ι where
  state := s
  mutex := {}
  stage := fun _ => .waiting
  order := []

/-- An operation moves from one stage to another. -/
def Config.at [DecidableEq ι] (c : Config S L ι) (i : ι) (next : Stage S L) : Config S L ι :=
  { c with stage := Function.update c.stage i next }

/-- One step of an operation: its lock, which has to wait while others are in the way, one
piece of its work, or its unlock. -/
def advance [DecidableEq ι] (code : ι -> Code S L) (c : Config S L ι) (i : ι) : Config S L ι :=
  match c.stage i, code i with
  | .waiting, .write pieces =>
      if c.mutex.exclusive || 0 < c.mutex.shared then c
      else { c.at i (.writing pieces) with mutex := { exclusive := true } }
  | .waiting, .read first _ =>
      if c.mutex.exclusive then c
      else { c.at i (.reading first) with mutex := { shared := c.mutex.shared + 1 } }
  | .writing (piece :: pending), _ => { c.at i (.writing pending) with state := piece c.state }
  | .writing [], _ =>
      { c.at i (.returned none) with mutex := {}, order := c.order ++ [i] }
  | .reading soFar, .read _ next =>
      match next c.state soFar with
      | some further => c.at i (.reading further)
      | none =>
          { c.at i (.returned (some soFar)) with
            mutex := { shared := c.mutex.shared - 1 }, order := c.order ++ [i] }
  | _, _ => c

/-- The steps of the operations in the order the scheduler picks them. -/
def run [DecidableEq ι] (code : ι -> Code S L) (c : Config S L ι) (schedule : List ι) : Config S L ι :=
  schedule.foldl (advance code) c

/-! ## Operations done at once -/

/-- What an operation makes of the state. -/
def Code.effect : Code S L -> S -> S
  | .write pieces, s => pieces.foldl (fun s piece => piece s) s
  | .read _ _, s => s

/-- The state after whole operations, one after the other. -/
def serial (code : ι -> Code S L) (s : S) (order : List ι) : S :=
  order.foldl (fun s i => (code i).effect s) s

/-- A reader's pieces on a state that does not change. -/
def Reads (next : S -> L -> Option L) (s : S) : L -> L -> Prop :=
  Relation.ReflTransGen (fun soFar further => next s soFar = some further)

/-- What an operation answers when it is done at once. -/
inductive Answers (s : S) : Code S L -> Option L -> Prop
  | write (pieces : List (S -> S)) : Answers s (.write pieces) none
  | read (first : L) (next : S -> L -> Option L) (result : L) (reads : Reads next s first result)
      (ends : next s result = none) : Answers s (.read first next) (some result)

theorem serial_snoc (code : ι -> Code S L) (s : S) (order : List ι) (i : ι) :
    serial code s (order ++ [i]) = (code i).effect (serial code s order) := by
  rw [serial, List.foldl_append]
  rfl

/-! ## The invariant -/

/-- Who holds the mutex, and what the state is then: that of the whole operations, or that
with some pieces of the one writer. -/
inductive Held (code : ι -> Code S L) (s : S) (c : Config S L ι) : Prop
  | shared (held : List ι) (noWriter : ∀ i pending, c.stage i ≠ .writing pending)
      (mutex : c.mutex = { shared := held.length }) (nodup : held.Nodup)
      (isHeld : ∀ i, i ∈ held ↔ ∃ soFar, c.stage i = .reading soFar)
      (settled : c.state = serial code s c.order)
      (reads : ∀ i soFar, c.stage i = .reading soFar ->
        ∃ first next, code i = .read first next ∧ Reads next c.state first soFar)
  | exclusive (w : ι) (done pending : List (S -> S)) (noReader : ∀ i soFar, c.stage i ≠ .reading soFar)
      (mutex : c.mutex = { exclusive := true })
      (isHeld : ∀ i rest, c.stage i = .writing rest ↔ i = w ∧ rest = pending)
      (isCode : code w = .write (done ++ pending))
      (partly : c.state = done.foldl (fun s piece => piece s) (serial code s c.order))

/-- What holds however the operations interleave. -/
structure Sound (code : ι -> Code S L) (s : S) (c : Config S L ι) : Prop where
  held : Held code s c
  listed : ∀ i, i ∈ c.order ↔ ∃ answer, c.stage i = .returned answer
  answered : ∀ i answer, c.stage i = .returned answer -> ∃ front rest, c.order = front ++ i :: rest ∧
    Answers (serial code s front) (code i) answer
  once : c.order.Nodup

theorem sound_start (code : ι -> Code S L) (s : S) : Sound code s (start s) where
  held := by
    refine Held.shared [] (fun i pending same => (nomatch same)) rfl List.nodup_nil (fun i => ?_) rfl
      (fun i soFar same => (nomatch same))
    exact iff_of_false List.not_mem_nil (fun reading => nomatch reading.choose_spec)
  listed := fun i => iff_of_false List.not_mem_nil (fun returned => nomatch returned.choose_spec)
  answered := fun i answer same => (nomatch same)
  once := List.nodup_nil

section Holders

variable {code : ι -> Code S L} {s : S} {c : Config S L ι} {i : ι}

/-- While a writer works it is the one holder. -/
theorem Held.writer (held : Held code s c) {rest : List (S -> S)} (writing : c.stage i = .writing rest) :
    c.mutex = { exclusive := true } ∧ (∀ j soFar, c.stage j ≠ .reading soFar) ∧
      (∀ j other, c.stage j = .writing other ↔ j = i ∧ other = rest) ∧
      ∃ done, code i = .write (done ++ rest) ∧
        c.state = done.foldl (fun s piece => piece s) (serial code s c.order) := by
  cases held with
  | shared held noWriter => exact absurd writing (noWriter i rest)
  | exclusive w done pending noReader mutex isHeld isCode partly =>
      rcases (isHeld i rest).mp writing with ⟨rfl, rfl⟩
      exact ⟨mutex, noReader, isHeld, done, isCode, partly⟩

/-- While the mutex is not taken by a writer nothing is written. -/
theorem Held.readers (held : Held code s c) (free : c.mutex.exclusive = false) :
    ∃ readers : List ι, (∀ j pending, c.stage j ≠ .writing pending) ∧
      c.mutex = { shared := readers.length } ∧ readers.Nodup ∧
      (∀ j, j ∈ readers ↔ ∃ soFar, c.stage j = .reading soFar) ∧ c.state = serial code s c.order ∧
      ∀ j soFar, c.stage j = .reading soFar ->
        ∃ first next, code j = .read first next ∧ Reads next c.state first soFar := by
  cases held with
  | shared held noWriter mutex nodup isHeld settled reads =>
      exact ⟨held, noWriter, mutex, nodup, isHeld, settled, reads⟩
  | exclusive w done pending noReader mutex =>
      rw [mutex] at free
      cases free

/-- A reader is in nobody's way but a writer's. -/
theorem Held.free_of_reader (held : Held code s c) {soFar : L} (reading : c.stage i = .reading soFar) :
    c.mutex.exclusive = false := by
  cases held with
  | shared held noWriter mutex => rw [mutex]
  | exclusive w done pending noReader => exact absurd reading (noReader i soFar)

end Holders

section Steps

variable [DecidableEq ι] {code : ι -> Code S L} {s : S} {c moved : Config S L ι} {i : ι} {next : Stage S L}

/-- One operation has moved. -/
theorem stage_iff (stage : moved.stage = Function.update c.stage i next) (j : ι) (found : Stage S L) :
    moved.stage j = found ↔ j = i ∧ next = found ∨ j ≠ i ∧ c.stage j = found := by
  rw [stage]
  by_cases same : j = i
  · rw [same, Function.update_self]
    simp
  · rw [Function.update_of_ne same]
    simp [same]

/-- An operation that has not returned, and does not return now. -/
theorem Sound.moves (sound : Sound code s c) (stage : moved.stage = Function.update c.stage i next)
    (order : moved.order = c.order) (before : ∀ answer, c.stage i ≠ .returned answer)
    (after : ∀ answer, next ≠ .returned answer) (held : Held code s moved) : Sound code s moved := by
  have returned : ∀ j answer, moved.stage j = .returned answer ↔ c.stage j = .returned answer := by
    intro j answer
    rw [stage_iff stage]
    constructor
    · rintro (⟨_, impossible⟩ | ⟨_, same⟩)
      · exact absurd impossible (after answer)
      · exact same
    · intro same
      refine Or.inr ⟨?_, same⟩
      rintro rfl
      exact before answer same
  refine ⟨held, fun j => ?_, fun j answer same => ?_, order ▸ sound.once⟩
  · rw [order, sound.listed]
    exact exists_congr (fun answer => (returned j answer).symm)
  · rw [order]
    exact sound.answered j answer ((returned j answer).mp same)

/-- An operation that returns now. -/
theorem Sound.returns (sound : Sound code s c) {answer : Option L}
    (stage : moved.stage = Function.update c.stage i (.returned answer))
    (order : moved.order = c.order ++ [i]) (before : ∀ answer, c.stage i ≠ .returned answer)
    (answers : Answers (serial code s c.order) (code i) answer) (held : Held code s moved) :
    Sound code s moved := by
  have unlisted : i ∉ c.order := fun listed => before _ ((sound.listed i).mp listed).choose_spec
  refine ⟨held, fun j => ?_, fun j other same => ?_, ?_⟩
  · rw [order, stage, List.mem_append, List.mem_singleton]
    by_cases same : j = i
    · rw [same, Function.update_self]
      exact iff_of_true (Or.inr rfl) ⟨answer, rfl⟩
    · rw [Function.update_of_ne same, or_iff_left same, sound.listed]
  · rw [order]
    rcases (stage_iff stage j _).mp same with ⟨rfl, isAnswer⟩ | ⟨_, old⟩
    · rw [← Stage.returned.inj isAnswer]
      exact ⟨c.order, [], rfl, answers⟩
    · rcases sound.answered j other old with ⟨front, rest, split, known⟩
      exact ⟨front, rest ++ [i], by rw [split, List.append_assoc, List.cons_append], known⟩
  · rw [order]
    exact sound.once.append (List.nodup_singleton i)
      (fun j listed last => unlisted (List.mem_singleton.mp last ▸ listed))

theorem Sound.lockWriter (sound : Sound code s c) {pieces : List (S -> S)} (waiting : c.stage i = .waiting)
    (isCode : code i = .write pieces) (free : ¬ (c.mutex.exclusive || decide (0 < c.mutex.shared)) = true) :
    Sound code s { c.at i (.writing pieces) with mutex := { exclusive := true } } := by
  rw [Bool.not_eq_true, Bool.or_eq_false_iff, decide_eq_false_iff_not] at free
  rcases sound.held.readers free.1 with ⟨readers, noWriter, mutex, _, isHeld, settled, _⟩
  have nobody : readers = [] := by
    rw [mutex] at free
    exact List.eq_nil_of_length_eq_zero (Nat.eq_zero_of_not_pos free.2)
  refine sound.moves rfl rfl (fun answer same => nomatch waiting.symm.trans same)
    (fun answer same => nomatch same) ?_
  refine Held.exclusive i [] pieces (fun j soFar reading => ?_) rfl (fun j rest => ?_) isCode settled
  · rcases (stage_iff rfl j _).mp reading with ⟨_, impossible⟩ | ⟨_, old⟩
    · cases impossible
    · have listed := (isHeld j).mpr ⟨soFar, old⟩
      rw [nobody] at listed
      cases listed
  · refine (stage_iff rfl j _).trans ?_
    constructor
    · rintro (⟨same, isRest⟩ | ⟨_, old⟩)
      · exact ⟨same, (Stage.writing.inj isRest).symm⟩
      · exact absurd old (noWriter j rest)
    · rintro ⟨same, rfl⟩
      exact Or.inl ⟨same, rfl⟩

theorem Sound.lockReader (sound : Sound code s c) {first : L} {look : S -> L -> Option L}
    (waiting : c.stage i = .waiting) (isCode : code i = .read first look)
    (free : ¬ c.mutex.exclusive = true) :
    Sound code s { c.at i (.reading first) with mutex := { shared := c.mutex.shared + 1 } } := by
  rcases sound.held.readers (Bool.eq_false_iff.mpr free) with
    ⟨readers, noWriter, mutex, nodup, isHeld, settled, reads⟩
  have notHeld : i ∉ readers := by
    rw [isHeld, waiting]
    exact fun reading => nomatch reading.choose_spec
  refine sound.moves rfl rfl (fun answer same => nomatch waiting.symm.trans same)
    (fun answer same => nomatch same) ?_
  refine Held.shared (i :: readers) (fun j pending writing => ?_) (by rw [mutex]; rfl)
    (List.nodup_cons.mpr ⟨notHeld, nodup⟩) (fun j => ?_) settled (fun j soFar reading => ?_)
  · rcases (stage_iff rfl j _).mp writing with ⟨_, impossible⟩ | ⟨_, old⟩
    · cases impossible
    · exact noWriter j pending old
  · rw [List.mem_cons, isHeld]
    constructor
    · rintro (same | ⟨soFar, old⟩)
      · exact ⟨first, (stage_iff rfl j _).mpr (Or.inl ⟨same, rfl⟩)⟩
      · refine ⟨soFar, (stage_iff rfl j _).mpr (Or.inr ⟨?_, old⟩)⟩
        rintro rfl
        exact nomatch waiting.symm.trans old
    · rintro ⟨soFar, reading⟩
      rcases (stage_iff rfl j _).mp reading with ⟨same, _⟩ | ⟨_, old⟩
      · exact Or.inl same
      · exact Or.inr ⟨soFar, old⟩
  · rcases (stage_iff rfl j _).mp reading with ⟨rfl, isFirst⟩ | ⟨_, old⟩
    · rw [← Stage.reading.inj isFirst]
      exact ⟨first, look, isCode, Relation.ReflTransGen.refl⟩
    · exact reads j soFar old

theorem Sound.writePiece (sound : Sound code s c) {piece : S -> S} {pending : List (S -> S)}
    (writing : c.stage i = .writing (piece :: pending)) :
    Sound code s { c.at i (.writing pending) with state := piece c.state } := by
  rcases sound.held.writer writing with ⟨mutex, noReader, isHeld, done, isCode, partly⟩
  refine sound.moves rfl rfl (fun answer same => nomatch writing.symm.trans same)
    (fun answer same => nomatch same) ?_
  refine Held.exclusive i (done ++ [piece]) pending (fun j soFar reading => ?_) mutex (fun j rest => ?_)
    (by rw [isCode, List.append_assoc]; rfl) ?_
  · rcases (stage_iff rfl j _).mp reading with ⟨_, impossible⟩ | ⟨_, old⟩
    · cases impossible
    · exact noReader j soFar old
  · refine (stage_iff rfl j _).trans ?_
    constructor
    · rintro (⟨same, isRest⟩ | ⟨different, old⟩)
      · exact ⟨same, (Stage.writing.inj isRest).symm⟩
      · exact absurd ((isHeld j rest).mp old).1 different
    · rintro ⟨same, rfl⟩
      exact Or.inl ⟨same, rfl⟩
  · rw [List.foldl_append]
    exact congrArg piece partly

theorem Sound.unlockWriter (sound : Sound code s c) (writing : c.stage i = .writing []) :
    Sound code s { c.at i (.returned none) with mutex := {}, order := c.order ++ [i] } := by
  rcases sound.held.writer writing with ⟨_, noReader, isHeld, done, isCode, partly⟩
  rw [List.append_nil] at isCode
  have nobody : ∀ j soFar, (c.at i (.returned none)).stage j ≠ .reading soFar := by
    intro j soFar reading
    rcases (stage_iff rfl j _).mp reading with ⟨_, impossible⟩ | ⟨_, old⟩
    · cases impossible
    · exact noReader j soFar old
  refine sound.returns rfl rfl (fun answer same => nomatch writing.symm.trans same)
    (isCode ▸ Answers.write done) ?_
  refine Held.shared [] (fun j pending other => ?_) rfl List.nodup_nil (fun j => ?_) ?_
    (fun j soFar reading => absurd reading (nobody j soFar))
  · rcases (stage_iff rfl j _).mp other with ⟨_, impossible⟩ | ⟨different, old⟩
    · cases impossible
    · exact different ((isHeld j pending).mp old).1
  · refine iff_of_false List.not_mem_nil ?_
    rintro ⟨soFar, reading⟩
    exact nobody j soFar reading
  · rw [serial_snoc, isCode]
    exact partly

theorem Sound.readPiece (sound : Sound code s c) {first soFar further : L} {look : S -> L -> Option L}
    (reading : c.stage i = .reading soFar) (isCode : code i = .read first look)
    (found : look c.state soFar = some further) : Sound code s (c.at i (.reading further)) := by
  rcases sound.held.readers (sound.held.free_of_reader reading) with
    ⟨readers, noWriter, mutex, nodup, isHeld, settled, reads⟩
  refine sound.moves rfl rfl (fun answer same => nomatch reading.symm.trans same)
    (fun answer same => nomatch same) ?_
  refine Held.shared readers (fun j pending writing => ?_) mutex nodup (fun j => ?_) settled
    (fun j other otherReading => ?_)
  · rcases (stage_iff rfl j _).mp writing with ⟨_, impossible⟩ | ⟨_, old⟩
    · cases impossible
    · exact noWriter j pending old
  · rw [isHeld]
    constructor
    · rintro ⟨other, old⟩
      by_cases same : j = i
      · exact ⟨further, (stage_iff rfl j _).mpr (Or.inl ⟨same, rfl⟩)⟩
      · exact ⟨other, (stage_iff rfl j _).mpr (Or.inr ⟨same, old⟩)⟩
    · rintro ⟨other, otherReading⟩
      rcases (stage_iff rfl j _).mp otherReading with ⟨rfl, _⟩ | ⟨_, old⟩
      · exact ⟨soFar, reading⟩
      · exact ⟨other, old⟩
  · rcases (stage_iff rfl j _).mp otherReading with ⟨rfl, isFurther⟩ | ⟨_, old⟩
    · rcases reads j soFar reading with ⟨own, ownLook, isOwn, readSoFar⟩
      rw [isCode] at isOwn
      cases isOwn
      rw [← Stage.reading.inj isFurther]
      exact ⟨first, look, isCode, readSoFar.tail found⟩
    · exact reads j other old

theorem Sound.unlockReader (sound : Sound code s c) {first soFar : L} {look : S -> L -> Option L}
    (reading : c.stage i = .reading soFar) (isCode : code i = .read first look)
    (ends : look c.state soFar = none) :
    Sound code s { c.at i (.returned (some soFar)) with
      mutex := { shared := c.mutex.shared - 1 }, order := c.order ++ [i] } := by
  rcases sound.held.readers (sound.held.free_of_reader reading) with
    ⟨readers, noWriter, mutex, nodup, isHeld, settled, reads⟩
  have answers : Answers (serial code s c.order) (code i) (some soFar) := by
    rcases reads i soFar reading with ⟨own, ownLook, isOwn, readSoFar⟩
    rw [isCode] at isOwn
    cases isOwn
    rw [isCode, ← settled]
    exact Answers.read first look soFar readSoFar ends
  have isReader : i ∈ readers := (isHeld i).mpr ⟨soFar, reading⟩
  refine sound.returns rfl rfl (fun answer same => nomatch reading.symm.trans same) answers ?_
  refine Held.shared (readers.erase i) (fun j pending writing => ?_) ?_ (nodup.erase i) (fun j => ?_) ?_
    (fun j other otherReading => ?_)
  · rcases (stage_iff rfl j _).mp writing with ⟨_, impossible⟩ | ⟨_, old⟩
    · cases impossible
    · exact noWriter j pending old
  · rw [mutex, List.length_erase_of_mem isReader]
  · rw [nodup.mem_erase_iff, isHeld]
    constructor
    · rintro ⟨different, other, old⟩
      exact ⟨other, (stage_iff rfl j _).mpr (Or.inr ⟨different, old⟩)⟩
    · rintro ⟨other, otherReading⟩
      rcases (stage_iff rfl j _).mp otherReading with ⟨_, impossible⟩ | ⟨different, old⟩
      · cases impossible
      · exact ⟨different, other, old⟩
  · rw [serial_snoc, isCode]
    exact settled
  · rcases (stage_iff rfl j _).mp otherReading with ⟨_, impossible⟩ | ⟨_, old⟩
    · cases impossible
    · exact reads j other old

end Steps

/-- Without a writer the state is that of the operations that have returned. -/
theorem Sound.settled {code : ι -> Code S L} {s : S} {c : Config S L ι} (sound : Sound code s c)
    (noWriter : ∀ i pending, c.stage i ≠ .writing pending) : c.state = serial code s c.order := by
  cases sound.held with
  | shared held _ mutex nodup isHeld settled => exact settled
  | exclusive w done pending noReader mutex isHeld =>
      exact absurd ((isHeld w pending).mpr ⟨rfl, rfl⟩) (noWriter w pending)

/-! ## Every step keeps the invariant -/

section Steps

variable [DecidableEq ι] {code : ι -> Code S L} {s : S} {c : Config S L ι}

theorem Sound.after_step (sound : Sound code s c) (i : ι) : Sound code s (advance code c i) := by
  unfold advance
  split
  · next waiting isCode =>
      split
      · exact sound
      · next free => exact sound.lockWriter waiting isCode free
  · next waiting isCode =>
      split
      · exact sound
      · next free => exact sound.lockReader waiting isCode free
  · next writing => exact sound.writePiece writing
  · next writing => exact sound.unlockWriter writing
  · next reading isCode =>
      split
      · next found => exact sound.readPiece reading isCode found
      · next ends => exact sound.unlockReader reading isCode ends
  · exact sound

theorem Sound.after_run (sound : Sound code s c) (schedule : List ι) : Sound code s (run code c schedule) := by
  induction schedule generalizing c with
  | nil => exact sound
  | cons i schedule inductionHypothesis => exact inductionHypothesis (sound.after_step i)

end Steps

/-! ## What a run shows -/

section Runs

variable [DecidableEq ι] (code : ι -> Code S L)

theorem run_append (c : Config S L ι) (first second : List ι) :
    run code c (first ++ second) = run code (run code c first) second :=
  List.foldl_append

/-- A step returns at most the operation that takes it. -/
theorem order_advance (c : Config S L ι) (i : ι) :
    (advance code c i).order = c.order ∨ (advance code c i).order = c.order ++ [i] := by
  unfold advance
  split
  · split
    · exact Or.inl rfl
    · exact Or.inl rfl
  · split
    · exact Or.inl rfl
    · exact Or.inl rfl
  · exact Or.inl rfl
  · exact Or.inr rfl
  · split
    · exact Or.inl rfl
    · exact Or.inr rfl
  · exact Or.inl rfl

theorem order_grows (c : Config S L ι) (i : ι) : c.order <+: (advance code c i).order := by
  rcases order_advance code c i with same | returned
  · exact same ▸ List.prefix_rfl
  · exact returned ▸ List.prefix_append c.order [i]

theorem order_run (c : Config S L ι) (schedule : List ι) : c.order <+: (run code c schedule).order := by
  induction schedule generalizing c with
  | nil => exact List.prefix_rfl
  | cons i schedule inductionHypothesis =>
      exact (order_grows code c i).trans (inductionHypothesis (advance code c i))

omit [DecidableEq ι] in
/-- What a list begins with is before everything that joins later. -/
theorem mem_front_of_prefix {order whole front rest : List ι} {i j : ι} (isPrefix : order <+: whole)
    (listed : i ∈ order) (unlisted : j ∉ order) (split : whole = front ++ j :: rest) : i ∈ front := by
  rcases isPrefix with ⟨more, joined⟩
  rw [split] at joined
  rcases List.append_eq_append_iff.mp joined with ⟨between, isFront, _⟩ | ⟨between, isOrder, tail⟩
  · rw [isFront]
    exact List.mem_append_left between listed
  · cases between with
    | nil =>
        rw [List.append_nil] at isOrder
        exact isOrder ▸ listed
    | cons first between =>
        rw [List.cons_append] at tail
        refine absurd ?_ unlisted
        rw [isOrder, (List.cons.inj tail).1]
        exact List.mem_append_right front List.mem_cons_self

/-- What has returned when another operation has not is before it in the order. -/
theorem precedes {code : ι -> Code S L} {s : S} {c : Config S L ι} (sound : Sound code s c) (schedule : List ι)
    {i j : ι} {answer : Option L} (returned : c.stage i = .returned answer)
    (open_ : ∀ answer, c.stage j ≠ .returned answer) {front rest : List ι}
    (split : (run code c schedule).order = front ++ j :: rest) : i ∈ front := by
  have listed : i ∈ c.order := (sound.listed i).mpr ⟨answer, returned⟩
  have unlisted : j ∉ c.order := fun member => open_ _ ((sound.listed j).mp member).choose_spec
  exact mem_front_of_prefix (order_run code c schedule) listed unlisted split

/-- A step leaves the other operations where they are. -/
theorem stage_advance (c : Config S L ι) {i j : ι} (other : j ≠ i) :
    (advance code c i).stage j = c.stage j := by
  unfold advance
  split
  · split
    · rfl
    · exact Function.update_of_ne other _ _
  · split
    · rfl
    · exact Function.update_of_ne other _ _
  · exact Function.update_of_ne other _ _
  · exact Function.update_of_ne other _ _
  · split
    · exact Function.update_of_ne other _ _
    · exact Function.update_of_ne other _ _
  · rfl

theorem stage_run (c : Config S L ι) {schedule : List ι} {j : ι} (others : j ∉ schedule) :
    (run code c schedule).stage j = c.stage j := by
  induction schedule generalizing c with
  | nil => rfl
  | cons i schedule inductionHypothesis =>
      rw [List.mem_cons, not_or] at others
      exact (inductionHypothesis (advance code c i) others.2).trans (stage_advance code c others.1)

end Runs

/-! ## No deadlock -/

/-- A reader comes to an end on every state. -/
def Code.Finishes : Code S L -> Prop
  | .write _ => True
  | .read first look => ∀ s, ∃ result, Reads look s first result ∧ look s result = none

/-- A reader that comes to an end does so from wherever it is. -/
theorem Reads.finishes {look : S -> L -> Option L} {s : S} {first soFar result : L}
    (whole : Reads look s first result) (ends : look s result = none) (soFarRead : Reads look s first soFar) :
    Reads look s soFar result := by
  have oneWay : Relator.RightUnique (fun soFar further => look s soFar = some further) :=
    fun _ _ _ some_ other => Option.some.inj (some_.symm.trans other)
  rcases Relation.ReflTransGen.total_of_right_unique oneWay soFarRead whole with onwards | back
  · exact onwards
  · rcases Relation.ReflTransGen.cases_head back with rfl | ⟨further, step, _⟩
    · exact Relation.ReflTransGen.refl
    · rw [ends] at step
      cases step

/-- A reader has one end on a state. -/
theorem Reads.unique {look : S -> L -> Option L} {s : S} {first result other : L}
    (whole : Reads look s first result) (ends : look s result = none) (again : Reads look s first other)
    (otherEnds : look s other = none) : result = other := by
  rcases Relation.ReflTransGen.cases_head (whole.finishes ends again) with same | ⟨further, step, _⟩
  · exact same.symm
  · rw [otherEnds] at step
    cases step

section Progress

variable [DecidableEq ι] {code : ι -> Code S L} {i : ι}

theorem at_stage (c : Config S L ι) (next : Stage S L) : (c.at i next).stage i = next :=
  Function.update_self ..

/-- A writer that is left alone returns and frees the mutex. -/
theorem writer_returns (code : ι -> Code S L) {pending : List (S -> S)} {c : Config S L ι}
    (writing : c.stage i = .writing pending) :
    ∃ n, (∃ answer, (run code c (List.replicate n i)).stage i = .returned answer) ∧
      (run code c (List.replicate n i)).mutex = {} := by
  induction pending generalizing c with
  | nil =>
      refine ⟨1, ⟨none, ?_⟩, ?_⟩
      · rw [List.replicate_one, run, List.foldl_cons, List.foldl_nil, advance, writing]
        exact at_stage c _
      · rw [List.replicate_one, run, List.foldl_cons, List.foldl_nil, advance, writing]
  | cons piece pending inductionHypothesis =>
      have moved : advance code c i = { c.at i (.writing pending) with state := piece c.state } := by
        rw [advance, writing]
      have next : (advance code c i).stage i = .writing pending := by
        rw [moved]
        exact at_stage c _
      rcases inductionHypothesis next with ⟨n, done⟩
      exact ⟨n + 1, done⟩

/-- A reader that is left alone returns and leaves the other readers with the mutex. -/
theorem reader_returns {first soFar result : L} {look : S -> L -> Option L} (isCode : code i = .read first look)
    {c : Config S L ι} (reads : Reads look c.state soFar result) (ends : look c.state result = none)
    (reading : c.stage i = .reading soFar) :
    ∃ n, (∃ answer, (run code c (List.replicate n i)).stage i = .returned answer) ∧
      (run code c (List.replicate n i)).mutex = { shared := c.mutex.shared - 1 } := by
  generalize isState : c.state = s at reads ends
  induction reads using Relation.ReflTransGen.head_induction_on generalizing c with
  | refl =>
      have moved : advance code c i = { c.at i (.returned (some result)) with
          mutex := { shared := c.mutex.shared - 1 }, order := c.order ++ [i] } := by
        rw [advance, reading, isCode]
        dsimp only
        rw [isState, ends]
      refine ⟨1, ⟨some result, ?_⟩, ?_⟩
      · rw [List.replicate_one, run, List.foldl_cons, List.foldl_nil, moved]
        exact at_stage c _
      · rw [List.replicate_one, run, List.foldl_cons, List.foldl_nil, moved]
  | @head here further step _ inductionHypothesis =>
      have moved : advance code c i = c.at i (.reading further) := by
        rw [advance, reading, isCode]
        dsimp only
        rw [isState, step]
      have next : (advance code c i).stage i = .reading further := by
        rw [moved]
        exact at_stage c _
      rcases inductionHypothesis next (by rw [moved]; exact isState) with ⟨n, done, mutex⟩
      refine ⟨n + 1, done, mutex.trans ?_⟩
      rw [moved]
      rfl

variable {s : S} {c : Config S L ι}

/-- The holders can always let the mutex go, without anyone else. -/
theorem Sound.can_free (sound : Sound code s c) (finishes : ∀ i, (code i).Finishes) :
    ∃ more, (∀ j ∈ more, c.stage j ≠ .waiting) ∧ (run code c more).mutex = {} := by
  cases holders : c.mutex.exclusive with
  | true =>
      cases sound.held with
      | shared held noWriter mutex =>
          rw [mutex] at holders
          cases holders
      | exclusive w done pending noReader mutex isHeld =>
          have writing : c.stage w = .writing pending := (isHeld w pending).mpr ⟨rfl, rfl⟩
          rcases writer_returns code writing with ⟨n, _, free⟩
          refine ⟨List.replicate n w, fun j listed => ?_, free⟩
          rw [List.eq_of_mem_replicate listed, writing]
          exact fun impossible => nomatch impossible
  | false =>
      generalize count : c.mutex.shared = number
      induction number generalizing c with
      | zero =>
          refine ⟨[], fun j none_ => absurd none_ List.not_mem_nil, ?_⟩
          exact SharedMutex.mk.injEq .. ▸ ⟨holders, count⟩
      | succ number inductionHypothesis =>
          rcases sound.held.readers holders with ⟨readers, _, mutex, _, isHeld, _, reads⟩
          have some_ : readers ≠ [] := by
            rintro rfl
            rw [mutex] at count
            cases count
          rcases List.exists_mem_of_ne_nil readers some_ with ⟨i, isReader⟩
          rcases (isHeld i).mp isReader with ⟨soFar, reading⟩
          rcases reads i soFar reading with ⟨first, look, isCode, soFarRead⟩
          have ends := finishes i
          rw [isCode] at ends
          rcases ends c.state with ⟨result, whole, last⟩
          rcases reader_returns isCode (whole.finishes last soFarRead) last reading with ⟨n, _, fewer⟩
          rw [count, Nat.add_sub_cancel] at fewer
          rcases inductionHypothesis (sound.after_run (List.replicate n i)) (by rw [fewer]) (by rw [fewer]) with
            ⟨more, holding, free⟩
          refine ⟨List.replicate n i ++ more, fun j listed => ?_, by rw [run_append]; exact free⟩
          by_cases own : j = i
          · rw [own, reading]
            exact fun impossible => nomatch impossible
          · have elsewhere : j ∉ List.replicate n i := fun member => own (List.eq_of_mem_replicate member)
            rw [← stage_run code c elsewhere]
            exact holding j ((List.mem_append.mp listed).resolve_left elsewhere)

omit [DecidableEq ι] in
/-- While the mutex is free nobody holds it. -/
theorem Sound.not_begun (sound : Sound code s c) (free : c.mutex = {}) (i : ι) :
    c.stage i = .waiting ∨ ∃ answer, c.stage i = .returned answer := by
  cases stage : c.stage i with
  | waiting => exact Or.inl rfl
  | returned answer => exact Or.inr ⟨answer, rfl⟩
  | writing pending =>
      have taken := (sound.held.writer stage).1
      rw [free] at taken
      cases taken
  | reading soFar =>
      rcases sound.held.readers (by rw [free]) with ⟨readers, _, mutex, _, isHeld, _⟩
      have isReader := (isHeld i).mpr ⟨soFar, stage⟩
      rw [free] at mutex
      rw [List.eq_nil_of_length_eq_zero (SharedMutex.mk.inj mutex).2.symm] at isReader
      cases isReader

/-- And an operation that waits for it can lock it, and run alone to its end. -/
theorem free_returns {i : ι} (finishes : (code i).Finishes) (free : c.mutex = {})
    (waits : c.stage i = .waiting) :
    ∃ n answer, (run code c (List.replicate n i)).stage i = .returned answer := by
  cases isCode : code i with
  | write pieces =>
      have moved : advance code c i = { c.at i (.writing pieces) with mutex := { exclusive := true } } := by
        rw [advance, waits, isCode]
        dsimp only
        rw [free, if_neg (by decide)]
      have next : (advance code c i).stage i = .writing pieces := by
        rw [moved]
        exact at_stage c _
      rcases writer_returns code next with ⟨n, ⟨answer, returned⟩, _⟩
      exact ⟨n + 1, answer, returned⟩
  | read first look =>
      rw [isCode] at finishes
      rcases finishes c.state with ⟨result, whole, last⟩
      have moved : advance code c i = { c.at i (.reading first) with
          mutex := { shared := c.mutex.shared + 1 } } := by
        rw [advance, waits, isCode]
        dsimp only
        rw [free, if_neg (by decide)]
      have next : (advance code c i).stage i = .reading first := by
        rw [moved]
        exact at_stage c _
      have state : (advance code c i).state = c.state := by
        rw [moved]
        rfl
      rw [← state] at whole last
      rcases reader_returns isCode whole last next with ⟨n, ⟨answer, returned⟩, _⟩
      exact ⟨n + 1, answer, returned⟩

/-- From wherever the operations are, each of them can still return, with steps of its own
and of those that have begun. -/
theorem Sound.can_return (sound : Sound code s c) (finishes : ∀ i, (code i).Finishes) (i : ι) :
    ∃ more answer, (∀ j ∈ more, j = i ∨ c.stage j ≠ .waiting) ∧
      (run code c more).stage i = .returned answer := by
  rcases sound.can_free finishes with ⟨more, holding, free⟩
  have known := sound.after_run more
  -- once the mutex is free the operation can be run alone to its end
  have alone : ∃ n answer, (run code (run code c more) (List.replicate n i)).stage i = .returned answer := by
    rcases known.not_begun free i with waits | ⟨answer, returned⟩
    · exact free_returns (finishes i) free waits
    · exact ⟨0, answer, returned⟩
  rcases alone with ⟨n, answer, returned⟩
  refine ⟨more ++ List.replicate n i, answer, fun j listed => ?_, by rw [run_append]; exact returned⟩
  rcases List.mem_append.mp listed with early | late
  · exact Or.inr (holding j early)
  · exact Or.inl (List.eq_of_mem_replicate late)

end Progress

end SharedLock
end Foundations
end PscMockServer
