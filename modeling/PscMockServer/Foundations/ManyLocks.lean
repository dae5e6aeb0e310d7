import Mathlib.Data.List.Count
import PscMockServer.Foundations.SharedLock

namespace PscMockServer
namespace Foundations
namespace SharedLock

/-!
# Several states, each with a shared mutex of its own

Every operation works on one of the states.  What holds of each state alone then holds of
all of them together: the operations that have returned are those of one order, and an
operation answers what it answers when everything before it in that order is done at once.
-/

/-- Some states with their mutexes, and the order of all unlocks. -/
structure Objects (κ S L ι : Type) where
  object : κ -> Config S L ι
  order : List ι

namespace Objects

variable {κ S L ι : Type} [DecidableEq κ]

def start (s : κ -> S) : Objects κ S L ι where
  object := fun k => SharedLock.start (s k)
  order := []

/-- The operations on one of the states, in their order. -/
def own (owner : ι -> κ) (k : κ) (order : List ι) : List ι :=
  order.filter (fun i => decide (owner i = k))

/-- The states after whole operations, one after the other. -/
def serial (code : ι -> Code S L) (owner : ι -> κ) (s : κ -> S) (order : List ι) : κ -> S :=
  order.foldl (fun s i => Function.update s (owner i) ((code i).effect (s (owner i)))) s

variable {code : ι -> Code S L} {owner : ι -> κ}

theorem own_append (k : κ) (first second : List ι) :
    own owner k (first ++ second) = own owner k first ++ own owner k second :=
  List.filter_append first second

theorem own_cons_own {k : κ} {i : ι} (isOwner : owner i = k) (order : List ι) :
    own owner k (i :: order) = i :: own owner k order :=
  List.filter_cons_of_pos (decide_eq_true isOwner)

theorem own_cons_other {k : κ} {i : ι} (isOther : owner i ≠ k) (order : List ι) :
    own owner k (i :: order) = own owner k order :=
  List.filter_cons_of_neg (by simpa using isOther)

theorem mem_own {k : κ} {i : ι} {order : List ι} : i ∈ own owner k order ↔ i ∈ order ∧ owner i = k := by
  rw [own, List.mem_filter, decide_eq_true_eq]

/-- One state sees the operations on it only. -/
theorem serial_own (s : κ -> S) (order : List ι) (k : κ) :
    serial code owner s order k = SharedLock.serial code (s k) (own owner k order) := by
  induction order generalizing s with
  | nil => rfl
  | cons i order inductionHypothesis =>
      rw [serial, List.foldl_cons]
      refine (inductionHypothesis _).trans ?_
      by_cases isOwner : owner i = k
      · rw [own_cons_own isOwner, SharedLock.serial, SharedLock.serial, List.foldl_cons, ← isOwner,
          Function.update_self]
      · rw [own_cons_other isOwner, Function.update_of_ne (Ne.symm isOwner)]

variable [DecidableEq ι]

/-- One step of an operation, on its own state. -/
def advance (code : ι -> Code S L) (owner : ι -> κ) (c : Objects κ S L ι) (i : ι) : Objects κ S L ι :=
  let moved := SharedLock.advance code (c.object (owner i)) i
  { object := Function.update c.object (owner i) moved
    order := c.order ++ moved.order.drop (c.object (owner i)).order.length }

def run (code : ι -> Code S L) (owner : ι -> κ) (c : Objects κ S L ι) (schedule : List ι) : Objects κ S L ι :=
  schedule.foldl (advance code owner) c

theorem run_append (c : Objects κ S L ι) (first second : List ι) :
    run code owner c (first ++ second) = run code owner (run code owner c first) second :=
  List.foldl_append

/-- The run of one state is that of the operations on it. -/
theorem object_run (c : Objects κ S L ι) (schedule : List ι) (k : κ) :
    (run code owner c schedule).object k = SharedLock.run code (c.object k) (own owner k schedule) := by
  induction schedule generalizing c with
  | nil => rfl
  | cons i schedule inductionHypothesis =>
      refine (inductionHypothesis (advance code owner c i)).trans ?_
      by_cases isOwner : owner i = k
      · rw [own_cons_own isOwner, advance, ← isOwner]
        dsimp only
        rw [Function.update_self]
        rfl
      · rw [own_cons_other isOwner, advance]
        dsimp only
        rw [Function.update_of_ne (Ne.symm isOwner)]

theorem object_sound (s : κ -> S) (schedule : List ι) (k : κ) :
    Sound code (s k) ((run code owner (start s) schedule).object k) := by
  rw [object_run]
  exact (sound_start code (s k)).after_run _

theorem order_run (c : Objects κ S L ι) (schedule : List ι) :
    c.order <+: (run code owner c schedule).order := by
  induction schedule generalizing c with
  | nil => exact List.prefix_rfl
  | cons i schedule inductionHypothesis =>
      exact (List.prefix_append _ _).trans (inductionHypothesis (advance code owner c i))

/-- The order of all unlocks has those of each state in their order. -/
theorem own_order (s : κ -> S) (schedule : List ι) (k : κ) :
    own owner k (run code owner (start s) schedule).order =
      ((run code owner (start s) schedule).object k).order := by
  suffices kept : ∀ c : Objects κ S L ι, (∀ k, own owner k c.order = (c.object k).order) ->
      ∀ k, own owner k (run code owner c schedule).order = ((run code owner c schedule).object k).order from
    kept (start s) (fun _ => rfl) k
  clear k
  induction schedule with
  | nil => exact fun _ agree => agree
  | cons i schedule inductionHypothesis =>
      intro c agree
      apply inductionHypothesis
      intro k
      rw [advance]
      dsimp only
      rw [own_append, agree]
      by_cases isOwner : owner i = k
      · rw [← isOwner, Function.update_self]
        rcases order_advance code (c.object (owner i)) i with same | returned
        · rw [same, List.drop_length, own, List.filter_nil, List.append_nil]
        · rw [returned, List.drop_left, own_cons_own rfl]
          rfl
      · rw [Function.update_of_ne (Ne.symm isOwner)]
        rcases order_advance code (c.object (owner i)) i with same | returned
        · rw [same, List.drop_length, own, List.filter_nil, List.append_nil]
        · rw [returned, List.drop_left, own_cons_other isOwner]
          exact List.append_nil _

/-- The operations that have returned are done one after the other, on all states. -/
structure Linear (code : ι -> Code S L) (owner : ι -> κ) (s : κ -> S) (c : Objects κ S L ι) : Prop where
  once : c.order.Nodup
  listed : ∀ i, i ∈ c.order ↔ ∃ answer, (c.object (owner i)).stage i = .returned answer
  answered : ∀ i answer, (c.object (owner i)).stage i = .returned answer ->
    ∃ front rest, c.order = front ++ i :: rest ∧
      Answers (serial code owner s front (owner i)) (code i) answer
  settled : ∀ k, (∀ i pending, (c.object k).stage i ≠ .writing pending) ->
    (c.object k).state = serial code owner s c.order k

theorem linear_run (code : ι -> Code S L) (owner : ι -> κ) (s : κ -> S) (schedule : List ι) :
    Linear code owner s (run code owner (start s) schedule) := by
  have sound : ∀ k, Sound code (s k) ((run code owner (start s) schedule).object k) := object_sound s schedule
  have own : ∀ k, Objects.own owner k (run code owner (start s) schedule).order =
      ((run code owner (start s) schedule).object k).order := own_order s schedule
  have listed : ∀ i, i ∈ (run code owner (start s) schedule).order ↔
      i ∈ ((run code owner (start s) schedule).object (owner i)).order := by
    intro i
    rw [← own, mem_own]
    exact (and_iff_left rfl).symm
  constructor
  · rw [List.nodup_iff_count_le_one]
    intro i
    have once := List.nodup_iff_count_le_one.mp (sound (owner i)).once i
    rw [← own, Objects.own,
      List.count_filter (p := fun j => decide (owner j = owner i)) (decide_eq_true rfl)] at once
    exact once
  · exact fun i => (listed i).trans ((sound (owner i)).listed i)
  · intro i answer returned
    rcases (sound (owner i)).answered i answer returned with ⟨front, rest, split, answers⟩
    have once := (sound (owner i)).once
    rcases List.append_of_mem ((listed i).mpr (((sound (owner i)).listed i).mpr ⟨answer, returned⟩)) with
      ⟨before, after, whole⟩
    refine ⟨before, after, whole, ?_⟩
    have both := own (owner i)
    rw [split] at once both
    rw [whole, own_append, own_cons_own rfl] at both
    have apart := (List.nodup_middle.mp once).notMem
    have fronts := ((List.append_cons_inj_of_notMem
      (fun member => apart (List.mem_append_left rest member))
      (fun member => apart (List.mem_append_right front member))).mp both.symm).1
    rw [serial_own, ← fronts]
    exact answers
  · intro k noWriter
    rw [serial_own, own]
    exact (sound k).settled noWriter

/-- What has returned when another operation has not is before it in the order. -/
theorem precedes (s : κ -> S) (schedule more : List ι) {i j : ι} {answer : Option L}
    (returned : ((run code owner (start s) schedule).object (owner i)).stage i = .returned answer)
    (open_ : ∀ answer, ((run code owner (start s) schedule).object (owner j)).stage j ≠ .returned answer)
    {front rest : List ι}
    (split : (run code owner (start s) (schedule ++ more)).order = front ++ j :: rest) : i ∈ front := by
  have linear := linear_run code owner s schedule
  have unlisted : j ∉ (run code owner (start s) schedule).order :=
    fun member => open_ _ ((linear.listed j).mp member).choose_spec
  rw [run_append] at split
  exact mem_front_of_prefix (order_run _ more) ((linear.listed i).mpr ⟨answer, returned⟩) unlisted split

/-- From wherever the operations are, each of them can still return. -/
theorem can_return (s : κ -> S) (finishes : ∀ i, (code i).Finishes) (schedule : List ι) (i : ι) :
    ∃ more answer,
      ((run code owner (start s) (schedule ++ more)).object (owner i)).stage i = .returned answer := by
  have sound : Sound code (s (owner i)) ((run code owner (start s) schedule).object (owner i)) :=
    object_sound s schedule (owner i)
  rcases sound.can_return finishes i with ⟨more, answer, begun, returned⟩
  refine ⟨more, answer, ?_⟩
  -- whoever has begun on a state works on that state
  have all : own owner (owner i) more = more := by
    rw [own, List.filter_eq_self]
    intro j listed
    rcases begun j listed with rfl | awake
    · exact decide_eq_true rfl
    · rw [decide_eq_true_eq]
      by_contra foreign
      apply awake
      rw [object_run, stage_run]
      · rfl
      · exact fun member => foreign (mem_own.mp member).2
  rw [run_append, object_run, all]
  exact returned

end Objects

end SharedLock
end Foundations
end PscMockServer
