import Mathlib.Data.List.Basic

namespace PscMockServer
namespace Foundations

/-!
# Edit scripts on a replica

A replica of a keyed store receives a list of edits: put one key, or clear a
region of keys.  What a script does to one key is decided by its last edit that
touches the key; every other key keeps the value it had.  A script is *sound* for
a target when each key it touches ends with the target's value.  A sound script
brings a replica to the target exactly when the replica already agreed with the
target on the keys the script leaves alone, so replication is a question about
untouched keys only.
-/

variable {ι ν : Type} [DecidableEq ι]

/-- One replication step, on a single key or on a region of keys. -/
inductive Edit (ι ν : Type) where
  | put (key : ι) (value : ν)
  | clear (region : ι -> Bool)

/-- What an edit writes at a key: nothing, a removal or a value. -/
def Edit.effect : Edit ι ν -> ι -> Option (Option ν)
  | .put key value, k => if k = key then some (some value) else none
  | .clear region, k => if region k then some none else none

/-- One edit applied to a replica. -/
def Edit.apply (replica : ι -> Option ν) (edit : Edit ι ν) : ι -> Option ν :=
  fun k => (edit.effect k).getD (replica k)

/-- The edits applied in order. -/
def runEdits (replica : ι -> Option ν) (script : List (Edit ι ν)) : ι -> Option ν :=
  script.foldl Edit.apply replica

/-- What a whole script writes at a key: the last edit that touches it decides. -/
def effect : List (Edit ι ν) -> ι -> Option (Option ν)
  | [], _ => none
  | edit :: rest, k => (effect rest k).or (edit.effect k)

/-- The keys some edit of the script touches. -/
def touches (script : List (Edit ι ν)) (k : ι) : Bool :=
  (effect script k).isSome

theorem runEdits_append (replica : ι -> Option ν) (first second : List (Edit ι ν)) :
    runEdits replica (first ++ second) = runEdits (runEdits replica first) second :=
  List.foldl_append

/-- A script acts on each key by its last edit there. -/
theorem runEdits_apply (replica : ι -> Option ν) (script : List (Edit ι ν)) (k : ι) :
    runEdits replica script k = (effect script k).getD (replica k) := by
  induction script generalizing replica with
  | nil => rfl
  | cons edit rest inductionHypothesis =>
      have later := inductionHypothesis (edit.apply replica)
      rw [runEdits, List.foldl_cons]
      rw [runEdits] at later
      rw [later, effect, Edit.apply]
      cases effect rest k <;> rfl

theorem effect_append (first second : List (Edit ι ν)) (k : ι) :
    effect (first ++ second) k = (effect second k).or (effect first k) := by
  induction first with
  | nil => rw [List.nil_append, effect, Option.or_none]
  | cons edit rest inductionHypothesis =>
      rw [List.cons_append, effect, effect, inductionHypothesis, Option.or_assoc]

theorem touches_append (first second : List (Edit ι ν)) (k : ι) :
    touches (first ++ second) k = (touches first k || touches second k) := by
  rw [touches, touches, touches, effect_append, Option.isSome_or, Bool.or_comm]

theorem touches_flatMap {β : Type} (blocks : List β) (edits : β -> List (Edit ι ν)) (k : ι) :
    touches (blocks.flatMap edits) k = true ↔ ∃ block ∈ blocks, touches (edits block) k = true := by
  induction blocks with
  | nil => simp [touches, effect]
  | cons block blocks inductionHypothesis =>
      rw [List.flatMap_cons, touches_append, Bool.or_eq_true, inductionHypothesis]
      simp only [List.mem_cons, exists_eq_or_imp]

/-! ## Sound scripts -/

/-- Every key the script touches ends with the target's value. -/
def Sound (script : List (Edit ι ν)) (target : ι -> Option ν) : Prop :=
  ∀ k written, effect script k = some written -> written = target k

theorem sound_nil (target : ι -> Option ν) : Sound ([] : List (Edit ι ν)) target := by
  intro k written impossible
  cases impossible

theorem Sound.append {first second : List (Edit ι ν)} {target : ι -> Option ν}
    (firstSound : Sound first target) (secondSound : Sound second target) :
    Sound (first ++ second) target := by
  intro k written wrote
  rw [effect_append] at wrote
  cases later : effect second k with
  | none =>
      rw [later, Option.none_or] at wrote
      exact firstSound k written wrote
  | some value =>
      rw [later, Option.some_or] at wrote
      exact secondSound k written (later.trans wrote)

theorem sound_flatMap {β : Type} {blocks : List β} {edits : β -> List (Edit ι ν)}
    {target : ι -> Option ν} (each : ∀ block ∈ blocks, Sound (edits block) target) :
    Sound (blocks.flatMap edits) target := by
  induction blocks with
  | nil => exact sound_nil target
  | cons block blocks inductionHypothesis =>
      rw [List.flatMap_cons]
      exact (each block List.mem_cons_self).append
        (inductionHypothesis (fun other member => each other (List.mem_cons_of_mem block member)))

/-- The result of a sound script: the target where it touches, the old value elsewhere. -/
theorem Sound.runEdits_apply {script : List (Edit ι ν)} {target : ι -> Option ν}
    (sound : Sound script target) (replica : ι -> Option ν) (k : ι) :
    runEdits replica script k = if touches script k then target k else replica k := by
  rw [Foundations.runEdits_apply, touches]
  cases wrote : effect script k with
  | none => rfl
  | some written => exact sound k written wrote

/-- A sound script reaches its target exactly from the replicas that agree with
the target on every untouched key. -/
theorem Sound.runEdits_eq_iff {script : List (Edit ι ν)} {target : ι -> Option ν}
    (sound : Sound script target) (replica : ι -> Option ν) :
    runEdits replica script = target ↔
      ∀ k, touches script k = false -> replica k = target k := by
  constructor
  · intro reached k untouched
    have result := sound.runEdits_apply replica k
    rw [untouched, reached] at result
    exact result.symm
  · intro agree
    funext k
    rw [sound.runEdits_apply]
    cases untouched : touches script k with
    | true => rfl
    | false => exact agree k untouched

/-! ## The scripts of one message -/

theorem effect_puts (puts : List (ι × ν)) (k : ι) (written : Option ν)
    (wrote : effect (puts.map (fun entry => Edit.put entry.1 entry.2)) k = some written) :
    ∃ value, (k, value) ∈ puts ∧ written = some value := by
  induction puts with
  | nil => cases wrote
  | cons entry rest inductionHypothesis =>
      rw [List.map_cons, effect] at wrote
      cases later : effect (rest.map (fun entry => Edit.put entry.1 entry.2)) k with
      | some value =>
          rw [later, Option.some_or] at wrote
          rcases inductionHypothesis (later.trans wrote) with ⟨found, member, same⟩
          exact ⟨found, List.mem_cons_of_mem entry member, same⟩
      | none =>
          rw [later, Option.none_or, Edit.effect] at wrote
          by_cases here : k = entry.1
          · rw [if_pos here] at wrote
            cases wrote
            exact ⟨entry.2, here ▸ List.mem_cons_self, rfl⟩
          · rw [if_neg here] at wrote
            cases wrote

theorem touches_puts (puts : List (ι × ν)) (k : ι) :
    touches (puts.map (fun entry => Edit.put entry.1 entry.2)) k = true ↔
      ∃ value, (k, value) ∈ puts := by
  induction puts with
  | nil => simp [touches, effect]
  | cons entry rest inductionHypothesis =>
      rw [List.map_cons, ← List.singleton_append, touches_append, Bool.or_eq_true,
        inductionHypothesis]
      have single : touches [Edit.put entry.1 entry.2] k = true ↔ k = entry.1 := by
        rw [touches, effect, effect, Option.none_or, Edit.effect]
        by_cases here : k = entry.1 <;> simp [here]
      rw [single]
      constructor
      · rintro (here | ⟨value, member⟩)
        · exact ⟨entry.2, here ▸ List.mem_cons_self⟩
        · exact ⟨value, List.mem_cons_of_mem entry member⟩
      · rintro ⟨value, member⟩
        rcases List.mem_cons.mp member with same | member
        · exact Or.inl (congrArg Prod.fst same)
        · exact Or.inr ⟨value, member⟩

theorem sound_puts {puts : List (ι × ν)} {target : ι -> Option ν}
    (right : ∀ entry ∈ puts, target entry.1 = some entry.2) :
    Sound (puts.map (fun entry => Edit.put entry.1 entry.2)) target := by
  intro k written wrote
  rcases effect_puts puts k written wrote with ⟨value, member, rfl⟩
  exact (right _ member).symm

theorem touches_clear (region : ι -> Bool) (k : ι) :
    touches [(Edit.clear region : Edit ι ν)] k = region k := by
  rw [touches, effect, effect, Option.none_or, Edit.effect]
  cases region k <;> rfl

/-- Clearing a region is sound when the target has nothing there. -/
theorem sound_clear {region : ι -> Bool} {target : ι -> Option ν}
    (nothing : ∀ k, region k = true -> target k = none) :
    Sound [(Edit.clear region : Edit ι ν)] target := by
  intro k written wrote
  rw [effect, effect, Option.none_or, Edit.effect] at wrote
  cases inside : region k with
  | false => rw [inside] at wrote; cases wrote
  | true =>
      rw [inside, if_pos rfl] at wrote
      cases wrote
      exact (nothing k inside).symm

/-- Removing single keys is sound when the target has none of them. -/
theorem sound_removals {keys : List ι} {target : ι -> Option ν}
    (gone : ∀ key ∈ keys, target key = none) :
    Sound (keys.map (fun key => (Edit.clear (fun k => decide (k = key)) : Edit ι ν))) target := by
  induction keys with
  | nil => exact sound_nil target
  | cons key keys inductionHypothesis =>
      rw [List.map_cons, ← List.singleton_append]
      refine Sound.append ?_ (inductionHypothesis
        (fun other member => gone other (List.mem_cons_of_mem key member)))
      apply sound_clear
      intro k here
      rw [of_decide_eq_true here]
      exact gone key List.mem_cons_self

theorem touches_removals (keys : List ι) (k : ι) :
    touches (keys.map (fun key => (Edit.clear (fun k => decide (k = key)) : Edit ι ν))) k = true ↔
      k ∈ keys := by
  induction keys with
  | nil => simp [touches, effect]
  | cons key keys inductionHypothesis =>
      rw [List.map_cons, ← List.singleton_append, touches_append, Bool.or_eq_true,
        inductionHypothesis, touches_clear, decide_eq_true_eq, List.mem_cons]

/-- Replacing a region is sound when the puts carry everything the target has there. -/
theorem sound_replace {region : ι -> Bool} {puts : List (ι × ν)} {target : ι -> Option ν}
    (right : ∀ entry ∈ puts, target entry.1 = some entry.2)
    (complete : ∀ k, region k = true -> ∀ value, target k = some value -> (k, value) ∈ puts) :
    Sound (Edit.clear region :: puts.map (fun entry => Edit.put entry.1 entry.2)) target := by
  intro k written wrote
  rw [effect] at wrote
  cases later : effect (puts.map (fun entry => Edit.put entry.1 entry.2)) k with
  | some value =>
      rw [later, Option.some_or] at wrote
      exact sound_puts right k written (later.trans wrote)
  | none =>
      rw [later, Option.none_or, Edit.effect] at wrote
      cases inside : region k with
      | false => rw [inside] at wrote; cases wrote
      | true =>
          rw [inside, if_pos rfl] at wrote
          cases wrote
          cases expected : target k with
          | none => rfl
          | some value =>
              have touched := (touches_puts puts k).mpr ⟨value, complete k inside value expected⟩
              rw [touches, later] at touched
              cases touched

/-! ## Blocks with targets of their own -/

theorem runEdits_flatMap_of_untouched {β : Type} {blocks : List β} {edits : β -> List (Edit ι ν)} {k : ι}
    (untouched : ∀ block ∈ blocks, touches (edits block) k = false) (replica : ι -> Option ν) :
    runEdits replica (blocks.flatMap edits) k = replica k := by
  have whole : touches (blocks.flatMap edits) k = false := by
    rw [← Bool.not_eq_true, touches_flatMap]
    rintro ⟨block, member, touched⟩
    exact absurd ((untouched block member).symm.trans touched) Bool.false_ne_true
  rw [touches, Option.isSome_eq_false_iff, Option.isNone_iff_eq_none] at whole
  rw [runEdits_apply, whole]
  rfl

/-- A key ends with what the last block that touches it is sound for. -/
theorem runEdits_flatMap_of_last {β : Type} (edits : β -> List (Edit ι ν)) {before after : List β} {block : β}
    {target : ι -> Option ν} (sound : Sound (edits block) target) {k : ι}
    (touched : touches (edits block) k = true) (untouched : ∀ later ∈ after, touches (edits later) k = false)
    (replica : ι -> Option ν) :
    runEdits replica ((before ++ block :: after).flatMap edits) k = target k := by
  rw [List.flatMap_append, List.flatMap_cons, runEdits_append, runEdits_append,
    runEdits_flatMap_of_untouched untouched, sound.runEdits_apply, if_pos touched]

/-! ## Replicas that missed something -/

/-- The script writes whatever the state has. -/
structure Restates (script : List (Edit ι ν)) (state : ι -> Option ν) : Prop where
  sound : Sound script state
  whole : ∀ k, touches script k = false -> state k = none

/-- The script writes wherever the second state differs from the first. -/
structure Advances (script : List (Edit ι ν)) (before state : ι -> Option ν) : Prop where
  sound : Sound script state
  whole : ∀ k, touches script k = false -> before k = state k

/-- A replica that started anywhere is repaired when at each key it is right, or has what it
started with where none of the states since then has anything. -/
def Repaired (start : ι -> Option ν) (states : List (ι -> Option ν)) (state replica : ι -> Option ν) :
    Prop :=
  ∀ k, replica k = state k ∨
    state k = none ∧ (∀ earlier ∈ states, earlier k = none) ∧ replica k = start k

theorem Restates.repaired {script : List (Edit ι ν)} {state : ι -> Option ν}
    (restates : Restates script state) (start : ι -> Option ν) :
    Repaired start [state] state (runEdits start script) := by
  intro k
  rw [restates.sound.runEdits_apply]
  cases touched : touches script k with
  | true => exact Or.inl rfl
  | false =>
      have nothing := restates.whole k touched
      refine Or.inr ⟨nothing, fun earlier member => ?_, rfl⟩
      rw [List.mem_singleton.mp member]
      exact nothing

/-- A change keeps a replica repaired. -/
theorem Repaired.advance {start before state replica : ι -> Option ν} {states : List (ι -> Option ν)}
    {script : List (Edit ι ν)} (repaired : Repaired start states before replica)
    (advances : Advances script before state) :
    Repaired start (states ++ [state]) state (runEdits replica script) := by
  intro k
  rw [advances.sound.runEdits_apply]
  cases touched : touches script k with
  | true => exact Or.inl rfl
  | false =>
      have kept := advances.whole k touched
      rcases repaired k with right | ⟨nothing, never, stale⟩
      · exact Or.inl (right.trans kept)
      · have still : state k = none := kept.symm.trans nothing
        refine Or.inr ⟨still, fun earlier member => ?_, stale⟩
        rcases List.mem_append.mp member with old | new
        · exact never earlier old
        · rw [List.mem_singleton.mp new]
          exact still

omit [DecidableEq ι] in
/-- A repaired replica that started with nothing else is right. -/
theorem Repaired.right {start state replica : ι -> Option ν} {states : List (ι -> Option ν)}
    (repaired : Repaired start states state replica)
    (known : ∀ k value, start k = some value -> ∃ earlier ∈ states, earlier k ≠ none) :
    replica = state := by
  funext k
  rcases repaired k with right | ⟨nothing, never, stale⟩
  · exact right
  · cases started : start k with
    | none => rw [stale, started, nothing]
    | some value =>
        rcases known k value started with ⟨earlier, member, something⟩
        exact absurd (never earlier member) something

end Foundations
end PscMockServer
