import PscMockServer.Foundations.RunningMax
import PscMockServer.Telemetry.EmitterScripts

namespace PscMockServer
namespace Telemetry

open Foundations Gnmi Utils Backend

/-!
# How a notification is stamped

The emitters keep the newest collection time of the leaves they carry.  If that is
zero, which is also what it is without leaves, the notification gets the clock reading.
-/

/-- The newest collection time among some leaves. -/
def newestOf (entries : List (Str × Leaf)) : Int :=
  runningMax (fun entry => entry.2.collectedNs) entries 0

/-- It is zero or the time of a leaf. -/
theorem newestOf_cases (entries : List (Str × Leaf)) :
    newestOf entries = 0 ∨ ∃ entry ∈ entries, newestOf entries = entry.2.collectedNs :=
  runningMax_cases entries 0

theorem le_newestOf {entries : List (Str × Leaf)} {entry : Str × Leaf} (member : entry ∈ entries) :
    entry.2.collectedNs ≤ newestOf entries :=
  @le_runningMax _ _ _ (fun entry => entry.2.collectedNs) entries entry member 0

/-- A nonempty list of leaves with positive times. -/
theorem newestOf_isGreatest {entries : List (Str × Leaf)} (some_ : entries ≠ [])
    (positive : ∀ entry ∈ entries, 0 < entry.2.collectedNs) :
    IsGreatest {t | ∃ entry ∈ entries, t = entry.2.collectedNs} (newestOf entries) :=
  isGreatest_runningMax some_ positive

theorem newestOf_pos {entries : List (Str × Leaf)} (some_ : entries ≠ [])
    (positive : ∀ entry ∈ entries, 0 < entry.2.collectedNs) : 0 < newestOf entries := by
  rcases (newestOf_isGreatest some_ positive).1 with ⟨entry, member, same⟩
  rw [same]
  exact positive entry member

/-- `t` is the stamp of a notification that carries these leaves, when the clock reads
`reading`. -/
structure Stamped (Carried : Str -> Leaf -> Prop) (reading t : Int) : Prop where
  source : t = reading ∨ ∃ other leaf, Carried other leaf ∧ t = leaf.collectedNs
  covers : ∀ other leaf, Carried other leaf -> leaf.collectedNs ≤ reading -> leaf.collectedNs ≤ t
  attained : ∀ other leaf, Carried other leaf -> 0 < leaf.collectedNs ->
    ∃ newest newestLeaf, Carried newest newestLeaf ∧ t = newestLeaf.collectedNs

theorem stamped_reading {Carried : Str -> Leaf -> Prop} (nothing : ∀ other leaf, ¬ Carried other leaf)
    (reading : Int) : Stamped Carried reading reading where
  source := Or.inl rfl
  covers := fun other leaf carried => absurd carried (nothing other leaf)
  attained := fun other leaf carried => absurd carried (nothing other leaf)

theorem stamped_stampOr {Carried : Str -> Leaf -> Prop} {entries : List (Str × Leaf)}
    (listed : ∀ other leaf, Carried other leaf ↔ (other, leaf) ∈ entries) (reading : Int) :
    Stamped Carried reading (stampOr (newestOf entries) reading) := by
  have bounded : ∀ other leaf, Carried other leaf -> leaf.collectedNs ≤ newestOf entries :=
    fun other leaf carried => le_newestOf ((listed other leaf).mp carried)
  rw [stampOr]
  split
  · next unset =>
      refine ⟨Or.inl rfl, fun _ _ _ behind => behind, ?_⟩
      intro other leaf carried positive
      have newest := bounded other leaf carried
      rw [unset] at newest
      exact absurd positive (not_lt_of_ge newest)
  · next set_ =>
      have source : ∃ newest newestLeaf, Carried newest newestLeaf ∧
          newestOf entries = newestLeaf.collectedNs := by
        rcases newestOf_cases entries with unset | ⟨entry, member, same⟩
        · exact absurd unset set_
        · exact ⟨entry.1, entry.2, (listed entry.1 entry.2).mpr member, same⟩
      exact ⟨Or.inr source, fun other leaf carried _ => bounded other leaf carried, fun _ _ _ _ => source⟩

/-- Without carried leaves the stamp is the reading. -/
theorem Stamped.alone {Carried : Str -> Leaf -> Prop} {reading t : Int} (stamped : Stamped Carried reading t)
    (nothing : ∀ other leaf, ¬ Carried other leaf) : t = reading := by
  rcases stamped.source with isReading | ⟨other, leaf, carried, _⟩
  · exact isReading
  · exact absurd carried (nothing other leaf)

/-! ## The three stamps -/

theorem fullNote_timestamp (snap : Snapshot) (reading : Int) :
    (fullNote snap reading).timestamp = stampOr (newestOf snap.toList) reading := by
  have newest := foldl_runningMax (fun entry : Str × Leaf => entry.2.collectedNs)
    (fun list entry => appendLeaf list entry.1 entry.2.val) snap.toList [] 0
  rw [fullNote, emitSnapshot, Std.ExtTreeMap.foldl_eq_foldl_toList]
  exact congrArg (fun ts => stampOr ts reading) newest

theorem atomicNote_timestamp (container : Str) (group : Snapshot) (reading : Int) :
    (atomicNote container group reading).timestamp = stampOr (newestOf group.toList) reading := by
  have newest := foldl_runningMax (fun entry : Str × Leaf => entry.2.collectedNs)
    (fun (n : Notification) entry =>
      { n with update := appendLeaf n.update (entry.1.drop container.length) entry.2.val })
    group.toList { pathPrefix := xpathToGnmiPath container {}, atomic := true } 0
  rw [atomicNote, emitAtomic, Std.ExtTreeMap.foldl_eq_foldl_toList]
  exact congrArg (fun ts => stampOr ts reading) newest

theorem diffNote_timestamp (diff : Diff) (reading : Int) :
    (diffNote diff reading).timestamp = stampOr (newestOf diff.updated) reading := by
  have newest := foldl_runningMax (fun entry : Str × Leaf => entry.2.collectedNs)
    (fun (n : Notification) entry => { n with update := appendLeaf n.update entry.1 entry.2.val })
    diff.updated {} 0
  rw [diffNote, emitDiff]
  exact congrArg (fun ts => stampOr ts reading) newest

end Telemetry
end PscMockServer
