import PscMockServer.Telemetry.AbsolutePaths
import PscMockServer.Telemetry.Stamps

namespace PscMockServer
namespace Telemetry

open Foundations Gnmi Utils Backend

/-!
# What a notification says about its leaves

A notification is made of leaves: its values are theirs and so is its time, unless that is
a clock reading.  The emitters keep whatever is known of the leaves they are given.
-/

/-- Values and time of a notification are those of leaves, the values under the prefix of
the request where the notification is not of a container; the time may be a clock reading. -/
structure Traced (From : Str -> Leaf -> Prop) (pre : Option Path) (clock : Nat -> Int) (n : Notification) :
    Prop where
  values : ∀ report ∈ updatesOf n, ∃ key leaf, From key leaf ∧
    report = ((if n.atomic then [] else prefixNodes pre) ++ pathOf key, leaf.val)
  time : (∃ i, n.timestamp = clock i) ∨ ∃ key leaf, From key leaf ∧ n.timestamp = leaf.collectedNs

theorem withRequestPrefix_timestamp (pre : Option Path) (n : Notification) :
    (withRequestPrefix pre n).timestamp = n.timestamp := by
  cases pre with
  | none => rfl
  | some pre =>
      rw [withRequestPrefix]
      split
      · rfl
      · rfl

theorem diffNote_atomic (diff : Diff) (reading : Int) : (diffNote diff reading).atomic = false :=
  rfl

/-- A stamp is a clock reading or the time of an entry. -/
theorem stampOr_source {From : Str -> Leaf -> Prop} {entries : List (Str × Leaf)}
    (listed : ∀ entry ∈ entries, From entry.1 entry.2) (clock : Nat -> Int) (i : Nat) :
    (∃ j, stampOr (newestOf entries) (clock i) = clock j) ∨
      ∃ key leaf, From key leaf ∧ stampOr (newestOf entries) (clock i) = leaf.collectedNs := by
  have stamped : Stamped (fun key leaf => (key, leaf) ∈ entries) (clock i)
      (stampOr (newestOf entries) (clock i)) := stamped_stampOr (fun _ _ => Iff.rfl) (clock i)
  rcases stamped.source with reading | ⟨key, leaf, member, same⟩
  · exact Or.inl ⟨i, reading⟩
  · exact Or.inr ⟨key, leaf, listed (key, leaf) member, same⟩

section Emitters

variable {σ : Type} {reg : DataProviderRegistry σ} {From : Str -> Leaf -> Prop}

/-- A group of leaves sent as a container. -/
theorem traced_atomicNote {container : Str} {group : Snapshot}
    (below : ∀ entry ∈ group.toList, Canonical entry.1 ∧ Below container entry.1)
    (part : ∀ entry ∈ group.toList, From entry.1 entry.2) (pre : Option Path) (clock : Nat -> Int) (i : Nat) :
    Traced From pre clock (atomicNote container group (clock i)) where
  values := by
    intro report member
    rw [updatesOf_atomicNote below] at member
    rcases List.mem_map.mp member with ⟨entry, listed, rfl⟩
    refine ⟨entry.1, entry.2, part entry listed, ?_⟩
    rw [atomicNote_atomic, if_pos rfl]
    rfl
  time := by
    rw [atomicNote_timestamp]
    exact stampOr_source part clock i

theorem traced_full (within : Within reg.atomicPrefix) {snap : Snapshot} (canonical : CanonicalKeys snap)
    (part : ∀ (key : Str) (leaf : Leaf), snap[key]? = some leaf -> From key leaf) {pre : Option Path}
    {clock : Nat -> Int} {n : Notification}
    (emitted : n ∈ (buildFullNotifications snap reg clock).map (withRequestPrefix pre)) :
    Traced From pre clock n ∧ n.delete = [] := by
  rcases List.mem_map.mp emitted with ⟨plain, listed, rfl⟩
  refine ⟨?_, by rw [(withRequestPrefix_fields pre plain).2.2, deletes_buildFull listed]⟩
  rcases mem_pushAll_clock listed with ⟨build, isBuild, i, rfl⟩
  rcases List.mem_append.mp isBuild with loose | contained
  · have isFull : build = fullNote (partition snap reg).1 := by
      split at loose
      · exact List.mem_singleton.mp loose
      · cases loose
    rw [isFull]
    have rest : ∀ entry ∈ (partition snap reg).1.toList, From entry.1 entry.2 := fun entry inRest =>
      part _ _ (rest_within _ _ (OrdMap.find_of_mem_toList inRest))
    constructor
    · intro report member
      rw [updatesOf_prefixed_fullNote] at member
      rcases List.mem_map.mp member with ⟨entry, inRest, rfl⟩
      refine ⟨entry.1, entry.2, rest entry inRest, ?_⟩
      rw [(withRequestPrefix_fields pre _).1]
      rfl
    · rw [withRequestPrefix_timestamp, fullNote_timestamp]
      exact stampOr_source rest clock i
  · rcases List.mem_map.mp contained with ⟨group, inGroups, rfl⟩
    rw [withRequestPrefix_of_atomic pre (atomicNote_atomic group.1 group.2 _)]
    refine traced_atomicNote (fun entry => group_below within canonical inGroups) ?_ pre clock i
    intro entry inGroup
    have found := find_of_mem_groups inGroups entry.1
    rw [OrdMap.find_of_mem_toList inGroup] at found
    split at found
    · exact part _ _ found.symm
    · cases found

end Emitters

end Telemetry
end PscMockServer
