import PscMockServer.Foundations.EditScript
import PscMockServer.Telemetry.Emission

namespace PscMockServer
namespace Telemetry

open Foundations Gnmi Utils Backend

/-!
# The client's view

A client keeps a value for each absolute path.  An atomic notification first clears
everything under its prefix; then deletes remove single paths and updates overwrite.
So a list of notifications is an edit script, and the scripts of the two emitters are
sound for the snapshot they emit: what is left to ask is which paths they leave alone.
-/

/-- Absolute path to value. -/
abbrev View := List Node -> Option TypedValue

/-- One notification as edits, in the order a client applies them. -/
def scriptOf (n : Notification) : List (Edit (List Node) TypedValue) :=
  (if n.atomic then [Edit.clear (fun path => n.pathPrefix.nodes.isPrefixOf path)] else []) ++
    ((deletesOf n).map (fun gone => Edit.clear (fun path => decide (path = gone))) ++
      (updatesOf n).map (fun report => Edit.put report.1 report.2))

def script (notes : List Notification) : List (Edit (List Node) TypedValue) :=
  notes.flatMap scriptOf

/-- The view after some notifications. -/
def applyNotifications (view : View) (notes : List Notification) : View :=
  runEdits view (script notes)

/-- The view has exactly the paths and values of the snapshot. -/
def Shows (view : View) (snap : Snapshot) : Prop :=
  ∀ path value, view path = some value ↔
    ∃ (key : Str) (leaf : Leaf), snap[key]? = some leaf ∧ pathOf key = path ∧ leaf.val = value

/-- The view that shows a snapshot. -/
def viewOf (snap : Snapshot) : View := fun path =>
  match snap[addressOf path]? with
  | some leaf => if pathOf (addressOf path) = path then some leaf.val else none
  | none => none

theorem applyNotifications_append (view : View) (first second : List Notification) :
    applyNotifications view (first ++ second) =
      applyNotifications (applyNotifications view first) second := by
  rw [applyNotifications, script, List.flatMap_append, runEdits_append]
  rfl

/-! ## The view of a snapshot -/

theorem viewOf_pathOf (snap : Snapshot) {key : Str} (canonical : Canonical key) :
    viewOf snap (pathOf key) = LeafStore.valueAt snap key := by
  rw [viewOf, addressOf_pathOf canonical, LeafStore.valueAt]
  cases snap[key]? with
  | none => rfl
  | some leaf => exact if_pos rfl

theorem exists_of_viewOf {snap : Snapshot} {path : List Node} {value : TypedValue}
    (seen : viewOf snap path = some value) :
    ∃ (key : Str) (leaf : Leaf), snap[key]? = some leaf ∧ pathOf key = path ∧ leaf.val = value := by
  rw [viewOf] at seen
  cases found : snap[addressOf path]? with
  | none =>
      rw [found] at seen
      cases seen
  | some leaf =>
      rw [found] at seen
      simp only at seen
      split at seen
      · next same => exact ⟨addressOf path, leaf, found, same, Option.some.inj seen⟩
      · cases seen

theorem viewOf_of_find {snap : Snapshot} {key : Str} {leaf : Leaf} (canonical : Canonical key)
    (found : snap[key]? = some leaf) : viewOf snap (pathOf key) = some leaf.val := by
  rw [viewOf_pathOf snap canonical, LeafStore.valueAt, found]
  rfl

/-- Over canonical keys, showing a snapshot is being its view. -/
theorem shows_iff {snap : Snapshot} (canonical : CanonicalKeys snap) (view : View) :
    Shows view snap ↔ view = viewOf snap := by
  have exact : Shows (viewOf snap) snap := by
    intro path value
    refine ⟨exists_of_viewOf, ?_⟩
    rintro ⟨key, leaf, found, rfl, rfl⟩
    exact viewOf_of_find (canonical key leaf found) found
  constructor
  · intro shows_
    funext path
    apply Option.ext
    intro value
    exact (shows_ path value).trans (exact path value).symm
  · rintro rfl
    exact exact

/-! ## The script of each notification -/

theorem scriptOf_fullNote (snap : Snapshot) (reading : Int) :
    scriptOf (fullNote snap reading) =
      (snap.toList.map entryReport).map (fun report => Edit.put report.1 report.2) := by
  rw [scriptOf, updatesOf_fullNote]
  rfl

theorem scriptOf_diffNote (diff : Diff) (reading : Int) :
    scriptOf (diffNote diff reading) =
      (diff.removed.map pathOf).map (fun gone => Edit.clear (fun path => decide (path = gone))) ++
        (diff.updated.map entryReport).map (fun report => Edit.put report.1 report.2) := by
  rw [scriptOf, deletesOf_diffNote, updatesOf_diffNote]
  rfl

theorem scriptOf_atomicNote {container : Str} {group : Snapshot}
    (below : ∀ entry ∈ group.toList, Canonical entry.1 ∧ Below container entry.1) (reading : Int) :
    scriptOf (atomicNote container group reading) =
      Edit.clear (fun path => (pathOf container).isPrefixOf path) ::
        (group.toList.map entryReport).map (fun report => Edit.put report.1 report.2) := by
  rw [scriptOf, updatesOf_atomicNote below, deletesOf, atomicNote_eq]
  rfl

theorem scriptOf_goneNote (container : Str) (reading : Int) :
    scriptOf (goneNote container reading) =
      [Edit.clear (fun path => (pathOf container).isPrefixOf path),
        Edit.clear (fun path => decide (path = pathOf container))] := by
  have whole : (xpathToGnmiPath container {}).nodes ++ ({} : Path).nodes = pathOf container :=
    List.append_nil _
  simp only [scriptOf, deletesOf, updatesOf, goneNote, List.map_cons, List.map_nil, whole]
  rfl

/-! ## Containers as regions -/

variable {σ : Type} {reg : DataProviderRegistry σ}

/-- On canonical keys the region under a container holds exactly the keys that the
container is answered for. -/
theorem AtomicLaw.region {atomicPrefix : Str -> Option Str} (law : AtomicLaw atomicPrefix)
    {sample container : Str} (sampleCanonical : Canonical sample)
    (answered : atomicPrefix sample = some container) {key : Str} (canonical : Canonical key) :
    (pathOf container).isPrefixOf (pathOf key) = true ↔ atomicPrefix key = some container := by
  have below := law.within sample container sampleCanonical answered
  rw [List.isPrefixOf_iff_prefix, ← below_iff_prefix sampleCanonical canonical below]
  exact ⟨law.whole sample key container sampleCanonical canonical answered,
    law.within key container canonical⟩

/-- The entries a snapshot's view puts are its own. -/
theorem entries_right {snap part : Snapshot}
    (canonical : CanonicalKeys snap)
    (within : ∀ (key : Str) (leaf : Leaf), part[key]? = some leaf -> snap[key]? = some leaf) :
    ∀ report ∈ part.toList.map entryReport, viewOf snap report.1 = some report.2 := by
  intro report member
  rcases List.mem_map.mp member with ⟨entry, listed, rfl⟩
  have found := within entry.1 entry.2 (OrdMap.find_of_mem_toList listed)
  exact viewOf_of_find (canonical entry.1 entry.2 found) found

/-- Re-sending a whole group under its container is sound. -/
theorem sound_atomicNote (law : AtomicLaw reg.atomicPrefix) {snap group : Snapshot} {container : Str}
    (canonical : CanonicalKeys snap)
    (isGroup : ∀ key : Str, group[key]? = if reg.atomicPrefix key = some container then snap[key]? else none)
    {sample : Str} (sampleCanonical : Canonical sample)
    (answered : reg.atomicPrefix sample = some container) (reading : Int) :
    Sound (scriptOf (atomicNote container group reading)) (viewOf snap) := by
  have within : ∀ (key : Str) (leaf : Leaf), group[key]? = some leaf -> snap[key]? = some leaf := by
    intro key leaf found
    rw [isGroup] at found
    split at found
    · exact found
    · cases found
  have below : ∀ entry ∈ group.toList, Canonical entry.1 ∧ Below container entry.1 := by
    intro entry member
    have found := OrdMap.find_of_mem_toList member
    have isCanonical := canonical entry.1 entry.2 (within entry.1 entry.2 found)
    rw [isGroup] at found
    split at found
    · next isC => exact ⟨isCanonical, law.within entry.1 container isCanonical isC⟩
    · cases found
  rw [scriptOf_atomicNote below]
  apply sound_replace (entries_right canonical within)
  intro path inside value seen
  rcases exists_of_viewOf seen with ⟨key, leaf, found, rfl, rfl⟩
  have isCanonical := canonical key leaf found
  have isC := (law.region sampleCanonical answered isCanonical).mp inside
  have inGroup : group[key]? = some leaf := by rw [isGroup, if_pos isC, found]
  exact List.mem_map.mpr ⟨(key, leaf), OrdMap.mem_toList_of_find inGroup, rfl⟩

/-- Which keys an atomic notification touches. -/
theorem touches_atomicNote (law : AtomicLaw reg.atomicPrefix) {group : Snapshot} {container : Str}
    (below : ∀ entry ∈ group.toList, Canonical entry.1 ∧ Below container entry.1)
    {sample : Str} (sampleCanonical : Canonical sample)
    (answered : reg.atomicPrefix sample = some container) (reading : Int) {key : Str}
    (canonical : Canonical key) :
    touches (scriptOf (atomicNote container group reading)) (pathOf key) = true ↔
      reg.atomicPrefix key = some container := by
  rw [scriptOf_atomicNote below, ← List.singleton_append, touches_append, Bool.or_eq_true,
    touches_clear, law.region sampleCanonical answered canonical, touches_puts]
  refine ⟨?_, Or.inl⟩
  rintro (isC | ⟨value, member⟩)
  · exact isC
  · rcases List.mem_map.mp member with ⟨entry, listed, same⟩
    have known := below entry listed
    have equal := Canonical.pathOf_injective known.1 canonical (Prod.mk.inj same).1
    rw [equal] at known
    have above := law.within sample container sampleCanonical answered
    exact law.whole sample key container sampleCanonical canonical answered known.2

end Telemetry
end PscMockServer
