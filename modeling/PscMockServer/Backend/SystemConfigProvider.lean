import PscMockServer.Utils.CanonicalXpath
import PscMockServer.Backend.StoreBackedProvider

namespace PscMockServer
namespace Backend

open Foundations Gnmi Utils

/-!
# The system configuration provider

`system_config_provider.cpp`: the declared configuration leaves, the write side,
and the atomic NTP server records.
-/

namespace SystemConfigProvider

/-! ## Declared leaves -/

/-- `DEFAULTS`. -/
def DEFAULTS : List (Str × Str) :=
  [("/system/config/hostname".toList, "psc-mock".toList),
    ("/system/config/login-banner".toList, "".toList),
    ("/system/config/motd-banner".toList, "ORv3 PSC mock".toList)]

/-- Declared but not seeded. -/
def TIMEZONE_NAME : Str := "/system/config/timezone-name".toList

def NTP_CONFIG : Str := "/system/ntp/servers/server[address=10.0.0.1]/config".toList

/-- `declareLeaves`, with the clock reading it takes. -/
def declareLeaves (now : Int) : List DeclaredLeaf :=
  DEFAULTS.map (fun c =>
      { path := c.1, type := .config, value := some (.stringVal c.2), collectedNs := now }) ++
    [{ path := TIMEZONE_NAME, type := .config, value := none, collectedNs := now },
      { path := NTP_CONFIG ++ "/address".toList, type := .config,
        value := some (.stringVal "10.0.0.1".toList), collectedNs := now },
      { path := NTP_CONFIG ++ "/port".toList, type := .config,
        value := some (.uintVal 123), collectedNs := now },
      { path := NTP_CONFIG ++ "/version".toList, type := .config,
        value := some (.uintVal 4), collectedNs := now },
      { path := NTP_CONFIG ++ "/iburst".toList, type := .config,
        value := some (.boolVal true), collectedNs := now },
      { path := NTP_CONFIG ++ "/association-type".toList, type := .config,
        value := some (.stringVal "SERVER".toList), collectedNs := now }]

/-- The constructor. -/
def create (now : Int) : StoreBackedProvider :=
  ({} : StoreBackedProvider).initLeaves (declareLeaves now)

/-! ## Atomic containers -/

/-- The first characters of every NTP server entry. -/
def root : Str := "/system/ntp/servers/server[".toList

/-- The last element of the atomic container. -/
def marker : Str := "/config".toList

def atomicPrefix (xpath : Str) : Option Str :=
  let p := stripPathQuotes xpath
  if slice p 0 root.length ≠ root then none
  else
    match findSub (marker ++ ['/']) p with
    | some c => some (slice p 0 (c + marker.length))
    | none =>
        if marker.length ≤ p.length ∧ slice p (p.length - marker.length) marker.length = marker then
          some p
        else none

/-- The overridden methods, on the provider that `self` and `put` reach in the
server state. -/
def provider {σ : Type} (self : σ -> StoreBackedProvider) (put : StoreBackedProvider -> σ -> σ) :
    IDataProvider σ :=
  { storeBackedProvider self with
    preferredMode := fun _ => .onChange
    applyBatch := fun s batch => (put ((self s).commitStamped batch) s, true)
    atomicPrefix := atomicPrefix }

/-! ## The containers `atomicPrefix` answers -/

/-- `c` is a server entry's configuration container: it begins with `root`, ends
with `marker`, and no earlier `marker` in it is followed by a slash. -/
structure Container (c : Str) : Prop where
  starts : root <+: c
  ends : ∃ i, c.length = i + marker.length ∧ c.drop i = marker ∧
    ∀ j < i, ¬ (marker ++ ['/']) <+: (c ++ ['/']).drop j

theorem slice_eq_iff_starts (p pre : Str) : slice p 0 pre.length = pre ↔ pre <+: p := by
  rw [slice, List.drop_zero, List.prefix_iff_eq_take]
  exact eq_comm

theorem front_drop {front whole : Str} (isFront : front <+: whole) (j : Nat) :
    front.drop j <+: whole.drop j := by
  rcases isFront with ⟨rest, rfl⟩
  rw [List.drop_append]
  exact List.prefix_append _ _

/-- A short occurrence inside a prefix of the string. -/
theorem occurs_in_front {pattern front whole : Str} (isFront : front <+: whole) {j : Nat}
    (fits : j + pattern.length ≤ front.length) (occurs : pattern <+: whole.drop j) :
    pattern <+: front.drop j := by
  refine List.prefix_of_prefix_length_le occurs (front_drop isFront j) ?_
  rw [List.length_drop]
  omega

/-- `root` itself has no marker followed by a slash. -/
theorem root_markerFree (j : Nat) (fits : j + (marker ++ ['/']).length ≤ root.length) :
    ¬ (marker ++ ['/']) <+: root.drop j := by
  have small : j < 20 := by
    have lengths : root.length = 27 ∧ (marker ++ ['/']).length = 8 := by decide
    omega
  have checked : ∀ j < 20, ¬ (marker ++ ['/']) <+: root.drop j := by decide
  exact checked j small

theorem markerSlash_length : (marker ++ ['/']).length = marker.length + 1 := rfl

/-- A container's own marker is followed by a slash in every path below it. -/
theorem markerSlash_at {c p : Str} {k : Nat} (length : c.length = k + marker.length)
    (ends : c.drop k = marker) (below : (c ++ ['/']) <+: p) : (marker ++ ['/']) <+: p.drop k := by
  have marked : (c ++ ['/']).drop k = marker ++ ['/'] := by
    rw [List.drop_append_of_le_length (by omega), ends]
  rw [← marked]
  exact front_drop below k

/-- Cutting a path right after its first marker gives a container above it. -/
theorem container_of_first {p : Str} (starts : root <+: p) {i : Nat}
    (occurs : (marker ++ ['/']) <+: p.drop i)
    (first : ∀ j < i, ¬ (marker ++ ['/']) <+: p.drop j) :
    Container (p.take (i + marker.length)) ∧ (p.take (i + marker.length)) ++ ['/'] <+: p := by
  have room : i + (marker.length + 1) ≤ p.length := by
    have length := occurs.length_le
    rw [List.length_drop, markerSlash_length] at length
    have positive : 0 < marker.length := by decide
    omega
  have rootFits : root.length ≤ i + marker.length := by
    by_contra short
    have fits : i + (marker ++ ['/']).length ≤ root.length := by
      rw [markerSlash_length]
      omega
    exact root_markerFree i fits (occurs_in_front starts fits occurs)
  have length : (p.take (i + marker.length)).length = i + marker.length :=
    List.length_take_of_le (by omega)
  have tail : (p.take (i + marker.length)).drop i = marker := by
    rw [List.drop_take, Nat.add_sub_cancel_left]
    exact ((List.prefix_iff_eq_take).mp ((List.prefix_append marker ['/']).trans occurs)).symm
  have cutSlash : p.take (i + marker.length) ++ ['/'] <+: p := by
    rcases occurs with ⟨rest, whole⟩
    refine ⟨rest, ?_⟩
    have front : p.take (i + marker.length) = p.take i ++ marker := by
      rw [List.take_add, ← whole, List.append_assoc, List.take_left]
    rw [front, List.append_assoc (p.take i), List.append_assoc, whole]
    exact List.take_append_drop i p
  refine ⟨⟨?_, i, length, tail, ?_⟩, cutSlash⟩
  · refine List.prefix_of_prefix_length_le starts (List.take_prefix _ p) ?_
    rw [length]
    exact rootFits
  · intro j earlier inside
    exact first j earlier (inside.trans (front_drop cutSlash j))

/-- Only one container lies at or above a path: the one its first marker cuts off. -/
theorem container_unique {c p : Str} {i : Nat} (container : Container c) (below : Below c p)
    (occurs : (marker ++ ['/']) <+: p.drop i)
    (first : ∀ j < i, ¬ (marker ++ ['/']) <+: p.drop j) : p.take (i + marker.length) = c := by
  rcases container.ends with ⟨k, length, ends, ownFirst⟩
  rcases below with same | below
  · -- The path is `c`, so the marker found in it would come before the end of `c`.
    have room := occurs.length_le
    rw [List.length_drop, markerSlash_length, same] at room
    have positive : 0 < marker.length := by decide
    refine absurd ?_ (ownFirst i (by omega))
    exact (same ▸ occurs).trans (front_drop (List.prefix_append c ['/']) i)
  · have atK := markerSlash_at length ends below
    have same : i = k := by
      rcases Nat.lt_trichotomy i k with earlier | same | later
      · have fits : i + (marker ++ ['/']).length ≤ (c ++ ['/']).length := by
          rw [markerSlash_length, List.length_append, length, List.length_singleton]
          omega
        exact absurd (occurs_in_front below fits occurs) (ownFirst i earlier)
      · exact same
      · exact absurd atK (first k later)
    rw [same, ← length]
    exact ((List.prefix_iff_eq_take).mp ((List.prefix_append c ['/']).trans below)).symm

/-- Without a marker followed by a slash only the path itself can be its container. -/
theorem container_self {c p : Str} (container : Container c) (below : Below c p)
    (noMarker : ∀ j, ¬ (marker ++ ['/']) <+: p.drop j) : p = c := by
  rcases below with same | below
  · exact same
  · rcases container.ends with ⟨k, length, ends, _⟩
    exact absurd (markerSlash_at length ends below) (noMarker k)

/-- The container of a path, exactly: the path is the container or lies below it. -/
theorem atomicPrefix_eq_some_iff (xpath c : Str) :
    atomicPrefix xpath = some c ↔ Container c ∧ Below c (stripPathQuotes xpath) := by
  generalize quoteFree : stripPathQuotes xpath = p
  rw [atomicPrefix]
  simp only [quoteFree]
  by_cases starts : root <+: p
  · rw [if_neg (not_not_intro ((slice_eq_iff_starts p root).mpr starts))]
    cases found : findSub (marker ++ ['/']) p with
    | some i =>
        have occurs := (findSub_some found).1
        have first := (findSub_some found).2
        simp only [slice, List.drop_zero, Option.some.injEq]
        constructor
        · rintro rfl
          have cut := container_of_first starts occurs first
          exact ⟨cut.1, Or.inr cut.2⟩
        · rintro ⟨container, below⟩
          exact container_unique container below occurs first
    | none =>
        simp only
        have noMarker := findSub_none found
        by_cases ends : marker.length ≤ p.length ∧
            slice p (p.length - marker.length) marker.length = marker
        · have atEnd : p.drop (p.length - marker.length) = marker := by
            have whole := ends.2
            rw [slice, List.take_of_length_le (by rw [List.length_drop]; omega)] at whole
            exact whole
          rw [if_pos ends, Option.some.injEq]
          constructor
          · rintro rfl
            refine ⟨⟨starts, p.length - marker.length, by omega, atEnd, ?_⟩, Or.inl rfl⟩
            intro j earlier inside
            have fits : j + (marker ++ ['/']).length ≤ p.length := by
              rw [markerSlash_length]
              omega
            exact noMarker j (occurs_in_front (List.prefix_append p ['/']) fits inside)
          · rintro ⟨container, below⟩
            exact container_self container below noMarker
        · rw [if_neg ends]
          refine ⟨fun impossible => absurd impossible (Option.some_ne_none c).symm, ?_⟩
          rintro ⟨container, below⟩
          have same := container_self container below noMarker
          rcases container.ends with ⟨k, length, tail, _⟩
          refine absurd ⟨by rw [same]; omega, ?_⟩ ends
          have position : c.length - marker.length = k := by omega
          rw [same, slice, position, tail, List.take_length]
  · rw [if_pos (fun same => starts ((slice_eq_iff_starts p root).mp same))]
    refine ⟨fun impossible => absurd impossible (Option.some_ne_none c).symm, ?_⟩
    rintro ⟨container, same | below⟩
    · exact absurd (same ▸ container.starts) starts
    · exact absurd ((container.starts.trans (List.prefix_append c ['/'])).trans below) starts

/-! ## Containers do not nest -/

/-- A container is cut out of a quote-free string. -/
theorem quoteFree_of_atomicPrefix {xpath c : Str} (answered : atomicPrefix xpath = some c) : '"' ∉ c := by
  have below := ((atomicPrefix_eq_some_iff xpath c).mp answered).2
  have clean := stripPathQuotes_quoteFree xpath
  rcases below with same | below
  · exact same ▸ clean
  · exact fun member => clean (((List.prefix_append c ['/']).trans below).subset member)

/-- It is the answer for everything at or below it, itself included. -/
theorem atomicPrefix_of_below {xpath c other : Str} (answered : atomicPrefix xpath = some c)
    (below : Below c (stripPathQuotes other)) : atomicPrefix other = some c :=
  (atomicPrefix_eq_some_iff other c).mpr ⟨((atomicPrefix_eq_some_iff xpath c).mp answered).1, below⟩

theorem atomicPrefix_self {xpath c : Str} (answered : atomicPrefix xpath = some c) :
    atomicPrefix c = some c := by
  apply atomicPrefix_of_below answered
  rw [stripPathQuotes_eq_self (quoteFree_of_atomicPrefix answered)]
  exact Or.inl rfl

/-- No container lies properly below another one. -/
theorem containers_apart {xpath other c d : Str} (answered : atomicPrefix xpath = some c)
    (otherAnswered : atomicPrefix other = some d) : ¬ c ++ ['/'] <+: d := by
  intro below
  have own : atomicPrefix d = some c := by
    apply atomicPrefix_of_below answered
    rw [stripPathQuotes_eq_self (quoteFree_of_atomicPrefix otherAnswered)]
    exact Or.inr below
  rw [atomicPrefix_self otherAnswered, Option.some.injEq] at own
  rw [own] at below
  have length := below.length_le
  rw [List.length_append, List.length_singleton] at length
  omega

end SystemConfigProvider

end Backend
end PscMockServer
