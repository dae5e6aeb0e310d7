import PscMockServer.Foundations.OrderedMap
import PscMockServer.Foundations.SharedLock

namespace PscMockServer
namespace Foundations
namespace OrdMap

/-!
# Iterators over an ordered map

An iterator stands at a key and goes on to the next one that the map has then, so it may be
used piece by piece while others change the map.  On a map that does not change it visits
every entry once, in order.
-/

open SharedLock

variable {κ ω L : Type} [Ord κ] [Std.TransOrd κ]

/-- The first entry behind the key where an iterator stands, or of the whole map. -/
def nextEntry (m : OrdMap κ ω) (place : Option κ) : Option (κ × ω) :=
  m.toList.find? (fun entry => place.all (fun key => decide (compare key entry.1 = .lt)))

/-- One turn of a loop over a map: the iterator goes on, and the entry is visited. -/
def walk (place : L -> Option κ) (visit : L -> κ × ω -> L) (m : OrdMap κ ω) (soFar : L) : Option L :=
  (m.nextEntry (place soFar)).map (visit soFar)

/-- An iterator that has done the entries in front goes on to the next one. -/
theorem nextEntry_split {m : OrdMap κ ω} {done rest : List (κ × ω)} (split : m.toList = done ++ rest) :
    m.nextEntry (done.getLast?.map Prod.fst) = rest.head? := by
  have ordered : (done ++ rest).Pairwise (fun first second => compare first.1 second.1 = .lt) := by
    rw [← split]
    exact Std.ExtTreeMap.ordered_keys_toList
  rcases List.pairwise_append.mp ordered with ⟨doneOrdered, _, across⟩
  rw [nextEntry, split]
  cases done using List.reverseRecOn with
  | nil =>
      cases rest with
      | nil => rfl
      | cons entry rest => rfl
  | append_singleton front last =>
      rw [List.getLast?_concat, Option.map_some]
      have passed : ∀ entry ∈ front ++ [last], ¬ compare last.1 entry.1 = .lt := by
        intro entry member behind
        rcases List.mem_append.mp member with earlier | isLast
        · have before := (List.pairwise_append.mp doneOrdered).2.2 entry earlier last
            (List.mem_singleton_self last)
          exact Std.OrientedCmp.not_lt_of_lt before behind
        · rw [List.mem_singleton.mp isLast] at behind
          exact Std.OrientedCmp.not_lt_of_lt behind behind
      have skipped : (front ++ [last]).find?
          (fun entry => (some last.1).all (fun key => decide (compare key entry.1 = .lt))) = none := by
        rw [List.find?_eq_none]
        intro entry member
        simpa using passed entry member
      rw [List.find?_append, skipped, Option.none_or]
      cases rest with
      | nil => rfl
      | cons entry rest =>
          refine List.find?_cons_of_pos ?_
          have behind := across last (List.mem_append_right front (List.mem_singleton_self last)) entry
            List.mem_cons_self
          simpa using behind

/-- On a map that stays as it is, the loop visits all entries in order and ends. -/
theorem walk_reads (place : L -> Option κ) (visit : L -> κ × ω -> L)
    (placed : ∀ soFar entry, place (visit soFar entry) = some entry.1) (m : OrdMap κ ω) (first : L)
    (begins : place first = none) :
    Reads (walk place visit) m first (m.toList.foldl visit first) ∧
      walk place visit m (m.toList.foldl visit first) = none := by
  suffices whole : ∀ (rest done : List (κ × ω)) (soFar : L), m.toList = done ++ rest ->
      place soFar = done.getLast?.map Prod.fst ->
        Reads (walk place visit) m soFar (rest.foldl visit soFar) ∧
          walk place visit m (rest.foldl visit soFar) = none from
    whole m.toList [] first rfl begins
  intro rest
  induction rest with
  | nil =>
      intro done soFar split isPlace
      refine ⟨Relation.ReflTransGen.refl, ?_⟩
      rw [List.foldl_nil, walk, isPlace, nextEntry_split split]
      rfl
  | cons entry rest inductionHypothesis =>
      intro done soFar split isPlace
      have step : walk place visit m soFar = some (visit soFar entry) := by
        rw [walk, isPlace, nextEntry_split split]
        rfl
      have later := inductionHypothesis (done ++ [entry]) (visit soFar entry)
        (by rw [split, List.append_assoc]; rfl)
        (by rw [placed, List.getLast?_concat]; rfl)
      exact ⟨Relation.ReflTransGen.head step later.1, later.2⟩

end OrdMap
end Foundations
end PscMockServer
