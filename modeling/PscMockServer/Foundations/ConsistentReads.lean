import Mathlib.Data.Nat.Find

namespace PscMockServer
namespace Foundations

/-!
# Reads at several moments

Some keys of a shared store are read, each at a moment of its own, while writes go on.
The reads are torn when a write to a key already read is followed by, or is, a write
to a key that is still to be read.  Reads that are not torn all fit one moment, and if
no key ever gets an old value back, only those do.
-/

variable {ι ν : Type} (value : Nat -> ι -> ν) (readAt : ι -> Nat -> Prop)

/-- The step out of moment `t` changes the key. -/
def Changes (t : Nat) (k : ι) : Prop :=
  value t k ≠ value (t + 1) k

/-- A read key changes, and then, or at the same step, one that is read later. -/
def Torn : Prop :=
  ∃ early readEarly late readLate change laterChange,
    readAt early readEarly ∧ readEarly ≤ change ∧ Changes value change early ∧
      change ≤ laterChange ∧ Changes value laterChange late ∧ laterChange < readLate ∧
        readAt late readLate

/-- At moment `t` every read key had the value that was read. -/
def FitsAt (t : Nat) : Prop :=
  ∀ k r, readAt k r -> value t k = value r k

/-- Between two moments with one value the key never has another. -/
def NeverReturns : Prop :=
  ∀ k first last, first ≤ last -> value first k = value last k ->
    ∀ t, first ≤ t -> t ≤ last -> value t k = value first k

variable {value readAt}

theorem Torn.someRead (torn : Torn value readAt) : ∃ k r, readAt k r := by
  rcases torn with ⟨early, readEarly, _, _, _, _, wasRead, _⟩
  exact ⟨early, readEarly, wasRead⟩

theorem value_steady {k : ι} {first last : Nat} (ordered : first ≤ last)
    (steady : ∀ t, first ≤ t -> t < last -> ¬ Changes value t k) : value last k = value first k := by
  induction last, ordered using Nat.le_induction with
  | base => rfl
  | succ last ordered inductionHypothesis =>
      have same := inductionHypothesis (fun t after before => steady t after (Nat.lt_succ_of_lt before))
      exact (not_not.mp (steady last ordered (Nat.lt_succ_self last))).symm.trans same

/-- The moment of the first change to a key already read, or else the last moment,
fits reads that are not torn. -/
theorem exists_fitsAt {first last : Nat} (ordered : first ≤ last)
    (within : ∀ k r, readAt k r -> first ≤ r ∧ r ≤ last) (untorn : ¬ Torn value readAt) :
    ∃ t, first ≤ t ∧ t ≤ last ∧ FitsAt value readAt t := by
  classical
  by_cases someChange : ∃ change, change < last ∧
      ∃ k r, readAt k r ∧ r ≤ change ∧ Changes value change k
  · have least := Nat.find_spec someChange
    have earlier := fun t => Nat.find_min (m := t) someChange
    revert least earlier
    generalize Nat.find someChange = change
    rintro ⟨inside, early, readEarly, wasRead, before, changed⟩ earlier
    refine ⟨change, Nat.le_trans (within early readEarly wasRead).1 before, Nat.le_of_lt inside, ?_⟩
    intro k r isRead
    rcases Nat.le_total r change with passed | ahead
    · -- A key read before the change was steady until then.
      apply value_steady passed
      intro t after beforeChange differs
      exact earlier t beforeChange ⟨Nat.lt_trans beforeChange inside, k, r, isRead, after, differs⟩
    · -- A key read later must be steady from the change on.
      refine (value_steady ahead ?_).symm
      intro t after beforeRead differs
      exact untorn ⟨early, readEarly, k, r, change, t, wasRead, before, changed, after, differs,
        beforeRead, isRead⟩
  · refine ⟨last, ordered, Nat.le_refl last, ?_⟩
    intro k r isRead
    apply value_steady (within k r isRead).2
    intro t after beforeLast differs
    exact someChange ⟨t, beforeLast, k, r, isRead, after, differs⟩

/-- Torn reads fit no moment unless a key gets an old value back. -/
theorem Torn.not_fitsAt (fresh : NeverReturns value) (torn : Torn value readAt) (t : Nat) :
    ¬ FitsAt value readAt t := by
  rcases torn with ⟨early, readEarly, late, readLate, change, laterChange, wasRead, before, changed,
    ordered, laterChanged, beforeRead, isRead⟩
  intro fits
  rcases Nat.lt_or_ge change t with after | upTo
  · have steady := fresh early readEarly t (by omega) (fits early readEarly wasRead).symm
    exact changed ((steady change before (by omega)).trans (steady (change + 1) (by omega) after).symm)
  · have steady := fresh late t readLate (by omega) (fits late readLate isRead)
    exact laterChanged ((steady laterChange (by omega) (by omega)).trans
      (steady (laterChange + 1) (by omega) beforeRead).symm)

end Foundations
end PscMockServer
