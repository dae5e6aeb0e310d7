import Mathlib.Data.List.Induction
import Mathlib.Data.List.Nodup
import Mathlib.Data.List.Perm.Basic

namespace PscMockServer
namespace Foundations

/-!
# Merging and grouping ordered maps

Two loops over ordered maps that the standard map does not offer directly:
merging a second map in while keeping the entries already present, and splitting
a map into groups by an optional label of the key.  Both are written as loops
over the entries; the laws say what each key finds afterwards.
-/

/-- An ordered map under the key type's own comparison. -/
abbrev OrdMap (κ ν : Type) [Ord κ] : Type := Std.ExtTreeMap κ ν compare

abbrev OrdSet (κ : Type) [Ord κ] : Type := Std.ExtTreeSet κ compare

namespace OrdMap

variable {κ γ ν : Type} [Ord κ] [Std.TransOrd κ] [Std.LawfulEqOrd κ]
  [Ord γ] [Std.TransOrd γ] [Std.LawfulEqOrd γ] [DecidableEq γ]

theorem insert_find [DecidableEq κ] (m : OrdMap κ ν) (k other : κ) (v : ν) :
    (m.insert k v)[other]? = if k = other then some v else m[other]? := by
  rw [Std.ExtTreeMap.getElem?_insert]
  simp only [Std.LawfulEqOrd.compare_eq_iff_eq]

theorem erase_find [DecidableEq κ] (m : OrdMap κ ν) (k other : κ) :
    (m.erase k)[other]? = if k = other then none else m[other]? := by
  rw [Std.ExtTreeMap.getElem?_erase]
  simp only [Std.LawfulEqOrd.compare_eq_iff_eq]

theorem insertIfNew_find [DecidableEq κ] (m : OrdMap κ ν) (k other : κ) (v : ν) :
    (m.insertIfNew k v)[other]? = (m[other]?).or (if k = other then some v else none) := by
  rw [Std.ExtTreeMap.getElem?_insertIfNew]
  simp only [Std.LawfulEqOrd.compare_eq_iff_eq]
  by_cases same : k = other
  · subst same
    rw [if_pos rfl]
    cases present : m[k]? with
    | none =>
        have outside : ¬ k ∈ m := by
          rw [Std.ExtTreeMap.mem_iff_isSome_getElem?, present]
          exact Bool.false_ne_true
        rw [if_pos ⟨rfl, outside⟩]
        rfl
    | some value =>
        have inside : k ∈ m := Std.ExtTreeMap.mem_iff_isSome_getElem?.mpr (by rw [present]; rfl)
        rw [if_neg (fun both => both.2 inside)]
        rfl
  · rw [if_neg (fun both => same both.1), if_neg same, Option.or_none]

theorem filter_find (m : OrdMap κ ν) (keep : κ -> ν -> Bool) (k : κ) (v : ν) :
    (m.filter keep)[k]? = some v ↔ m[k]? = some v ∧ keep k v = true := by
  rw [Std.ExtTreeMap.getElem?_filter', Option.filter_eq_some_iff]

theorem find_of_mem_toList {m : OrdMap κ ν} {entry : κ × ν} (member : entry ∈ m.toList) :
    m[entry.1]? = some entry.2 :=
  Std.ExtTreeMap.mem_toList_iff_getElem?_eq_some.mp member

theorem mem_toList_of_find {m : OrdMap κ ν} {k : κ} {v : ν} (found : m[k]? = some v) :
    (k, v) ∈ m.toList :=
  Std.ExtTreeMap.mem_toList_iff_getElem?_eq_some.mpr found

/-- A key of the map has its entry in the list. -/
theorem exists_mem_toList {m : OrdMap κ ν} {k : κ} (known : k ∈ m) : ∃ v, (k, v) ∈ m.toList := by
  rw [Std.ExtTreeMap.mem_iff_isSome_getElem?, Option.isSome_iff_exists] at known
  rcases known with ⟨v, found⟩
  exact ⟨v, mem_toList_of_find found⟩

omit [Std.LawfulEqOrd κ] in
theorem isEmpty_eq_false_of_find {m : OrdMap κ ν} {k : κ} {v : ν} (found : m[k]? = some v) :
    m.isEmpty = false := by
  rw [Std.ExtTreeMap.isEmpty_eq_false_iff]
  intro empty
  rw [empty, Std.ExtTreeMap.getElem?_empty] at found
  cases found

theorem exists_find_of_not_isEmpty {m : OrdMap κ ν} (nonempty : m.isEmpty = false) :
    ∃ (k : κ) (v : ν), m[k]? = some v := by
  rw [Std.ExtTreeMap.isEmpty_eq_false_iff] at nonempty
  by_contra none_
  apply nonempty
  apply Std.ExtTreeMap.ext_getElem?
  intro k
  rw [Std.ExtTreeMap.getElem?_empty]
  cases found : m[k]? with
  | none => rfl
  | some v => exact absurd ⟨k, v, found⟩ none_

/-! ## The first entry of a list for a key -/

/-- The value of the first entry for `k`. -/
def firstOf [DecidableEq κ] (entries : List (κ × ν)) (k : κ) : Option ν :=
  (entries.find? (fun entry => decide (entry.1 = k))).map Prod.snd

omit [Ord κ] [Std.TransOrd κ] [Std.LawfulEqOrd κ] in
theorem firstOf_cons [DecidableEq κ] (entry : κ × ν) (entries : List (κ × ν)) (k : κ) :
    firstOf (entry :: entries) k = if entry.1 = k then some entry.2 else firstOf entries k := by
  rw [firstOf, List.find?_cons]
  by_cases here : entry.1 = k
  · rw [decide_eq_true here, if_pos here]
    rfl
  · rw [decide_eq_false here, if_neg here, firstOf]

theorem firstOf_toList [DecidableEq κ] (m : OrdMap κ ν) (k : κ) : firstOf m.toList k = m[k]? := by
  cases found : m.toList.find? (fun entry => decide (entry.1 = k)) with
  | none =>
      rw [firstOf, found]
      cases stored : m[k]? with
      | none => rfl
      | some v =>
          have missed := List.find?_eq_none.mp found (k, v) (mem_toList_of_find stored)
          exact absurd (decide_eq_true rfl) missed
  | some entry =>
      rw [firstOf, found]
      have hit := List.find?_some found
      have here : entry.1 = k := of_decide_eq_true hit
      rw [← here, find_of_mem_toList (List.mem_of_find?_eq_some found)]
      rfl

/-! ## Key sets -/

/-- Add every key of the map. -/
def insertKeys (keys : OrdSet κ) (m : OrdMap κ ν) : OrdSet κ :=
  m.foldl (fun acc k _ => acc.insert k) keys

theorem mem_insertKeys (keys : OrdSet κ) (m : OrdMap κ ν) (k : κ) :
    k ∈ insertKeys keys m ↔ k ∈ keys ∨ k ∈ m := by
  have listed : k ∈ m ↔ ∃ entry ∈ m.toList, entry.1 = k := by
    rw [Std.ExtTreeMap.mem_iff_isSome_getElem?, Option.isSome_iff_exists]
    constructor
    · rintro ⟨v, found⟩
      exact ⟨(k, v), mem_toList_of_find found, rfl⟩
    · rintro ⟨entry, member, rfl⟩
      exact ⟨entry.2, find_of_mem_toList member⟩
  rw [listed, insertKeys, Std.ExtTreeMap.foldl_eq_foldl_toList]
  generalize m.toList = entries
  induction entries generalizing keys with
  | nil => simp
  | cons entry entries inductionHypothesis =>
      rw [List.foldl_cons]
      refine (inductionHypothesis (keys.insert entry.1)).trans ?_
      rw [Std.ExtTreeSet.mem_insert, Std.LawfulEqOrd.compare_eq_iff_eq]
      simp only [List.mem_cons, exists_eq_or_imp]
      tauto

/-! ## The last entry of a list for a key -/

section LastOf

variable {β ω : Type} [DecidableEq κ]

/-- The result of the last entry that addresses `k`, or `old` when none does. -/
def lastOf (address : β -> κ) (result : β -> ω) (entries : List β) (k : κ) (old : ω) : ω :=
  entries.foldl (fun found entry => if address entry = k then result entry else found) old

variable {address : β -> κ} {result : β -> ω} {entries : List β} {k : κ} {old : ω}

omit [Ord κ] [Std.TransOrd κ] [Std.LawfulEqOrd κ] in
theorem lastOf_cons (entry : β) :
    lastOf address result (entry :: entries) k old =
      lastOf address result entries k (if address entry = k then result entry else old) := rfl

omit [Ord κ] [Std.TransOrd κ] [Std.LawfulEqOrd κ] in
/-- A key that no entry addresses keeps what it had. -/
theorem lastOf_untouched (untouched : ∀ entry ∈ entries, address entry ≠ k) :
    lastOf address result entries k old = old := by
  induction entries with
  | nil => rfl
  | cons entry entries inductionHypothesis =>
      rw [lastOf_cons, if_neg (untouched entry List.mem_cons_self)]
      exact inductionHypothesis (fun other member => untouched other (List.mem_cons_of_mem entry member))

omit [Ord κ] [Std.TransOrd κ] [Std.LawfulEqOrd κ] in
/-- An addressed key gets the result of one of the entries that address it. -/
theorem lastOf_touched (touched : ∃ entry ∈ entries, address entry = k) :
    ∃ entry ∈ entries, address entry = k ∧ lastOf address result entries k old = result entry := by
  induction entries generalizing old with
  | nil => simp at touched
  | cons entry entries inductionHypothesis =>
      rw [lastOf_cons]
      by_cases later : ∃ other ∈ entries, address other = k
      · rcases inductionHypothesis later with ⟨other, member, addressed, same⟩
        exact ⟨other, List.mem_cons_of_mem entry member, addressed, same⟩
      · rcases touched with ⟨other, member, addressed⟩
        rcases List.mem_cons.mp member with rfl | inRest
        · rw [if_pos addressed]
          refine ⟨other, List.mem_cons_self, addressed, lastOf_untouched ?_⟩
          exact fun another member hit => later ⟨another, member, hit⟩
        · exact absurd ⟨other, inRest, addressed⟩ later

omit [Ord κ] [Std.TransOrd κ] [Std.LawfulEqOrd κ] in
theorem lastOf_cases (address : β -> κ) (result : β -> ω) (entries : List β) (k : κ) (old : ω) :
    lastOf address result entries k old = old ∨
      ∃ entry ∈ entries, address entry = k ∧ lastOf address result entries k old = result entry := by
  by_cases touched : ∃ entry ∈ entries, address entry = k
  · exact Or.inr (lastOf_touched touched)
  · exact Or.inl (lastOf_untouched (fun entry member hit => touched ⟨entry, member, hit⟩))

omit [Ord κ] [Std.TransOrd κ] [Std.LawfulEqOrd κ] in
/-- The entry that decides a key, as the last one of those that address it. -/
theorem lastOf_eq_getLast (address : β -> κ) (result : β -> ω) (entries : List β) (k : κ) (old : ω) :
    lastOf address result entries k old =
      ((entries.filter (fun entry => decide (address entry = k))).getLast?).elim old result := by
  induction entries using List.reverseRecOn with
  | nil => rfl
  | append_singleton entries entry inductionHypothesis =>
      have split : lastOf address result (entries ++ [entry]) k old =
          if address entry = k then result entry else lastOf address result entries k old := by
        rw [lastOf, List.foldl_append]
        rfl
      rw [split, List.filter_append, inductionHypothesis]
      by_cases addressed : address entry = k
      · rw [List.filter_singleton, decide_eq_true addressed, cond_true, List.getLast?_concat]
        exact if_pos addressed
      · rw [List.filter_singleton, decide_eq_false addressed, cond_false, List.append_nil]
        exact if_neg addressed

theorem insert_foldl_find (value : β -> ν) (entries : List β) (m : OrdMap κ ν) (k : κ) :
    (entries.foldl (fun acc entry => acc.insert (address entry) (value entry)) m)[k]? =
      lastOf address (fun entry => some (value entry)) entries k (m[k]?) := by
  induction entries generalizing m with
  | nil => rfl
  | cons entry entries inductionHypothesis =>
      rw [List.foldl_cons, inductionHypothesis, lastOf_cons, insert_find]

end LastOf

/-! ## Merging -/

/-- Add the second map's entries, keeping what the first one already has. -/
def mergeKeep (m other : OrdMap κ ν) : OrdMap κ ν :=
  other.foldl (fun acc k v => acc.insertIfNew k v) m

theorem insertIfNew_foldl_find [DecidableEq κ] (entries : List (κ × ν)) (m : OrdMap κ ν) (k : κ) :
    (entries.foldl (fun acc entry => acc.insertIfNew entry.1 entry.2) m)[k]? =
      (m[k]?).or (firstOf entries k) := by
  induction entries generalizing m with
  | nil => rw [List.foldl_nil, firstOf, List.find?_nil, Option.map_none, Option.or_none]
  | cons entry entries inductionHypothesis =>
      rw [List.foldl_cons, inductionHypothesis, insertIfNew_find, firstOf_cons, Option.or_assoc]
      by_cases here : entry.1 = k
      · rw [if_pos here, if_pos here, Option.some_or]
      · rw [if_neg here, if_neg here, Option.none_or]

theorem mergeKeep_find [DecidableEq κ] (m other : OrdMap κ ν) (k : κ) :
    (mergeKeep m other)[k]? = (m[k]?).or (other[k]?) := by
  rw [mergeKeep, Std.ExtTreeMap.foldl_eq_foldl_toList, insertIfNew_foldl_find, firstOf_toList]

theorem empty_mergeKeep [DecidableEq κ] (other : OrdMap κ ν) : mergeKeep ∅ other = other := by
  apply Std.ExtTreeMap.ext_getElem?
  intro k
  rw [mergeKeep_find, Std.ExtTreeMap.getElem?_empty, Option.none_or]

/-! ## Grouping -/

/-- One entry goes to the unlabelled rest or to the group of its label. -/
def splitStep (label : κ -> Option γ) (acc : OrdMap κ ν × OrdMap γ (OrdMap κ ν)) (k : κ) (v : ν) :
    OrdMap κ ν × OrdMap γ (OrdMap κ ν) :=
  match label k with
  | some c => (acc.1, acc.2.insert c (((acc.2[c]?).getD ∅).insertIfNew k v))
  | none => (acc.1.insertIfNew k v, acc.2)

/-- The unlabelled entries, and the groups of the labelled ones. -/
def splitBy (label : κ -> Option γ) (m : OrdMap κ ν) : OrdMap κ ν × OrdMap γ (OrdMap κ ν) :=
  m.foldl (splitStep label) (∅, ∅)

omit [Std.LawfulEqOrd γ] [DecidableEq γ] in
theorem splitStep_rest_find [DecidableEq κ] (label : κ -> Option γ)
    (acc : OrdMap κ ν × OrdMap γ (OrdMap κ ν)) (k other : κ) (v : ν) :
    (splitStep label acc k v).1[other]? =
      (acc.1[other]?).or (if k = other ∧ label other = none then some v else none) := by
  cases labelled : label k with
  | none =>
      simp only [splitStep, labelled, insertIfNew_find]
      by_cases here : k = other
      · subst here
        simp [labelled]
      · simp [here]
  | some c =>
      simp only [splitStep, labelled]
      by_cases here : k = other
      · subst here
        simp [labelled]
      · simp [here]

theorem splitStep_group_find [DecidableEq κ] (label : κ -> Option γ)
    (acc : OrdMap κ ν × OrdMap γ (OrdMap κ ν)) (k other : κ) (v : ν) (c : γ) :
    ((splitStep label acc k v).2[c]?.getD ∅)[other]? =
      ((acc.2[c]?.getD ∅)[other]?).or (if k = other ∧ label other = some c then some v else none) := by
  cases labelled : label k with
  | none =>
      simp only [splitStep, labelled]
      by_cases here : k = other
      · subst here
        simp [labelled]
      · simp [here]
  | some d =>
      simp only [splitStep, labelled, insert_find]
      by_cases group : d = c
      · subst group
        rw [if_pos rfl, Option.getD_some, insertIfNew_find]
        by_cases here : k = other
        · subst here
          simp [labelled]
        · simp [here]
      · rw [if_neg group]
        by_cases here : k = other
        · subst here
          simp [labelled, group]
        · simp [here]

omit [Std.LawfulEqOrd κ] [DecidableEq γ] in
theorem mem_splitStep_groups (label : κ -> Option γ) (acc : OrdMap κ ν × OrdMap γ (OrdMap κ ν)) (k : κ)
    (v : ν) (c : γ) : c ∈ (splitStep label acc k v).2 ↔ c ∈ acc.2 ∨ label k = some c := by
  cases labelled : label k with
  | none => simp [splitStep, labelled]
  | some d =>
      simp only [splitStep, labelled, Std.ExtTreeMap.mem_insert, Std.LawfulEqOrd.compare_eq_iff_eq,
        Option.some.injEq]
      exact or_comm

/-- All entries of a list, from any accumulator: the first entry of a key counts. -/
private theorem splitStep_foldl [DecidableEq κ] (label : κ -> Option γ) (entries : List (κ × ν))
    (acc : OrdMap κ ν × OrdMap γ (OrdMap κ ν)) :
    (∀ k, (entries.foldl (fun acc entry => splitStep label acc entry.1 entry.2) acc).1[k]? =
        (acc.1[k]?).or (if label k = none then firstOf entries k else none)) ∧
      (∀ c k, ((entries.foldl (fun acc entry => splitStep label acc entry.1 entry.2) acc).2[c]?.getD ∅)[k]? =
        ((acc.2[c]?.getD ∅)[k]?).or (if label k = some c then firstOf entries k else none)) ∧
      (∀ c, c ∈ (entries.foldl (fun acc entry => splitStep label acc entry.1 entry.2) acc).2 ↔
        c ∈ acc.2 ∨ ∃ entry ∈ entries, label entry.1 = some c) := by
  induction entries generalizing acc with
  | nil => simp [firstOf]
  | cons entry entries inductionHypothesis =>
      rw [List.foldl_cons]
      rcases inductionHypothesis (splitStep label acc entry.1 entry.2) with ⟨rest, groups, labels⟩
      refine ⟨fun k => ?_, fun c k => ?_, fun c => ?_⟩
      · rw [rest k, splitStep_rest_find, firstOf_cons, Option.or_assoc]
        by_cases labelled : label k = none <;> by_cases here : entry.1 = k <;> simp [labelled, here]
      · rw [groups c k, splitStep_group_find, firstOf_cons, Option.or_assoc]
        by_cases labelled : label k = some c <;> by_cases here : entry.1 = k <;> simp [labelled, here]
      · rw [labels c, mem_splitStep_groups, or_assoc]
        simp only [List.mem_cons, exists_eq_or_imp]

omit [Std.LawfulEqOrd γ] [DecidableEq γ] in
/-- Only the labels of the keys that are there matter. -/
theorem splitBy_congr {label other : κ -> Option γ} {m : OrdMap κ ν}
    (same : ∀ k v, m[k]? = some v -> label k = other k) : splitBy label m = splitBy other m := by
  rw [splitBy, splitBy, Std.ExtTreeMap.foldl_eq_foldl_toList, Std.ExtTreeMap.foldl_eq_foldl_toList]
  apply List.foldl_ext
  intro acc entry member
  rw [splitStep, splitStep, same entry.1 entry.2 (find_of_mem_toList member)]

theorem splitBy_rest_find [DecidableEq κ] (label : κ -> Option γ) (m : OrdMap κ ν) (k : κ) :
    (splitBy label m).1[k]? = if label k = none then m[k]? else none := by
  rw [splitBy, Std.ExtTreeMap.foldl_eq_foldl_toList, (splitStep_foldl label m.toList (∅, ∅)).1 k,
    firstOf_toList, Std.ExtTreeMap.getElem?_empty, Option.none_or]

theorem splitBy_group_find [DecidableEq κ] (label : κ -> Option γ) (m : OrdMap κ ν) (c : γ) (k : κ) :
    ((splitBy label m).2[c]?.getD ∅)[k]? = if label k = some c then m[k]? else none := by
  rw [splitBy, Std.ExtTreeMap.foldl_eq_foldl_toList, (splitStep_foldl label m.toList (∅, ∅)).2.1 c k,
    firstOf_toList, Std.ExtTreeMap.getElem?_empty, Option.getD_none, Std.ExtTreeMap.getElem?_empty,
    Option.none_or]

/-- A label has a group exactly when some entry carries it. -/
theorem mem_splitBy_groups [DecidableEq κ] (label : κ -> Option γ) (m : OrdMap κ ν) (c : γ) :
    c ∈ (splitBy label m).2 ↔ ∃ k v, m[k]? = some v ∧ label k = some c := by
  rw [splitBy, Std.ExtTreeMap.foldl_eq_foldl_toList, (splitStep_foldl label m.toList (∅, ∅)).2.2 c]
  constructor
  · rintro (impossible | ⟨entry, member, labelled⟩)
    · exact absurd impossible Std.ExtTreeMap.not_mem_empty
    · exact ⟨entry.1, entry.2, find_of_mem_toList member, labelled⟩
  · rintro ⟨k, v, found, labelled⟩
    exact Or.inr ⟨(k, v), mem_toList_of_find found, labelled⟩

/-- A group in the list of groups, key by key. -/
theorem find_of_mem_splitBy_groups [DecidableEq κ] {label : κ -> Option γ} {m : OrdMap κ ν}
    {entry : γ × OrdMap κ ν} (member : entry ∈ (splitBy label m).2.toList) (k : κ) :
    entry.2[k]? = if label k = some entry.1 then m[k]? else none := by
  have found := splitBy_group_find label m entry.1 k
  rw [find_of_mem_toList member, Option.getD_some] at found
  exact found

theorem toList_nodup (m : OrdMap κ ν) : m.toList.Nodup := by
  refine List.Pairwise.imp ?_ Std.ExtTreeMap.distinct_keys_toList
  intro first second different same
  exact different (same ▸ Std.LawfulEqOrd.compare_eq_iff_eq.mpr rfl)

theorem keys_nodup (m : OrdMap κ ν) : (m.toList.map Prod.fst).Nodup := by
  rw [List.nodup_iff_pairwise_ne, List.pairwise_map]
  refine List.Pairwise.imp ?_ Std.ExtTreeMap.distinct_keys_toList
  intro first second different same
  exact different (Std.LawfulEqOrd.compare_eq_iff_eq.mpr same)

/-- A map with one entry. -/
theorem toList_single [DecidableEq κ] (k : κ) (v : ν) : ((∅ : OrdMap κ ν).insert k v).toList = [(k, v)] := by
  rw [← List.perm_singleton,
    List.perm_ext_iff_of_nodup (toList_nodup _) (List.nodup_singleton _)]
  intro entry
  have reads : ((∅ : OrdMap κ ν).insert k v)[entry.1]? = if k = entry.1 then some v else none := by
    rw [insert_find, Std.ExtTreeMap.getElem?_empty]
  rw [List.mem_singleton]
  constructor
  · intro member
    have found := find_of_mem_toList member
    rw [reads] at found
    split at found
    · rename_i same
      exact Prod.ext same.symm (Option.some.inj found).symm
    · cases found
  · rintro rfl
    exact mem_toList_of_find (by rw [reads, if_pos rfl])

theorem single_not_isEmpty (k : κ) (v : ν) : ((∅ : OrdMap κ ν).insert k v).isEmpty = false := by
  classical
  exact isEmpty_eq_false_of_find ((insert_find ∅ k k v).trans (if_pos rfl))

omit [Std.LawfulEqOrd γ] [DecidableEq γ] in
/-- Splitting a map with one entry. -/
theorem splitBy_single [DecidableEq κ] (label : κ -> Option γ) (k : κ) (v : ν) :
    splitBy label ((∅ : OrdMap κ ν).insert k v) =
      match label k with
      | none => ((∅ : OrdMap κ ν).insert k v, ∅)
      | some c => (∅, (∅ : OrdMap γ (OrdMap κ ν)).insert c ((∅ : OrdMap κ ν).insert k v)) := by
  have alone : (∅ : OrdMap κ ν).insertIfNew k v = (∅ : OrdMap κ ν).insert k v := by
    apply Std.ExtTreeMap.ext_getElem?
    intro other
    rw [insertIfNew_find, insert_find, Std.ExtTreeMap.getElem?_empty, Option.none_or]
  rw [splitBy, Std.ExtTreeMap.foldl_eq_foldl_toList, toList_single, List.foldl_cons, List.foldl_nil,
    splitStep]
  cases label k with
  | none => exact congrArg (fun rest => (rest, ∅)) alone
  | some c =>
      dsimp only
      rw [Std.ExtTreeMap.getElem?_empty, Option.getD_none, alone]

/-- Splitting a map whose keys have no label. -/
theorem splitBy_unlabelled [DecidableEq κ] {label : κ -> Option γ} {m : OrdMap κ ν}
    (unlabelled : ∀ k v, m[k]? = some v -> label k = none) : splitBy label m = (m, ∅) := by
  apply Prod.ext
  · apply Std.ExtTreeMap.ext_getElem?
    intro k
    rw [splitBy_rest_find]
    cases found : m[k]? with
    | none => exact ite_self none
    | some v => rw [if_pos (unlabelled k v found)]
  · apply Std.ExtTreeMap.ext_getElem?
    intro c
    have absent : c ∉ (splitBy label m).2 := by
      rw [mem_splitBy_groups]
      rintro ⟨k, v, found, labelled⟩
      rw [unlabelled k v found] at labelled
      cases labelled
    rw [getElem?_neg _ _ absent, Std.ExtTreeMap.getElem?_empty]

/-- An entry of a group carries its label. -/
theorem label_of_mem_group [DecidableEq κ] {label : κ -> Option γ} {m : OrdMap κ ν}
    {group : γ × OrdMap κ ν} (listed : group ∈ (splitBy label m).2.toList) {entry : κ × ν}
    (member : entry ∈ group.2.toList) : label entry.1 = some group.1 := by
  have found := find_of_mem_splitBy_groups listed entry.1
  rw [find_of_mem_toList member] at found
  split at found
  · next labelled => exact labelled
  · cases found

/-- The unlabelled entries. -/
theorem mem_splitBy_rest [DecidableEq κ] (label : κ -> Option γ) (m : OrdMap κ ν) (entry : κ × ν) :
    entry ∈ (splitBy label m).1.toList ↔ m[entry.1]? = some entry.2 ∧ label entry.1 = none := by
  rw [Std.ExtTreeMap.mem_toList_iff_getElem?_eq_some, splitBy_rest_find]
  split <;> simp_all

/-- The labelled entries. -/
theorem mem_splitBy_group [DecidableEq κ] (label : κ -> Option γ) (m : OrdMap κ ν) (entry : κ × ν) :
    (∃ group ∈ (splitBy label m).2.toList, entry ∈ group.2.toList) ↔
      m[entry.1]? = some entry.2 ∧ label entry.1 ≠ none := by
  constructor
  · rintro ⟨group, listed, member⟩
    have labelled := label_of_mem_group listed member
    have found := find_of_mem_splitBy_groups listed entry.1
    rw [find_of_mem_toList member, if_pos labelled] at found
    refine ⟨found.symm, ?_⟩
    rw [labelled]
    exact Option.some_ne_none _
  · rintro ⟨found, labelled⟩
    rcases Option.ne_none_iff_exists'.mp labelled with ⟨c, isC⟩
    have known := (mem_splitBy_groups label m c).mpr ⟨entry.1, entry.2, found, isC⟩
    rcases exists_mem_toList known with ⟨group, inGroups⟩
    refine ⟨(c, group), inGroups, mem_toList_of_find ?_⟩
    rw [find_of_mem_splitBy_groups inGroups, if_pos isC, found]

/-- Splitting loses no entry and repeats none. -/
theorem splitBy_perm [DecidableEq κ] (label : κ -> Option γ) (m : OrdMap κ ν) :
    ((splitBy label m).1.toList ++ (splitBy label m).2.toList.flatMap (fun group => group.2.toList)).Perm
      m.toList := by
  rw [List.perm_ext_iff_of_nodup]
  · intro entry
    rw [List.mem_append, List.mem_flatMap, mem_splitBy_group, mem_splitBy_rest,
      Std.ExtTreeMap.mem_toList_iff_getElem?_eq_some]
    by_cases unlabelled : label entry.1 = none <;> simp [unlabelled]
  · rw [List.nodup_append]
    refine ⟨toList_nodup _, ?_, ?_⟩
    · rw [List.nodup_flatMap]
      refine ⟨fun group _ => toList_nodup _, ?_⟩
      refine List.Pairwise.imp_of_mem ?_ (List.nodup_iff_pairwise_ne.mp (keys_nodup _) |> List.pairwise_map.mp)
      intro first second inFirst inSecond different entry inBoth inOther
      have isFirst := label_of_mem_group inFirst inBoth
      have isSecond := label_of_mem_group inSecond inOther
      exact different (Option.some.inj (isFirst.symm.trans isSecond))
    · intro entry inRest other inGroups same
      rw [← same] at inGroups
      have labelled := (mem_splitBy_group label m entry).mp (List.mem_flatMap.mp inGroups)
      exact labelled.2 ((mem_splitBy_rest label m entry).mp inRest).2
  · exact toList_nodup _

end OrdMap

end Foundations
end PscMockServer
