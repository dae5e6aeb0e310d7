import PscMockServer.Foundations.Runs
import PscMockServer.Gnmi.Subscribe

namespace PscMockServer
namespace Gnmi

open Foundations Utils Backend

/-!
# What a subscription reads and writes

Whether a build succeeds depends on the request and the registered prefixes, never on
the stored data.  A stream whose initial build succeeds therefore runs until the
client cancels, and what it has written at any poll is the opening, the complete
passes, and the part of the current pass up to that poll.
-/

namespace Subscribe

variable {σ : Type} {reg : DataProviderRegistry σ}

/-! ## The build -/

/-- What one subscription contributes to the status of a build. -/
def subStatus (reg : DataProviderRegistry σ) (sub : Subscription) : Status :=
  if !(validateGnmiPath sub.path).isOk then validateGnmiPath sub.path
  else if !reg.owns (gnmiToXpath sub.path) then
    ⟨.unimplemented, "path not implemented: ".toList ++ gnmiToXpath sub.path⟩
  else Status.OK

theorem subStatus_isOk_iff (sub : Subscription) : (subStatus reg sub).isOk = true ↔
    (validateGnmiPath sub.path).isOk = true ∧ reg.owns (gnmiToXpath sub.path) = true := by
  unfold subStatus
  cases wellFormed : (validateGnmiPath sub.path).isOk with
  | false => simp [wellFormed]
  | true =>
      cases reg.owns (gnmiToXpath sub.path) with
      | false => simp [Status.isOk]
      | true => simp [Status.isOk, Status.OK]

/-- Subscription number `i` reads its part of the store. -/
def readOf (reg : DataProviderRegistry σ) (found : Nat -> σ) (sub : Subscription) (i : Nat) : Snapshot :=
  (reg.snapshot (found i) (gnmiToXpath sub.path)).snap

/-- The reads of the subscriptions, merged in order. -/
def mergedReads (reg : DataProviderRegistry σ) (found : Nat -> σ) :
    List Subscription -> Nat -> Snapshot -> Snapshot
  | [], _, merged => merged
  | sub :: rest, i, merged =>
      mergedReads reg found rest (i + 1) (OrdMap.mergeKeep merged (readOf reg found sub i))

/-- One subscription either ends the loop with its own status or adds its read. -/
theorem mergeLoop_cons (found : Nat -> σ) (sub : Subscription) (rest : List Subscription) (i : Nat)
    (merged : Snapshot) :
    mergeLoop reg found (sub :: rest) i merged =
      if (subStatus reg sub).isOk then
        mergeLoop reg found rest (i + 1) (OrdMap.mergeKeep merged (readOf reg found sub i))
      else (subStatus reg sub, merged) := by
  rw [mergeLoop]
  unfold subStatus readOf
  dsimp only
  rw [DataProviderRegistry.snapshot_routed]
  cases valid : (validateGnmiPath sub.path).isOk with
  | false => simp only [Bool.not_false, if_true, valid, Bool.false_eq_true, if_false]
  | true =>
      simp only [Bool.not_true, Bool.false_eq_true, if_false]
      cases reg.owns (gnmiToXpath sub.path) with
      | false => rfl
      | true => rfl

theorem mergeLoop_status (found : Nat -> σ) (subs : List Subscription) (i : Nat) (merged : Snapshot) :
    (mergeLoop reg found subs i merged).1 = firstError (subs.map (subStatus reg)) := by
  induction subs generalizing i merged with
  | nil => rfl
  | cons sub rest inductionHypothesis =>
      rw [List.map_cons, firstError_cons, mergeLoop_cons]
      split
      · exact inductionHypothesis _ _
      · rfl

theorem mergeLoop_merged {found : Nat -> σ} {subs : List Subscription} {i : Nat} {merged : Snapshot}
    (okay : ∀ sub ∈ subs, (subStatus reg sub).isOk = true) :
    (mergeLoop reg found subs i merged).2 = mergedReads reg found subs i merged := by
  induction subs generalizing i merged with
  | nil => rfl
  | cons sub rest inductionHypothesis =>
      rw [mergeLoop_cons, if_pos (okay sub List.mem_cons_self), mergedReads]
      exact inductionHypothesis (fun other member => okay other (List.mem_cons_of_mem sub member))

/-- The first read that has the key. -/
def firstRead (reg : DataProviderRegistry σ) (found : Nat -> σ) (key : Str) :
    List Subscription -> Nat -> Option Leaf
  | [], _ => none
  | sub :: rest, i => ((readOf reg found sub i)[key]?).or (firstRead reg found key rest (i + 1))

theorem mergedReads_find (found : Nat -> σ) (subs : List Subscription) (i : Nat) (merged : Snapshot)
    (key : Str) :
    (mergedReads reg found subs i merged)[key]? = (merged[key]?).or (firstRead reg found key subs i) := by
  induction subs generalizing i merged with
  | nil => rw [mergedReads, firstRead, Option.or_none]
  | cons sub rest inductionHypothesis =>
      rw [mergedReads, inductionHypothesis, OrdMap.mergeKeep_find, firstRead, Option.or_assoc]

/-- The merged reads from nothing keep, for each key, the first read that has it. -/
theorem mergedReads_empty_find (found : Nat -> σ) (subs : List Subscription) (i : Nat) (key : Str) :
    (mergedReads reg found subs i ∅)[key]? = firstRead reg found key subs i := by
  rw [mergedReads_find, Std.ExtTreeMap.getElem?_empty, Option.none_or]

/-- A key of the merged reads comes from the first subscription that reads it. -/
theorem firstRead_source {found : Nat -> σ} {key : Str} {subs : List Subscription} {i : Nat} {leaf : Leaf}
    (read : firstRead reg found key subs i = some leaf) :
    ∃ front sub rest, subs = front ++ sub :: rest ∧
      (readOf reg found sub (i + front.length))[key]? = some leaf ∧
      firstRead reg found key front i = none := by
  induction subs generalizing i with
  | nil => cases read
  | cons sub rest inductionHypothesis =>
      rw [firstRead] at read
      cases here : (readOf reg found sub i)[key]? with
      | some own =>
          rw [here, Option.some_or] at read
          exact ⟨[], sub, rest, rfl, here.trans read, rfl⟩
      | none =>
          rw [here, Option.none_or] at read
          rcases inductionHypothesis read with ⟨front, source, after, rfl, found_, earlier⟩
          refine ⟨sub :: front, source, after, rfl, ?_, ?_⟩
          · rw [List.length_cons, ← Nat.add_assoc, Nat.add_right_comm]
            exact found_
          · rw [firstRead, here, Option.none_or]
            exact earlier

/-- The first read of a key is that of the first subscription whose read has it. -/
theorem firstRead_iff {found : Nat -> σ} {key : Str} {subs : List Subscription} {leaf : Leaf} (i : Nat) :
    firstRead reg found key subs i = some leaf ↔
      ∃ j sub, subs[j]? = some sub ∧ (readOf reg found sub (i + j))[key]? = some leaf ∧
        ∀ k < j, ∀ earlier, subs[k]? = some earlier -> (readOf reg found earlier (i + k))[key]? = none := by
  induction subs generalizing i with
  | nil => simp [firstRead]
  | cons sub rest inductionHypothesis =>
      rw [firstRead]
      cases here : (readOf reg found sub i)[key]? with
      | some own =>
          rw [Option.some_or, Option.some_inj]
          constructor
          · rintro rfl
            exact ⟨0, sub, rfl, here, fun k none => absurd none (Nat.not_lt_zero k)⟩
          · rintro ⟨j, other, listed, read, earlier⟩
            cases j with
            | zero =>
                cases listed
                exact Option.some_inj.mp (here.symm.trans read)
            | succ j => cases here.symm.trans (earlier 0 (Nat.zero_lt_succ j) sub rfl)
      | none =>
          have shift : ∀ j, i + 1 + j = i + (j + 1) := fun j => by omega
          rw [Option.none_or, inductionHypothesis]
          simp only [shift]
          constructor
          · rintro ⟨j, other, listed, read, earlier⟩
            refine ⟨j + 1, other, listed, read, fun k below before isBefore => ?_⟩
            cases k with
            | zero =>
                cases isBefore
                exact here
            | succ k => exact earlier k (Nat.lt_of_succ_lt_succ below) before isBefore
          · rintro ⟨j, other, listed, read, earlier⟩
            cases j with
            | zero =>
                cases listed
                cases here.symm.trans read
            | succ j =>
                exact ⟨j, other, listed, read,
                  fun k below before isBefore => earlier (k + 1) (Nat.succ_lt_succ below) before isBefore⟩

/-- What a subscription reads is in the merged reads, from it or from an earlier one. -/
theorem mergedReads_of_read {found : Nat -> σ} {key : Str} {subs : List Subscription} {leaf : Leaf} {j : Nat}
    {sub : Subscription} (listed : subs[j]? = some sub) (read : (readOf reg found sub j)[key]? = some leaf) :
    ∃ merged, (mergedReads reg found subs 0 ∅)[key]? = some merged := by
  classical
  have some_ : ∃ j sub leaf, subs[j]? = some sub ∧ (readOf reg found sub j)[key]? = some leaf :=
    ⟨j, sub, leaf, listed, read⟩
  obtain ⟨first, merged, firstListed, firstReads⟩ := Nat.find_spec some_
  refine ⟨merged, ?_⟩
  rw [mergedReads_empty_find, firstRead_iff]
  simp only [Nat.zero_add]
  refine ⟨Nat.find some_, first, firstListed, firstReads, fun k below earlier isEarlier => ?_⟩
  cases also : (readOf reg found earlier k)[key]? with
  | none => rfl
  | some own => exact absurd ⟨earlier, own, isEarlier, also⟩ (Nat.find_min some_ below)

theorem firstRead_append (found : Nat -> σ) (key : Str) (front rest : List Subscription) (i : Nat) :
    firstRead reg found key (front ++ rest) i =
      (firstRead reg found key front i).or (firstRead reg found key rest (i + front.length)) := by
  induction front generalizing i with
  | nil => rfl
  | cons sub front inductionHypothesis =>
      rw [List.cons_append, firstRead, inductionHypothesis, firstRead, Option.or_assoc,
        List.length_cons, Nat.add_assoc, Nat.add_comm 1]

/-- The encodings the build serves. -/
def Encodable (encoding : Encoding) : Prop :=
  encoding = .json ∨ encoding = .jsonIetf

/-- The list passes every check of the build. -/
def Buildable (reg : DataProviderRegistry σ) (list : SubscriptionList) : Prop :=
  Encodable list.encoding ∧ ∀ sub ∈ list.subscription, (subStatus reg sub).isOk = true

theorem Encodable.not_refused {encoding : Encoding} (encodable : Encodable encoding) :
    ¬ (encoding ≠ .json ∧ encoding ≠ .jsonIetf) := by
  rintro ⟨notJson, notIetf⟩
  exact encodable.elim notJson notIetf

/-- A build succeeds exactly on the buildable lists, whatever is stored. -/
theorem build_isOk_iff (found : Nat -> σ) (clock : Nat -> Int) (list : SubscriptionList) :
    (buildSubscribeNotifications reg found clock list).1.isOk = true ↔ Buildable reg list := by
  unfold buildSubscribeNotifications Buildable
  by_cases encodable : Encodable list.encoding
  · rw [if_neg encodable.not_refused, and_iff_right encodable]
    have statuses := firstError_isOk_iff (list.subscription.map (subStatus reg))
    rw [List.forall_mem_map] at statuses
    rw [← statuses]
    dsimp only
    rw [mergeLoop_status]
    cases okay : (firstError (list.subscription.map (subStatus reg))).isOk with
    | false =>
        rw [if_pos (by decide), okay]
    | true =>
        rw [if_neg (by decide)]
        exact ⟨fun _ => rfl, fun _ => rfl⟩
  · have refused : list.encoding ≠ .json ∧ list.encoding ≠ .jsonIetf := not_or.mp encodable
    rw [if_pos refused]
    exact ⟨fun impossible => absurd impossible Bool.false_ne_true, fun both => absurd both.1 encodable⟩

/-- What a successful build produces. -/
theorem build_of_buildable (found : Nat -> σ) (clock : Nat -> Int) {list : SubscriptionList}
    (buildable : Buildable reg list) :
    buildSubscribeNotifications reg found clock list =
      (Status.OK, (buildFullNotifications (mergedReads reg found list.subscription 0 ∅) reg clock).map
        (withRequestPrefix list.pathPrefix)) := by
  unfold buildSubscribeNotifications
  have okay : (firstError (list.subscription.map (subStatus reg))).isOk = true := by
    rw [firstError_isOk_iff, List.forall_mem_map]
    exact buildable.2
  rw [if_neg buildable.1.not_refused]
  dsimp only
  rw [mergeLoop_status, okay, if_neg (by decide), mergeLoop_merged buildable.2]

/-- A failed build produces nothing. -/
theorem build_of_not_buildable (found : Nat -> σ) (clock : Nat -> Int) {list : SubscriptionList}
    (refused : ¬ Buildable reg list) : (buildSubscribeNotifications reg found clock list).2 = [] := by
  rw [← build_isOk_iff found clock] at refused
  unfold buildSubscribeNotifications at refused ⊢
  split
  · rfl
  · next encodable =>
      rw [if_neg encodable] at refused
      dsimp only at refused ⊢
      split
      · rfl
      · next okay =>
          rw [if_neg okay] at refused
          exact absurd rfl refused

/-! ## The buckets -/

/-- The ON_CHANGE entry of subscription number `i`. -/
def entryOf (reg : DataProviderRegistry σ) (timing : StreamTiming σ) (sub : Subscription) (i : Nat) :
    OnChangeSub where
  sub := sub
  query := gnmiToXpath sub.path
  prev := readOf reg timing.baselineAt sub i
  lastHeartbeat := timing.setupNow i

/-- The ON_CHANGE entries of the subscriptions from number `i` on. -/
def entriesOf (reg : DataProviderRegistry σ) (timing : StreamTiming σ) :
    List Subscription -> Nat -> List OnChangeSub
  | [], _ => []
  | sub :: rest, i =>
      (if resolveStreamMode sub reg = .onChange then [entryOf reg timing sub i] else []) ++
        entriesOf reg timing rest (i + 1)

theorem fillBuckets_onChange (timing : StreamTiming σ) (subs : List Subscription) (i : Nat)
    (buckets : Buckets) :
    (fillBuckets reg timing subs i buckets).onChange =
      buckets.onChange ++ entriesOf reg timing subs i := by
  induction subs generalizing i buckets with
  | nil => exact (List.append_nil _).symm
  | cons sub rest inductionHypothesis =>
      rw [fillBuckets, inductionHypothesis, entriesOf, ← List.append_assoc]
      congr 1
      unfold addToBucket
      cases mode : resolveStreamMode sub reg with
      | onChange => rfl
      | sample => exact (List.append_nil _).symm
      | targetDefined => exact (List.append_nil _).symm
      | unrecognized number => exact (List.append_nil _).symm

theorem fillBuckets_chronomap (timing : StreamTiming σ) (subs : List Subscription) (i : Nat)
    (buckets : Buckets) :
    (fillBuckets reg timing subs i buckets).chronomap.map Prod.fst =
      buckets.chronomap.map Prod.fst ++
        subs.filter (fun sub => decide (resolveStreamMode sub reg = .sample)) := by
  induction subs generalizing i buckets with
  | nil => exact (List.append_nil _).symm
  | cons sub rest inductionHypothesis =>
      rw [fillBuckets, inductionHypothesis, List.filter_cons]
      unfold addToBucket
      cases mode : resolveStreamMode sub reg with
      | sample => simp
      | onChange => simp
      | targetDefined => simp
      | unrecognized number => simp

theorem entriesOf_append (timing : StreamTiming σ) (front rest : List Subscription) (i : Nat) :
    entriesOf reg timing (front ++ rest) i =
      entriesOf reg timing front i ++ entriesOf reg timing rest (i + front.length) := by
  induction front generalizing i with
  | nil => rfl
  | cons sub front inductionHypothesis =>
      rw [List.cons_append, entriesOf, inductionHypothesis, entriesOf, List.append_assoc,
        List.length_cons, Nat.add_assoc, Nat.add_comm 1]

/-- The number of the entry of the subscription that follows `front`. -/
def entryNumber (reg : DataProviderRegistry σ) (timing : StreamTiming σ) (front : List Subscription) : Nat :=
  (entriesOf reg timing front 0).length

/-- Which subscription an entry comes from. -/
theorem entriesOf_source {timing : StreamTiming σ} {subs : List Subscription} {i j : Nat}
    {oc : OnChangeSub} (entry : (entriesOf reg timing subs i)[j]? = some oc) :
    ∃ front sub rest, subs = front ++ sub :: rest ∧ resolveStreamMode sub reg = .onChange ∧
      j = (entriesOf reg timing front i).length ∧ oc = entryOf reg timing sub (i + front.length) := by
  induction subs generalizing i j with
  | nil => cases entry
  | cons sub rest inductionHypothesis =>
      rw [entriesOf] at entry
      by_cases onChange : resolveStreamMode sub reg = .onChange
      · rw [if_pos onChange] at entry
        cases j with
        | zero => exact ⟨[], sub, rest, rfl, onChange, rfl, (Option.some.inj entry).symm⟩
        | succ j =>
            rcases inductionHypothesis entry with ⟨front, source, after, rfl, mode, number, isEntry⟩
            refine ⟨sub :: front, source, after, rfl, mode, ?_, ?_⟩
            · rw [entriesOf, if_pos onChange, List.singleton_append, List.length_cons, number]
            · rw [isEntry, List.length_cons, Nat.add_assoc, Nat.add_comm 1]
      · rw [if_neg onChange, List.nil_append] at entry
        rcases inductionHypothesis entry with ⟨front, source, after, rfl, mode, number, isEntry⟩
        refine ⟨sub :: front, source, after, rfl, mode, ?_, ?_⟩
        · rw [entriesOf, if_neg onChange, List.nil_append, number]
        · rw [isEntry, List.length_cons, Nat.add_assoc, Nat.add_comm 1]

/-! ## The loop -/

/-- The buckets after a pass. -/
def nextBuckets (reg : DataProviderRegistry σ) (buckets : Buckets) (pass : LoopPass σ) : Buckets where
  chronomap := advanceChronomap pass buckets.chronomap
  onChange := buckets.onChange.mapIdx (fun j oc => (pollEntry reg pass j oc).1)

def bucketsAfter (reg : DataProviderRegistry σ) (passes : List (LoopPass σ)) (buckets : Buckets) :
    Buckets :=
  runSteps (nextBuckets reg) buckets passes

/-- What a pass writes up to the polls of the first `polled` entries. -/
def writesUpTo (reg : DataProviderRegistry σ) (list : SubscriptionList) (pass : LoopPass σ)
    (buckets : Buckets) (polled : Nat) : List Sent :=
  writeAll .sample (runSample reg list pass buckets.chronomap).2 ++
    pollWrites reg pass (buckets.onChange.take polled)

/-- What complete passes write. -/
def passWrites (reg : DataProviderRegistry σ) (list : SubscriptionList) :
    List (LoopPass σ) -> Buckets -> List Sent
  | [], _ => []
  | pass :: rest, buckets =>
      writesUpTo reg list pass buckets buckets.onChange.length ++
        passWrites reg list rest (nextBuckets reg buckets pass)

theorem passWrites_append (list : SubscriptionList) (front rest : List (LoopPass σ)) (buckets : Buckets) :
    passWrites reg list (front ++ rest) buckets =
      passWrites reg list front buckets ++ passWrites reg list rest (bucketsAfter reg front buckets) := by
  induction front generalizing buckets with
  | nil => rfl
  | cons pass front inductionHypothesis =>
      rw [List.cons_append, passWrites, inductionHypothesis, passWrites, List.append_assoc]
      rfl

theorem advanceChronomap_subs (pass : LoopPass σ) (chronomap : List (Subscription × Int)) :
    (advanceChronomap pass chronomap).map Prod.fst = chronomap.map Prod.fst := by
  apply List.ext_getElem
  · rw [advanceChronomap, List.length_map, List.length_mapIdx, List.length_map]
  · intro j _ _
    simp only [advanceChronomap, List.getElem_map, List.getElem_mapIdx]
    split <;> rfl

theorem mem_dueSubscriptions {pass : LoopPass σ} {chronomap : List (Subscription × Int)}
    {sub : Subscription} (due : sub ∈ dueSubscriptions pass chronomap) :
    sub ∈ chronomap.map Prod.fst := by
  rw [dueSubscriptions, List.mem_flatten] at due
  rcases due with ⟨block, listed, member⟩
  rcases List.mem_mapIdx.mp listed with ⟨j, inside, rfl⟩
  split at member
  · rw [List.mem_singleton.mp member]
    exact List.mem_map_of_mem (List.getElem_mem inside)
  · cases member

/-- The list of the due subscriptions of a pass. -/
def dueList (list : SubscriptionList) (pass : LoopPass σ) (chronomap : List (Subscription × Int)) :
    SubscriptionList :=
  { list with subscription := dueSubscriptions pass chronomap }

theorem runSample_cases (reg : DataProviderRegistry σ) (list : SubscriptionList) (pass : LoopPass σ)
    (chronomap : List (Subscription × Int)) :
    runSample reg list pass chronomap = (Status.OK, []) ∨
      runSample reg list pass chronomap =
        buildSubscribeNotifications reg pass.sampleAt pass.sampleClock (dueList list pass chronomap) := by
  unfold runSample
  dsimp only
  split
  · exact Or.inl rfl
  · exact Or.inr rfl

/-- A sample of a buildable list succeeds. -/
theorem runSample_isOk {list : SubscriptionList} (encodable : Encodable list.encoding)
    {chronomap : List (Subscription × Int)}
    (okay : ∀ sub ∈ chronomap.map Prod.fst, (subStatus reg sub).isOk = true) (pass : LoopPass σ) :
    (runSample reg list pass chronomap).1.isOk = true := by
  rcases runSample_cases reg list pass chronomap with nothing | built
  · rw [nothing]
    rfl
  · rw [built, build_isOk_iff]
    exact ⟨encodable, fun sub due => okay sub (mem_dueSubscriptions due)⟩

/-- The loop of a buildable list runs through all passes. -/
theorem streamLoop_eq {list : SubscriptionList} (encodable : Encodable list.encoding)
    (passes : List (LoopPass σ)) {buckets : Buckets}
    (okay : ∀ sub ∈ buckets.chronomap.map Prod.fst, (subStatus reg sub).isOk = true) (sent : List Sent) :
    streamLoop reg list passes buckets sent = (Status.OK, sent ++ passWrites reg list passes buckets) := by
  induction passes generalizing buckets sent with
  | nil => rw [streamLoop, passWrites, List.append_nil]
  | cons pass rest inductionHypothesis =>
      unfold streamLoop
      dsimp only
      rw [runSample_isOk encodable okay pass, if_neg (by decide)]
      have later : ∀ sub ∈ (nextBuckets reg buckets pass).chronomap.map Prod.fst,
          (subStatus reg sub).isOk = true := by
        rw [nextBuckets, advanceChronomap_subs]
        exact okay
      rw [passWrites, writesUpTo, List.take_length, ← List.append_assoc, ← List.append_assoc]
      exact inductionHypothesis later _

/-! ## The whole stream -/

/-- The checks a stream with an initial build makes before its first pass. -/
def Accepted (reg : DataProviderRegistry σ) (list : SubscriptionList) : Prop :=
  (∀ sub ∈ list.subscription, sub.sampleInterval.toNat ≤ maxInterval) ∧ Buildable reg list

/-- The buckets before the first pass. -/
def openingBuckets (reg : DataProviderRegistry σ) (timing : StreamTiming σ) (list : SubscriptionList) :
    Buckets :=
  fillBuckets reg timing list.subscription 0 {}

/-- What is written before the first pass: the initial build and the sync response. -/
def openingWrites (reg : DataProviderRegistry σ) (timing : StreamTiming σ) (list : SubscriptionList) :
    List Sent :=
  writeAll .build
    (buildSubscribeNotifications reg timing.initialAt timing.initialClock list).2 ++ syncResponse

/-- What has been written right after the poll of entry `j` in `pass`, which comes after
the passes `front`. -/
def sentAtPoll (reg : DataProviderRegistry σ) (timing : StreamTiming σ) (list : SubscriptionList)
    (front : List (LoopPass σ)) (pass : LoopPass σ) (j : Nat) : List Sent :=
  openingWrites reg timing list ++ passWrites reg list front (openingBuckets reg timing list) ++
    writesUpTo reg list pass (bucketsAfter reg front (openingBuckets reg timing list)) (j + 1)

theorem handleStream_of_accepted {list : SubscriptionList} (timing : StreamTiming σ)
    (accepted : Accepted reg list) (initialEmit : list.updatesOnly = false) :
    handleStream reg timing list =
      (Status.OK, openingWrites reg timing list ++
        passWrites reg list timing.passes (openingBuckets reg timing list)) := by
  unfold handleStream
  have intervals : ¬ (list.subscription.any
      (fun sub => decide (maxInterval < sub.sampleInterval.toNat))) = true := by
    rw [List.any_eq_true]
    rintro ⟨sub, member, tooLong⟩
    exact absurd (accepted.1 sub member) (Nat.not_le_of_lt (of_decide_eq_true tooLong))
  have built := (build_isOk_iff timing.initialAt timing.initialClock list).mpr accepted.2
  rw [if_neg intervals, initialEmit, if_neg Bool.false_ne_true]
  dsimp only
  rw [built, if_neg (by decide), openingWrites]
  apply streamLoop_eq accepted.2.1
  intro sub sampled
  rw [fillBuckets_chronomap] at sampled
  exact accepted.2.2 sub (List.mem_of_mem_filter sampled)

/-- A stream that is not accepted writes nothing. -/
theorem handleStream_of_not_accepted {list : SubscriptionList} (timing : StreamTiming σ)
    (refused : ¬ Accepted reg list) (initialEmit : list.updatesOnly = false) :
    (handleStream reg timing list).2 = [] := by
  unfold handleStream
  split
  · rfl
  · next intervals =>
      have short : ∀ sub ∈ list.subscription, sub.sampleInterval.toNat ≤ maxInterval := by
        intro sub member
        by_contra tooLong
        exact intervals (List.any_eq_true.mpr ⟨sub, member, decide_eq_true (Nat.lt_of_not_le tooLong)⟩)
      have notBuilt : ¬ (buildSubscribeNotifications reg timing.initialAt timing.initialClock
          list).1.isOk = true := by
        rw [build_isOk_iff]
        exact fun buildable => refused ⟨short, buildable⟩
      rw [initialEmit, if_neg Bool.false_ne_true]
      dsimp only
      rw [if_pos (by simpa using notBuilt)]

theorem pollWrites_take (pass : LoopPass σ) (entries : List OnChangeSub) (polled : Nat) :
    pollWrites reg pass (entries.take polled) <+: pollWrites reg pass entries := by
  have split := List.take_append_drop polled entries
  rw [pollWrites, pollWrites]
  nth_rewrite 2 [← split]
  rw [List.mapIdx_append, List.flatten_append]
  exact List.prefix_append _ _

/-- The moments right after polls are moments of the stream. -/
theorem sentAtPoll_front {list : SubscriptionList} {timing : StreamTiming σ}
    (accepted : Accepted reg list) (initialEmit : list.updatesOnly = false)
    {front : List (LoopPass σ)} {pass : LoopPass σ} (isFront : front ++ [pass] <+: timing.passes) (j : Nat) :
    sentAtPoll reg timing list front pass j <+: (handleStream reg timing list).2 := by
  rcases isFront with ⟨rest, passes⟩
  rw [handleStream_of_accepted timing accepted initialEmit, ← passes, List.append_assoc front,
    passWrites_append, ← List.append_assoc, sentAtPoll]
  apply (List.prefix_append_right_inj _).mpr
  rw [List.singleton_append, passWrites, writesUpTo, writesUpTo, List.take_length, List.append_assoc]
  apply (List.prefix_append_right_inj _).mpr
  exact (pollWrites_take pass _ (j + 1)).trans (List.prefix_append _ _)

/-! ## Where a response comes from -/

theorem mem_writeAll {site : Site} {notes : List Notification} {sent : Sent}
    (written : sent ∈ writeAll site notes) : ∃ n ∈ notes, sent = ⟨site, .update n⟩ := by
  rcases List.mem_map.mp written with ⟨n, listed, rfl⟩
  exact ⟨n, listed, rfl⟩

theorem mem_pollWrites {pass : LoopPass σ} {entries : List OnChangeSub} {sent : Sent}
    (written : sent ∈ pollWrites reg pass entries) :
    ∃ j oc, entries[j]? = some oc ∧ ∃ n ∈ (pollEntry reg pass j oc).2, sent = ⟨.onChange j, .update n⟩ := by
  rcases List.mem_flatten.mp written with ⟨block, listed, member⟩
  rcases List.mem_mapIdx.mp listed with ⟨j, inside, rfl⟩
  rcases mem_writeAll member with ⟨n, polled, rfl⟩
  exact ⟨j, entries[j], List.getElem?_eq_getElem inside, n, polled, rfl⟩

/-- What the loop writes, it writes in one of its passes. -/
theorem mem_streamLoop {list : SubscriptionList} {passes : List (LoopPass σ)} {buckets : Buckets}
    {before : List Sent} {sent : Sent} (written : sent ∈ (streamLoop reg list passes buckets before).2) :
    sent ∈ before ∨ ∃ front pass, front ++ [pass] <+: passes ∧
      (sent ∈ writeAll .sample (runSample reg list pass (bucketsAfter reg front buckets).chronomap).2 ∨
        sent ∈ pollWrites reg pass (bucketsAfter reg front buckets).onChange) := by
  induction passes generalizing buckets before with
  | nil => exact Or.inl written
  | cons pass rest inductionHypothesis =>
      unfold streamLoop at written
      dsimp only at written
      split at written
      · exact Or.inl written
      · rcases inductionHypothesis written with earlier | ⟨front, later, isFront, found⟩
        · rcases List.mem_append.mp earlier with earlier | polled
          · rcases List.mem_append.mp earlier with earlier | sampled
            · exact Or.inl earlier
            · exact Or.inr ⟨[], pass, List.prefix_append [pass] rest, Or.inl sampled⟩
          · exact Or.inr ⟨[], pass, List.prefix_append [pass] rest, Or.inr polled⟩
        · exact Or.inr ⟨pass :: front, later, List.cons_prefix_cons.mpr ⟨rfl, isFront⟩, found⟩

theorem mem_handleStream {timing : StreamTiming σ} {list : SubscriptionList} {sent : Sent}
    (written : sent ∈ (handleStream reg timing list).2) :
    sent ∈ openingWrites reg timing list ∨ ∃ front pass, front ++ [pass] <+: timing.passes ∧
      (sent ∈ writeAll .sample (runSample reg list pass
          (bucketsAfter reg front (openingBuckets reg timing list)).chronomap).2 ∨
        sent ∈ pollWrites reg pass (bucketsAfter reg front (openingBuckets reg timing list)).onChange) := by
  unfold handleStream at written
  split at written
  · cases written
  · cases updatesOnly : list.updatesOnly with
    | false =>
        rw [updatesOnly, if_neg Bool.false_ne_true] at written
        dsimp only at written
        split at written
        · cases written
        · exact mem_streamLoop written
    | true =>
        rw [updatesOnly, if_pos rfl] at written
        rcases mem_streamLoop written with sync | later
        · exact Or.inl (List.mem_append_right _ sync)
        · exact Or.inr later

/-- The state that the entry's `prev` shows before a pass that comes after `front`. -/
def stateBefore (timing : StreamTiming σ) (i j : Nat) (front : List (LoopPass σ)) : σ :=
  match front.getLast? with
  | none => timing.baselineAt i
  | some last => last.pollAt j

theorem stateBefore_snoc (timing : StreamTiming σ) (i j : Nat) (front : List (LoopPass σ))
    (last : LoopPass σ) : stateBefore timing i j (front ++ [last]) = last.pollAt j := by
  rw [stateBefore, List.getLast?_concat]

/-- The SAMPLE bucket only ever has subscriptions of the list. -/
theorem chronomap_subs {timing : StreamTiming σ} {list : SubscriptionList} (front : List (LoopPass σ))
    {sub : Subscription}
    (sampled : sub ∈ (bucketsAfter reg front (openingBuckets reg timing list)).chronomap.map Prod.fst) :
    sub ∈ list.subscription := by
  induction front using List.reverseRecOn with
  | nil =>
      rw [bucketsAfter, runSteps, List.foldl_nil, openingBuckets, fillBuckets_chronomap] at sampled
      exact List.mem_of_mem_filter sampled
  | append_singleton front last inductionHypothesis =>
      rw [bucketsAfter, runSteps_snoc, nextBuckets, advanceChronomap_subs] at sampled
      exact inductionHypothesis sampled

end Subscribe

end Gnmi
end PscMockServer
