import PscMockServer.Foundations.Runs
import PscMockServer.Server.SetTransaction
import PscMockServer.Telemetry.ReportedEvents

namespace PscMockServer
namespace Telemetry

open Foundations Gnmi Utils Backend Gnmi.Subscribe

/-!
# Timestamps over a whole ON_CHANGE subscription

A Set reads the clock once, before its validation, and commits later with that time.
Between the two, other Sets read and commit and the subscription is polled.  A poll
looks at the store once and then builds its notifications, each with a clock reading of
its own.  Sets may read the clock between these readings; a Set that commits meanwhile
counts as committing after the poll.

Two things bring an old time into a notification: a removal keeps no time, so it is dated
by the leaves that happen to be carried beside it; and a Set that commits late writes a
time from before the last report.
-/

/-- The server and one ON_CHANGE entry.  `reads` are the clock readings of the Sets in
flight.  The other fields are a record for the specification: what the client was sent,
the polls so far, the latest clock reading of anyone, and the time of the last Set that
changed a leaf of the query. -/
structure Watch where
  stores : Server.Stores
  reads : Nat -> Option Int
  entry : OnChangeSub
  sent : List Notification
  polls : List Polled
  clock : Int
  changedAt : Str -> Option Int

/-- What can happen: a Set reads the clock, it commits, or the entry is polled.  `clock i`
is the reading that notification number `i` of the poll can use, and `during` are the Sets
that read the clock while the notifications are built. -/
inductive Moment where
  | setReads (id : Nat) (now : Int)
  | setCommits (id : Nat) (request : SetRequest)
  | poll (now : Int) (clock : Nat -> Int) (during : List (Nat × Int)) (finished : Int)

namespace Watch

/-- The leaves the subscription sees. -/
def leaves (w : Watch) : Snapshot :=
  (Server.registry.snapshot w.stores w.entry.query).snap

/-- The subscription is set up at `now`, with some Sets in flight. -/
def begin (stores : Server.Stores) (sub : Subscription) (reads : Nat -> Option Int) (now : Int) : Watch :=
  let baseline := (Server.registry.snapshot stores (gnmiToXpath sub.path)).snap
  { stores := stores
    reads := reads
    entry := { sub := sub, query := gnmiToXpath sub.path, prev := baseline, lastHeartbeat := now }
    sent := []
    polls := []
    clock := now
    changedAt := fun key => (baseline[key]?).map Leaf.collectedNs }

/-- A Set commits with the time it read.  What its validation says does not depend on the
moment (`Invariant.checks_steady`), so it stands here with the commit. -/
def commit (w : Watch) (id : Nat) (request : SetRequest) (now : Int) : Watch :=
  let after := { w with
    stores := (Gnmi.Set.run Server.registry w.stores now request).1
    reads := Function.update w.reads id none }
  { after with
    changedAt := fun key => if after.leaves[key]? = w.leaves[key]? then w.changedAt key else some now }

/-- The notifications of a poll. -/
def answer (w : Watch) (now : Int) (clock : Nat -> Int) : List Notification :=
  (w.entry.poll Server.registry w.leaves now clock).2

/-- The Sets in flight once these have read the clock too. -/
def readAll (reads : Nat -> Option Int) (during : List (Nat × Int)) : Nat -> Option Int :=
  during.foldl (fun reads read => Function.update reads read.1 (some read.2)) reads

def step (w : Watch) : Moment -> Watch
  | .setReads id now => { w with reads := Function.update w.reads id (some now), clock := now }
  | .setCommits id request =>
      match w.reads id with
      | some now => w.commit id request now
      | none => w
  | .poll now clock during finished =>
      { w with
        reads := readAll w.reads during
        entry := (w.entry.poll Server.registry w.leaves now clock).1
        sent := w.sent ++ w.answer now clock
        polls := w.polls ++ [{ prev := w.entry.prev, cur := w.leaves, clock := clock }]
        clock := finished }

theorem setReads_reads (w : Watch) (id other : Nat) (now : Int) :
    (w.step (.setReads id now)).reads other = if other = id then some now else w.reads other :=
  Function.update_apply w.reads id (some now) other

/-- A clock reading at hand after these was at hand before, or is one of them. -/
theorem readAll_cases {reads : Nat -> Option Int} {during : List (Nat × Int)} {id : Nat} {now : Int}
    (read : readAll reads during id = some now) : reads id = some now ∨ (id, now) ∈ during := by
  induction during generalizing reads with
  | nil => exact Or.inl read
  | cons first rest inductionHypothesis =>
      rcases inductionHypothesis read with before | later
      · dsimp only at before
        rw [Function.update_apply] at before
        split at before
        · next isFirst =>
            have same : first = (id, now) := Prod.ext isFirst.symm (Option.some.inj before)
            exact Or.inr (List.mem_cons.mpr (Or.inl same.symm))
        · exact Or.inl before
      · exact Or.inr (List.mem_cons_of_mem first later)

theorem commit_reads (w : Watch) (id other : Nat) (request : SetRequest) (now : Int) :
    (w.commit id request now).reads other = if other = id then none else w.reads other :=
  Function.update_apply w.reads id none other

theorem commit_changedAt (w : Watch) (id : Nat) (request : SetRequest) (now : Int) (key : Str) :
    (w.commit id request now).changedAt key =
      if (w.commit id request now).leaves[key]? = w.leaves[key]? then w.changedAt key else some now := rfl

/-- Clock readings never decrease. -/
def Ordered (w : Watch) : Moment -> Prop
  | .setReads _ now => w.clock ≤ now
  | .setCommits _ _ => True
  | .poll _ clock during finished => (∀ i, w.clock ≤ clock i ∧ clock i ≤ finished) ∧
      ∀ read ∈ during, w.clock ≤ read.2 ∧ read.2 ≤ finished

/-- Each leaf that changed is reported beside a leaf as new as anything the earlier polls
told about it or its container. -/
def ReportsCovered (w : Watch) : Prop :=
  ∀ key, Differs w.entry.prev w.leaves key -> ∀ p ∈ w.polls, ∀ t, p.Told Server.registry key t ->
    CarriesSince Server.registry w.entry.prev w.leaves key t

/-- What a poll carries covers the removals and the earlier reports. -/
def InTime (w : Watch) : Moment -> Prop
  | .setReads _ _ => True
  | .setCommits _ _ => True
  | .poll _ _ _ _ => RemovalsCovered Server.registry w.entry.prev w.leaves w.changedAt ∧ w.ReportsCovered

/-- No notification of the poll is older than the Set whose effect it reports. -/
def NoneOlder (w : Watch) (now : Int) (clock : Nat -> Int) : Prop :=
  ∀ n ∈ w.answer now clock, ∀ key t, ReportsEvent Server.registry w.entry.prev w.leaves n key ->
    w.changedAt key = some t -> t ≤ n.timestamp

/-- Notifications about one leaf or one container are sent in the order of their times. -/
def NeverBack (w : Watch) : Prop :=
  w.sent.Pairwise (fun earlier later => SameSubject earlier later -> earlier.timestamp ≤ later.timestamp)

/-! ## The invariant -/

/-- What every step keeps.  Each notification comes from one of the polls, and no poll told
of a time that is yet to come. -/
structure Sound (w : Watch) : Prop where
  invariant : Server.Invariant w.stores
  noHeartbeat : w.entry.sub.heartbeatInterval = 0
  canonicalPrev : CanonicalKeys w.entry.prev
  readsBehind : ∀ id now, w.reads id = some now -> now ≤ w.clock
  times : TimesKnown w.leaves w.changedAt w.clock
  canonicalPolls : ∀ p ∈ w.polls, CanonicalKeys p.prev ∧ CanonicalKeys p.cur
  toldBehind : ∀ p ∈ w.polls, ∀ key t, p.Told Server.registry key t -> t ≤ w.clock
  sources : ∀ n ∈ w.sent, ∃ p ∈ w.polls, ∃ i : Nat, (p.notes Server.registry)[i]? = some n
  neverBack : w.NeverBack

theorem Sound.canonical {w : Watch} (sound : w.Sound) : CanonicalKeys w.leaves :=
  (Server.registry_serves.drawn sound.invariant w.entry.query).canonical

/-- Without heartbeats a poll sends the changes. -/
theorem poll_eq {w : Watch} (noHeartbeat : w.entry.sub.heartbeatInterval = 0) (now : Int)
    (clock : Nat -> Int) :
    w.entry.poll Server.registry w.leaves now clock =
      ({ w.entry with prev := w.leaves },
        buildChangeNotifications w.entry.prev w.leaves Server.registry clock) := by
  unfold OnChangeSub.poll heartbeatDue
  rw [noHeartbeat]
  rfl

/-- A leaf after a Set is an old one or has the time of the Set. -/
theorem set_stamps {s : Server.Stores} (inv : Server.Invariant s) (request : SetRequest) (now : Int)
    {key : Str} {leaf : Leaf}
    (stored : Server.storedLeaf (Gnmi.Set.run Server.registry s now request).1 key = some leaf) :
    Server.storedLeaf s key = some leaf ∨ leaf.collectedNs = now := by
  rcases Server.set_cases inv request now with ⟨_, unchanged, _⟩ | ⟨_, acceptable, done⟩
  · rw [unchanged] at stored
    exact Or.inl stored
  · rw [done, Server.storedLeaf, Server.commitStamped_applyInOrder inv acceptable now,
      Server.applyInOrder_find, Server.leafAfter, Option.or_eq_some_iff] at stored
    rw [Server.storedLeaf, Option.or_eq_some_iff]
    rcases stored with inSensor | ⟨noSensor, inConfig⟩
    · exact Or.inl (Or.inl inSensor)
    · rcases OrdMap.lastOf_cases _ _ _ key _ with kept | ⟨upd, _, _, written⟩
      · rw [kept] at inConfig
        split at inConfig
        · cases inConfig
        · exact Or.inl (Or.inr ⟨noSensor, inConfig⟩)
      · rw [written] at inConfig
        exact Or.inr (congrArg Leaf.collectedNs (Option.some.inj inConfig)).symm

/-! ## The steps -/

section Steps

variable {w : Watch} (sound : w.Sound)

include sound in
theorem Sound.setReads {id : Nat} {now : Int} (later : w.clock ≤ now) :
    (w.step (.setReads id now)).Sound where
  invariant := sound.invariant
  noHeartbeat := sound.noHeartbeat
  canonicalPrev := sound.canonicalPrev
  readsBehind := by
    intro other t read
    rw [setReads_reads] at read
    split at read
    · exact (Option.some.inj read).ge
    · exact (sound.readsBehind other t read).trans later
  times := sound.times.mono later
  canonicalPolls := sound.canonicalPolls
  toldBehind := fun p polled key t told => (sound.toldBehind p polled key t told).trans later
  sources := sound.sources
  neverBack := sound.neverBack

include sound in
/-- A leaf after the commit is an old one or has the time of the Set. -/
theorem Sound.commit_leaves (id : Nat) (request : SetRequest) (now : Int) {key : Str} {leaf : Leaf}
    (stored : (w.commit id request now).leaves[key]? = some leaf) :
    w.leaves[key]? = some leaf ∨ leaf.collectedNs = now := by
  have serves := Server.registry_serves
  have after := (serves.snapshot_iff (sound.invariant.set request now) w.entry.query key leaf).mp stored
  rcases set_stamps sound.invariant request now after.2 with old | written
  · exact Or.inl ((serves.snapshot_iff sound.invariant w.entry.query key leaf).mpr ⟨after.1, old⟩)
  · exact Or.inr written

include sound in
theorem Sound.commit {id : Nat} (request : SetRequest) {now : Int} (read : w.reads id = some now) :
    (w.commit id request now).Sound where
  invariant := sound.invariant.set request now
  noHeartbeat := sound.noHeartbeat
  canonicalPrev := sound.canonicalPrev
  readsBehind := by
    intro other t otherRead
    rw [commit_reads] at otherRead
    split at otherRead
    · cases otherRead
    · exact sound.readsBehind other t otherRead
  times := by
    have canonicalAfter : CanonicalKeys (w.commit id request now).leaves :=
      (Server.registry_serves.drawn (sound.invariant.set request now) w.entry.query).canonical
    constructor
    · intro key leaf stored
      rw [commit_changedAt]
      split
      · next kept => exact sound.times.stored key leaf (kept.symm.trans stored)
      · next changed =>
          rcases sound.commit_leaves id request now stored with old | written
          · exact absurd (stored.trans old.symm) changed
          · rw [written]
    · intro key t known
      rw [commit_changedAt] at known
      split at known
      · exact sound.times.behind key t known
      · rw [← Option.some.inj known]
        exact sound.readsBehind id now read
    · intro key t known
      rw [commit_changedAt] at known
      split at known
      · exact sound.times.canonical key t known
      · next changed =>
          cases before : w.leaves[key]? with
          | some leaf => exact sound.canonical key leaf before
          | none =>
              rw [before] at changed
              rcases Option.ne_none_iff_exists'.mp changed with ⟨leaf, after⟩
              exact canonicalAfter key leaf after
  canonicalPolls := sound.canonicalPolls
  toldBehind := sound.toldBehind
  sources := sound.sources
  neverBack := sound.neverBack

include sound in
theorem Sound.noneOlder {now : Int} {clock : Nat -> Int} (ahead : ∀ i, w.clock ≤ clock i)
    (covered : RemovalsCovered Server.registry w.entry.prev w.leaves w.changedAt) : w.NoneOlder now clock := by
  intro n member key t event changed
  have law := Server.registry_atomicLaw
  rw [answer, poll_eq sound.noHeartbeat] at member
  rcases changeNote_of_mem sound.canonicalPrev sound.canonical member with ⟨i, note⟩
  exact note.covers sound.canonicalPrev sound.canonical law sound.times covered (ahead i) changed event

include sound in
/-- With positive times nothing less than covered removals will do. -/
theorem Sound.noneOlder_iff {now : Int} {clock : Nat -> Int} (ahead : ∀ i, w.clock ≤ clock i)
    (positive : ∀ (key : Str) (leaf : Leaf), w.leaves[key]? = some leaf -> 0 < leaf.collectedNs) :
    w.NoneOlder now clock ↔ RemovalsCovered Server.registry w.entry.prev w.leaves w.changedAt := by
  refine ⟨fun noneOlder key t removed changed accompanied => ?_, sound.noneOlder ahead⟩
  rcases accompanied with ⟨other, leaf, carried⟩
  have law := Server.registry_atomicLaw
  have canonical := sound.times.canonical key t changed
  rcases exists_reportsRemoval sound.canonicalPrev sound.canonical clock removed with ⟨n, member, event⟩
  rcases changeNote_of_mem sound.canonicalPrev sound.canonical member with ⟨i, note⟩
  have concerns := (event.cases sound.canonicalPrev sound.canonical law note canonical).1
  have stamped := note.stamped sound.canonicalPrev sound.canonical law canonical concerns
  rcases stamped.attained other leaf carried (positive other leaf carried.2.1) with
    ⟨newest, newestLeaf, newestCarried, stamp⟩
  have answered : n ∈ w.answer now clock := by
    rw [answer, poll_eq sound.noHeartbeat]
    exact member
  have notOlder := noneOlder n answered key t event changed
  rw [stamp] at notOlder
  exact ⟨newest, newestLeaf, newestCarried, notOlder⟩

include sound in
/-- What the poll sends is no older than what was sent before. -/
theorem Sound.later {now : Int} {clock : Nat -> Int} (ahead : ∀ i, w.clock ≤ clock i)
    (covered : w.ReportsCovered) {earlier n : Notification} (sent : earlier ∈ w.sent)
    (member : n ∈ w.answer now clock) (same : SameSubject earlier n) :
    earlier.timestamp ≤ n.timestamp := by
  have law := Server.registry_atomicLaw
  rw [answer, poll_eq sound.noHeartbeat] at member
  rcases changeNote_of_mem sound.canonicalPrev sound.canonical member with ⟨i, note⟩
  rcases sound.sources earlier sent with ⟨p, polled, j, isNote⟩
  have canonicalPoll := sound.canonicalPolls p polled
  have earlierNote := changeNote_of_getElem canonicalPoll.1 canonicalPoll.2 isNote
  have located := earlierNote.located canonicalPoll.1 canonicalPoll.2 law
  rcases note.shared sound.canonicalPrev sound.canonical law located same with
    ⟨key, differs, earlierConcerns, concerns⟩
  have canonical := differs.canonical sound.canonicalPrev sound.canonical
  have told := Polled.told_stamp law canonicalPoll.1 canonicalPoll.2 isNote canonical earlierConcerns
  exact note.since sound.canonicalPrev sound.canonical law sound.times (ahead i) canonical concerns
    (sound.toldBehind p polled key _ told) (covered key differs p polled _ told)

include sound in
theorem Sound.poll {now : Int} {clock : Nat -> Int} {during : List (Nat × Int)} {finished : Int}
    (ordered : w.Ordered (.poll now clock during finished))
    (inTime : w.InTime (.poll now clock during finished)) :
    (w.step (.poll now clock during finished)).Sound := by
  have ahead : ∀ i, w.clock ≤ clock i := fun i => (ordered.1 i).1
  have later : w.clock ≤ finished := (ordered.1 0).1.trans (ordered.1 0).2
  have entry : (w.step (.poll now clock during finished)).entry = { w.entry with prev := w.leaves } := by
    rw [step, poll_eq sound.noHeartbeat]
  have leaves : (w.step (.poll now clock during finished)).leaves = w.leaves := by
    rw [Watch.leaves, entry]
    rfl
  have answered : w.answer now clock =
      buildChangeNotifications w.entry.prev w.leaves Server.registry clock := by
    rw [answer, poll_eq sound.noHeartbeat]
  constructor
  · exact sound.invariant
  · rw [entry]
    exact sound.noHeartbeat
  · rw [entry]
    exact sound.canonical
  · intro id t read
    rcases readAll_cases read with before | meanwhile
    · exact (sound.readsBehind id t before).trans later
    · exact (ordered.2 (id, t) meanwhile).2
  · rw [leaves]
    exact sound.times.mono later
  · intro p member
    rcases List.mem_append.mp member with early | new
    · exact sound.canonicalPolls p early
    · rw [List.mem_singleton.mp new]
      exact ⟨sound.canonicalPrev, sound.canonical⟩
  · intro p member key t told
    rcases List.mem_append.mp member with early | new
    · exact (sound.toldBehind p early key t told).trans later
    · rw [List.mem_singleton.mp new] at told
      cases told with
      | carried _ beside =>
          have known := sound.times.stored _ _ beside.2.1
          exact (sound.times.behind _ _ known).trans later
      | alone _ _ _ => exact (ordered.1 _).2
  · intro n member
    rcases List.mem_append.mp member with early | new
    · rcases sound.sources n early with ⟨p, polled, source⟩
      exact ⟨p, List.mem_append_left _ polled, source⟩
    · rw [answered] at new
      exact ⟨_, List.mem_append_right _ List.mem_cons_self, List.getElem?_of_mem new⟩
  · apply List.pairwise_append.mpr
    refine ⟨sound.neverBack, ?_, ?_⟩
    · rw [answered]
      apply List.Pairwise.imp _
        (subjects_apart sound.canonicalPrev sound.canonical Server.registry_atomicLaw clock)
      exact fun apart same => absurd same apart
    · intro earlier sent n member same
      exact sound.later ahead inTime.2 sent member same

end Steps

/-- Every step that is in order and in time keeps the invariant. -/
theorem Sound.step {w : Watch} (sound : w.Sound) {moment : Moment} (ordered : w.Ordered moment)
    (inTime : w.InTime moment) : (w.step moment).Sound := by
  cases moment with
  | setReads id now => exact sound.setReads ordered
  | setCommits id request =>
      cases read : w.reads id with
      | none =>
          have nothing : w.step (.setCommits id request) = w := by rw [Watch.step, read]
          rw [nothing]
          exact sound
      | some now =>
          have commits : w.step (.setCommits id request) = w.commit id request now := by
            rw [Watch.step, read]
          rw [commits]
          exact sound.commit request read
  | poll now clock during finished => exact sound.poll ordered inTime

/-! ## Whole runs -/

/-- Every time at hand was read before the subscription was set up. -/
structure Behind (w : Watch) : Prop where
  leaves : ∀ (key : Str) (leaf : Leaf), w.leaves[key]? = some leaf -> leaf.collectedNs ≤ w.clock
  reads : ∀ id now, w.reads id = some now -> now ≤ w.clock

theorem begin_sound {stores : Server.Stores} (inv : Server.Invariant stores) {sub : Subscription}
    (noHeartbeat : sub.heartbeatInterval = 0) {reads : Nat -> Option Int} {now : Int}
    (behind : (begin stores sub reads now).Behind) : (begin stores sub reads now).Sound where
  invariant := inv
  noHeartbeat := noHeartbeat
  canonicalPrev := (Server.registry_serves.drawn inv (gnmiToXpath sub.path)).canonical
  readsBehind := behind.reads
  times := by
    constructor
    · exact fun key leaf stored => congrArg (Option.map Leaf.collectedNs) stored
    · intro key t changed
      rcases Option.map_eq_some_iff.mp changed with ⟨leaf, stored, rfl⟩
      exact behind.leaves key leaf stored
    · intro key t changed
      rcases Option.map_eq_some_iff.mp changed with ⟨leaf, stored, _⟩
      exact (Server.registry_serves.drawn inv (gnmiToXpath sub.path)).canonical key leaf stored
  canonicalPolls := fun p member => absurd member List.not_mem_nil
  toldBehind := fun p member => absurd member List.not_mem_nil
  sources := fun n member => absurd member List.not_mem_nil
  neverBack := List.Pairwise.nil

/-- In every run whose clock never goes back and whose steps are in time, no notification
is older than what it reports, and none goes back behind an earlier one about the same
leaf or container. -/
theorem timestamps_follow_events {stores : Server.Stores} (reachable : Server.Reachable stores)
    {sub : Subscription} (noHeartbeat : sub.heartbeatInterval = 0) {reads : Nat -> Option Int} {now : Int}
    (behind : (begin stores sub reads now).Behind) {moments : List Moment}
    (ordered : SafeThroughout step Ordered (begin stores sub reads now) moments)
    (inTime : SafeThroughout step InTime (begin stores sub reads now) moments) :
    (∀ front pollNow clock during finished, front ++ [.poll pollNow clock during finished] <+: moments ->
        (runSteps step (begin stores sub reads now) front).NoneOlder pollNow clock) ∧
      ∀ front, front <+: moments -> (runSteps step (begin stores sub reads now) front).NeverBack := by
  have both : SafeThroughout step (fun w moment => w.Ordered moment ∧ w.InTime moment)
      (begin stores sub reads now) moments :=
    fun front moment isFront => ⟨ordered front moment isFront, inTime front moment isFront⟩
  have sound : ∀ front, front <+: moments ->
      (runSteps step (begin stores sub reads now) front).Sound :=
    invariant_throughout step Sound _ moments (fun _ _ _ sound safe => sound.step safe.1 safe.2)
      (begin_sound reachable.invariant noHeartbeat behind) both
  constructor
  · intro front pollNow clock during finished isFront
    have before := sound front ((List.prefix_append front _).trans isFront)
    have readings := ordered front _ isFront
    exact before.noneOlder (fun i => (readings.1 i).1) (inTime front _ isFront).1
  · exact fun front isFront => (sound front isFront).neverBack

/-! ## A deletion and a rename, in both orders -/

def systemSub : Subscription where
  path := { elem := [⟨"system".toList, .empty⟩] }
  mode := .onChange

/-- A subscription to `/system`, set up at time 2. -/
def systemWatch : Watch :=
  begin beforeRename systemSub (fun _ => none) 2

def motdPath : Path where
  elem := [⟨"system".toList, .empty⟩, ⟨"config".toList, .empty⟩, ⟨"motd-banner".toList, .empty⟩]

def deleteMotd : SetRequest where
  delete := [motdPath]

/-- Two Sets, at times 3 and 4. -/
def twoSets (first second : SetRequest) : List Moment :=
  [.setReads 0 3, .setCommits 0 first, .setReads 1 4, .setCommits 1 second]

def onePoll : Moment :=
  .poll 5 (fun _ => 5) [] 5

theorem twoSets_ordered (first second : SetRequest) :
    SafeThroughout step Ordered systemWatch (twoSets first second ++ [onePoll]) := by
  change SafeThroughout step Ordered systemWatch
    [.setReads 0 3, .setCommits 0 first, .setReads 1 4, .setCommits 1 second, onePoll]
  have between : (2 : Int) ≤ 3 ∧ (3 : Int) ≤ 4 ∧ (4 : Int) ≤ 5 := by decide
  refine safeThroughout_cons between.1 ?_
  refine safeThroughout_cons True.intro ?_
  refine safeThroughout_cons between.2.1 ?_
  refine safeThroughout_cons True.intro ?_
  exact safeThroughout_cons ⟨fun _ => ⟨between.2.2, le_refl 5⟩, fun _ none_ => nomatch none_⟩
    (safeThroughout_nil step Ordered _)

theorem systemWatch_behind : systemWatch.Behind where
  leaves := by
    intro key leaf stored
    have times : ∀ entry ∈ systemWatch.leaves.toList, entry.2.collectedNs ≤ 2 := by decide +kernel
    exact times (key, leaf) (OrdMap.mem_toList_of_find stored)
  reads := fun _ _ impossible => absurd impossible.symm (Option.some_ne_none _)

/-- Deleted at 3 and renamed at 4. -/
def renamedLast : Watch :=
  runSteps step systemWatch (twoSets deleteMotd renameHost)

/-- The renamed leaf is newer than the removal. -/
theorem renamedLast_covered :
    RemovalsCovered Server.registry renamedLast.entry.prev renamedLast.leaves renamedLast.changedAt := by
  intro key t removed changed _
  have onlyMotd : ∀ entry ∈ renamedLast.entry.prev.toList, renamedLast.leaves[entry.1]? = none ->
      entry.1 = "/system/config/motd-banner".toList := by decide +kernel
  have deletedAt : renamedLast.changedAt "/system/config/motd-banner".toList = some 3 := by decide +kernel
  have renamed : CarriedWith Server.registry renamedLast.entry.prev renamedLast.leaves
      "/system/config/motd-banner".toList "/system/config/hostname".toList
      { val := .stringVal "psc-2".toList, collectedNs := 4, type := .config } := by
    unfold CarriedWith
    decide +kernel
  rcases removed with ⟨⟨leaf, before⟩, after⟩
  have isMotd := onlyMotd (key, leaf) (OrdMap.mem_toList_of_find before) after
  dsimp only at isMotd
  rw [isMotd, deletedAt] at changed
  rw [isMotd, ← Option.some.inj changed]
  exact ⟨_, _, renamed, by decide⟩

theorem timestamps_follow_events_renameLast :
    renamedLast.NoneOlder 5 (fun _ => 5) ∧
      (runSteps step systemWatch (twoSets deleteMotd renameHost ++ [onePoll])).NeverBack := by
  have reachable : Server.Reachable beforeRename := ⟨1, 2, [], rfl⟩
  have inTime : SafeThroughout step InTime systemWatch (twoSets deleteMotd renameHost ++ [onePoll]) := by
    change SafeThroughout step InTime systemWatch
      [.setReads 0 3, .setCommits 0 deleteMotd, .setReads 1 4, .setCommits 1 renameHost, onePoll]
    refine safeThroughout_cons True.intro ?_
    refine safeThroughout_cons True.intro ?_
    refine safeThroughout_cons True.intro ?_
    refine safeThroughout_cons True.intro ?_
    refine safeThroughout_cons ⟨renamedLast_covered, ?_⟩ (safeThroughout_nil step InTime _)
    exact fun key differs p polled => absurd polled List.not_mem_nil
  have follow := timestamps_follow_events reachable rfl systemWatch_behind
    (twoSets_ordered deleteMotd renameHost) inTime
  exact ⟨follow.1 _ 5 _ [] 5 (List.prefix_refl _), follow.2 _ (List.prefix_refl _)⟩

def renameAgain : SetRequest where
  update := [{ path := some Server.hostnamePath, val := some (.stringVal "psc-3".toList) }]

/-- Two renames commit in the wrong order, with a poll after each. -/
def lateRename : List Moment :=
  [.setReads 0 3, .setReads 1 4, .setCommits 1 renameHost, onePoll, .setCommits 0 renameAgain, onePoll]

/-- Renamed at 3 and deleted at 4: the one notification of the poll is stamped 3.  And a
rename that commits late is reported with a time before the one already sent. -/
theorem timestamps_antedated :
    (SafeThroughout step Ordered systemWatch (twoSets renameHost deleteMotd ++ [onePoll]) ∧
        ¬ (runSteps step systemWatch (twoSets renameHost deleteMotd)).NoneOlder 5 (fun _ => 5)) ∧
      SafeThroughout step Ordered systemWatch lateRename ∧
        ¬ (runSteps step systemWatch lateRename).NeverBack := by
  refine ⟨⟨twoSets_ordered renameHost deleteMotd, fun noneOlder => ?_⟩, ?_, fun neverBack => ?_⟩
  · have sends : ∃ n ∈ (runSteps step systemWatch (twoSets renameHost deleteMotd)).answer 5 (fun _ => 5),
        pathOf "/system/config/motd-banner".toList ∈ deletesOf n ∧ n.timestamp = 3 := by decide +kernel
    have deletedAt : (runSteps step systemWatch (twoSets renameHost deleteMotd)).changedAt
        "/system/config/motd-banner".toList = some 4 := by decide +kernel
    rcases sends with ⟨n, member, deleted, stamp⟩
    have notOlder := noneOlder n member _ 4 (.deleted deleted) deletedAt
    rw [stamp] at notOlder
    exact absurd notOlder (by decide)
  · have between : (2 : Int) ≤ 3 ∧ (3 : Int) ≤ 4 ∧ (4 : Int) ≤ 5 := by decide
    refine safeThroughout_cons between.1 ?_
    refine safeThroughout_cons between.2.1 ?_
    refine safeThroughout_cons True.intro ?_
    refine safeThroughout_cons ⟨fun _ => ⟨between.2.2, le_refl 5⟩, fun _ none_ => nomatch none_⟩ ?_
    refine safeThroughout_cons True.intro ?_
    exact safeThroughout_cons ⟨fun _ => ⟨le_refl 5, le_refl 5⟩, fun _ none_ => nomatch none_⟩
      (safeThroughout_nil step Ordered _)
  · have sent : (runSteps step systemWatch lateRename).sent.map (fun n => (namedPaths n, n.timestamp)) =
        [([pathOf "/system/config/hostname".toList], 4), ([pathOf "/system/config/hostname".toList], 3)] := by
      decide +kernel
    rcases List.map_eq_cons_iff.mp sent with ⟨first, rest, whole, firstRead, restRead⟩
    rcases List.map_eq_cons_iff.mp restRead with ⟨second, last, rfl, secondRead, _⟩
    rcases Prod.mk.inj firstRead with ⟨firstNames, firstStamp⟩
    rcases Prod.mk.inj secondRead with ⟨secondNames, secondStamp⟩
    have same : SameSubject first second := by
      left
      rw [firstNames, secondNames]
      exact ⟨_, List.mem_cons_self, List.mem_cons_self⟩
    rw [NeverBack, whole] at neverBack
    have back := List.rel_of_pairwise_cons neverBack List.mem_cons_self same
    rw [firstStamp, secondStamp] at back
    exact absurd back (by decide)

end Watch

end Telemetry
end PscMockServer
