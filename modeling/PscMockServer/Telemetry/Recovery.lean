import PscMockServer.Telemetry.QuietStreams
import PscMockServer.Telemetry.OnChange

namespace PscMockServer
namespace Telemetry

open Foundations Gnmi Utils Backend Gnmi.Subscribe

/-!
# Clients that lost messages

A heartbeat sends everything, and the polls after it what changed.  So a client that hears
an entry from one heartbeat on need not have heard anything before: whatever it believed, it
can be wrong only about leaves that were gone at the heartbeat and have not come back since.
-/

variable {σ : Type} {reg : DataProviderRegistry σ}

/-! ## What the two emissions do to any view -/

theorem restates_buildFull (law : AtomicLaw reg.atomicPrefix) {snap : Snapshot}
    (canonical : CanonicalKeys snap) (clock : Nat -> Int) :
    Restates (script (buildFullNotifications snap reg clock)) (viewOf snap) where
  sound := sound_buildFull law canonical clock
  whole := by
    intro path untouched
    cases seen : viewOf snap path with
    | none => rfl
    | some value =>
        rcases exists_of_viewOf seen with ⟨key, leaf, found, rfl, _⟩
        have touched := (touches_buildFull law canonical clock (canonical key leaf found)).mpr
          (Or.inl ⟨leaf, found⟩)
        rw [untouched] at touched
        cases touched

theorem advances_buildChange (law : AtomicLaw reg.atomicPrefix) {prev cur : Snapshot}
    (canonicalPrev : CanonicalKeys prev) (canonicalCur : CanonicalKeys cur) (clock : Nat -> Int) :
    Advances (script (buildChangeNotifications prev cur reg clock)) (viewOf prev) (viewOf cur) where
  sound := sound_buildChange canonicalPrev canonicalCur law clock
  whole := by
    intro path untouched
    -- a path at which one of the snapshots has something is the path of a key
    have atKey : ∀ key, Canonical key -> pathOf key = path -> viewOf prev path = viewOf cur path := by
      intro key canonical isPath
      rw [← isPath] at untouched ⊢
      rw [viewOf_pathOf prev canonical, viewOf_pathOf cur canonical]
      by_contra differs
      have touched := (touches_buildChange canonicalPrev canonicalCur law clock canonical).mpr
        (Differs.resent differs)
      rw [untouched] at touched
      cases touched
    cases before : viewOf prev path with
    | some value =>
        rcases exists_of_viewOf before with ⟨key, leaf, found, isPath, _⟩
        exact before.symm.trans (atKey key (canonicalPrev key leaf found) isPath)
    | none =>
        cases after : viewOf cur path with
        | none => rfl
        | some value =>
            rcases exists_of_viewOf after with ⟨key, leaf, found, isPath, _⟩
            exact before.symm.trans ((atKey key (canonicalCur key leaf found) isPath).trans after)

/-- The notifications among the responses that a client receives. -/
def notificationsOf (received : List SubscribeResponse) : List Notification :=
  received.filterMap (fun response =>
    match response with
    | .update n => some n
    | .syncResponse => none)

theorem notificationsOf_append (first second : List SubscribeResponse) :
    notificationsOf (first ++ second) = notificationsOf first ++ notificationsOf second :=
  List.filterMap_append

theorem notificationsOf_updates (notes : List Notification) :
    notificationsOf (notes.map SubscribeResponse.update) = notes := by
  rw [notificationsOf, List.filterMap_map]
  exact List.filterMap_some

/-! ## From one heartbeat on -/

section Heartbeat

variable {Valid : σ -> Prop} {stored : σ -> Str -> Option Leaf} (serves : Serves reg Valid stored)
  {timing : StreamTiming σ} {list : SubscriptionList} {before rest : List Subscription}
  {sub : Subscription} (listed : list.subscription = before ++ sub :: rest)
  (onChange : resolveStreamMode sub reg = .onChange) {front : List (LoopPass σ)} {beat : LoopPass σ}

include serves listed onChange

/-- The run after a heartbeat, by induction over its polls. -/
theorem repaired_since (due : beatDue sub.heartbeatInterval (timing.setupNow before.length)
      (entryNumber reg timing before) front beat = true) (view : View) (more : List (LoopPass σ))
    (open_ : (streamAfter reg timing list (front ++ beat :: more)).1.isOk = true)
    (valid : ∀ pass ∈ beat :: more, ∀ j, Valid (pass.pollAt j))
    (undue : ∀ mid pass, mid ++ [pass] <+: more -> beatDue sub.heartbeatInterval
      (timing.setupNow before.length) (entryNumber reg timing before) (front ++ beat :: mid) pass = false) :
    let j := entryNumber reg timing before
    let current := (reg.snapshot (stateBefore timing before.length j (front ++ beat :: more))
      (gnmiToXpath sub.path)).snap
    CanonicalKeys current ∧ ∃ since,
      entrySent j (streamAfter reg timing list (front ++ beat :: more)).2 =
        entrySent j (streamAfter reg timing list front).2 ++ since ∧
      Repaired view ((beat :: more).map (fun pass => viewOf (polledSnapshot reg sub j pass)))
        (viewOf current) (applyNotifications view (notificationsOf since)) := by
  intro j
  induction more using List.reverseRecOn with
  | nil =>
      have canonical := (serves.drawn (valid beat List.mem_cons_self j) (gnmiToXpath sub.path)).canonical
      rw [stateBefore_snoc]
      have sent := entrySent_snoc listed onChange open_
      rw [pollNotes, due, if_pos rfl] at sent
      refine ⟨canonical, _, sent, ?_⟩
      rw [notificationsOf_updates]
      exact (restates_buildFull serves.law canonical (beat.pollClock j)).repaired view
  | append_singleton mid pass inductionHypothesis =>
      have whole : front ++ beat :: (mid ++ [pass]) = front ++ beat :: mid ++ [pass] := by
        rw [List.append_assoc, List.cons_append]
      rw [whole] at open_ ⊢
      have validMid : ∀ other ∈ beat :: mid, ∀ i, Valid (other.pollAt i) := fun other member =>
        valid other (List.mem_append_left [pass] member)
      have undueMid : ∀ inner last, inner ++ [last] <+: mid -> beatDue sub.heartbeatInterval
          (timing.setupNow before.length) (entryNumber reg timing before) (front ++ beat :: inner) last =
            false :=
        fun inner last isFront => undue inner last (isFront.trans (List.prefix_append mid [pass]))
      rcases inductionHypothesis (open_front open_) validMid undueMid with
        ⟨canonicalPrev, since, sentMid, repaired⟩
      have canonical := (serves.drawn
        (valid pass (List.mem_append_right (beat :: mid) List.mem_cons_self) j) (gnmiToXpath sub.path)).canonical
      have sent := entrySent_snoc listed onChange open_
      rw [pollNotes, undue mid pass (List.prefix_refl _), if_neg Bool.false_ne_true, sentMid] at sent
      rw [stateBefore_snoc]
      refine ⟨canonical, _, sent.trans (List.append_assoc _ _ _), ?_⟩
      rw [notificationsOf_append, notificationsOf_updates, applyNotifications_append]
      have advanced := repaired.advance
        (advances_buildChange serves.law canonicalPrev canonical (pass.pollClock j))
      rw [← List.cons_append, List.map_append]
      exact advanced

/-- Heartbeats repair.  Take an entry of an open stream after one of its heartbeats, and no
further one since, and a client with any view that hears what the entry sends from this
heartbeat on.  At each path the client then sees what the entry found last, or nothing was
found there at the heartbeat and at every poll since, and the client still sees what it saw
before.  So a client that saw nothing else before sees exactly what the entry found last. -/
theorem heartbeat_repairs {more : List (LoopPass σ)}
    (open_ : (streamAfter reg timing list (front ++ beat :: more)).1.isOk = true)
    (valid : ∀ pass ∈ beat :: more, ∀ j, Valid (pass.pollAt j))
    (due : beatDue sub.heartbeatInterval (timing.setupNow before.length)
      (entryNumber reg timing before) front beat = true)
    (undue : ∀ mid pass, mid ++ [pass] <+: more -> beatDue sub.heartbeatInterval
      (timing.setupNow before.length) (entryNumber reg timing before) (front ++ beat :: mid) pass = false)
    (view : View) {since : List SubscribeResponse}
    (heard : entrySent (entryNumber reg timing before) (streamAfter reg timing list (front ++ beat :: more)).2 =
      entrySent (entryNumber reg timing before) (streamAfter reg timing list front).2 ++ since) :
    let j := entryNumber reg timing before
    let found := fun pass => viewOf (polledSnapshot reg sub j pass)
    let last := (reg.snapshot (stateBefore timing before.length j (front ++ beat :: more))
      (gnmiToXpath sub.path)).snap
    let after := applyNotifications view (notificationsOf since)
    (∀ path, after path = viewOf last path ∨
      viewOf last path = none ∧ (∀ pass ∈ beat :: more, found pass path = none) ∧ after path = view path) ∧
    ((∀ path value, view path = some value -> ∃ pass ∈ beat :: more, found pass path ≠ none) ->
      Shows after last) := by
  intro j found last after
  rcases repaired_since serves listed onChange due view more open_ valid undue with
    ⟨canonical, received, sent, repaired⟩
  have same : received = since := List.append_cancel_left (sent.symm.trans heard)
  rw [same] at repaired
  constructor
  · intro path
    rcases repaired path with right | ⟨nothing, never, stale⟩
    · exact Or.inl right
    · exact Or.inr ⟨nothing, fun pass member => never _ (List.mem_map_of_mem member), stale⟩
  · intro known
    rw [shows_iff canonical]
    apply repaired.right
    intro path value seen
    rcases known path value seen with ⟨pass, member, something⟩
    exact ⟨found pass, List.mem_map_of_mem member, something⟩

end Heartbeat

/-- A client that believed something else about the host name hears a heartbeat and a poll. -/
theorem heartbeat_repairs_hostname :
    let mistaken : View := fun path =>
      if path = Server.hostnamePath.nodes then some (.stringVal "psc-9".toList) else none
    let sent := entrySent 0 (streamAfter Server.registry (renameTiming beforeRename) (beatingList 5)
      [passAt afterRename, passAt afterRename]).2
    Shows (applyNotifications mistaken (notificationsOf sent))
      (Server.registry.snapshot afterRename (gnmiToXpath Server.hostnamePath)).snap := by
  intro mistaken sent
  have listed : (beatingList 5).subscription = [] ++ beatingSub 5 :: [] := rfl
  have nothing : entrySent 0 (streamAfter Server.registry (renameTiming beforeRename) (beatingList 5) []).2 =
      [] := by
    decide +kernel
  have valid : ∀ pass ∈ [passAt afterRename, passAt afterRename], ∀ j, Server.Invariant (pass.pollAt j) := by
    intro pass member j
    rcases List.mem_pair.mp member with rfl | rfl
    · exact afterRename_invariant
    · exact afterRename_invariant
  have undue : ∀ (mid : List (LoopPass Server.Stores)) (pass : LoopPass Server.Stores),
      mid ++ [pass] <+: [passAt afterRename] -> beatDue (beatingSub 5).heartbeatInterval
        ((renameTiming beforeRename).setupNow 0) 0 ([] ++ passAt afterRename :: mid) pass = false := by
    intro mid pass isFront
    have length := isFront.length_le
    cases mid with
    | nil =>
        rw [List.mem_singleton.mp (mem_of_snoc isFront)]
        decide
    | cons first mid => simp at length
  have heard : sent = entrySent 0 (streamAfter Server.registry (renameTiming beforeRename)
      (beatingList 5) []).2 ++ sent := by
    rw [nothing, List.nil_append]
  refine (heartbeat_repairs Server.registry_serves listed (by decide +kernel) (by decide +kernel) valid
    (by decide) undue mistaken heard).2 ?_
  intro path value seen
  refine ⟨passAt afterRename, List.mem_cons_self, ?_⟩
  have isPath : path = Server.hostnamePath.nodes := by
    by_contra other
    have unseen : mistaken path = none := if_neg other
    rw [unseen] at seen
    cases seen
  rw [isPath]
  decide +kernel

end Telemetry
end PscMockServer
