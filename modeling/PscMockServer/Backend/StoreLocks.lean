import PscMockServer.Backend.LeafStore
import PscMockServer.Foundations.Iterators

namespace PscMockServer
namespace Backend

open Foundations Foundations.SharedLock Gnmi Utils

/-!
# The store's lock

The methods of `LeafStore` run on the threads of many clients.  Each takes the store's mutex,
`commit` alone and the others together with further readers, and then works on the map op by op
or entry by entry.  Here the pieces are steps of their own that any thread may do next, and
the methods of the atomic store are what the returned calls amount to.
-/

/-- The call of a method. -/
inductive Call where
  | commit (batch : WriteBatch)
  | get (xpath : Str)
  | collect (queryXpath : Str) (list : List Update)
  | snapshot (queryXpath : Str)

/-- What a call gives back. -/
inductive Answer where
  | committed
  | leaf (found : Option Leaf)
  | collected (list : List Update) (added : Bool)
  | taken (out : Snapshot)

/-- The local variables of the methods that read.  `it` is the key where an iterator stands. -/
structure Locals where
  it : Option Str := none
  found : Option (Option Leaf) := none
  list : List Update := []
  out : Snapshot := ∅

namespace Call

/-! ## The methods, piece by piece -/

/-- `get`: the lookup and then the copy behind its iterator. -/
def lookUp (key : Str) (leaves : Snapshot) (locals : Locals) : Option Locals :=
  match locals.found, locals.it with
  | some _, _ => none
  | none, none =>
      if key ∈ leaves then some { locals with it := some key }
      else some { locals with found := some none }
  | none, some path => some { locals with found := some leaves[path]? }

/-- One turn of the loop of `collect`. -/
def collectEntry (query : Str) (locals : Locals) (entry : Str × Leaf) : Locals :=
  { locals with
    it := some entry.1
    list :=
      if selects query entry.1 then
        locals.list ++ [{ path := some (xpathToGnmiPath entry.1 {}), val := some entry.2.val }]
      else locals.list }

/-- One turn of the loop of `snapshot`. -/
def takeEntry (query : Str) (locals : Locals) (entry : Str × Leaf) : Locals :=
  { locals with
    it := some entry.1
    out := if selects query entry.1 then locals.out.insertIfNew entry.1 entry.2 else locals.out }

/-- What a call does while it holds the mutex. -/
def code : Call -> Code Snapshot Locals
  | .commit batch => .write (batch.ops.map (fun op leaves => LeafStore.applyOp leaves op))
  | .get xpath => .read {} (lookUp (stripPathQuotes xpath))
  | .collect queryXpath list =>
      .read { list := list } (OrdMap.walk Locals.it (collectEntry (stripPathQuotes queryXpath)))
  | .snapshot queryXpath =>
      .read {} (OrdMap.walk Locals.it (takeEntry (stripPathQuotes queryXpath)))

/-- The return value, from the local variables at the end. -/
def result : Call -> Locals -> Answer
  | .commit _, _ => .committed
  | .get _, locals => .leaf locals.found.join
  | .collect _ list, locals => .collected locals.list (decide (list.length < locals.list.length))
  | .snapshot _, locals => .taken locals.out

/-! ## The methods at once -/

/-- The store after a call that nothing interrupts, and what the call gives back. -/
def alone : Call -> LeafStore -> LeafStore × Answer
  | .commit batch, store => (store.commit batch, .committed)
  | .get xpath, store => (store, .leaf (store.get xpath))
  | .collect queryXpath list, store =>
      (store, .collected (store.collect queryXpath list).1 (store.collect queryXpath list).2)
  | .snapshot queryXpath, store => (store, .taken (store.snapshot queryXpath))

/-- A batch is done op by op. -/
theorem effect_code (call : Call) (store : LeafStore) :
    call.code.effect store.leaves = (call.alone store).1.leaves := by
  cases call with
  | commit batch =>
      show (batch.ops.map _).foldl _ store.leaves = batch.ops.foldl LeafStore.applyOp store.leaves
      rw [List.foldl_map]
  | get xpath => rfl
  | collect queryXpath list => rfl
  | snapshot queryXpath => rfl

/-- The copy behind the iterator is the leaf that the lookup found. -/
theorem lookUp_reads (key : Str) (leaves : Snapshot) :
    ∃ locals : Locals, Reads (lookUp key) leaves {} locals ∧ lookUp key leaves locals = none ∧
      locals.found.join = leaves[key]? := by
  by_cases known : key ∈ leaves
  · refine ⟨{ it := some key, found := some leaves[key]? }, ?_, rfl, rfl⟩
    refine Relation.ReflTransGen.head (b := { it := some key }) ?_ (Relation.ReflTransGen.single rfl)
    exact if_pos known
  · refine ⟨{ found := some none }, Relation.ReflTransGen.single (if_neg known), rfl, ?_⟩
    exact (Std.ExtTreeMap.getElem?_eq_none known).symm

theorem collect_list (store : LeafStore) (queryXpath : Str) (list : List Update) :
    (store.leaves.toList.foldl (collectEntry (stripPathQuotes queryXpath)) { list := list }).list =
      (store.collect queryXpath list).1 := by
  rw [LeafStore.collect, Std.ExtTreeMap.foldl_eq_foldl_toList]
  exact (List.foldl_hom Locals.list (fun _ _ => rfl)).symm

theorem snapshot_out (store : LeafStore) (queryXpath : Str) :
    (store.leaves.toList.foldl (takeEntry (stripPathQuotes queryXpath)) {}).out =
      store.snapshot queryXpath := by
  rw [LeafStore.snapshot, Std.ExtTreeMap.foldl_eq_foldl_toList]
  exact (List.foldl_hom Locals.out (fun _ _ => rfl)).symm

/-- A call that only reads ends on every state, with the answer it has when it is done at once. -/
theorem reads_alone (call : Call) (store : LeafStore) {first : Locals}
    {next : Snapshot -> Locals -> Option Locals} (isCode : call.code = .read first next) :
    ∃ locals, Reads next store.leaves first locals ∧ next store.leaves locals = none ∧
      call.result locals = (call.alone store).2 := by
  cases call with
  | commit batch => cases isCode
  | get xpath =>
      cases isCode
      rcases lookUp_reads (stripPathQuotes xpath) store.leaves with ⟨locals, reads, ends, found⟩
      exact ⟨locals, reads, ends, congrArg Answer.leaf found⟩
  | collect queryXpath list =>
      cases isCode
      have loop := OrdMap.walk_reads Locals.it (collectEntry (stripPathQuotes queryXpath))
        (fun _ _ => rfl) store.leaves { list := list } rfl
      refine ⟨_, loop.1, loop.2, ?_⟩
      rw [result, alone, collect_list]
      rfl
  | snapshot queryXpath =>
      cases isCode
      have loop := OrdMap.walk_reads Locals.it (takeEntry (stripPathQuotes queryXpath))
        (fun _ _ => rfl) store.leaves {} rfl
      exact ⟨_, loop.1, loop.2, congrArg Answer.taken (snapshot_out store queryXpath)⟩

theorem finishes (call : Call) : call.code.Finishes := by
  cases isCode : call.code with
  | write pieces => exact trivial
  | read first next =>
      intro leaves
      rcases reads_alone call ⟨leaves⟩ isCode with ⟨locals, reads, ends, _⟩
      exact ⟨locals, reads, ends⟩

/-- What a returned call gives back.  A writer has put nothing together. -/
def answer (call : Call) (locals : Option Locals) : Answer :=
  call.result (locals.getD {})

theorem answer_alone {call : Call} {store : LeafStore} {locals : Option Locals}
    (answers : Answers store.leaves call.code locals) : call.answer locals = (call.alone store).2 := by
  generalize isCode : call.code = code at answers
  cases answers with
  | write pieces =>
      cases call with
      | commit batch => rfl
      | get xpath => cases isCode
      | collect queryXpath list => cases isCode
      | snapshot queryXpath => cases isCode
  | read first next reached reads ends =>
      rcases reads_alone call store isCode with ⟨atOnce, readsAtOnce, endsAtOnce, same⟩
      rw [answer, Option.getD_some, reads.unique ends readsAtOnce endsAtOnce, same]

end Call

/-! ## The calls of many threads -/

section Threads

variable {ι : Type} [DecidableEq ι] (calls : ι -> Call)

/-- The store after calls that are done at once, one after the other. -/
def oneByOne (store : LeafStore) (order : List ι) : LeafStore :=
  order.foldl (fun store i => ((calls i).alone store).1) store

/-- Where the calls are once the threads have done what the scheduler let them. -/
def interleaved (store : LeafStore) (schedule : List ι) : Config Snapshot Locals ι :=
  run (fun i => (calls i).code) (start store.leaves) schedule

/-- The calls have returned what they return one by one, in the order of their unlocks. -/
structure Linearized (store : LeafStore) (c : Config Snapshot Locals ι) : Prop where
  once : c.order.Nodup
  listed : ∀ i, i ∈ c.order ↔ ∃ locals, c.stage i = .returned locals
  answers : ∀ i locals, c.stage i = .returned locals -> ∃ front rest, c.order = front ++ i :: rest ∧
    (calls i).answer locals = ((calls i).alone (oneByOne calls store front)).2
  settled : (∀ i pending, c.stage i ≠ .writing pending) -> c.state = (oneByOne calls store c.order).leaves

omit [DecidableEq ι] in
theorem serial_oneByOne (store : LeafStore) (order : List ι) :
    serial (fun i => (calls i).code) store.leaves order = (oneByOne calls store order).leaves :=
  List.foldl_hom LeafStore.leaves (fun store i => (calls i).effect_code store)

omit [DecidableEq ι] in
theorem linearized_of_sound {calls : ι -> Call} {store : LeafStore} {c : Config Snapshot Locals ι}
    (sound : Sound (fun i => (calls i).code) store.leaves c) : Linearized calls store c where
  once := sound.once
  listed := sound.listed
  answers := by
    intro i locals returned
    rcases sound.answered i locals returned with ⟨front, rest, split, answers⟩
    rw [serial_oneByOne] at answers
    exact ⟨front, rest, split, Call.answer_alone answers⟩
  settled := by
    intro noWriter
    rw [← serial_oneByOne]
    exact sound.settled noWriter

/-- However the threads interleave their work on the map, every call that has returned gave
back what the method gives back when it is done at once, in an order where what has
returned is before what has not, and every call can still return. -/
theorem calls_linearizable (store : LeafStore) (schedule : List ι) :
    Linearized calls store (interleaved calls store schedule) ∧
      (∀ i j locals, (interleaved calls store schedule).stage i = .returned locals ->
        (∀ locals, (interleaved calls store schedule).stage j ≠ .returned locals) ->
        ∀ more front rest, (interleaved calls store (schedule ++ more)).order = front ++ j :: rest ->
          i ∈ front) ∧
      ∀ i, ∃ more locals, (interleaved calls store (schedule ++ more)).stage i = .returned locals := by
  have sound : Sound (fun i => (calls i).code) store.leaves (interleaved calls store schedule) :=
    (sound_start _ _).after_run schedule
  refine ⟨linearized_of_sound sound, fun i j locals returned stillOpen more front rest split => ?_,
    fun i => ?_⟩
  · rw [interleaved, run_append] at split
    exact precedes sound more returned stillOpen split
  · rcases sound.can_return (fun i => (calls i).finishes) i with ⟨more, locals, _, returned⟩
    exact ⟨more, locals, by rw [interleaved, run_append]; exact returned⟩

end Threads

end Backend
end PscMockServer
