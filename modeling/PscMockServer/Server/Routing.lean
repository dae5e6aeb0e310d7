import PscMockServer.Foundations.Dispatch
import PscMockServer.Utils.PathPrefix
import PscMockServer.Server.Registry

namespace PscMockServer
namespace Backend

open Foundations Gnmi Utils

/-!
# How the registry splits a batch

`DataProviderRegistry::commit` scans the batch once for each route.  Here the calls of
`applyBatch` it makes are a list of their own, so that one can say what each provider
is handed, and the effect on the stores is compared with that of the single ops.
-/

namespace DataProviderRegistry

variable {σ : Type}

/-! ## At most one route -/

/-- No registered prefix is a path prefix of another one. -/
def PrefixesApart (reg : DataProviderRegistry σ) : Prop :=
  reg.routes.Pairwise (fun first second =>
    isPathPrefix first.1 second.1 = false ∧ isPathPrefix second.1 first.1 = false)

instance (reg : DataProviderRegistry σ) : Decidable reg.PrefixesApart :=
  inferInstanceAs (Decidable (List.Pairwise _ _))

/-- No path belongs to two routes. -/
theorem PrefixesApart.exclusive {reg : DataProviderRegistry σ} (apart : reg.PrefixesApart) (xpath : Str) :
    reg.routes.Pairwise (fun first second =>
      ¬ (matchesPrefix xpath first.1 = true ∧ matchesPrefix xpath second.1 = true)) := by
  refine List.Pairwise.imp ?_ apart
  rintro first second ⟨notFirst, notSecond⟩ ⟨toFirst, toSecond⟩
  rcases isPathPrefix_comparable toFirst toSecond with above | below
  · rw [notFirst] at above
    cases above
  · rw [notSecond] at below
    cases below

/-! ## The calls of `applyBatch` -/

/-- The ops of a batch that a route owns, in the order of the batch. -/
def sliceFor (batch : WriteBatch) (route : Str × IDataProvider σ) : WriteBatch :=
  ⟨batch.ops.filter (fun op => matchesPrefix op.xpath route.1)⟩

/-- Which route is handed which slice, in the order of the calls. -/
def handed (reg : DataProviderRegistry σ) (batch : WriteBatch) :
    List ((Str × IDataProvider σ) × WriteBatch) :=
  (reg.routes.map (fun route => (route, sliceFor batch route))).filter (fun call => !call.2.isEmpty)

/-- One of these calls: the provider changes the state, the flags are accumulated. -/
def handOver (acc : σ × WriteResult) (call : (Str × IDataProvider σ) × WriteBatch) : σ × WriteResult :=
  let result := call.1.2.applyBatch acc.1 call.2
  (result.1, { routed := true, applied := if result.2 then true else acc.2.applied })

/-- The loop of `commit`, with its body named. -/
theorem commit_eq_foldl (reg : DataProviderRegistry σ) (s : σ) (batch : WriteBatch) :
    reg.commit s batch = reg.routes.foldl
      (fun acc route => if (sliceFor batch route).isEmpty then acc
        else handOver acc (route, sliceFor batch route))
      (s, { routed := false, applied := false }) := rfl

/-- A commit makes these calls and nothing else. -/
theorem commit_eq_handed (reg : DataProviderRegistry σ) (s : σ) (batch : WriteBatch) :
    reg.commit s batch = (reg.handed batch).foldl handOver (s, { routed := false, applied := false }) := by
  rw [commit_eq_foldl, handed]
  generalize (s, WriteResult.mk false false) = acc
  induction reg.routes generalizing acc with
  | nil => rfl
  | cons route routes inductionHypothesis =>
      rw [List.foldl_cons, List.map_cons, List.filter_cons]
      cases (sliceFor batch route).isEmpty with
      | true =>
          rw [if_pos rfl, if_neg (by simp)]
          exact inductionHypothesis acc
      | false =>
          rw [if_neg Bool.false_ne_true, if_pos (by simp)]
          exact inductionHypothesis _

/-- No route is called twice. -/
theorem handed_routes (reg : DataProviderRegistry σ) (batch : WriteBatch) :
    ((reg.handed batch).map Prod.fst).Sublist reg.routes := by
  have all : (reg.routes.map (fun route => (route, sliceFor batch route))).map Prod.fst = reg.routes := by
    rw [List.map_map]
    exact List.map_id reg.routes
  have kept := (List.filter_sublist (p := fun call : (Str × IDataProvider σ) × WriteBatch =>
    !call.2.isEmpty) (l := reg.routes.map (fun route => (route, sliceFor batch route)))).map Prod.fst
  rw [all] at kept
  exact kept

theorem mem_handed {reg : DataProviderRegistry σ} {batch : WriteBatch}
    {call : (Str × IDataProvider σ) × WriteBatch} (isCall : call ∈ reg.handed batch) :
    call.1 ∈ reg.routes ∧ call.2 = sliceFor batch call.1 := by
  rcases List.mem_map.mp (List.mem_of_mem_filter isCall) with ⟨route, listed, rfl⟩
  exact ⟨listed, rfl⟩

/-- An op is in the slice of a call exactly when its route owns it. -/
theorem mem_slice_iff {reg : DataProviderRegistry σ} {batch : WriteBatch}
    {call : (Str × IDataProvider σ) × WriteBatch} (isCall : call ∈ reg.handed batch) (op : WriteOp) :
    op ∈ call.2.ops ↔ op ∈ batch.ops ∧ matchesPrefix op.xpath call.1.1 = true := by
  rw [(mem_handed isCall).2, sliceFor, List.mem_filter]

/-- The slices one after the other: the empty ones, for which there is no call, add nothing. -/
theorem handed_flatMap (reg : DataProviderRegistry σ) (batch : WriteBatch) :
    (reg.handed batch).flatMap (fun call => call.2.ops) =
      reg.routes.flatMap (fun route => (sliceFor batch route).ops) := by
  rw [handed]
  induction reg.routes with
  | nil => rfl
  | cons route routes inductionHypothesis =>
      rw [List.map_cons, List.filter_cons, List.flatMap_cons, ← inductionHypothesis]
      cases empty : (sliceFor batch route).isEmpty with
      | true =>
          have none_ : (sliceFor batch route).ops = [] := List.isEmpty_iff.mp empty
          rw [if_neg (by simp), none_, List.nil_append]
      | false => rw [if_pos (by simp), List.flatMap_cons]

/-- The slices together are the routed ops of the batch, each as often as the batch has it. -/
theorem handed_perm {reg : DataProviderRegistry σ} (apart : reg.PrefixesApart) (batch : WriteBatch) :
    ((reg.handed batch).flatMap (fun call => call.2.ops)).Perm
      (batch.ops.filter (fun op => reg.owns op.xpath)) := by
  rw [handed_flatMap]
  exact Dispatch.slices_perm (fun op _ => apart.exclusive op.xpath)

/-- A routed op is in exactly one slice. -/
theorem handed_once {reg : DataProviderRegistry σ} (apart : reg.PrefixesApart) {batch : WriteBatch}
    {op : WriteOp} (listed : op ∈ batch.ops) (routed : reg.owns op.xpath = true) :
    ((reg.handed batch).filter (fun call => decide (op ∈ call.2.ops))).length = 1 := by
  apply Nat.le_antisymm
  · apply Dispatch.length_filter_le_one
    have calls : (reg.handed batch).Pairwise (fun first second =>
        ¬ (matchesPrefix op.xpath first.1.1 = true ∧ matchesPrefix op.xpath second.1.1 = true)) :=
      List.pairwise_map.mp ((apart.exclusive op.xpath).sublist (handed_routes reg batch))
    refine calls.imp_of_mem ?_
    rintro first second isFirst isSecond different ⟨inFirst, inSecond⟩
    exact different ⟨((mem_slice_iff isFirst op).mp (of_decide_eq_true inFirst)).2,
      ((mem_slice_iff isSecond op).mp (of_decide_eq_true inSecond)).2⟩
  · have present := (handed_perm apart batch).mem_iff.mpr (List.mem_filter.mpr ⟨listed, routed⟩)
    rcases List.mem_flatMap.mp present with ⟨call, isCall, inSlice⟩
    exact List.length_pos_of_mem (List.mem_filter.mpr ⟨isCall, decide_eq_true inSlice⟩)

/-! ## The effect on the stores -/

/-- The ops of a batch committed one at a time. -/
def commitEach (reg : DataProviderRegistry σ) (s : σ) (ops : List WriteOp) : σ :=
  ops.foldl (fun s op => (reg.commit s ⟨[op]⟩).1) s

/-- A provider that takes a batch as it would take its ops one after the other. -/
def OpByOp (provider : IDataProvider σ) : Prop :=
  ∀ (s : σ) (ops : List WriteOp), (provider.applyBatch s ⟨ops⟩).1 =
    ops.foldl (fun s op => (provider.applyBatch s ⟨[op]⟩).1) s

/-- Two providers whose writes do not interfere. -/
def Commuting (first second : IDataProvider σ) : Prop :=
  ∀ (s : σ) (op other : WriteOp),
    (second.applyBatch (first.applyBatch s ⟨[other]⟩).1 ⟨[op]⟩).1 =
      (first.applyBatch (second.applyBatch s ⟨[op]⟩).1 ⟨[other]⟩).1

/-- What one call does to the state, op by op. -/
theorem OpByOp.slice {route : Str × IDataProvider σ} (sequential : OpByOp route.2) (s : σ)
    (batch : WriteBatch) :
    (route.2.applyBatch s (sliceFor batch route)).1 = batch.ops.foldl
      (fun s op => if matchesPrefix op.xpath route.1 then (route.2.applyBatch s ⟨[op]⟩).1 else s) s := by
  rw [sliceFor, sequential, List.foldl_filter]

/-- What a commit does to the stores, route by route. -/
theorem commit_state (reg : DataProviderRegistry σ) (sequential : ∀ route ∈ reg.routes, OpByOp route.2)
    (s : σ) (batch : WriteBatch) :
    (reg.commit s batch).1 = reg.routes.foldl
      (fun s route => batch.ops.foldl
        (fun s op => if matchesPrefix op.xpath route.1 then (route.2.applyBatch s ⟨[op]⟩).1 else s) s) s := by
  rw [commit_eq_foldl]
  generalize WriteResult.mk false false = result
  generalize reg.routes = routes at sequential ⊢
  induction routes generalizing s result with
  | nil => rfl
  | cons route routes inductionHypothesis =>
      have here := sequential route List.mem_cons_self
      have later := fun s result => inductionHypothesis s result
        (fun other member => sequential other (List.mem_cons_of_mem route member))
      rw [List.foldl_cons, List.foldl_cons, ← here.slice]
      cases empty : (sliceFor batch route).isEmpty with
      | true =>
          have none_ : sliceFor batch route = ⟨[]⟩ := congrArg WriteBatch.mk (List.isEmpty_iff.mp empty)
          have still : (route.2.applyBatch s (sliceFor batch route)).1 = s := by
            rw [none_]
            exact here s []
          rw [if_pos rfl, still]
          exact later s result
      | false =>
          rw [if_neg Bool.false_ne_true]
          exact later _ _

/-- Providers that do not interfere make a commit the commits of its ops, in order. -/
theorem commit_eq_commitEach {reg : DataProviderRegistry σ}
    (sequential : ∀ route ∈ reg.routes, OpByOp route.2)
    (commuting : reg.routes.Pairwise (fun first second => Commuting first.2 second.2)) (s : σ)
    (batch : WriteBatch) : (reg.commit s batch).1 = reg.commitEach s batch.ops := by
  rw [commit_state reg sequential, commitEach]
  have single : (fun (s : σ) (op : WriteOp) => (reg.commit s ⟨[op]⟩).1) = fun s op =>
      reg.routes.foldl (fun s route =>
        if matchesPrefix op.xpath route.1 then (route.2.applyBatch s ⟨[op]⟩).1 else s) s := by
    funext s op
    exact commit_state reg sequential s ⟨[op]⟩
  rw [single]
  apply Dispatch.foldl_interchange
  refine commuting.imp ?_
  intro first second commute s op other
  cases matchesPrefix op.xpath second.1 <;> cases matchesPrefix other.xpath first.1 <;>
    simp only [if_true, if_neg Bool.false_ne_true]
  exact commute s op other

end DataProviderRegistry

/-! ## Store-backed providers -/

/-- Where the object of one store-backed provider is in the server state. -/
structure Cell (σ : Type) where
  self : σ -> StoreBackedProvider
  put : StoreBackedProvider -> σ -> σ
  self_put : ∀ (provider : StoreBackedProvider) (s : σ), self (put provider s) = provider
  put_put : ∀ (later earlier : StoreBackedProvider) (s : σ), put later (put earlier s) = put later s
  put_self : ∀ s : σ, put (self s) s = s

namespace Cell

variable {σ : Type}

/-- Writing one object leaves the other alone. -/
structure Apart (first second : Cell σ) : Prop where
  first_kept : ∀ (provider : StoreBackedProvider) (s : σ), first.self (second.put provider s) = first.self s
  second_kept : ∀ (provider : StoreBackedProvider) (s : σ), second.self (first.put provider s) = second.self s
  put_comm : ∀ (other provider : StoreBackedProvider) (s : σ),
    second.put other (first.put provider s) = first.put provider (second.put other s)

/-- The provider commits what it is handed to its own store. -/
def Accepts (cell : Cell σ) (provider : IDataProvider σ) : Prop :=
  ∀ (s : σ) (batch : WriteBatch),
    provider.applyBatch s batch = (cell.put ((cell.self s).commitStamped batch) s, true)

/-- The provider is read-only: the inherited `applyBatch`. -/
def Refuses (provider : IDataProvider σ) : Prop :=
  ∀ (s : σ) (batch : WriteBatch), provider.applyBatch s batch = (s, false)

/-- A store commits a batch op by op. -/
theorem Accepts.opByOp {cell : Cell σ} {provider : IDataProvider σ} (accepts : cell.Accepts provider) :
    DataProviderRegistry.OpByOp provider := by
  intro s ops
  rw [accepts]
  induction ops generalizing s with
  | nil => exact cell.put_self s
  | cons op ops inductionHypothesis =>
      have split : (cell.self s).commitStamped ⟨op :: ops⟩ =
          ((cell.self s).commitStamped ⟨[op]⟩).commitStamped ⟨ops⟩ := rfl
      rw [List.foldl_cons, accepts, ← inductionHypothesis, cell.self_put, cell.put_put, split]

theorem Refuses.opByOp {provider : IDataProvider σ} (refuses : Refuses provider) :
    DataProviderRegistry.OpByOp provider := by
  intro s ops
  rw [refuses]
  induction ops with
  | nil => rfl
  | cons op ops inductionHypothesis =>
      rw [List.foldl_cons, refuses]
      exact inductionHypothesis

/-- Providers with their objects apart do not interfere, nor does a read-only one with any. -/
theorem Apart.commuting {first second : Cell σ} (apart : first.Apart second)
    {firstProvider secondProvider : IDataProvider σ}
    (firstServes : first.Accepts firstProvider ∨ Refuses firstProvider)
    (secondServes : second.Accepts secondProvider ∨ Refuses secondProvider) :
    DataProviderRegistry.Commuting firstProvider secondProvider := by
  intro s op other
  rcases firstServes with firstAccepts | firstRefuses
  · rcases secondServes with secondAccepts | secondRefuses
    · rw [firstAccepts, secondAccepts, secondAccepts, firstAccepts, apart.second_kept, apart.first_kept,
        apart.put_comm]
    · rw [secondRefuses, secondRefuses]
  · rw [firstRefuses, firstRefuses]

end Cell

/-- Every provider of the registry has its own object in the state, which it commits to
unless it is read-only. -/
def DataProviderRegistry.StoreBacked {σ : Type} (reg : DataProviderRegistry σ) : Prop :=
  ∃ cells : List ((Str × IDataProvider σ) × Cell σ), cells.map Prod.fst = reg.routes ∧
    (∀ entry ∈ cells, entry.2.Accepts entry.1.2 ∨ Cell.Refuses entry.1.2) ∧
    cells.Pairwise (fun first second => first.2.Apart second.2)

theorem DataProviderRegistry.StoreBacked.commit_eq {σ : Type} {reg : DataProviderRegistry σ}
    (backed : reg.StoreBacked) (s : σ) (batch : WriteBatch) :
    (reg.commit s batch).1 = reg.commitEach s batch.ops := by
  rcases backed with ⟨cells, routes, serves, apart⟩
  apply DataProviderRegistry.commit_eq_commitEach
  · intro route listed
    rw [← routes] at listed
    rcases List.mem_map.mp listed with ⟨entry, member, rfl⟩
    exact (serves entry member).elim Cell.Accepts.opByOp Cell.Refuses.opByOp
  · rw [← routes]
    refine List.pairwise_map.mpr (apart.imp_of_mem ?_)
    intro first second isFirst isSecond disjoint
    exact disjoint.commuting (serves first isFirst) (serves second isSecond)

end Backend

namespace Server

open Foundations Gnmi Utils Backend

/-- With prefixes that are no path prefixes of one another, every path has at most one
route, a commit hands out the routed ops of its batch without loss, repetition or
reordering, and on store-backed providers it has the effect of its ops in order. -/
theorem registry_splits_batches {σ : Type} (reg : DataProviderRegistry σ) (apart : reg.PrefixesApart) :
    (∀ xpath : Str, (reg.routes.filter
      (fun route => DataProviderRegistry.matchesPrefix xpath route.1)).length ≤ 1) ∧
    ∀ batch : WriteBatch,
      (∀ s, reg.commit s batch = (reg.handed batch).foldl DataProviderRegistry.handOver
        (s, { routed := false, applied := false })) ∧
      ((reg.handed batch).map Prod.fst).Sublist reg.routes ∧
      (∀ call ∈ reg.handed batch, call.2.ops.Sublist batch.ops) ∧
      ((reg.handed batch).flatMap (fun call => call.2.ops)).Perm
        (batch.ops.filter (fun op => reg.owns op.xpath)) ∧
      (∀ op ∈ batch.ops, reg.owns op.xpath = true ->
        ((reg.handed batch).filter (fun call => decide (op ∈ call.2.ops))).length = 1) ∧
      (∀ op, reg.owns op.xpath = false -> ∀ call ∈ reg.handed batch, op ∉ call.2.ops) ∧
      (reg.StoreBacked -> ∀ s, (reg.commit s batch).1 = reg.commitEach s batch.ops ∧
        ∀ later : WriteBatch, (reg.commit s ⟨batch.ops ++ later.ops⟩).1 =
          (reg.commit (reg.commit s batch).1 later).1) := by
  refine ⟨fun xpath => Dispatch.length_filter_le_one (apart.exclusive xpath), fun batch => ?_⟩
  refine ⟨fun s => reg.commit_eq_handed s batch, reg.handed_routes batch, ?_,
    DataProviderRegistry.handed_perm apart batch,
    fun op listed routed => DataProviderRegistry.handed_once apart listed routed, ?_, ?_⟩
  · intro call isCall
    rw [(DataProviderRegistry.mem_handed isCall).2]
    exact List.filter_sublist
  · intro op unrouted call isCall inSlice
    have owned : reg.owns op.xpath = true := List.any_eq_true.mpr
      ⟨call.1, (DataProviderRegistry.mem_handed isCall).1,
        ((DataProviderRegistry.mem_slice_iff isCall op).mp inSlice).2⟩
    rw [unrouted] at owned
    cases owned
  · intro backed s
    refine ⟨backed.commit_eq s batch, fun later => ?_⟩
    rw [backed.commit_eq, backed.commit_eq, backed.commit_eq, DataProviderRegistry.commitEach,
      List.foldl_append]
    rfl

/-- The two providers of the server, each in its own component of the state. -/
def sensorCell : Cell Stores where
  self := Stores.sensor
  put := fun sensor s => { s with sensor := sensor }
  self_put := fun _ _ => rfl
  put_put := fun _ _ _ => rfl
  put_self := fun _ => rfl

def configCell : Cell Stores where
  self := Stores.config
  put := fun config s => { s with config := config }
  self_put := fun _ _ => rfl
  put_put := fun _ _ _ => rfl
  put_self := fun _ => rfl

theorem registry_storeBacked : registry.StoreBacked := by
  refine ⟨[((sensorPrefix, PscPowerSensorProvider.provider Stores.sensor), sensorCell),
    ((configPrefix, SystemConfigProvider.provider Stores.config
      (fun config s => { s with config := config })), configCell)], rfl, ?_, ?_⟩
  · intro entry member
    simp only [List.mem_cons, List.not_mem_nil, or_false] at member
    rcases member with rfl | rfl
    · exact Or.inr (fun s batch => rfl)
    · exact Or.inl (fun s batch => rfl)
  · exact List.pairwise_pair.mpr ⟨fun _ _ => rfl, fun _ _ => rfl, fun _ _ _ => rfl⟩

/-- The prefixes of the server are apart. -/
theorem registry_prefixesApart : registry.PrefixesApart :=
  List.pairwise_pair.mpr (by decide)

/-- A batch for both providers, with one op that nobody owns. -/
def mixedBatch : WriteBatch :=
  ((({} : WriteBatch).set "/system/config/hostname".toList (.stringVal "a".toList) 1).set
    "/elsewhere".toList (.intVal 1) 2).remove "/components/component[name=\"psu\"]".toList

theorem registry_splits_mixedBatch :
    (registry.routes.filter (fun route =>
      DataProviderRegistry.matchesPrefix "/system/config/hostname".toList route.1)).length ≤ 1 ∧
    ((registry.handed mixedBatch).flatMap (fun call => call.2.ops)).Perm
      (mixedBatch.ops.filter (fun op => registry.owns op.xpath)) ∧
    (registry.commit (initialStores 0 0) mixedBatch).1 =
      registry.commitEach (initialStores 0 0) mixedBatch.ops := by
  have splits := registry_splits_batches registry registry_prefixesApart
  rcases splits.2 mixedBatch with ⟨_, _, _, regrouped, _, _, effect⟩
  exact ⟨splits.1 _, regrouped, (effect registry_storeBacked (initialStores 0 0)).1⟩

end Server
end PscMockServer
