import PscMockServer.Foundations.OrderedMap
import Mathlib.Data.Rat.Defs
import Mathlib.Data.List.Nodup

namespace PscMockServer
namespace Gnmi

open Foundations

/-!
# The gNMI messages the server reads and writes

Fields no handler looks at are left out.  A message field that the code tests for
presence (`has_prefix`, `has_path`, `has_val`) is an `Option`.  Proto3 enumerations
are open, so each carries an `unrecognized` case for a number outside the schema.
-/

/-- A `std::string`, one `Char` for each C++ `char`. -/
abbrev Str := List Char

/-! ## Values -/

mutual

/-- The `value` oneof of `TypedValue`, `unset` when no field of it is populated.
Doubles and floats are taken as exact rationals. -/
inductive TypedValue where
  | unset
  | stringVal (value : Str)
  | intVal (value : Int)
  | uintVal (value : Nat)
  | boolVal (value : Bool)
  | bytesVal (value : Str)
  | floatVal (value : Rat)
  | doubleVal (value : Rat)
  | decimalVal (digits : Int) (precision : Nat)
  | leaflistVal (value : ScalarArray)
  | anyVal (typeUrl value : Str)
  | jsonVal (value : Str)
  | jsonIetfVal (value : Str)
  | asciiVal (value : Str)
  | protoBytes (value : Str)

/-- The repeated `element` field of `ScalarArray`. -/
inductive ScalarArray where
  | nil
  | cons (head : TypedValue) (tail : ScalarArray)

end

deriving instance DecidableEq for TypedValue, ScalarArray

/-! ## Paths -/

/-- A protobuf `map<string, string>`, with the order in which this map object is
enumerated.  No key is listed twice. -/
structure KeyMap where
  entries : List (Str × Str)
  nodup : (entries.map Prod.fst).Nodup
deriving DecidableEq

namespace KeyMap

def empty : KeyMap := ⟨[], List.nodup_nil⟩

def single (key value : Str) : KeyMap := ⟨[(key, value)], List.nodup_singleton key⟩

/-- The entries after `map[key] = value`: a known key keeps its place. -/
def setEntries (key value : Str) : List (Str × Str) -> List (Str × Str)
  | [] => [(key, value)]
  | entry :: rest =>
      if entry.1 = key then (key, value) :: rest else entry :: setEntries key value rest

theorem mem_setEntries {key value : Str} {entries : List (Str × Str)} {entry : Str × Str}
    (member : entry ∈ setEntries key value entries) : entry = (key, value) ∨ entry ∈ entries := by
  induction entries with
  | nil => exact Or.inl (List.mem_singleton.mp member)
  | cons first rest inductionHypothesis =>
      rw [setEntries] at member
      by_cases same : first.1 = key
      · rw [if_pos same] at member
        exact (List.mem_cons.mp member).imp_right (List.mem_cons_of_mem first)
      · rw [if_neg same] at member
        rcases List.mem_cons.mp member with rfl | later
        · exact Or.inr List.mem_cons_self
        · exact (inductionHypothesis later).imp_right (List.mem_cons_of_mem first)

theorem mem_setEntries_keys (key value other : Str) (entries : List (Str × Str)) :
    other ∈ (setEntries key value entries).map Prod.fst ↔
      other = key ∨ other ∈ entries.map Prod.fst := by
  induction entries with
  | nil => simp [setEntries]
  | cons entry rest inductionHypothesis =>
      rw [setEntries]
      by_cases here : entry.1 = key
      · rw [if_pos here, List.map_cons, List.map_cons, List.mem_cons, List.mem_cons, here]
        exact ⟨fun member => Or.inr member, fun member => member.elim Or.inl id⟩
      · rw [if_neg here, List.map_cons, List.map_cons, List.mem_cons, List.mem_cons,
          inductionHypothesis, or_left_comm]

theorem setEntries_nodup (key value : Str) (entries : List (Str × Str))
    (nodup : (entries.map Prod.fst).Nodup) :
    ((setEntries key value entries).map Prod.fst).Nodup := by
  induction entries with
  | nil => exact List.nodup_singleton key
  | cons entry rest inductionHypothesis =>
      rw [List.map_cons, List.nodup_cons] at nodup
      rw [setEntries]
      by_cases here : entry.1 = key
      · rw [if_pos here, List.map_cons, List.nodup_cons]
        exact ⟨here ▸ nodup.1, nodup.2⟩
      · rw [if_neg here, List.map_cons, List.nodup_cons, mem_setEntries_keys]
        refine ⟨?_, inductionHypothesis nodup.2⟩
        rintro (same | member)
        · exact here same
        · exact nodup.1 member

/-- `map[key] = value`. -/
def set (m : KeyMap) (key value : Str) : KeyMap :=
  ⟨setEntries key value m.entries, setEntries_nodup key value m.entries m.nodup⟩

/-- The map itself, with the enumeration order forgotten. -/
def toMap (m : KeyMap) : OrdMap Str Str :=
  Std.ExtTreeMap.ofList m.entries

end KeyMap

structure PathElem where
  name : Str
  key : KeyMap := KeyMap.empty
deriving DecidableEq

structure Path where
  origin : Str := []
  elem : List PathElem := []
  target : Str := []
deriving DecidableEq

/-- What a path element tells the receiver: a name and a map of keys. -/
structure Node where
  name : Str
  key : OrdMap Str Str
deriving DecidableEq

def PathElem.node (elem : PathElem) : Node :=
  ⟨elem.name, elem.key.toMap⟩

/-- The elements of a path as the receiver compares them. -/
def Path.nodes (path : Path) : List Node :=
  path.elem.map PathElem.node

/-! ## Status -/

inductive StatusCode where
  | ok
  | unknown
  | invalidArgument
  | notFound
  | unimplemented
deriving DecidableEq

structure Status where
  code : StatusCode
  message : Str := []
deriving DecidableEq

namespace Status

def OK : Status := ⟨.ok, []⟩

/-- `status.ok()`. -/
def isOk (status : Status) : Bool :=
  decide (status.code = .ok)

end Status

/-! ## Enumerations -/

inductive Encoding where
  | json
  | bytes
  | proto
  | ascii
  | jsonIetf
  | unrecognized (number : Int)
deriving DecidableEq

/-- `Encoding_Name`, the empty string for a number outside the schema. -/
def Encoding.name : Encoding -> Str
  | .json => "JSON".toList
  | .bytes => "BYTES".toList
  | .proto => "PROTO".toList
  | .ascii => "ASCII".toList
  | .jsonIetf => "JSON_IETF".toList
  | .unrecognized _ => []

inductive DataType where
  | all
  | config
  | state
  | operational
  | unrecognized (number : Int)
deriving DecidableEq

/-- `GetRequest_DataType_IsValid`. -/
def DataType.isValid : DataType -> Bool
  | .unrecognized _ => false
  | _ => true

/-- `GetRequest_DataType_Name`. -/
def DataType.name : DataType -> Str
  | .all => "ALL".toList
  | .config => "CONFIG".toList
  | .state => "STATE".toList
  | .operational => "OPERATIONAL".toList
  | .unrecognized _ => []

inductive SubscriptionMode where
  | targetDefined
  | onChange
  | sample
  | unrecognized (number : Int)
deriving DecidableEq

inductive SubscriptionListMode where
  | stream
  | once
  | poll
  | unrecognized (number : Int)
deriving DecidableEq

inductive Operation where
  | invalid
  | delete
  | replace
  | update
  | unionReplace
deriving DecidableEq

/-! ## Requests and responses -/

structure Update where
  path : Option Path := none
  val : Option TypedValue := none
deriving DecidableEq

namespace Update

/-- `u.path()`, the default message when the field is absent. -/
def getPath (u : Update) : Path := u.path.getD {}

/-- `u.val()`. -/
def getVal (u : Update) : TypedValue := u.val.getD .unset

end Update

structure Notification where
  timestamp : Int := 0
  pathPrefix : Path := {}
  update : List Update := []
  delete : List Path := []
  atomic : Bool := false
deriving DecidableEq

structure Subscription where
  path : Path := {}
  mode : SubscriptionMode := .targetDefined
  sampleInterval : UInt64 := 0
  heartbeatInterval : UInt64 := 0
deriving DecidableEq

structure SubscriptionList where
  pathPrefix : Option Path := none
  subscription : List Subscription := []
  mode : SubscriptionListMode := .stream
  encoding : Encoding := .json
  updatesOnly : Bool := false
deriving DecidableEq

/-- The `request` oneof of `SubscribeRequest`. -/
inductive SubscribeContent where
  | notSet
  | subscribe (list : SubscriptionList)
  | poll
deriving DecidableEq

structure SubscribeRequest where
  request : SubscribeContent := .notSet
  extensionSize : Nat := 0
deriving DecidableEq

inductive SubscribeResponse where
  | update (notification : Notification)
  | syncResponse
deriving DecidableEq

structure GetRequest where
  pathPrefix : Option Path := none
  path : List Path := []
  type : DataType := .all
  encoding : Encoding := .json
  useModelsSize : Nat := 0
  extensionSize : Nat := 0
deriving DecidableEq

structure SetRequest where
  pathPrefix : Option Path := none
  delete : List Path := []
  replace : List Update := []
  update : List Update := []
  unionReplace : List Update := []
  extensionSize : Nat := 0
deriving DecidableEq

structure UpdateResult where
  path : Path := {}
  op : Operation := .invalid
deriving DecidableEq

structure SetResponse where
  pathPrefix : Option Path := none
  response : List UpdateResult := []
  timestamp : Int := 0
deriving DecidableEq

end Gnmi
end PscMockServer
