import Smply.Core.Error

namespace Smply

namespace Limits

def maxCborNesting : Nat := 14

end Limits

namespace Cbor

inductive Answer (α : Type) where
  | value (value : α)
  | labelNotFound
  | error

inductive ItemValue where
  | map
  | text (text : Bytes)
  | int64 (value : Int)
  | uint64 (value : UInt64)
  | other
  deriving DecidableEq

structure Item where
  label : Option Bytes
  value : ItemValue
  deriving DecidableEq

inductive Peeked where
  | item (item : Item)
  | noMoreItems
  | error

/-- The calls of QCBOR the reader makes, with their failures. Each item consumed leaves less of the input. -/
structure Qcbor (Context : Type) where
  init : Bytes → Context
  enterMap : Context → Bool × Context
  enterMapFromMap : String → Context → Bool × Context
  exitMap : Context → Bool × Context
  getUInt64 : String → Context → Answer UInt64 × Context
  getInt64 : String → Context → Answer Int × Context
  getBool : String → Context → Answer Bool × Context
  getTextString : String → Context → Answer Bytes × Context
  getByteString : String → Context → Answer Bytes × Context
  enterArray : String → Context → Answer Unit × Context
  exitArray : Context → Context
  peekNext : Context → Peeked
  getNext : Context → Option Item × Context
  getNextConsume : Context → Bool × Context
  rewind : Context → Context
  tell : Context → Nat
  left : Context → Nat
  consume_left : ∀ context, (getNextConsume context).1 = true → left (getNextConsume context).2 < left context

/-- How a call came out for the reader; an item of the wrong type is a failure. -/
inductive Met where
  | found
  | absent
  | failed
  deriving DecidableEq, Repr

/-- `met` lists what the reader's calls met, those of its children included. The source keeps no such list. -/
structure Reader (Context : Type) where
  context : Context
  input : Bytes
  error : Option Error := none
  maxNesting : Nat
  depth : Nat := 0
  met : List Met := []

abbrev Read (Context : Type) := StateM (Reader Context)

def maxKeyLength : Nat := 31

def badDecode (site : String) : Error := .at .cborDecode site

namespace Reader
variable {Context : Type} (qcbor : Qcbor Context)

def new (input : Bytes) (maxNesting : Nat) : Reader Context :=
  { context := qcbor.init input, input := input, maxNesting := maxNesting }

def poison (error : Error) : Read Context Error := do
  let reader ← get
  let first := reader.error.getD error
  set { reader with error := some first }
  return first

def record {α : Type} (error : Error) : Read Context (Result α) := return .error (← poison error)

def onSuccess {α β : Type} (step : Read Context (Result α)) (next : α → Read Context (Result β)) :
    Read Context (Result β) := do
  match ← step with
  | .error error => return .error error
  | .ok value => next value

def note (met : Met) : Read Context Unit := modify fun reader => { reader with met := reader.met ++ [met] }

def status : Read Context (Result Unit) := do
  match (← get).error with
  | some error => return .error error
  | none => return .ok ()

def call {α : Type} (function : Context → α × Context) : Read Context α := do
  let reader ← get
  let (result, context) := function reader.context
  set { reader with context := context }
  return result

def attempt (function : Context → Bool × Context) : Read Context Bool := do
  let succeeded ← call function
  note (if succeeded then .found else .failed)
  return succeeded

def consumeLookup {α : Type} (answer : Answer α) : Read Context (Option α) := do
  match answer with
  | .value value =>
    note .found
    return some value
  | .labelNotFound =>
    note .absent
    return none
  | .error =>
    note .failed
    let _ ← poison (badDecode "cbor reader: decode failed")
    return none

def getter {α : Type} (lookup : String → Context → Answer α × Context) (key : String) : Read Context (Option α) := do
  if (← get).error.isSome then
    return none
  else if key.utf8ByteSize > maxKeyLength then
    let _ ← poison (badDecode "cbor reader: key too long")
    return none
  else
    consumeLookup (← call (lookup key))

def uint (key : String) : Read Context (Option UInt64) := getter qcbor.getUInt64 key
def integer (key : String) : Read Context (Option Int) := getter qcbor.getInt64 key
def boolean (key : String) : Read Context (Option Bool) := getter qcbor.getBool key
def text (key : String) : Read Context (Option Bytes) := getter qcbor.getTextString key
def bytes (key : String) : Read Context (Option Bytes) := getter qcbor.getByteString key

def descend : Read Context Unit := modify fun reader => { reader with depth := reader.depth + 1 }
def ascend : Read Context Unit := modify fun reader => { reader with depth := reader.depth - 1 }

def guarded {α : Type} (key : String) (enter : Read Context (Result α)) : Read Context (Result α) := do
  let reader ← get
  match reader.error with
  | some error => return .error error
  | none =>
    if reader.depth ≥ reader.maxNesting then
      record (badDecode "cbor reader: nesting limit")
    else if key.utf8ByteSize > maxKeyLength then
      record (badDecode "cbor reader: key too long")
    else
      enter

def enterMap : Read Context (Result Unit) :=
  guarded "" do
    if ← attempt qcbor.enterMap then
      descend
      return .ok ()
    else
      record (badDecode "cbor reader: not a map")

/-- `enter_map(key)`, a probe: that there is no such map is told to the caller alone, and not to `met`. -/
def enterMapKey (key : String) : Read Context (Result Unit) :=
  guarded key do
    if ← call (qcbor.enterMapFromMap key) then
      descend
      return .ok ()
    else
      return .error (badDecode "cbor reader: no such map")

def leaveMap : Read Context (Result Unit) := do
  if (← get).depth = 0 then
    record (badDecode "cbor reader: unbalanced leave_map")
  else
    ascend
    if ← attempt qcbor.exitMap then return .ok () else record (badDecode "cbor reader: exit map failed")

def enterArray {α : Type} (key : String) (absent : α) (walk : Read Context (Result α)) :
    Read Context (Result α) :=
  guarded key do
    match ← call (qcbor.enterArray key) with
    | .labelNotFound =>
      note .absent
      return .ok absent
    | .error =>
      note .failed
      record (badDecode "cbor reader: not an array")
    | .value () =>
      note .found
      descend
      let outcome ← walk
      ascend
      call fun context => ((), qcbor.exitArray context)
      return outcome

def inChild {α : Type} (first last : Nat) (work : Read Context α) : Read Context (α × Option Error) := do
  let reader ← get
  let (outcome, child) := work.run (new qcbor ((reader.input.drop first).take (last - first)) (reader.maxNesting - reader.depth))
  set { reader with met := reader.met ++ child.met }
  return (outcome, child.error)

section
variable {α : Type}

/-- The loop of `for_each_map_in_array`, with the elements it may still see. -/
def walkMaps (visit : α → Read Context (Result α)) : Nat → α → Read Context (Result α)
  | room, seen => do
    match qcbor.peekNext (← get).context with
    | .noMoreItems => return .ok seen
    | .error =>
      note .failed
      record (badDecode "cbor reader: array element unreadable")
    | .item item =>
      if item.value ≠ .map then
        note .failed
        record (badDecode "cbor reader: array element not a map")
      else
        match room with
        | 0 => record (badDecode "cbor reader: too many array elements")
        | room + 1 =>
          let first := qcbor.tell (← get).context
          if ← attempt qcbor.getNextConsume then
            let last := qcbor.tell (← get).context
            if first > last ∨ last > (← get).input.length then
              record (badDecode "cbor reader: array element out of bounds")
            else
              let (outcome, poison) ← inChild qcbor first last (onSuccess (enterMap qcbor) fun _ => visit seen)
              match outcome, poison with
              | .error error, _ => return .error error
              | .ok _, some error => record { code := error.code, where_ := error.where_ }
              | .ok seen, none => walkMaps visit room seen
          else
            record (badDecode "cbor reader: array element malformed")

def forEachMapInArray (key : String) (maxElements : Nat) (visit : α → Read Context (Result α)) (start : α) :
    Read Context (Result α) :=
  enterArray qcbor key start (walkMaps qcbor visit maxElements start)

def walkTexts (visit : α → Bytes → Result α) : Nat → α → Read Context (Result α)
  | room, seen => do
    match qcbor.peekNext (← get).context with
    | .noMoreItems => return .ok seen
    | .error =>
      note .failed
      record (badDecode "cbor reader: array element unreadable")
    | .item ⟨_, .text text⟩ =>
      match room with
      | 0 => record (badDecode "cbor reader: too many array elements")
      | room + 1 =>
        if ← attempt (fun context => ((qcbor.getNext context).1.isSome, (qcbor.getNext context).2)) then
          match visit seen text with
          | .error error => return .error error
          | .ok seen => walkTexts visit room seen
        else
          record (badDecode "cbor reader: array element malformed")
    | .item _ =>
      note .failed
      record (badDecode "cbor reader: array element not text")

def forEachTextInArray (key : String) (maxElements : Nat) (visit : α → Bytes → Result α) (start : α) :
    Read Context (Result (Option α)) :=
  enterArray qcbor key none do
    return (← walkTexts qcbor visit maxElements start).map some

inductive Entry where
  | absent
  | unreadable
  | notMap
  | malformed
  | range (first last : Nat)

def findEntry (key : Bytes) (context : Context) : Entry × List Met × Context :=
  match qcbor.peekNext context with
  | .noMoreItems => (.absent, [.absent], context)
  | .error => (.unreadable, [.failed], context)
  | .item item =>
    if item.label = some key ∧ item.value ≠ .map then
      (.notMap, [.failed], context)
    else if (qcbor.getNextConsume context).1 = true then
      let after := (qcbor.getNextConsume context).2
      if item.label = some key then
        (.range (qcbor.tell context) (qcbor.tell after), [.found], after)
      else
        let (entry, met, last) := findEntry key after
        (entry, .found :: met, last)
    else
      (.malformed, [.failed], (qcbor.getNextConsume context).2)
termination_by qcbor.left context
decreasing_by exact qcbor.consume_left context (by assumption)

def enterLabelledMap : Read Context (Result Unit) := do
  match ← call qcbor.getNext with
  | some ⟨_, .text _⟩ =>
    note .found
    enterMap qcbor
  | _ =>
    note .failed
    record (badDecode "cbor reader: map entry malformed")

def unsigned : ItemValue → Option UInt64
  | .int64 value => if 0 ≤ value then some (UInt64.ofNat value.toNat) else none
  | .uint64 value => some value
  | _ => none

def visitUintEntries (visit : α → Bytes → UInt64 → Result α) : Nat → α → Read Context (Result α)
  | room, seen => do
    match qcbor.peekNext (← get).context with
    | .noMoreItems => return .ok seen
    | .error =>
      note .failed
      record (badDecode "cbor reader: map entry unreadable")
    | .item item =>
      match item.label, unsigned item.value with
      | none, _ =>
        note .failed
        record (badDecode "cbor reader: map key not text")
      | some _, none =>
        note .failed
        record (badDecode "cbor reader: map value not unsigned")
      | some label, some value =>
        match room with
        | 0 => record (badDecode "cbor reader: too many map entries")
        | room + 1 =>
          if ← attempt (fun context => ((qcbor.getNext context).1.isSome, (qcbor.getNext context).2)) then
            match visit seen label value with
            | .error error => return .error error
            | .ok seen => visitUintEntries visit room seen
          else
            record (badDecode "cbor reader: map entry malformed")

def forEachUintInMap (key : String) (maxEntries : Nat) (visit : α → Bytes → UInt64 → Result α) (start : α) :
    Read Context (Result (Option α)) :=
  guarded key do
    call fun context => ((), qcbor.rewind context)
    let reader ← get
    let (entry, met, context) := findEntry qcbor key.toUTF8.toList reader.context
    set { reader with context := context, met := reader.met ++ met }
    match entry with
    | .unreadable => record (badDecode "cbor reader: map entry unreadable")
    | .malformed => record (badDecode "cbor reader: map entry malformed")
    | .notMap =>
      call fun context => ((), qcbor.rewind context)
      record (badDecode "cbor reader: not a map")
    | .absent =>
      call fun context => ((), qcbor.rewind context)
      return .ok none
    | .range first last =>
      call fun context => ((), qcbor.rewind context)
      if first > last ∨ last > reader.input.length then
        record (badDecode "cbor reader: map entry out of bounds")
      else
        let (outcome, poison) ← inChild qcbor first last
          (onSuccess (enterLabelledMap qcbor) fun _ => visitUintEntries qcbor visit maxEntries start)
        match poison, outcome with
        | some error, _ => record { code := error.code, where_ := error.where_ }
        | none, .error error => return .error error
        | none, .ok seen => return .ok (some seen)

end

end Reader

end Cbor

end Smply
