import Smply.Cbor.Reader

namespace Smply.Cbor

/-- A decoded item. The members of an array or a map stand with their label, if any, and their size in the input. -/
inductive Data where
  | unsigned (value : UInt64)
  | negative (below : UInt64)
  | bytes (bytes : Bytes)
  | text (text : Bytes)
  | array (members : List (Option Bytes × Nat × Data))
  | map (members : List (Option Bytes × Nat × Data))
  | bool (value : Bool)
  | other

abbrev Member := Option Bytes × Nat × Data

namespace Data

def argument (info : Nat) (rest : Bytes) : Option (Nat × Bytes) :=
  let width := 2 ^ (info - 24)
  if info < 24 then some (info, rest)
  else if info < 28 ∧ width ≤ rest.length then
    some ((rest.take width).foldl (fun value byte => value * 256 + byte.toNat) 0, rest.drop width)
  else none

def label : Data → Option Bytes
  | .text key => some key
  | _ => none

def members (item : Bytes → Option (Data × Bytes)) (labelled : Bool) : Nat → Bytes → Option (List Member × Bytes)
  | 0, input => some ([], input)
  | count + 1, input => do
    let (key, rest) ← if labelled then item input else some (.other, input)
    let (data, rest) ← item rest
    let (more, last) ← members item labelled count rest
    some ((key.label, input.length - rest.length, data) :: more, last)

def item : Nat → Bytes → Option (Data × Bytes)
  | 0, _ | _, [] => none
  | depth + 1, initial :: rest => do
    let (value, rest) ← argument (initial.toNat % 32) rest
    match initial.toNat / 32 with
    | 0 => some (.unsigned (.ofNat value), rest)
    | 1 => some (.negative (.ofNat value), rest)
    | 2 => if value ≤ rest.length then some (.bytes (rest.take value), rest.drop value) else none
    | 3 => if value ≤ rest.length then some (.text (rest.take value), rest.drop value) else none
    | 4 => (members (item depth) false value rest).map fun (inside, rest) => (.array inside, rest)
    | 5 => (members (item depth) true value rest).map fun (inside, rest) => (.map inside, rest)
    | 7 => some (if value = 20 then .bool false else if value = 21 then .bool true else .other, rest)
    | _ => none

def items : Nat → Bytes → List Member
  | 0, _ => []
  | fuel + 1, input =>
    match item (Limits.maxCborNesting + 2) input with
    | none => []
    | some (data, rest) => (none, input.length - rest.length, data) :: items fuel rest

def asInt64 : Data → Option Int
  | .unsigned value => if value.toNat < 2 ^ 63 then some value.toNat else none
  | .negative below => if below.toNat < 2 ^ 63 then some (-1 - below.toNat) else none
  | _ => none

def value (data : Data) : ItemValue :=
  match data with
  | .map _ => .map
  | .text content => .text content
  | .unsigned value => (data.asInt64.map ItemValue.int64).getD (.uint64 value)
  | .negative _ => (data.asInt64.map ItemValue.int64).getD .other
  | _ => .other

end Data

/-- What a cursor is inside of: all its members with the place of the first, and those still ahead. -/
structure Level where
  start : Nat
  members : List Member
  place : Nat := start
  ahead : List Member := members

namespace Level

def find (key : Bytes) : Nat → List Member → Option (Nat × Nat × Data)
  | _, [] => none
  | place, (label, size, data) :: more =>
    if label = some key then some (place, size, data) else find key (place + size) more

def inside (place size : Nat) (members : List Member) : Level where
  start := place + size - (members.map fun member => member.2.1).sum
  members := members

end Level

abbrev Cursor := List Level

namespace Cursor

def find (key : String) (cursor : Cursor) : Option (Nat × Nat × Data) :=
  cursor.head?.bind fun level => Level.find key.toUTF8.data.toList level.start level.members

def lookUp {α : Type} (kind : Data → Option α) (key : String) (cursor : Cursor) : Answer α × Cursor :=
  match cursor.find key with
  | none => (.labelNotFound, cursor)
  | some (_, _, data) => ((kind data).elim .error .value, cursor)

def peek (cursor : Cursor) : Option Member := cursor.head?.bind fun level => level.ahead.head?

def skip : Cursor → Cursor
  | [] => []
  | level :: outer =>
    match level.ahead with
    | [] => level :: outer
    | (_, size, _) :: ahead => { level with place := level.place + size, ahead := ahead } :: outer

end Cursor

open Cursor in
/-- QCBOR on input of definite lengths, decoded as a whole: what follows a malformed item is not there. -/
def document : Qcbor Cursor where
  init input := [{ start := 0, members := Data.items input.length input }]
  enterMap cursor :=
    match cursor.head?, cursor.peek with
    | some level, some (_, size, .map members) => (true, .inside level.place size members :: cursor.skip)
    | _, _ => (false, cursor)
  enterMapFromMap key cursor :=
    match cursor.find key with
    | some (place, size, .map members) => (true, .inside place size members :: cursor)
    | _ => (false, cursor)
  exitMap cursor := (true, cursor.tail)
  getUInt64 := lookUp fun | .unsigned value => some value | _ => none
  getInt64 := lookUp Data.asInt64
  getBool := lookUp fun | .bool value => some value | _ => none
  getTextString := lookUp fun | .text text => some text | _ => none
  getByteString := lookUp fun | .bytes bytes => some bytes | _ => none
  enterArray key cursor :=
    match cursor.find key with
    | none => (.labelNotFound, cursor)
    | some (place, size, .array members) => (.value (), .inside place size members :: cursor)
    | some _ => (.error, cursor)
  exitArray := List.tail
  peekNext cursor := cursor.peek.elim .noMoreItems fun (label, _, data) => .item ⟨label, data.value⟩
  getNext cursor := (cursor.peek.map fun (label, _, data) => ⟨label, data.value⟩, cursor.skip)
  getNextConsume cursor := (cursor.peek.isSome, cursor.skip)
  rewind cursor := cursor.modifyHead fun level => { level with place := level.start, ahead := level.members }
  tell cursor := cursor.head?.elim 0 Level.place
  left cursor := cursor.head?.elim 0 fun level => level.ahead.length
  consume_left := by
    intro cursor some_
    rcases cursor with _ | ⟨⟨start, members, place, _ | ⟨member, ahead⟩⟩, outer⟩
    · cases some_
    · cases some_
    · exact Nat.lt_succ_self _

/-- A text label of less than 24 bytes, and its value. -/
def field (label : String) (value : Bytes) : Bytes :=
  (0x60 + label.toUTF8.size.toUInt8) :: label.toUTF8.data.toList ++ value

end Smply.Cbor
