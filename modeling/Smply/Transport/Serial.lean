import Smply.Transport.Base64
import Smply.Transport.Crc16

namespace Smply.Transport

def packetMarker : Bytes := [0x06, 0x09]
def fragmentMarker : Bytes := [0x04, 0x14]

def maxFrame : Nat := 127
def markerSize : Nat := 2
def terminatorSize : Nat := 1
def maxBase64PerFrame : Nat := maxFrame - markerSize - terminatorSize
def maxRawPerFrame : Nat := maxBase64PerFrame / 4 * 3
def maxSerialPacket : Nat := 65533

def newline : UInt8 := '\n'.toUInt8
def carriageReturn : UInt8 := '\r'.toUInt8

structure FramePlan where
  triplets : Nat
  carriesCrc : Bool

def planFrame (packetSize offset : Nat) (first : Bool) : FramePlan :=
  let budget := if first then maxRawPerFrame - 3 else maxRawPerFrame
  let off := if first then offset + 1 else offset
  let left := packetSize - off
  let toProcess := if left < budget then left else budget
  if budget ≥ left then
    if budget - left ≤ 1 then
      ⟨(toProcess - 1) / 3, false⟩
    else
      ⟨toProcess / 3, true⟩
  else
    ⟨toProcess / 3, false⟩

structure SerialFramer where
  packet : Bytes
  crc : UInt16
  offset : Nat := 0
  first : Bool := true

namespace SerialFramer

/-- A packet that is too large is taken for an empty one. -/
def new (packet : Bytes) : SerialFramer :=
  let packet := if packet.length > maxSerialPacket then [] else packet
  { packet := packet, crc := crc16Xmodem 0 packet }

def done (framer : SerialFramer) : Bool := framer.offset ≥ framer.packet.length

def encodeTriplets (room : Nat) : Nat → Bytes × SerialFramer → Bytes × SerialFramer
  | 0, written => written
  | triplets + 1, (out, framer) =>
    let group := (framer.packet.drop framer.offset).take 3
    encodeTriplets room triplets
      (out ++ base64Encode group (room - out.length), { framer with offset := framer.offset + 3 })

def encodeTail (framer : SerialFramer) (room : Nat) : Bytes × SerialFramer :=
  let crcHi := ((framer.crc >>> 8) &&& 0xFF).toUInt8
  let crcLo := (framer.crc &&& 0xFF).toUInt8
  let tail := framer.packet.length - framer.offset
  if tail = 0 then
    (base64Encode [crcHi, crcLo] room, framer)
  else if tail = 1 then
    (base64Encode [framer.packet.getD framer.offset 0, crcHi, crcLo] room, { framer with offset := framer.offset + 1 })
  else
    let group := [framer.packet.getD framer.offset 0, framer.packet.getD (framer.offset + 1) 0, crcHi]
    let written := base64Encode group room
    (written ++ base64Encode [crcLo] (room - written.length), { framer with offset := framer.offset + 2 })

/-- `next_frame` into a buffer of `room` bytes: what it writes. -/
def nextFrame (framer : SerialFramer) (room : Nat) : Bytes × SerialFramer :=
  if framer.done ∨ room < maxFrame then
    ([], framer)
  else
    let plan := planFrame framer.packet.length framer.offset framer.first
    let marker := if framer.first then packetMarker else fragmentMarker
    let declared := UInt16.ofNat (framer.packet.length + 2)
    let opened : Bytes × SerialFramer :=
      if framer.first then
        (marker ++ base64Encode (bigEndian declared ++ [framer.packet.getD 0 0]) (room - marker.length),
          { framer with offset := framer.offset + 1 })
      else
        (marker, framer)
    let (out, framer) := encodeTriplets room plan.triplets opened
    let (tail, framer) := if plan.carriesCrc then framer.encodeTail (room - out.length) else ([], framer)
    (out ++ tail ++ [newline], { framer with first := false })

theorem planFrame_moves {packetSize offset : Nat} (inside : offset < packetSize)
    (goesOn : (planFrame packetSize offset false).carriesCrc = false) :
    0 < (planFrame packetSize offset false).triplets := by
  simp only [planFrame, maxRawPerFrame, maxBase64PerFrame, maxFrame, markerSize, terminatorSize] at goesOn ⊢
  simp only [Bool.false_eq_true, ↓reduceIte] at goesOn ⊢
  split at goesOn
  · split at goesOn
    · rename_i fits tight
      rw [if_pos fits, if_pos tight]
      show 0 < _ / 3
      split <;> omega
    · cases goesOn
  · rename_i wide
    rw [if_neg wide]
    show 0 < _ / 3
    split <;> omega

def countFrom (size off : Nat) (first : Bool) : Nat :=
  if off < size then
    let plan := planFrame size off first
    let next := (if first then off + 1 else off) + 3 * plan.triplets
    1 + countFrom size (if plan.carriesCrc then size else next) false
  else
    0
termination_by size - off
decreasing_by
  rename_i inside
  cases carries : (planFrame size off first).carriesCrc with
  | true =>
    simp only [↓reduceDIte]
    omega
  | false =>
    cases first with
    | true =>
      simp only [Bool.false_eq_true, ↓reduceDIte]
      omega
    | false =>
      have moves := planFrame_moves inside carries
      simp only [Bool.false_eq_true, ↓reduceDIte]
      omega

def count (framer : SerialFramer) : Nat := countFrom framer.packet.length 0 true

/-- The loop of `frame_message`, for so many turns: the frames it writes into a buffer with so much room left. -/
def writeFrames : Nat → Nat → SerialFramer → Option (List Bytes)
  | turns, room, framer =>
    if framer.done then
      some []
    else
      match turns with
      | 0 => none
      | turns + 1 =>
        let (frame, framer) := framer.nextFrame room
        (writeFrames turns (room - frame.length) framer).map (frame :: ·)

end SerialFramer

/-- The frames `frame_message` writes, if `count` turns suffice. -/
def messageFrames (message : Bytes) : Option (List Bytes) :=
  let framer := SerialFramer.new message
  framer.writeFrames framer.count (framer.count * maxFrame)

def frameMessage (message : Bytes) : Option Bytes := (messageFrames message).map List.flatten

structure LineSplitter where
  line : Bytes := []
  maxLine : Nat := maxFrame
  dropped : Nat := 0
  discarding : Bool := false

def LineSplitter.nextLine (splitter : LineSplitter) : Bytes → Option Bytes × Bytes × LineSplitter
  | [] => (none, [], splitter)
  | value :: chunk =>
    if value ≠ newline then
      if splitter.discarding then
        splitter.nextLine chunk
      else if splitter.line.length = splitter.maxLine then
        nextLine { splitter with line := [], discarding := true } chunk
      else
        nextLine { splitter with line := splitter.line ++ [value] } chunk
    else if splitter.discarding then
      nextLine { splitter with discarding := false, dropped := splitter.dropped + 1 } chunk
    else
      let ready := if splitter.line.getLast? = some carriageReturn then splitter.line.dropLast else splitter.line
      (some ready, chunk, { splitter with line := [] })

structure SerialCounters where
  ignored : UInt64 := 0
  crcFailures : UInt64 := 0
  framingErrors : UInt64 := 0
  packets : UInt64 := 0

structure SerialDeframer where
  buffer : Bytes := []
  maxPacket : Nat
  declared : Nat := 0
  ready : Nat := 0
  peak : Nat := 0
  counters : SerialCounters := {}

namespace SerialDeframer

inductive Outcome where
  | needMore
  | packet
  | ignored
  | error
  deriving DecidableEq, Repr

variable (deframer : SerialDeframer)

def fail : Outcome × SerialDeframer :=
  (.error, { deframer with
    buffer := [], declared := 0
    counters := { deframer.counters with framingErrors := deframer.counters.framingErrors + 1 } })

def ignore : Outcome × SerialDeframer :=
  (.ignored, { deframer with counters := { deframer.counters with ignored := deframer.counters.ignored + 1 } })

def decodeIntoBuffer (body : Bytes) : Option SerialDeframer :=
  if body.length > maxBase64PerFrame then
    none
  else
    match base64Decode body maxRawPerFrame with
    | none => none
    | some decoded =>
      if deframer.declared ≠ 0 ∧ deframer.buffer.length + decoded.length > deframer.declared then
        none
      else
        let buffer := deframer.buffer ++ decoded
        some { deframer with buffer := buffer, peak := if buffer.length > deframer.peak then buffer.length else deframer.peak }

/-- On failure `fail` clears what this has changed already. -/
def takeDeclaredLength : Option SerialDeframer :=
  match deframer.buffer with
  | high :: low :: rest =>
    let declared := high.toNat <<< 8 ||| low.toNat
    if declared ≤ 2 ∨ declared > deframer.maxPacket then
      none
    else if rest.length ≤ declared then
      some { deframer with buffer := rest, declared := declared }
    else
      none
  | _ => none

/-- The checks of `feed_line` once a frame is in the buffer. -/
def conclude : Outcome × SerialDeframer :=
  if deframer.buffer.length < deframer.declared then
    (.needMore, deframer)
  else if deframer.buffer.length > deframer.declared then
    deframer.fail
  else if crc16Xmodem 0 deframer.buffer ≠ 0 then
    (.error, { deframer with
      buffer := [], declared := 0
      counters := { deframer.counters with crcFailures := deframer.counters.crcFailures + 1 } })
  else
    (.packet, { deframer with
      ready := deframer.buffer.length - 2, declared := 0
      counters := { deframer.counters with packets := deframer.counters.packets + 1 } })

def refresh : SerialDeframer := if deframer.ready ≠ 0 then { deframer with buffer := [], ready := 0 } else deframer

def takeFrame (starts : Bool) (body : Bytes) : Outcome × SerialDeframer :=
  match deframer.decodeIntoBuffer body with
  | none => deframer.fail
  | some decoded =>
    match if starts then decoded.takeDeclaredLength else some decoded with
    | none => decoded.fail
    | some deframer => deframer.conclude

def feedLine (line : Bytes) : Outcome × SerialDeframer :=
  let deframer := deframer.refresh
  if line.length < markerSize then
    deframer.ignore
  else if line.take markerSize = packetMarker then
    { deframer with buffer := [], declared := 0 }.takeFrame true (line.drop markerSize)
  else if line.take markerSize = fragmentMarker then
    if deframer.buffer.isEmpty then deframer.fail else deframer.takeFrame false (line.drop markerSize)
  else
    deframer.ignore

def packet : Bytes := deframer.buffer.take deframer.ready

end SerialDeframer

theorem LineSplitter.nextLine_shorter {splitter after : LineSplitter} {chunk rest line : Bytes}
    (found : splitter.nextLine chunk = (some line, rest, after)) : rest.length < chunk.length := by
  induction chunk generalizing splitter with
  | nil => simp [nextLine] at found
  | cons value chunk ih =>
    rw [nextLine] at found
    have later {next : LineSplitter} (here : next.nextLine chunk = (some line, rest, after)) :
        rest.length < (value :: chunk).length := Nat.lt_succ_of_lt (ih here)
    split at found
    · split at found
      · exact later found
      split at found
      · exact later found
      · exact later found
    · split at found
      · exact later found
      · cases found
        exact Nat.lt_succ_self _

structure SerialInbound where
  splitter : LineSplitter := {}
  deframer : SerialDeframer

namespace SerialInbound

def new (maxPacket : Nat) : SerialInbound := { deframer := { maxPacket := maxPacket } }

def feed (inbound : SerialInbound) (chunk : Bytes) : List Bytes × SerialInbound :=
  match _found : inbound.splitter.nextLine chunk with
  | (none, _, splitter) => ([], { inbound with splitter := splitter })
  | (some line, rest, splitter) =>
    let (outcome, deframer) := inbound.deframer.feedLine line
    let (later, after) := feed ⟨splitter, deframer⟩ rest
    (if outcome = .packet then deframer.packet :: later else later, after)
termination_by chunk.length
decreasing_by exact LineSplitter.nextLine_shorter _found

def feedAll (inbound : SerialInbound) : List Bytes → List Bytes × SerialInbound
  | [] => ([], inbound)
  | chunk :: chunks =>
    let (first, inbound) := inbound.feed chunk
    let (later, inbound) := inbound.feedAll chunks
    (first ++ later, inbound)

end SerialInbound

end Smply.Transport
