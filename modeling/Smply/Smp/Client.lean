import Smply.Smp.Assembler

namespace Smply.Smp

structure SmpClientConfig where
  smpVersion : Version := .v1
  defaultTimeout : Duration := 5000
  maxSmpPayload : UInt16 := 8192
  maxAssemblyBytes : Nat := 16 * 1024
  maxInFlight : UInt8 := 1
  maxRetiredSeqs : UInt8 := 64
  deriving DecidableEq, Repr

structure RequestHandle where
  slot : Nat := 0
  generation : UInt64 := 0
  deriving DecidableEq, Repr

def RequestHandle.valid (handle : RequestHandle) : Bool := handle.generation != 0

structure RawResponse where
  header : Header
  payload : Bytes
  deriving DecidableEq, Repr

structure RequestSpec where
  op : Operation := .read
  group : Group := 0
  command : UInt8 := 0
  payload : Bytes := []
  timeout : Option Duration := none
  deriving DecidableEq, Repr

structure SmpClientStats where
  sent : UInt64 := 0
  received : UInt64 := 0
  unmatched : UInt64 := 0
  late : UInt64 := 0
  mismatched : UInt64 := 0
  timeouts : UInt64 := 0
  cancelled : UInt64 := 0
  malformed : UInt64 := 0
  deriving DecidableEq, Repr

/-- A function object handed to the client, by its number; an empty one is `none`. -/
abbrev Callback := Nat

structure Pending where
  active : Bool := false
  generation : UInt64 := 0
  seq : UInt8 := 0
  group : Group := 0
  command : UInt8 := 0
  expectedOp : Operation := .read
  deadline : TimePoint := 0
  callback : Option Callback := none
  deriving DecidableEq, Repr

/-- What `deferred_` queues: a failure for a callback, or work a layer above handed to `defer`. -/
inductive Deferred where
  | fail (callback : Callback) (error : Error)
  | work (work : Nat)
  deriving DecidableEq, Repr

structure MgmtOutcome where
  error : Option MgmtError := none
  reason : Bytes := []
  deriving DecidableEq, Repr

structure SmpClient where
  transport : Nat
  config : SmpClientConfig
  assembler : MessageAssembler
  pending : List Pending
  deferred : List Deferred := []
  retiredFlags : UInt8 → Bool := fun _ => false
  retiredRing : List UInt8 := []
  retiredHead : Nat := 0
  nextSeq : UInt8 := 0
  nextGeneration : UInt64 := 1
  connected : Bool := true
  lastTransportError : Option Error := none
  stats : SmpClientStats := {}

namespace SmpClient

def new (transport : Nat) (config : SmpClientConfig) : SmpClient where
  transport := transport
  config := config
  assembler := { limits := { maxPayload := config.maxSmpPayload, maxBuffer := config.maxAssemblyBytes } }
  pending := List.replicate (max 1 config.maxInFlight.toNat) {}

def entryAt (client : SmpClient) (slot : Nat) : Option (Nat × Pending) :=
  client.pending[slot]?.map fun entry => (slot, entry)

def resolve (client : SmpClient) (handle : RequestHandle) : Option (Nat × Pending) :=
  if !handle.valid || handle.slot ≥ client.pending.length then
    none
  else
    match client.entryAt handle.slot with
    | none => none
    | some (slot, entry) =>
      if !entry.active || entry.generation != handle.generation then none else some (slot, entry)

def findBySeq (client : SmpClient) (seq : UInt8) : Option (Nat × Pending) :=
  (client.pending.findIdx? fun entry => entry.active && entry.seq == seq).bind client.entryAt

def freeSlot (client : SmpClient) : Option Nat := client.pending.findIdx? fun entry => !entry.active

def isRetired (client : SmpClient) (seq : UInt8) : Bool := client.retiredFlags seq

def setFlag (flags : UInt8 → Bool) (seq : UInt8) (flag : Bool) : UInt8 → Bool :=
  fun other => if other = seq then flag else flags other

def retire (client : SmpClient) (seq : UInt8) : SmpClient :=
  if client.config.maxRetiredSeqs = 0 then
    client
  else if client.retiredFlags seq then
    client
  else if client.retiredRing.length = client.config.maxRetiredSeqs.toNat then
    let oldest := client.retiredRing.getD client.retiredHead 0
    { client with
      retiredFlags := setFlag (setFlag client.retiredFlags oldest false) seq true
      retiredRing := client.retiredRing.set client.retiredHead seq
      retiredHead := (client.retiredHead + 1) % client.retiredRing.length }
  else
    { client with
      retiredFlags := setFlag client.retiredFlags seq true
      retiredRing := client.retiredRing ++ [seq] }

/-- All 256 candidates are tried once, from the next number on; the sum wraps as the source's `% 256` does. -/
def allocateSeq (client : SmpClient) : Option (UInt8 × SmpClient) :=
  let candidates := (List.range 256).map fun attempt => client.nextSeq + UInt8.ofNat attempt
  match candidates.find? fun seq => (client.findBySeq seq).isNone && !client.isRetired seq with
  | none => none
  | some candidate => some (candidate, { client with nextSeq := candidate + 1 })

def deferWork (client : SmpClient) (work : Deferred) : SmpClient :=
  { client with deferred := client.deferred ++ [work] }

def defer (client : SmpClient) (callback : Option Callback) (error : Error) : SmpClient :=
  match callback with
  | none => client
  | some callback => client.deferWork (.fail callback error)

def detach (client : SmpClient) (slot : Nat) (entry : Pending) : Option Callback × SmpClient :=
  (entry.callback,
    { client with pending := client.pending.set slot { entry with active := false, callback := none } }.retire
      entry.seq)

/-- The handle, the header sent, and the client. `sent` is `Transport::send`'s answer; it delivers nothing before it
returns. -/
def request (client : SmpClient) (spec : RequestSpec) (onResponse : Option Callback) (sent : Result Unit)
    (now : TimePoint) : RequestHandle × Option Header × SmpClient :=
  if !client.connected then
    ({}, none, client.defer onResponse (.at .disconnected "smp client: link is down"))
  else if spec.payload.length > client.config.maxSmpPayload.toNat then
    ({}, none, client.defer onResponse (.at .messageTooLarge "smp client: payload exceeds limit"))
  else
    match client.freeSlot with
    | none => ({}, none, client.defer onResponse (.at .invalidState "smp client: too many requests in flight"))
    | some slot =>
      match client.allocateSeq with
      | none => ({}, none, client.defer onResponse (.at .invalidState "smp client: no free sequence number"))
      | some (seq, client) =>
        let header : Header :=
          { op := spec.op, version := client.config.smpVersion, flags := 0,
            length := UInt16.ofNat spec.payload.length, group := spec.group, seq := seq, command := spec.command }
        match sent with
        | .error error => ({}, some header, (client.retire seq).defer onResponse error)
        | .ok () =>
          let entry : Pending :=
            { active := true, generation := client.nextGeneration, seq := seq, group := spec.group,
              command := spec.command, expectedOp := responseTo spec.op,
              deadline := now + spec.timeout.getD client.config.defaultTimeout, callback := onResponse }
          ({ slot := slot, generation := client.nextGeneration }, some header,
            { client with
              pending := client.pending.set slot entry
              nextGeneration := client.nextGeneration + 1
              stats := { client.stats with sent := client.stats.sent + 1 } })

def cancel (client : SmpClient) (handle : RequestHandle) : SmpClient :=
  match client.resolve handle with
  | none => client
  | some (slot, entry) =>
    let client := { client with stats := { client.stats with cancelled := client.stats.cancelled + 1 } }
    let (callback, client) := client.detach slot entry
    client.defer callback (.at .cancelled "smp client: cancelled")

abbrev Completion := Callback × Result RawResponse

def complete (client : SmpClient) (slot : Nat) (entry : Pending) (result : Result RawResponse) :
    Option Completion × SmpClient :=
  let (callback, client) := client.detach slot entry
  (callback.map fun callback => (callback, result), client)

def expired (client : SmpClient) (now : TimePoint) : List RequestHandle :=
  (client.pending.zipIdx.filter fun (entry, _) => entry.active && entry.deadline ≤ now).map
    fun (entry, slot) => { slot := slot, generation := entry.generation }

section
variable (extractMgmtError : Bytes → Result MgmtOutcome)

def interpret (header : Header) (payload : Bytes) : Result RawResponse :=
  if isUserDefined header.group then
    .ok ⟨header, payload⟩
  else
    match extractMgmtError payload with
    | .error error => .error error
    | .ok outcome =>
      match outcome.error with
      | none => .ok ⟨header, payload⟩
      | some mgmt =>
        let error : Error := { code := .protocolError, mgmt := some mgmt, where_ := some "smp client" }
        .error (if outcome.reason.isEmpty then error else { error with reason := outcome.reason })

def onMessage (client : SmpClient) (header : Header) (payload : Bytes) : Option Completion × SmpClient :=
  let client := { client with stats := { client.stats with received := client.stats.received + 1 } }
  match client.findBySeq header.seq with
  | none =>
    if client.isRetired header.seq then
      (none, { client with stats := { client.stats with late := client.stats.late + 1 } })
    else
      (none, { client with stats := { client.stats with unmatched := client.stats.unmatched + 1 } })
  | some (slot, entry) =>
    if header.group ≠ entry.group || header.command ≠ entry.command || header.op ≠ entry.expectedOp then
      (none, { client with stats := { client.stats with mismatched := client.stats.mismatched + 1 } })
    else
      client.complete slot entry (interpret extractMgmtError header payload)

end

end SmpClient

end Smply.Smp
