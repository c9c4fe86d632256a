import Smply.Systems.Run
import Smply.Smp.Client

namespace Smply.Smp

open Systems

/-- A function that has not returned, by what it has still to do. `request` and `cancel` run in one step. -/
inductive Frame where
  | callback
  | deliver (batch : List Deferred)
  | snapshot (now : TimePoint)
  | sweep (expired : List RequestHandle)
  | failAll (slot : Nat) (error : Error)
  | rebind (transport : Nat)
  | feed (input : Bytes)

inductive Call where
  | request (spec : RequestSpec) (callback : Bool) (sent : Result Unit) (now : TimePoint)
  | cancel (handle : RequestHandle)
  | defer (work : Option Nat)
  | poll (now : TimePoint)
  | rebindTransport (transport : Nat)
  | onBytes (bytes : Bytes)
  | onTransportError (error : Error)
  | onDisconnected (error : Error)
  | destroy

/-- Whoever has control calls in, or the innermost function goes on. -/
inductive Event where
  | call (call : Call)
  | proceed

inductive Output where
  | quiet
  | requested (handle : RequestHandle)
  | completed (callback : Callback) (result : Result RawResponse)
  | worked (work : Nat)

/-- What one call of `request` was given, and the header sent. A callback's number is its place here. -/
structure Issued where
  spec : RequestSpec
  callback : Bool
  header : Option Header

structure World where
  client : SmpClient
  stack : List Frame := []
  requests : List Issued := []
  gone : Bool := false

namespace World

def callable (world : World) : Call → Bool
  | .destroy => world.stack.isEmpty && !world.gone
  | _ =>
    match world.stack with
    | [] => !world.gone
    | .callback :: _ => true
    | _ => false

def enter (world : World) : Call → Output × World
  | .request spec callback sent now =>
    let onResponse := if callback then some world.requests.length else none
    let (handle, header, client) := world.client.request spec onResponse sent now
    (.requested handle,
      { world with client := client, requests := world.requests ++ [⟨spec, callback, header⟩] })
  | .cancel handle => (.quiet, { world with client := world.client.cancel handle })
  | .defer none => (.quiet, world)
  | .defer (some work) => (.quiet, { world with client := world.client.deferWork (.work work) })
  | .poll now => (.quiet, { world with stack := .deliver [] :: .snapshot now :: .deliver [] :: world.stack })
  | .rebindTransport transport =>
    (.quiet, { world with
      stack := .failAll 0 (.at .disconnected "smp client: transport rebound") :: .rebind transport :: world.stack })
  | .onBytes bytes =>
    let client := world.client
    if client.assembler.feeding then
      (.quiet, { world with
        client := { client with stats := { client.stats with malformed := client.stats.malformed + 1 } }
        stack := .failAll 0 (.at .invalidState "assembler: reentrant feed") :: world.stack })
    else
      (.quiet, { world with
        client := { client with assembler := { client.assembler with feeding := true } }
        stack := .feed bytes :: world.stack })
  | .onTransportError error =>
    (.quiet, { world with client := { world.client with lastTransportError := some error } })
  | .onDisconnected error =>
    (.quiet, { world with
      client := { world.client with connected := false, assembler := world.client.assembler.reset }
      stack := .failAll 0 error :: world.stack })
  | .destroy =>
    (.quiet, { world with
      stack := .deliver [] :: .failAll 0 (.at .cancelled "smp client: destroyed") :: .deliver [] :: world.stack
      gone := true })

def goOn (world : World) (stack : List Frame) (completed : Option SmpClient.Completion × SmpClient) : Output × World :=
  match completed with
  | (none, client) => (.quiet, { world with client := client, stack := stack })
  | (some (callback, result), client) =>
    (.completed callback result, { world with client := client, stack := .callback :: stack })

variable (extractMgmtError : Bytes → Result MgmtOutcome)

def proceed (world : World) : Output × World :=
  let client := world.client
  match world.stack with
  | [] => (.quiet, world)
  | .callback :: stack => (.quiet, { world with stack := stack })
  | .deliver [] :: stack =>
    if client.deferred.isEmpty then
      (.quiet, { world with stack := stack })
    else
      (.quiet, { world with
        client := { client with deferred := [] }, stack := .deliver client.deferred :: stack })
  | .deliver (.fail callback error :: batch) :: stack =>
    (.completed callback (.error error), { world with stack := .callback :: .deliver batch :: stack })
  | .deliver (.work work :: batch) :: stack =>
    (.worked work, { world with stack := .callback :: .deliver batch :: stack })
  | .snapshot now :: stack => (.quiet, { world with stack := .sweep (client.expired now) :: stack })
  | .sweep [] :: stack => (.quiet, { world with stack := stack })
  | .sweep (handle :: expired) :: stack =>
    match client.resolve handle with
    | none => (.quiet, { world with stack := .sweep expired :: stack })
    | some (slot, entry) =>
      let client := { client with stats := { client.stats with timeouts := client.stats.timeouts + 1 } }
      world.goOn (.sweep expired :: stack)
        (client.complete slot entry (.error (.at .timeout "smp client: no response")))
  | .failAll slot error :: stack =>
    match client.pending[slot]? with
    | none => (.quiet, { world with stack := stack })
    | some entry =>
      if !entry.active then
        (.quiet, { world with stack := .failAll (slot + 1) error :: stack })
      else
        world.goOn (.failAll (slot + 1) error :: stack) (client.complete slot entry (.error error))
  | .rebind transport :: stack =>
    (.quiet, { world with
      client := { client with transport := transport, assembler := client.assembler.reset, connected := true }
      stack := stack })
  | .feed input :: stack =>
    match client.assembler.turn input with
    | .returned (.ok ()) assembler =>
      (.quiet, { world with
        client := { client with assembler := { assembler with feeding := false } }, stack := stack })
    | .returned (.error error) assembler =>
      (.quiet, { world with
        client := { client with
          assembler := { assembler with feeding := false }
          stats := { client.stats with malformed := client.stats.malformed + 1 } }
        stack := .failAll 0 error :: stack })
    | .delivered header payload assembler rest =>
      let client := { client with assembler := assembler }
      world.goOn (.feed rest :: stack) (client.onMessage extractMgmtError header payload)

/-- A call nobody is in a position to make changes nothing. -/
def step (world : World) : Event → Output × World
  | .call call => if world.callable call then world.enter call else (.quiet, world)
  | .proceed => world.proceed extractMgmtError

def start (transport : Nat) (config : SmpClientConfig) : World := { client := .new transport config }

end World

end Smply.Smp
