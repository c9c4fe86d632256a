import Smply.Systems.Run
import Smply.Upload.Session

namespace Smply.Upload

open Systems

structure FirstFields (Hash : Type) where
  image : Nat
  len : Nat
  sha : Option Hash
  upgrade : Bool

structure Packet (Hash : Type) where
  number : Nat
  off : Nat
  data : Bytes
  first : Option (FirstFields Hash)

structure Reply where
  number : Nat
  response : UploadResponse

structure Session (Hash : Type) where
  sha : Option Hash
  size : Nat
  off : Nat

structure Server (Hash : Type) where
  image : Bytes
  session : Option (Session Hash)

/-- What a server is free in: to refuse, to look for the file in the slot, to drop a chunk, to close a session, to
report an error late. -/
inductive Choice where
  | refuse (error : Error)
  | serve (check store close : Bool) (match_ : Option Bool) (fault : Option Error)

namespace Server

variable {Hash : Type} [DecidableEq Hash] (digest : Bytes → Hash)

def report (off : Nat) (match_ : Option Bool) : UploadResponse := { off := some off, match_ := match_ }

def refusal (error : Error) : UploadResponse := { failure := some error }

def write (server : Server Hash) (session : Session Hash) (data : Bytes) (store close : Bool)
    (match_ : Option Bool) : UploadResponse × Server Hash :=
  if session.off + data.length > session.size then
    (refusal { code := .protocolError }, server)
  else if !store then
    (report session.off none, server)
  else
    let off := session.off + data.length
    let stored := server.image.take session.off ++ data
    if off = session.size then
      (report off match_,
        { image := stored, session := if close then none else some { session with off := off } })
    else
      (report off none, { image := stored, session := some { session with off := off } })

def begin (server : Server Hash) (fields : FirstFields Hash) (data : Bytes) (check store close : Bool)
    (match_ : Option Bool) : UploadResponse × Server Hash :=
  if check && fields.sha = some (digest server.image) then
    (report fields.len (some true), { server with session := none })
  else
    let session : Session Hash := { sha := fields.sha, size := fields.len, off := 0 }
    ({ image := [], session := some session } : Server Hash).write session data store close match_

def handle (server : Server Hash) (packet : Packet Hash) (check store close : Bool) (match_ : Option Bool) :
    UploadResponse × Server Hash :=
  if packet.off = 0 then
    match packet.first, server.session with
    | none, _ => (refusal { code := .protocolError }, server)
    | some fields, none => server.begin digest fields packet.data check store close match_
    | some fields, some session =>
      if fields.sha.isSome && session.sha = fields.sha then
        (report session.off none, server)
      else
        server.begin digest fields packet.data check store close match_
  else
    match server.session with
    | none => (report 0 none, server)
    | some session =>
      if packet.off ≠ session.off then
        (report session.off none, server)
      else
        server.write session packet.data store close match_

def serve (server : Server Hash) (packet : Packet Hash) : Choice → UploadResponse × Server Hash
  | .refuse error => (refusal error, server)
  | .serve check store close match_ fault =>
    let (response, after) := server.handle digest packet check store close match_
    match fault with
    | none => (response, after)
    | some error => (refusal error, after)

def rewind (server : Server Hash) (off : Nat) : Server Hash :=
  match server.session with
  | none => server
  | some session =>
    if off < session.off && session.off < session.size then
      { image := server.image.take off, session := some { session with off := off } }
    else
      server

end Server

structure UploadResult where
  transferred : Nat
  alreadyPresent : Bool
  match_ : Option Bool
  deriving DecidableEq, Repr

/-- The driver, the link and the server. `outstanding` is the request whose callback the client still holds. -/
structure Net (Hash : Type) where
  state : UploadState := {}
  started : Bool := false
  active : Bool := false
  outcome : Option (Result UploadResult) := none
  outstanding : Option Nat := none
  nextNumber : Nat := 0
  requests : List (Packet Hash) := []
  replies : List Reply := []
  server : Server Hash

/-- `unread` is set where the source cannot be read for the request that follows. -/
inductive NetEvent where
  | start (unread : Option Error)
  | restart (unread : Option Error)
  | loseRequest (index : Nat)
  | loseReply (index : Nat)
  | serve (choice : Choice)
  | loseSession
  | rewind (off : Nat)
  | deliver (index : Nat) (unread : Option Error)
  | fail (error : Error) (unread : Option Error)

namespace Net

variable {Hash : Type} (source : Bytes) (config : UploadConfig Hash)

def readChunk (request : UploadRequest) (unread : Option Error) : Result Bytes :=
  match unread with
  | some error => .error error
  | none =>
    let read := (source.drop request.off).take request.length
    if read.length ≠ request.length then
      .error (.at .invalidArgument "upload: source returned a short read")
    else
      .ok read

def finish (net : Net Hash) (outcome : Result UploadResult) : Net Hash :=
  if !net.active then net else { net with active := false, outcome := some outcome }

def firstFields : FirstFields Hash :=
  { image := config.image, len := config.imageSize, sha := config.sha, upgrade := config.upgradeOnly }

def send (net : Net Hash) (request : UploadRequest) (unread : Option Error) : Net Hash :=
  match readChunk source request unread with
  | .error error => net.finish (.error error)
  | .ok data =>
    let packet : Packet Hash :=
      { number := net.nextNumber, off := request.off, data := data
        first := if request.firstPacket then some (firstFields config) else none }
    { net with
      state := recordSent net.state request
      outstanding := some net.nextNumber
      nextNumber := net.nextNumber + 1
      requests := net.requests ++ [packet] }

def advance (net : Net Hash) (step : Step) (unread : Option Error) : Net Hash :=
  match step with
  | .sendChunk request => net.send source config request unread
  | .complete match_ onFirstPacket =>
    net.finish (.ok { transferred := net.state.confirmedOff, alreadyPresent := onFirstPacket, match_ := match_ })
  | .fail error => net.finish (.error error)
  | .suspend error => net.finish (.error error)

def handle (net : Net Hash) (response : UploadResponse) (unread : Option Error) : Option Step × Net Hash :=
  if !net.active then
    (none, { net with outstanding := none })
  else
    let (step, state) := onResponse config net.state response
    (some step, { net with state := state, outstanding := none }.advance source config step unread)

variable [DecidableEq Hash] (digest : Bytes → Hash)

/-- Requests arrive in order. The client takes only the reply to the request it waits for. -/
def step (net : Net Hash) : NetEvent → Option Step × Net Hash
  | .start unread =>
    if net.started then
      (none, net)
    else
      let step := planNext config net.state
      (some step, { net with started := true, active := true }.advance source config step unread)
  | .restart unread =>
    if net.state.phase ≠ .suspended then
      (none, net)
    else
      let (step, state) := resume config net.state
      (some step, { net with state := state, active := true }.advance source config step unread)
  | .loseRequest index => (none, { net with requests := net.requests.eraseIdx index })
  | .loseReply index => (none, { net with replies := net.replies.eraseIdx index })
  | .serve choice =>
    match net.requests with
    | [] => (none, net)
    | packet :: requests =>
      let (response, server) := net.server.serve digest packet choice
      (none, { net with
        requests := requests, replies := net.replies ++ [⟨packet.number, response⟩], server := server })
  | .loseSession => (none, { net with server := { net.server with session := none } })
  | .rewind off => (none, { net with server := net.server.rewind off })
  | .deliver index unread =>
    match net.replies[index]? with
    | none => (none, net)
    | some reply =>
      let net := { net with replies := net.replies.eraseIdx index }
      if net.outstanding = some reply.number then
        net.handle source config reply.response unread
      else
        (none, net)
  | .fail error unread =>
    if net.outstanding = none then
      (none, net)
    else
      net.handle source config { failure := some error } unread

end Net

end Smply.Upload
