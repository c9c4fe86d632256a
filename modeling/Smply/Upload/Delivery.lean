import Smply.Upload.Protocol

namespace Smply.Upload

open Systems List

variable {data : Bytes} {Hash : Type}

structure Setup (source : Bytes) (config : UploadConfig Hash) (digest : Bytes → Hash) : Prop where
  size : config.imageSize = source.length
  nonempty : 0 < source.length
  sha : ∀ sha, config.sha = some sha → sha = digest source

structure Packet.Honest (source : Bytes) (config : UploadConfig Hash) (packet : Packet Hash) : Prop where
  data : packet.data = (source.drop packet.off).take packet.data.length
  first : packet.first = if packet.off = 0 then some (Net.firstFields config) else none

structure Session.Stores (source image : Bytes) (session : Session Hash) : Prop where
  image : image = source.take session.off
  bound : session.off ≤ source.length
  size : session.size = source.length

namespace Server

def Holds (source : Bytes) (server : Server Hash) : Prop :=
  ∀ session, server.session = some session → session.Stores source server.image

/-- A session tagged with the file's hash has only ever been given that file. -/
def Trusty (source : Bytes) (digest : Bytes → Hash) (server : Server Hash) : Prop :=
  ∀ session, server.session = some session → session.sha = some (digest source) → session.Stores source server.image

structure Stored (source : Bytes) (server : Server Hash) : Prop where
  image : server.image = source
  finished : ∀ session, server.session = some session → session.off = session.size

structure Served (source : Bytes) (response : UploadResponse) (after : Server Hash) : Prop where
  holds : after.Holds source
  report : response.failure = none →
    ∃ off, response.off = some off ∧ (off = source.length → after.Stored source)

variable {source : Bytes} {digest : Bytes → Hash} {config : UploadConfig Hash}

theorem Holds.trusty {server : Server Hash} (holds : server.Holds source) : server.Trusty source digest :=
  fun session found _ => holds session found

section
variable {server : Server Hash} (holds : server.Holds source) {session : Session Hash}
  (found : server.session = some session)
include holds found

theorem Holds.stored (whole : session.off = source.length) : server.Stored source := by
  have stores := holds session found
  constructor
  · rw [stores.image, whole, take_length]
  intro other same
  rw [found] at same
  cases same
  rw [whole, stores.size]

theorem Holds.served : Served source (report session.off none) server :=
  ⟨holds, fun _ => ⟨session.off, rfl, holds.stored found⟩⟩

end

theorem write_served {server : Server Hash} {session : Session Hash} (holds : server.Holds source)
    (found : server.session = some session) (slice : data = (source.drop session.off).take data.length)
    (store close : Bool) (match_ : Option Bool) :
    Served source (server.write session data store close match_).1 (server.write session data store close match_).2 := by
  have stores := holds session found
  have grown : server.image.take session.off ++ data = source.take (session.off + data.length) := by
    rw [stores.image, take_take, Nat.min_self, take_add, ← slice]
  unfold write
  split
  · exact ⟨holds, nofun⟩
  rename_i fits
  have fits : session.off + data.length ≤ source.length := by
    have size := stores.size
    omega
  split
  · exact holds.served found
  simp only [grown]
  split
  · rename_i whole
    have all : source.take (session.off + data.length) = source := by rw [whole, stores.size, take_length]
    cases close with
    | true => refine ⟨nofun, fun _ => ⟨_, rfl, fun _ => ⟨all, nofun⟩⟩⟩
    | false =>
      refine ⟨?_, fun _ => ⟨_, rfl, fun _ => ⟨all, ?_⟩⟩⟩
      · rintro other same
        cases same
        exact ⟨rfl, fits, stores.size⟩
      rintro other same
      cases same
      exact whole
  · rename_i short
    refine ⟨?_, fun _ => ⟨_, rfl, fun whole => ?_⟩⟩
    · rintro other same
      cases same
      exact ⟨rfl, fits, stores.size⟩
    · exact absurd (whole.trans stores.size.symm) short

theorem rewind_stores (Tag : Option Hash → Prop) {server : Server Hash}
    (stores : ∀ session, server.session = some session → Tag session.sha → session.Stores source server.image)
    (off : Nat) : ∀ session, (server.rewind off).session = some session → Tag session.sha →
      session.Stores source (server.rewind off).image := by
  unfold Server.rewind
  split
  · exact stores
  rename_i session stands
  split
  · rename_i back
    simp only [Bool.and_eq_true, decide_eq_true_eq] at back
    rintro other same tagged
    cases same
    have before := stores session stands tagged
    refine ⟨?_, Nat.le_trans (Nat.le_of_lt back.1) before.bound, before.size⟩
    rw [before.image, take_take, Nat.min_eq_left (Nat.le_of_lt back.1)]
  · exact stores

theorem Holds.rewind {server : Server Hash} (holds : server.Holds source) (off : Nat) :
    (server.rewind off).Holds source :=
  fun session found =>
    rewind_stores (fun _ => True) (fun session found _ => holds session found) off session found trivial

theorem Stored.rewind {server : Server Hash} (stored : server.Stored source) (off : Nat) :
    server.rewind off = server := by
  unfold Server.rewind
  split
  · rfl
  rename_i session stands
  have finished := stored.finished session stands
  rw [if_neg]
  simp [finished]

def CollisionFree (source : Bytes) (digest : Bytes → Hash) (server : Server Hash) : Prop :=
  digest server.image = digest source → server.image = source

variable [DecidableEq Hash]

theorem begin_served {server : Server Hash} (setup : Setup source config digest)
    (unique : server.CollisionFree source digest) (slice : data = source.take data.length)
    (check store close : Bool) (match_ : Option Bool) :
    Served source (server.begin digest (Net.firstFields config) data check store close match_).1
      (server.begin digest (Net.firstFields config) data check store close match_).2 := by
  unfold begin
  split
  · rename_i present
    simp only [Bool.and_eq_true, decide_eq_true_eq] at present
    have same := unique (setup.sha _ present.2)
    exact ⟨nofun, fun _ => ⟨_, rfl, fun _ => ⟨same, nofun⟩⟩⟩
  · refine write_served ?_ rfl slice store close match_
    rintro session same
    cases same
    exact ⟨rfl, Nat.zero_le _, setup.size⟩

section
variable {server : Server Hash} {packet : Packet Hash} (setup : Setup source config digest)
  (unique : server.CollisionFree source digest) (honest : packet.Honest source config)
  (trusty : server.Trusty source digest) (known : server.Holds source ∨ packet.off = 0)
include setup unique honest trusty known

theorem handle_served (check store close : Bool) (match_ : Option Bool) :
    Served source (server.handle digest packet check store close match_).1
      (server.handle digest packet check store close match_).2 := by
  have data := honest.data
  have first := honest.first
  unfold handle
  split
  · rename_i zero
    rw [zero, drop_zero] at data
    rw [if_pos zero] at first
    rw [first]
    cases stands : server.session with
    | none => exact begin_served setup unique data check store close match_
    | some session =>
      simp only
      split
      · rename_i resumes
        simp only [Bool.and_eq_true, decide_eq_true_eq] at resumes
        obtain ⟨sha, tagged⟩ := Option.isSome_iff_exists.mp resumes.1
        have ours : session.sha = some (digest source) := by rw [resumes.2, tagged, setup.sha sha tagged]
        have holds : server.Holds source := by
          intro other same
          rw [stands] at same
          cases same
          exact trusty session stands ours
        exact holds.served stands
      · exact begin_served setup unique data check store close match_
  · rename_i later
    have holds := known.resolve_right later
    cases stands : server.session with
    | none =>
      refine ⟨holds, fun _ => ⟨0, rfl, fun whole => ?_⟩⟩
      exact absurd whole (Nat.ne_of_lt setup.nonempty)
    | some session =>
      simp only
      split
      · exact holds.served stands
      rename_i same
      have same : packet.off = session.off := by simpa using same
      rw [same] at data
      exact write_served holds stands data store close match_

theorem serve_outcome (choice : Choice) :
    ((server.serve digest packet choice).1.failure ≠ none ∧ (server.serve digest packet choice).2 = server) ∨
      Served source (server.serve digest packet choice).1 (server.serve digest packet choice).2 := by
  cases choice with
  | refuse => exact .inl ⟨nofun, rfl⟩
  | serve check store close match_ fault =>
    have served := handle_served setup unique honest trusty known check store close match_
    cases fault with
    | none => exact .inr served
    | some => exact .inr ⟨served.holds, nofun⟩

end

end Server

namespace Net

variable (source : Bytes) (config : UploadConfig Hash) (digest : Bytes → Hash)

/-- A first packet opened what a continuation goes to: until one was answered, nothing but first packets is sent. -/
structure Untried (net : Net Hash) : Prop where
  pending : net.state.firstPacketPending = true
  requests : ∀ packet ∈ net.requests, packet.off = 0
  flight : net.outstanding ≠ none → net.state.inFlightOff = 0

def Truthful (net : Net Hash) (response : UploadResponse) : Prop :=
  response.failure = none → net.requests = [] ∧ Server.Served source response net.server

structure Inv (net : Net Hash) : Prop where
  trusty : net.server.Trusty source digest
  fresh : net.started = false → net.state.phase = .idle ∧ net.outstanding = none
  confirmed : net.state.phase ≠ .done → net.state.confirmedOff < config.imageSize
  pending : net.state.firstPacketPending = false → 0 < net.state.confirmedOff
  flight : net.outstanding ≠ none → net.state.inFlightFirstPacket = decide (net.state.inFlightOff = 0)
  packets : ∀ packet ∈ net.requests, packet.Honest source config
  order : net.requests.Pairwise fun earlier later => earlier.number < later.number
  numbered : ∀ packet ∈ net.requests, packet.number < net.nextNumber
  answered : ∀ reply ∈ net.replies, reply.number < net.nextNumber
  newest : ∀ number, net.outstanding = some number → number + 1 = net.nextNumber
  opened : net.server.Holds source ∨ net.Untried
  truthful : ∀ reply ∈ net.replies, reply.number + 1 = net.nextNumber →
    net.requests = [] ∧ net.Truthful source reply.response
  done : net.state.phase = .done → net.requests = [] ∧ net.outstanding = none ∧ net.server.Stored source

variable {source config digest}

theorem finish_inv {net : Net Hash} (inv : net.Inv source config digest) (outcome : Result UploadResult) :
    (net.finish outcome).Inv source config digest := by
  unfold finish
  split
  · exact inv
  · exact { inv with opened := inv.opened.imp_right fun untried => { untried with } }

theorem readChunk_data {request : UploadRequest} {unread : Option Error}
    (read : readChunk source request unread = .ok data) : data = (source.drop request.off).take data.length := by
  unfold readChunk at read
  split at read
  · cases read
  simp only at read
  split at read
  · cases read
  rename_i full
  cases read
  have full : ((source.drop request.off).take request.length).length = request.length := by simpa using full
  rw [full]

theorem send_inv {net : Net Hash} (inv : net.Inv source config digest) (running : net.started = true)
    (going : net.state.phase ≠ .done) (request : UploadRequest)
    (first : request.firstPacket = decide (request.off = 0)) (opening : net.server.Holds source ∨
      (net.state.firstPacketPending = true ∧ (∀ packet ∈ net.requests, packet.off = 0) ∧ request.off = 0))
    (unread : Option Error) : (net.send source config request unread).Inv source config digest := by
  unfold send
  split
  · exact finish_inv inv _
  rename_i data read
  have honest : Packet.Honest source config
      { number := net.nextNumber, off := request.off, data := data
        first := if request.firstPacket then some (firstFields config) else none } := by
    refine ⟨readChunk_data read, ?_⟩
    simp only [first, decide_eq_true_eq]
  refine { inv with
    fresh := fun idle => absurd (running.symm.trans idle) (by simp)
    confirmed := fun _ => inv.confirmed going
    flight := fun _ => first
    packets := forall_mem_append.mpr ⟨inv.packets, forall_mem_singleton.mpr honest⟩
    order := ?_
    numbered := ?_
    answered := fun reply member => Nat.lt_succ_of_lt (inv.answered reply member)
    newest := fun number same => by rw [← Option.some.inj same]
    opened := ?_
    truthful := ?_
    done := by rintro ⟨⟩ }
  · refine pairwise_append.mpr ⟨inv.order, pairwise_singleton _ _, ?_⟩
    intro earlier member
    exact forall_mem_singleton.mpr (inv.numbered earlier member)
  · refine forall_mem_append.mpr ⟨?_, forall_mem_singleton.mpr (Nat.lt_succ_self _)⟩
    exact fun packet member => Nat.lt_succ_of_lt (inv.numbered packet member)
  · refine opening.imp_right fun opens => ?_
    obtain ⟨pending, requests, zero⟩ := opens
    refine ⟨pending, ?_, fun _ => zero⟩
    exact forall_mem_append.mpr ⟨requests, forall_mem_singleton.mpr zero⟩
  · intro reply member newest
    -- Every reply there is answers an earlier request.
    have earlier := inv.answered reply member
    have same : reply.number + 1 = net.nextNumber + 1 := newest
    omega

section
variable {net : Net Hash} (inv : net.Inv source config digest) (running : net.started = true)
  (going : net.state.phase ≠ .done)
  (opening : net.server.Holds source ∨ (net.state.firstPacketPending = true ∧ ∀ packet ∈ net.requests, packet.off = 0))
  (unread : Option Error)
include inv running going opening unread

theorem sendFrom_inv : (net.advance source config (sendFrom config net.state) unread).Inv source config digest := by
  obtain ⟨request, sends, first, zero⟩ := @sendFrom_request Hash config net.state inv.pending
  rw [sends]
  refine send_inv inv running going request first (opening.imp_right fun ⟨pending, requests⟩ => ?_) unread
  exact ⟨pending, requests, zero pending⟩

theorem planNext_inv : (net.advance source config (planNext config net.state) unread).Inv source config digest ∧
      ∀ match_ onFirst, planNext config net.state ≠ .complete match_ onFirst := by
  unfold planNext
  split
  · exact ⟨finish_inv inv _, fun _ _ => nofun⟩
  split
  · exact ⟨finish_inv inv _, fun _ _ => nofun⟩
  · rw [if_neg (Nat.not_le_of_lt (inv.confirmed going))]
    exact ⟨sendFrom_inv inv running going opening unread, fun _ _ => nofun⟩

end

section
variable {net : Net Hash} (inv : net.Inv source config digest)
include inv

theorem Inv.untried_or : net.server.Holds source ∨
    (net.state.firstPacketPending = true ∧ ∀ packet ∈ net.requests, packet.off = 0) :=
  inv.opened.imp_right fun untried => ⟨untried.pending, untried.requests⟩

theorem answer_inv (running : net.started = true)
    (state : UploadState) (confirmed : state.phase ≠ .done → state.confirmedOff < config.imageSize)
    (pending : state.firstPacketPending = false → 0 < state.confirmedOff)
    (opened : net.server.Holds source ∨ state.firstPacketPending = true ∧ ∀ packet ∈ net.requests, packet.off = 0)
    (done : state.phase = .done → net.requests = [] ∧ net.server.Stored source) :
    ({ net with state := state, outstanding := none } : Net Hash).Inv source config digest :=
  { inv with
    fresh := fun idle => absurd (running.symm.trans idle) nofun
    confirmed := confirmed
    pending := pending
    flight := fun waiting => absurd rfl waiting
    newest := nofun
    opened := opened.imp_right fun ⟨pending, requests⟩ => ⟨pending, requests, fun waiting => absurd rfl waiting⟩
    done := fun finished => ⟨(done finished).1, rfl, (done finished).2⟩ }

theorem handle_inv (waiting : net.outstanding ≠ none)
    (setup : Setup source config digest) {response : UploadResponse} (truthful : net.Truthful source response)
    (unread : Option Error) : (net.handle source config response unread).2.Inv source config digest ∧
      ∀ match_ onFirst, (net.handle source config response unread).1 = some (.complete match_ onFirst) →
        (net.handle source config response unread).2.server.Stored source := by
  have running : net.started = true := by
    by_contra idle
    exact waiting (inv.fresh (by simpa using idle)).2
  have going : net.state.phase ≠ .done := fun finished => waiting (inv.done finished).2.1
  have kept := answer_inv inv running
  have answered := @onResponse_answered Hash config net.state response
  unfold handle
  split
  · refine ⟨kept net.state inv.confirmed inv.pending inv.untried_or fun finished => absurd finished going, ?_⟩
    exact fun _ _ => nofun
  generalize onResponse config net.state response = result at answered
  cases answered with
  | resent retries =>
    have inv' := kept { net.state with retries := retries } inv.confirmed inv.pending inv.untried_or
      fun finished => absurd finished going
    have first := inv.flight waiting
    have opening := inv.opened.imp_right fun untried =>
      And.intro untried.pending (And.intro untried.requests (untried.flight waiting))
    exact ⟨send_inv inv' running going ⟨_, _, _⟩ first opening unread, fun _ _ => nofun⟩
  | suspended =>
    have inv' := kept { net.state with phase := .suspended } (fun _ => inv.confirmed going) inv.pending
      inv.untried_or nofun
    exact ⟨finish_inv inv' _, fun _ _ => nofun⟩
  | failed _ after phase confirmed pending =>
    refine ⟨finish_inv (kept after ?_ ?_ ?_ ?_) _, fun _ _ => nofun⟩
    · intro _
      rw [confirmed]
      exact inv.confirmed going
    · rw [pending, confirmed]
      exact inv.pending
    · rw [pending]
      exact inv.untried_or
    · intro finished
      rw [phase] at finished
      cases finished
  | completed match_ onFirst success whole =>
    obtain ⟨empty, served⟩ := truthful success
    obtain ⟨off, reported, stored⟩ := served.report success
    have stored : net.server.Stored source := by
      rw [whole] at reported
      exact stored ((Option.some.inj reported).symm.trans setup.size)
    have positive : 0 < config.imageSize := by
      rw [setup.size]
      exact setup.nonempty
    have inv' := finish_inv (kept { net.state with confirmedOff := config.imageSize, phase := .done }
      (fun going => absurd rfl going) (fun _ => positive) (.inl served.holds) fun _ => ⟨empty, stored⟩)
      (.ok { transferred := config.imageSize, alreadyPresent := onFirst, match_ := match_ })
    exact ⟨inv', fun _ _ _ => (inv'.done (by unfold finish; split <;> rfl)).2.2⟩
  | advanced _ after success _ less confirmed pending phase =>
    obtain ⟨empty, served⟩ := truthful success
    have inv' := kept after (fun _ => by rw [confirmed]; exact less)
      (fun first => by rw [confirmed]; rw [pending] at first; exact Nat.pos_of_ne_zero (by simpa using first))
      (.inl served.holds) (fun finished => absurd (phase.symm.trans finished) going)
    refine ⟨sendFrom_inv inv' running (fun finished => going (phase.symm.trans finished)) (.inl served.holds) unread, ?_⟩
    exact fun _ _ => nofun

theorem loseRequest_inv (index : Nat) :
    ({ net with requests := net.requests.eraseIdx index } : Net Hash).Inv source config digest := by
  have fewer : ∀ packet ∈ net.requests.eraseIdx index, packet ∈ net.requests :=
    fun packet member => mem_of_mem_eraseIdx member
  have none_left : net.requests = [] → net.requests.eraseIdx index = [] := fun empty => by rw [empty]; rfl
  refine { inv with
    packets := fun packet member => inv.packets packet (fewer packet member)
    order := inv.order.sublist (eraseIdx_sublist _ _)
    numbered := fun packet member => inv.numbered packet (fewer packet member)
    opened := inv.opened.imp_right fun untried =>
      { untried with requests := fun packet member => untried.requests packet (fewer packet member) }
    truthful := ?_
    done := ?_ }
  · intro reply member newest
    obtain ⟨empty, truthful⟩ := inv.truthful reply member newest
    exact ⟨none_left empty, fun success => ⟨none_left empty, (truthful success).2⟩⟩
  intro finished
  obtain ⟨empty, idle, stored⟩ := inv.done finished
  exact ⟨none_left empty, idle, stored⟩

theorem loseReply_inv (index : Nat) :
    ({ net with replies := net.replies.eraseIdx index } : Net Hash).Inv source config digest :=
  { inv with
    answered := fun reply member => inv.answered reply (mem_of_mem_eraseIdx member)
    opened := inv.opened.imp_right fun untried => { untried with }
    truthful := fun reply member => inv.truthful reply (mem_of_mem_eraseIdx member) }

theorem server_inv {server : Server Hash}
    (trusty : server.Trusty source digest) (holds : net.server.Holds source → server.Holds source)
    (stored : net.server.Stored source → server.Stored source) :
    ({ net with server := server } : Net Hash).Inv source config digest := by
  refine { inv with
    trusty := trusty
    opened := inv.opened.imp holds fun untried => { untried with }
    truthful := ?_
    done := ?_ }
  · intro reply member newest
    obtain ⟨empty, truthful⟩ := inv.truthful reply member newest
    refine ⟨empty, fun success => ⟨empty, holds (truthful success).2.holds, fun _ => ?_⟩⟩
    obtain ⟨off, reported, whole⟩ := (truthful success).2.report success
    exact ⟨off, reported, fun all => stored (whole all)⟩
  · intro finished
    obtain ⟨empty, idle, whole⟩ := inv.done finished
    exact ⟨empty, idle, stored whole⟩

theorem loseSession_inv :
    ({ net with server := { net.server with session := none } } : Net Hash).Inv source config digest :=
  server_inv inv nofun (fun _ => nofun) fun stored => ⟨stored.image, nofun⟩

theorem rewind_inv (off : Nat) : ({ net with server := net.server.rewind off } : Net Hash).Inv source config digest :=
  server_inv inv (Server.rewind_stores (· = some (digest source)) inv.trusty off) (fun holds => holds.rewind off)
    fun stored => by rw [stored.rewind off]; exact stored

end

variable [DecidableEq Hash]

section
variable {net : Net Hash} (inv : net.Inv source config digest) (setup : Setup source config digest)
  (unique : net.server.CollisionFree source digest)
include inv setup unique

theorem serve_inv {packet : Packet Hash} {requests : List (Packet Hash)}
    (queue : net.requests = packet :: requests) (choice : Choice) : ({ net with
        requests := requests
        replies := net.replies ++ [⟨packet.number, (net.server.serve digest packet choice).1⟩]
        server := (net.server.serve digest packet choice).2 } : Net Hash).Inv source config digest := by
  have member : packet ∈ net.requests := by rw [queue]; exact mem_cons_self
  have later : ∀ other ∈ requests, other ∈ net.requests := fun other behind => by
    rw [queue]
    exact mem_cons_of_mem _ behind
  have order := inv.order
  rw [queue, pairwise_cons] at order
  have last : packet.number + 1 = net.nextNumber → requests = [] := by
    intro newest
    apply eq_nil_iff_forall_not_mem.mpr
    intro other behind
    have after := order.1 other behind
    have bound := inv.numbered other (later other behind)
    omega
  have going : net.state.phase ≠ .done := fun finished => by
    have empty := (inv.done finished).1
    rw [queue] at empty
    cases empty
  have known := inv.opened.imp_right fun untried => untried.requests packet member
  have outcome := Server.serve_outcome setup unique (inv.packets packet member) inv.trusty known choice
  generalize net.server.serve digest packet choice = result at outcome
  obtain ⟨response, after⟩ := result
  simp only at outcome ⊢
  have trusty : after.Trusty source digest := by
    rcases outcome with ⟨_, rfl⟩ | served
    · exact inv.trusty
    · exact served.holds.trusty
  have opened : after.Holds source ∨ net.Untried := by
    rcases outcome with ⟨_, rfl⟩ | served
    · exact inv.opened
    · exact .inl served.holds
  refine { inv with
    trusty := trusty
    packets := fun other behind => inv.packets other (later other behind)
    order := order.2
    numbered := fun other behind => inv.numbered other (later other behind)
    answered := ?_
    opened := opened.imp_right fun untried =>
      { untried with requests := fun other behind => untried.requests other (later other behind) }
    truthful := ?_
    done := fun finished => absurd finished going }
  · exact forall_mem_append.mpr
      ⟨inv.answered, forall_mem_singleton.mpr (inv.numbered packet member)⟩
  intro reply known_ newest
  rcases mem_append.mp known_ with old | new
  · -- An older reply to the newest request would have left the queue empty.
    have empty := (inv.truthful reply old newest).1
    rw [queue] at empty
    cases empty
  · rw [mem_singleton.mp new] at newest ⊢
    refine ⟨last newest, fun success => ⟨last newest, ?_⟩⟩
    rcases outcome with ⟨failure, _⟩ | served
    · exact absurd success failure
    · exact served

theorem step_inv (event : NetEvent) : (net.step source config digest event).2.Inv source config digest ∧
      ∀ match_ onFirst, (net.step source config digest event).1 = some (.complete match_ onFirst) →
        (net.step source config digest event).2.server.Stored source := by
  cases event with
  | start unread =>
    simp only [step]
    split
    · exact ⟨inv, fun _ _ => nofun⟩
    rename_i idle
    have fresh := inv.fresh (by simpa using idle)
    have going : net.state.phase ≠ .done := by rw [fresh.1]; nofun
    have started : ({ net with started := true, active := true } : Net Hash).Inv source config digest :=
      { inv with
        fresh := nofun
        opened := inv.opened.imp_right fun untried => { untried with } }
    obtain ⟨next, incomplete⟩ := planNext_inv started rfl going inv.untried_or unread
    exact ⟨next, fun match_ onFirst ended => absurd (Option.some.inj ended) (incomplete match_ onFirst)⟩
  | restart unread =>
    simp only [step]
    split
    · exact ⟨inv, fun _ _ => nofun⟩
    rename_i stopped
    have stopped : net.state.phase = .suspended := by simpa using stopped
    have running : net.started = true := by
      by_contra idle
      have fresh := inv.fresh (by simpa using idle)
      rw [stopped] at fresh
      cases fresh.1
    have going : net.state.phase ≠ .done := by rw [stopped]; nofun
    let state : UploadState :=
      { net.state with firstPacketPending := true, phase := .idle, retries := 0, consecutiveNoProgress := 0 }
    have resumed : resume config net.state = (planNext config state, state) := by
      rw [resume, if_neg (by simp [stopped])]
    have asking : ({ net with state := state, active := true } : Net Hash).Inv source config digest :=
      { inv with
        fresh := fun idle => absurd (running.symm.trans idle) nofun
        confirmed := fun _ => inv.confirmed going
        pending := nofun
        opened := inv.opened.imp_right fun untried => { untried with pending := rfl }
        done := nofun }
    have opening := inv.untried_or.imp_right fun untried => And.intro (rfl : state.firstPacketPending = true) untried.2
    obtain ⟨next, incomplete⟩ := planNext_inv asking running nofun opening unread
    rw [resumed]
    exact ⟨next, fun match_ onFirst ended => absurd (Option.some.inj ended) (incomplete match_ onFirst)⟩
  | loseRequest index => exact ⟨loseRequest_inv inv index, fun _ _ => nofun⟩
  | loseReply index => exact ⟨loseReply_inv inv index, fun _ _ => nofun⟩
  | serve choice =>
    simp only [step]
    split
    · exact ⟨inv, fun _ _ => nofun⟩
    · rename_i packet requests queue
      exact ⟨serve_inv inv setup unique queue choice, fun _ _ => nofun⟩
  | loseSession => exact ⟨loseSession_inv inv, fun _ _ => nofun⟩
  | rewind off => exact ⟨rewind_inv inv off, fun _ _ => nofun⟩
  | deliver index unread =>
    simp only [step]
    split
    · exact ⟨inv, fun _ _ => nofun⟩
    rename_i reply found
    have rest := loseReply_inv inv index
    split
    · rename_i waiting
      have member := mem_of_getElem? found
      have truthful := (inv.truthful reply member (inv.newest reply.number waiting)).2
      exact handle_inv rest (fun none_ => by rw [none_] at waiting; cases waiting) setup truthful unread
    · exact ⟨rest, fun _ _ => nofun⟩
  | fail error unread =>
    simp only [step]
    split
    · exact ⟨inv, fun _ _ => nofun⟩
    · rename_i waiting
      exact handle_inv inv waiting setup (fun success => Option.some_ne_none error success |>.elim) unread

end

variable (source config digest)

def start (server : Server Hash) : Net Hash := { server := server }

def history (server : Server Hash) (events : List NetEvent) : List (Transition (Net Hash) NetEvent (Option Step)) :=
  log (Net.step source config digest) (start server) events

omit [DecidableEq Hash] in
theorem start_inv (setup : Setup source config digest) (server : Server Hash) (trusty : server.Trusty source digest) :
    (start server).Inv source config digest := by
  have positive : 0 < config.imageSize := by
    rw [setup.size]
    exact setup.nonempty
  exact {
    trusty := trusty
    fresh := fun _ => ⟨rfl, rfl⟩
    confirmed := fun _ => positive
    pending := nofun
    flight := fun waiting => absurd rfl waiting
    packets := fun _ member => (not_mem_nil member).elim
    order := Pairwise.nil
    numbered := fun _ member => (not_mem_nil member).elim
    answered := fun _ member => (not_mem_nil member).elim
    newest := nofun
    opened := .inr ⟨rfl, fun _ member => (not_mem_nil member).elim, fun waiting => absurd rfl waiting⟩
    truthful := fun _ member => (not_mem_nil member).elim
    done := nofun }

/-- When the session completes, the server stores the file, whatever was lost, repeated, late or started over. -/
theorem completed_upload_stored (server : Server Hash) (events : List NetEvent) (setup : Setup source config digest)
    (trusty : server.Trusty source digest)
    (unique : ∀ t ∈ history source config digest server events, t.before.server.CollisionFree source digest) :
    ∀ t ∈ history source config digest server events, ∀ match_ onFirst,
      t.output = some (.complete match_ onFirst) → t.after.server.image = source :=
  guarded_transitions _ _ (Inv source config digest) (fun t => t.before.server.CollisionFree source digest) _
    (start_inv source config digest setup server trusty)
    (fun _ event unique inv => (step_inv inv setup unique event).1)
    (fun _ event unique inv match_ onFirst ended => ((step_inv inv setup unique event).2 match_ onFirst ended).image)
    events unique

def smallFile : Bytes := [1, 2, 3, 4, 5]

def smallConfig : UploadConfig Bytes := { imageSize := 5, chunkSize := 2, sha := some smallFile }

def served : NetEvent := .serve (.serve true true true (some true) none)

/-- The link drops and the upload resumes; the last answer is lost, and the repeated chunk finds the file in its slot.
-/
def lossyUpload : List NetEvent :=
  [.start none, served, .fail { code := .disconnected } none, .restart none, served, .deliver 1 none, served,
    .deliver 1 none, served, .loseReply 1, .fail { code := .timeout } none, served, .deliver 1 none, served,
    .deliver 1 none]

theorem completed_upload_stored_lossy : ∃ t ∈ history smallFile smallConfig id ⟨[9, 9], none⟩ lossyUpload,
      t.output = some (.complete (some true) false) ∧ t.after.server.image = smallFile := by
  have stored := completed_upload_stored smallFile smallConfig id ⟨[9, 9], none⟩ lossyUpload
    ⟨rfl, by decide, fun sha same => (Option.some.inj same).symm⟩ nofun (fun _ _ same => same)
  have ends : ∃ t ∈ history smallFile smallConfig id ⟨[9, 9], none⟩ lossyUpload,
      t.output = some (.complete (some true) false) := by
    decide +kernel
  obtain ⟨t, member, ended⟩ := ends
  exact ⟨t, member, ended, stored t member _ _ ended⟩

end Net

end Smply.Upload
