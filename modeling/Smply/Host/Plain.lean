import Smply.Image.Sha256
import Smply.Smp.Plain
import Smply.Host.Drivers

namespace Smply

open List Upload

def Upload.Step.Plain : Upload.Step → Prop
  | .fail error | .suspend error => error.Plain
  | _ => True

def Limits.defaultSmpMessageBudget : Nat := 256

structure Upload.ChunkBudget where
  serverBufSize : Option UInt32 := none
  transportMaxMessageSize : Nat := 0
  transportMessageOverhead : Nat := 0
  configuredMax : Nat := Limits.uploadChunkMax

def Upload.ChunkBudget.deviceBudget (budget : ChunkBudget) : Nat :=
  match budget.serverBufSize with
  | some size => if size > 0 then size.toNat else Limits.defaultSmpMessageBudget
  | none => Limits.defaultSmpMessageBudget

def Upload.ChunkBudget.messageBudget (budget : ChunkBudget) : Nat :=
  let room := budget.deviceBudget - budget.transportMessageOverhead
  if budget.transportMaxMessageSize > 0 then min room budget.transportMaxMessageSize else room

/-- `compute_chunk_size`, with what `first_packet_overhead` has measured. -/
def Upload.computeChunkSize (budget : ChunkBudget) (firstPacketOverhead : Nat) : Result Nat :=
  if budget.deviceBudget ≤ budget.transportMessageOverhead then
    .error (.at .messageTooLarge "upload: no room for a chunk")
  else
    let overhead := Smp.headerSize + firstPacketOverhead
    if budget.messageBudget ≤ overhead then
      .error (.at .messageTooLarge "upload: no room for a chunk")
    else
      let capped := min (budget.messageBudget - overhead) budget.configuredMax
      if capped < Limits.uploadChunkMin then
        .error (.at .messageTooLarge "upload: chunk below the 32-byte minimum")
      else
        .ok capped

theorem Upload.computeChunkSize_plain (budget : ChunkBudget) (firstPacketOverhead : Nat) :
    PlainResult (computeChunkSize budget firstPacketOverhead) := by
  have tooLarge (site : String) : PlainResult (.error (.at .messageTooLarge site) : Result Nat) := plain_error nofun
  unfold computeChunkSize
  dsimp only
  split
  · exact tooLarge _
  split
  · exact tooLarge _
  split
  · exact tooLarge _
  · exact plain_ok _

namespace Host

open Smp (RawResponse RequestSpec SmpClientConfig)

theorem sha256From_plain {total : Nat} {read : Nat → Nat → Result Bytes}
    (reads : ∀ offset length, PlainResult (read offset length)) (offset : Nat) (hasher : Image.Sha256) :
    PlainResult (Image.sha256From total read offset hasher) := by
  fun_induction Image.sha256From total read offset hasher with
  | case1 _ _ _ _ error failed => exact plain_error (reads _ _ error failed)
  | case2 => exact plain_error nofun
  | case3 _ _ _ _ _ _ _ ih => exact ih
  | case4 => exact plain_ok _

/-- Neither a source nor the transport blames the library; the rest fails as the library's functions do. -/
structure Env.Plain (env : Env) : Prop where
  digest : ∀ source error, env.digest source = .error error → ∃ total read,
    (∀ offset length, PlainResult (read offset length)) ∧ Image.sha256 total read = .error error
  read : ∀ source off length, PlainResult (env.read source off length)
  chunk : ∀ size error, env.chunk size = .error error → ∃ budget firstPacketOverhead,
    Upload.computeChunkSize budget firstPacketOverhead = .error error
  sent : PlainResult env.sent

theorem Env.Plain.digest_plain {env : Env} (plain : env.Plain) (source : Source) : PlainResult (env.digest source) := by
  intro error failed
  obtain ⟨total, read, reads, same⟩ := plain.digest source error failed
  exact sha256From_plain reads 0 {} error same

theorem Env.Plain.chunk_plain {env : Env} (plain : env.Plain) (size : Option UInt32) :
    PlainResult (env.chunk size) := by
  intro error failed
  obtain ⟨budget, overhead, same⟩ := plain.chunk size error failed
  exact computeChunkSize_plain budget overhead error same

structure Codec.Plain (codec : Codec) : Prop where
  extractMgmtError : ∀ payload, PlainResult (codec.extractMgmtError payload)
  offset : ∀ payload, PlainResult (codec.offset payload)
  parameters : ∀ payload, PlainResult (codec.parameters payload)
  bootloader : ∀ payload, PlainResult (codec.bootloader payload)
  slots : ∀ payload, PlainResult (codec.slots payload)

def Call.Plain : Call → Prop
  | .client call => call.Plain
  | .reconnectFailed error => error.Plain
  | _ => True

def Event.Plain : Event → Prop
  | .call made env => made.Plain ∧ env.Plain
  | .proceed env => env.Plain

def Job.Plain : Job → Prop
  | .application => True
  | .post _ event => event.error.Plain
  | .rejected _ error => error.Plain
  | .finished _ _ result => PlainResult result

def Task.Plain : Task → Prop
  | .answer _ _ result => PlainResult result
  | .work _ job => job.Plain
  | .advance _ _ step => step.Plain
  | .dispatch _ _ event => event.error.Plain
  | _ => True

def Task.dispatches : Task → Bool
  | .dispatch _ _ _ => true
  | _ => false

structure Adds (before after : Host) (top : List Task) : Prop where
  world : before.world.Plain → after.world.Plain
  stack : after.world.stack = before.world.stack
  jobs : ∀ job ∈ after.jobs, job ∈ before.jobs ∨ job.Plain
  tasks : after.tasks = top ++ before.tasks
  plain : ∀ task ∈ top, task.Plain

def Promptly (top : List Task) : Prop := ∀ task ∈ top.tail, task.dispatches = false

theorem promptly_nil : Promptly [] := by simp [Promptly]

theorem promptly_one (task : Task) : Promptly [task] := by simp [Promptly]

section
variable {codec : Codec} {env : Env} {host : Host}

theorem Adds.refl (host : Host) : Adds host host [] := ⟨id, rfl, fun _ => .inl, rfl, by simp⟩

theorem Adds.framed {first second third fourth : Host} {top : List Task} (adds : Adds first second top)
    (before : (first.world, first.jobs, first.tasks) = (third.world, third.jobs, third.tasks))
    (after : (second.world, second.jobs, second.tasks) = (fourth.world, fourth.jobs, fourth.tasks)) :
    Adds third fourth top := by
  simp only [Prod.mk.injEq] at before after
  obtain ⟨world, stack, jobs, tasks, plain⟩ := adds
  simp only [before, after] at world stack jobs tasks
  exact ⟨world, stack, jobs, tasks, plain⟩

theorem Adds.trans {first second third : Host} {top more : List Task} (one : Adds first second top)
    (two : Adds second third more) : Adds first third (more ++ top) := by
  refine ⟨fun plain => two.world (one.world plain), two.stack.trans one.stack, fun job member => ?_, ?_, ?_⟩
  · rcases two.jobs job member with old | plain
    · exact one.jobs job old
    · exact .inr plain
  · rw [two.tasks, one.tasks, append_assoc]
  · intro task member
    rcases mem_append.mp member with new | old
    · exact two.plain task new
    · exact one.plain task old

theorem push_adds {task : Task} (plain : task.Plain) : Adds host (host.push task) [task] :=
  ⟨id, rfl, fun _ => .inl, rfl, by simpa using plain⟩

theorem defer_adds {job : Job} (plain : job.Plain) : Adds host (host.defer job) [] := by
  refine ⟨fun world => Smp.World.enter_plain world trivial, rfl, fun other member => ?_, rfl, by simp⟩
  rcases mem_append.mp member with old | new
  · exact .inl old
  · rw [mem_singleton.mp new]
    exact .inr plain

theorem ask_adds (reply : Reply) (spec : RequestSpec) (given : Bool) {sent : Result Unit}
    (plain : PlainResult sent)
    (now : TimePoint) : Adds host (host.ask reply spec given sent now).2 [] :=
  ⟨fun world => Smp.World.enter_plain world plain, rfl, fun _ => .inl, rfl, by simp⟩

theorem keep_adds (driver : UploadDriver) : Adds host (host.keep driver) [] := (Adds.refl host).framed rfl rfl

theorem emit_adds (update : Nat) (event : UpdateEvent) :
    ∃ top, Adds host (host.emit update event).2 top ∧ (top = [] ∨ top = [.application]) := by
  unfold emit
  split
  · exact ⟨[], .refl host, .inl rfl⟩
  · exact ⟨[.application], push_adds trivial, .inr rfl⟩

theorem reject_adds (onDone : Option Owner) {error : Error} (plain : error.Plain) :
    Adds host (host.reject onDone error) [] := by
  unfold reject
  split
  · exact .refl host
  · exact defer_adds plain

theorem uploadEvent_plain {result : Result UploadResult} (plain : PlainResult result) :
    (host.uploadEvent result).error.Plain := by
  unfold uploadEvent
  split
  · split
    · exact nofun
    · exact plain _ rfl
  · exact nofun

theorem tell_adds (origin : Origin) (life : Option Nat) (owner : Owner) {result : Result UploadResult}
    (plain : PlainResult result) : ∃ task, Adds host (host.tell origin life owner result).2 [task] := by
  unfold tell
  cases owner with
  | application => exact ⟨_, push_adds trivial⟩
  | updater => exact ⟨_, push_adds (uploadEvent_plain plain)⟩

theorem finishUpload_adds (driver : UploadDriver) (origin : Option Origin) {outcome : Result UploadResult}
    (plain : PlainResult outcome) :
    ∃ top, Adds host (host.finishUpload driver origin outcome).2 top ∧ Promptly top ∧ (origin = none → top = []) := by
  unfold finishUpload
  split
  · exact ⟨[], keep_adds driver, promptly_nil, fun _ => rfl⟩
  dsimp only
  split
  · exact ⟨[], keep_adds _, promptly_nil, fun _ => rfl⟩
  · rename_i owner given
    have queued : Job.Plain (.finished driver.life owner outcome) := plain
    exact ⟨[], (keep_adds _).trans (defer_adds queued), promptly_nil, fun _ => rfl⟩
  · obtain ⟨task, told⟩ := @tell_adds (host.keep { driver with active := false, onDone := none }) _ (some driver.life) _
      _ plain
    exact ⟨[task], (keep_adds _).trans told, promptly_one task, nofun⟩

theorem progress_adds (driver : UploadDriver) :
    ∃ top, Adds host (host.progress driver).2 top ∧ (top = [] ∨ top = [.application]) := by
  unfold progress
  split
  · exact ⟨[], .refl host, .inl rfl⟩
  · exact ⟨[.application], push_adds trivial, .inr rfl⟩
  · exact emit_adds _ _

theorem report_adds (driver : UploadDriver) {task : Task} (plain : task.Plain) (other : task.dispatches = false) :
    ∃ top, Adds host (((host.keep driver).push task).progress driver).2 top ∧ Promptly top := by
  obtain ⟨top, reported, small⟩ := @progress_adds ((host.keep driver).push task) driver
  refine ⟨top ++ [task], ((keep_adds driver).trans (push_adds plain)).trans reported, ?_⟩
  rcases small with rfl | rfl
  · exact promptly_one task
  intro next member
  rw [mem_singleton.mp member]
  exact other

theorem send_adds (fair : env.Plain) (driver : UploadDriver) (origin : Option Origin) (request : Upload.UploadRequest) :
    ∃ top, Adds host (host.send codec env driver origin request).2 top ∧ Promptly top ∧ (origin = none → top = []) := by
  unfold send
  have read := fair.read driver.source request.off request.length
  split
  · rename_i error failed
    exact finishUpload_adds driver origin (plain_error (read error failed))
  split
  · exact finishUpload_adds driver origin (plain_error (by rintro ⟨⟩))
  · exact ⟨[], (ask_adds _ _ _ fair.sent _).trans (keep_adds _), promptly_nil, fun _ => rfl⟩

theorem advance_adds (fair : env.Plain) (driver : UploadDriver) (origin : Option Origin) {step : Upload.Step}
    (plain : step.Plain) :
    ∃ top, Adds host (host.advance codec env driver origin step).2 top ∧ Promptly top ∧ (origin = none → top = []) := by
  unfold advance
  split
  · exact send_adds fair driver origin _
  · dsimp only
    split
    · exact finishUpload_adds driver none (plain_ok _)
    rename_i cause
    split
    · obtain ⟨top, reported, prompt⟩ := @report_adds host { driver with reportedOff := driver.state.confirmedOff }
        (.conclude cause driver.life _) trivial rfl
      exact ⟨top, reported, prompt, nofun⟩
    · exact finishUpload_adds driver (some cause) (plain_ok _)
  · exact finishUpload_adds driver origin (plain_error plain)
  · exact finishUpload_adds driver origin (plain_error plain)

theorem onFailure_plain {config : Upload.UploadConfig Bytes} {state : Upload.UploadState} {failure : Error}
    (plain : failure.Plain) : (Upload.onFailure config state failure).1.Plain := by
  unfold onFailure
  split
  · trivial
  · split <;> exact plain

section
variable (config : Upload.UploadConfig Bytes) (state : Upload.UploadState)
include config state

theorem onOffset_plain (reported : Nat)
    (match_ : Option Bool) : (Upload.onOffset config state reported match_).1.Plain := by
  have own {error : Error} {state : UploadState} (other : error.code ≠ .internal) :
      (failWith state error).1.Plain := other
  unfold onOffset
  split
  · exact own nofun
  split
  · split
    · exact own nofun
    · trivial
  split
  · split
    · exact own nofun
    · trivial
  split
  · trivial
  split
  · trivial
  dsimp only
  split
  · exact own nofun
  · trivial

theorem onResponse_plain {response : Upload.UploadResponse}
    (plain : ∀ error, response.failure = some error → error.Plain) :
    (Upload.onResponse config state response).1.Plain := by
  unfold onResponse
  split
  · rename_i failure failed
    exact onFailure_plain (plain failure failed)
  split
  · show Error.Plain _
    exact nofun
  · exact onOffset_plain ..

theorem planNext_plain : (Upload.planNext config state).Plain := by
  have own (why : String) : (refuse why).Plain := show Error.Plain _ from nofun
  unfold planNext
  split
  · exact own _
  split
  · exact own _
  · split <;> trivial

theorem resume_plain : (Upload.resume config state).1.Plain := by
  unfold Upload.resume
  split
  · show Error.Plain _
    exact nofun
  · dsimp only
    exact planNext_plain ..

end

theorem decodeChunk_plain (fair : codec.Plain) {result : Result RawResponse} (plain : PlainResult result) :
    ∀ error, (decodeChunk codec result).failure = some error → error.Plain := by
  have decoded := PlainResult.bind plain fun response => fair.offset response.payload
  unfold decodeChunk
  split
  · rename_i failed
    rintro error ⟨rfl⟩
    exact decoded _ failed
  · exact fun _ => nofun

theorem handle_adds (coded : codec.Plain) (fair : env.Plain) (callback life : Nat) {response : Result RawResponse}
    (plain : PlainResult response) :
    ∃ top, Adds host (host.handle codec env callback life response).2 top ∧ Promptly top := by
  unfold handle
  split
  · exact ⟨[], .refl host, promptly_nil⟩
  rename_i driver found
  split
  · exact ⟨[], .refl host, promptly_nil⟩
  have stepped := onResponse_plain driver.config driver.state (decodeChunk_plain coded plain)
  dsimp only
  split
  · exact report_adds _ stepped rfl
  obtain ⟨top, added, prompt, _⟩ := @advance_adds codec env host fair
    { driver with request := {}, state := (onResponse driver.config driver.state (decodeChunk codec response)).2 }
    (some (.reply callback)) _ stepped
  exact ⟨top, added, prompt⟩

theorem configure_plain (fair : env.Plain) (source : Source) (options : UploadOptions) :
    PlainResult (configure env source options) := by
  have stopped {α β : Type} (why : String) (rest : α → Result β) :
      PlainResult (throw (.at .invalidArgument why) >>= rest) := plain_error nofun
  unfold configure
  dsimp only
  split
  · exact stopped _ _
  split
  · exact stopped _ _
  split
  · exact stopped _ _
  split
  · refine PlainResult.bind (plain_ok _) fun sha => ?_
    split
    · exact PlainResult.bind (plain_ok _) fun _ => plain_ok _
    · exact PlainResult.bind (fair.chunk_plain _) fun _ => plain_ok _
  · refine PlainResult.bind (fair.digest_plain source) fun sha => ?_
    split
    · exact PlainResult.bind (plain_ok _) fun _ => plain_ok _
    · exact PlainResult.bind (fair.chunk_plain _) fun _ => plain_ok _

theorem upload_adds (fair : env.Plain) (source : Source) (options : UploadOptions) (onProgress onDone : Option Owner) :
    Adds host (host.upload codec env source options onProgress onDone).2 [] := by
  unfold upload
  split
  · exact reject_adds onDone nofun
  have configured := configure_plain fair source options
  split
  · rename_i error failed
    exact reject_adds onDone (configured error failed)
  rename_i config _
  have begins (image : ImageManagement) (driver : UploadDriver) :
      Adds host ({ host with image := image }.advance codec env driver none (planNext config {})).2 [] := by
    obtain ⟨top, added, _, empty⟩ := @advance_adds codec env { host with image := image } fair driver none _
      (planNext_plain config {})
    rw [empty rfl] at added
    exact added.framed rfl rfl
  exact begins _ _

theorem resumeUpload_adds (fair : env.Plain) (handle : UploadHandle) (onDone : Option Owner) :
    Adds host (host.resume codec env handle onDone).2 [] := by
  unfold resume
  split
  · exact reject_adds onDone nofun
  rename_i driver _
  split
  · exact reject_adds onDone nofun
  obtain ⟨top, added, _, empty⟩ := @advance_adds codec env host fair
    { driver with onDone := onDone, active := true, state := (Upload.resume driver.config driver.state).2 } none _
    (resume_plain driver.config driver.state)
  rw [empty rfl] at added
  exact added

theorem cancelUpload_adds (handle : UploadHandle) : Adds host (host.cancelUpload handle) [] := by
  have cancelled (request : Smp.RequestHandle) :
      Adds host { host with world := (host.world.enter (.cancel request)).2 } [] :=
    ⟨fun world => Smp.World.enter_plain world trivial, rfl, fun _ => .inl, rfl, by simp⟩
  unfold cancelUpload
  split
  · exact .refl host
  split
  · exact .refl host
  · exact (cancelled _).trans (keep_adds _)

theorem post_adds {event : Dfu.Event} (plain : event.error.Plain) : Adds host (host.post event) [] := by
  have queued := plain
  exact defer_adds queued

theorem turn_adds (update : Nat) (machine : Dfu.Machine) (previous : Dfu.UpdateState) (event : Dfu.Event) :
    ∃ top, Adds host (host.turn update machine previous event).2 top ∧ Promptly top := by
  have carried (machine : Dfu.Machine) (step : Dfu.Step) : Adds host
      ({ host with updater := { host.updater with machine := some machine } }.push (.carry update step))
      [.carry update step] := (@push_adds host (.carry update step) trivial).framed rfl rfl
  unfold turn
  dsimp only
  split
  · exact ⟨_, carried _ _, promptly_one _⟩
  obtain ⟨top, said, small⟩ := @emit_adds ({ host with updater := { host.updater with
      machine := some (machine.apply { event with now := host.updater.lastPoll }).2 } }.push
        (.carry update (machine.apply { event with now := host.updater.lastPoll }).1)) update
    (.stateChanged previous (machine.apply { event with now := host.updater.lastPoll }).1.next)
  refine ⟨_, (carried _ _).trans said, ?_⟩
  rcases small with rfl | rfl
  · exact promptly_one _
  intro task member
  rw [mem_singleton.mp member]
  rfl

theorem finish_adds (update : Nat) : ∃ top, Adds host (host.finish update).2 top ∧ Promptly top := by
  have stopped : Adds host ({ host with updater := { host.updater with running := false } }.push .clear) [.clear] :=
    (@push_adds host .clear trivial).framed rfl rfl
  obtain ⟨top, said, small⟩ := @emit_adds ({ host with updater := { host.updater with running := false } }.push .clear)
    update (.finished { host.updater with running := false }.outcome)
  refine ⟨_, stopped.trans said, ?_⟩
  rcases small with rfl | rfl
  · exact promptly_one _
  intro task member
  rw [mem_singleton.mp member]
  rfl

section
variable (fair : env.Plain) (update : Nat)
include fair update

theorem startUpload_adds (step : Dfu.Step) : Adds host (host.startUpload codec env update step) [] := by
  unfold startUpload
  dsimp only
  split
  · exact .refl host
  · exact (upload_adds fair _ _ _ _).framed rfl rfl

theorem query_adds (query : Query) : Adds host (host.query codec env update query).2 [] :=
  ask_adds _ _ _ fair.sent _

theorem apply_adds (step : Dfu.Step) : ∃ top, Adds host (host.apply codec env update step).2 top ∧ Promptly top := by
  have said (event : UpdateEvent) : ∃ top, Adds host (host.emit update event).2 top ∧ Promptly top := by
    obtain ⟨top, added, small⟩ := @emit_adds host update event
    refine ⟨top, added, ?_⟩
    rcases small with rfl | rfl
    · exact promptly_nil
    · exact promptly_one _
  have nothing (after : Host) (added : Adds host after []) : ∃ top, Adds host after top ∧ Promptly top :=
    ⟨[], added, promptly_nil⟩
  unfold apply
  split
  · exact nothing _ (.refl host)
  · exact nothing _ (.refl host)
  · exact nothing _ (.refl host)
  · exact nothing _ (query_adds fair update _)
  · exact nothing _ (query_adds fair update _)
  · exact nothing _ (query_adds fair update _)
  · exact nothing _ (startUpload_adds fair update step)
  · exact nothing _ (resumeUpload_adds fair _ _)
  · exact nothing _ (query_adds fair update _)
  · exact nothing _ (query_adds fair update _)
  · exact nothing _ (query_adds fair update _)
  · exact said _
  · exact said _
  · exact said _
  · exact nothing _ (query_adds fair update _)
  · exact finish_adds update

theorem carry_adds (step : Dfu.Step) : ∃ top, Adds host (host.carry codec env update step).2 top ∧ Promptly top := by
  unfold carry
  split
  · split
    · exact ⟨[], .refl host, promptly_nil⟩
    · exact turn_adds ..
  · exact apply_adds fair update step

end

theorem dispatch_adds (event : Dfu.Event) : ∃ top, Adds host (host.dispatch event).2 top ∧ Promptly top := by
  unfold dispatch
  split
  · exact ⟨[], .refl host, promptly_nil⟩
  split
  · exact ⟨[], .refl host, promptly_nil⟩
  · exact turn_adds ..

theorem queryEvent_plain (coded : codec.Plain) (query : Query) {result : Result RawResponse}
    (plain : PlainResult result) : (query.event codec result).error.Plain := by
  have table (kind : Dfu.EventKind) : (Query.event.table codec result kind).error.Plain := by
    have decoded := PlainResult.bind plain fun response => coded.slots response.payload
    unfold Query.event.table
    split
    · rename_i failed
      exact decoded _ failed
    · exact nofun
  cases query with
  | parameters =>
    unfold Query.event
    dsimp only
    split <;> exact nofun
  | bootloader =>
    have decoded := PlainResult.bind plain fun response => coded.bootloader response.payload
    unfold Query.event
    dsimp only
    split
    · rename_i failed
      exact decoded _ failed
    · exact nofun
  | state | markForTest | confirm => exact table _
  | reset =>
    cases result with
    | error error => exact plain error rfl
    | ok => exact nofun

theorem execute_adds (coded : codec.Plain) (fair : env.Plain) {task : Task} (plain : task.Plain)
    (other : task ≠ .returning) : ∃ top, Adds host (host.execute codec env task).2 top ∧ Promptly top := by
  cases task with
  | application => exact ⟨[], .refl host, promptly_nil⟩
  | returning => exact absurd rfl other
  | answer callback reply result =>
    cases reply with
    | application => exact ⟨_, push_adds trivial, promptly_one _⟩
    | driver life => exact handle_adds coded fair callback life plain
    | updater update query =>
      have told := queryEvent_plain coded query plain
      exact ⟨_, push_adds told, promptly_one _⟩
  | work number job =>
    cases job with
    | application => exact ⟨_, push_adds trivial, promptly_one _⟩
    | post update event =>
      have told := plain
      exact ⟨_, push_adds told, promptly_one _⟩
    | rejected owner =>
      obtain ⟨task, told⟩ := @tell_adds host (.job number) none owner _ (plain_error plain)
      exact ⟨_, told, promptly_one _⟩
    | finished life owner =>
      simp only [execute, work]
      split
      · obtain ⟨task, told⟩ := @tell_adds host (.job number) (some life) owner _ plain
        exact ⟨_, told, promptly_one _⟩
      · exact ⟨[], .refl host, promptly_nil⟩
  | advance origin =>
    simp only [execute]
    split
    · exact ⟨[], .refl host, promptly_nil⟩
    · obtain ⟨top, added, prompt, _⟩ := @advance_adds codec env host fair _ (some origin) _ plain
      exact ⟨top, added, prompt⟩
  | conclude origin _ result =>
    simp only [execute]
    split
    · exact ⟨[], .refl host, promptly_nil⟩
    · obtain ⟨top, added, prompt, _⟩ := @finishUpload_adds host _ (some origin) _ (plain_ok result)
      exact ⟨top, added, prompt⟩
  | dispatch _ _ event => exact dispatch_adds event
  | carry update step => exact carry_adds fair update step
  | clear => exact ⟨[], (Adds.refl host).framed rfl rfl, promptly_nil⟩

theorem poll_adds (now : TimePoint) : ∃ top, Adds host (host.poll now) top ∧ Promptly top := by
  have due (event : Dfu.Event) (plain : event.error.Plain) :
      Adds host ({ host with updater := { host.updater with lastPoll := now } }.push (.dispatch .poll host.updates event))
        [.dispatch .poll host.updates event] := by
    have told : Task.Plain (.dispatch .poll host.updates event) := plain
    exact (push_adds told).framed rfl rfl
  have nothing : Adds host { host with updater := { host.updater with lastPoll := now } } [] :=
    (Adds.refl host).framed rfl rfl
  unfold poll
  dsimp only
  split
  · exact ⟨[], nothing, promptly_nil⟩
  split
  · exact ⟨_, due _ nofun, promptly_one _⟩
  split
  · exact ⟨_, due _ nofun, promptly_one _⟩
  · exact ⟨[], nothing, promptly_nil⟩

theorem start_adds (targets : List ImageTarget) (plan : Plan) (onEvent : Bool) :
    Adds host (host.start env targets plan onEvent).2 [] := by
  unfold start
  split
  · exact .refl host
  split
  · exact .refl host
  split
  · exact .refl host
  split
  · exact .refl host
  rename_i read _
  have begun (updater : FirmwareUpdater) :
      Adds host ({ host with updater := updater, updates := host.updates + 1 }.post { kind := .start }) [] := by
    have queued : Job.Plain (.post (host.updates + 1) { kind := .start }) := show ErrorCode.ok ≠ .internal from nofun
    exact (@defer_adds host _ queued).framed rfl rfl
  exact begun _

theorem cancel_adds : Adds host host.cancel [] := by
  unfold cancel
  split
  · exact .refl host
  dsimp only
  split
  · exact (cancelUpload_adds _).trans (@post_adds _ { kind := .cancel } nofun)
  · exact post_adds nofun

theorem enter_adds (fair : env.Plain) {call : Call} (plain : call.Plain) (above : ∀ inner, call ≠ .client inner) :
    ∃ top, Adds host (host.enter codec env call).2 top ∧ Promptly top := by
  have nothing (after : Host) (added : Adds host after []) : ∃ top, Adds host after top ∧ Promptly top :=
    ⟨[], added, promptly_nil⟩
  cases call with
  | client inner => exact absurd rfl (above inner)
  | start targets plan onEvent => exact nothing _ (start_adds targets plan onEvent)
  | confirm =>
    refine nothing _ ?_
    simp only [enter, confirm]
    split
    · exact .refl host
    · exact post_adds nofun
  | resumeAfterReconnect =>
    refine nothing _ ?_
    simp only [enter, resumeAfterReconnect]
    split
    · exact .refl host
    · exact post_adds nofun
  | reconnectFailed =>
    refine nothing _ ?_
    simp only [enter, reconnectFailed]
    split
    · exact .refl host
    · exact post_adds plain
  | cancel => exact nothing _ cancel_adds
  | poll now => exact poll_adds now
  | upload => exact nothing _ (upload_adds fair _ _ _ _)
  | resumeUpload =>
    refine nothing _ ?_
    simp only [enter]
    split
    · exact resumeUpload_adds fair _ _
    · exact .refl host
  | cancelUpload handle =>
    refine nothing _ ?_
    simp only [enter]
    split
    · exact cancelUpload_adds handle
    · exact .refl host

end

structure Plain (host : Host) : Prop where
  world : host.world.Plain
  jobs : ∀ job ∈ host.jobs, job.Plain
  tasks : ∀ task ∈ host.tasks, task.Plain

structure Prompt (host : Host) : Prop where
  behind : Promptly host.tasks
  heeded : host.controlled = false → ∀ task ∈ host.tasks, task.dispatches = false

section
variable {codec : Codec} {env : Env} {before after : Host}

theorem Adds.plain_after {top : List Task} (adds : Adds before after top) (plain : before.Plain) : after.Plain := by
  refine ⟨adds.world plain.world, fun job member => ?_, fun task member => ?_⟩
  · rcases adds.jobs job member with old | new
    · exact plain.jobs job old
    · exact new
  rw [adds.tasks] at member
  rcases mem_append.mp member with new | old
  · exact adds.plain task new
  · exact plain.tasks task old

theorem Adds.prompt_after {top : List Task} (adds : Adds before after top) (promptly : Promptly top)
    (controlled : before.controlled = true) (calm : ∀ task ∈ before.tasks, task.dispatches = false) : after.Prompt := by
  have same : after.controlled = before.controlled := by rw [Host.controlled, Host.controlled, adds.stack]
  refine ⟨?_, fun uncontrolled => ?_⟩
  · rw [Promptly, adds.tasks]
    cases top with
    | nil => exact fun task member => calm task (mem_of_mem_tail member)
    | cons =>
      intro task member
      rcases mem_append.mp member with new | old
      · exact promptly task new
      · exact calm task old
  · rw [same, controlled] at uncontrolled
    cases uncontrolled

theorem Prompt.calm {task : Task} {rest : List Task} (prompt : before.Prompt) (top : before.tasks = task :: rest) :
    ∀ other ∈ rest, other.dispatches = false := by
  have behind := prompt.behind
  rw [top] at behind
  exact behind

theorem Prompt.free (prompt : before.Prompt) (free : before.free = true) :
    before.controlled = true ∧ ∀ task ∈ before.tasks, task.dispatches = false := by
  unfold Host.free at free
  rw [Bool.and_eq_true] at free
  refine ⟨free.1, ?_⟩
  cases stack : before.tasks with
  | nil => simp
  | cons task rest =>
    cases task with
    | application =>
      intro other member
      rcases mem_cons.mp member with rfl | below
      · rfl
      · exact prompt.calm stack other below
    | _ => simp [stack] at free

theorem enterClient_plain (plain : before.Plain) {call : Smp.Call} (fair : call.Plain) :
    (before.enterClient call).Plain ∧ (before.enterClient call).tasks = before.tasks := by
  have entered : Plain { before with world := (before.world.enter call).2 } :=
    ⟨Smp.World.enter_plain plain.world fair, plain.jobs, plain.tasks⟩
  cases call with
  | request spec given _ now => exact ⟨(ask_adds .application spec given fair now).plain_after plain, rfl⟩
  | defer work =>
    cases work with
    | none => exact ⟨plain, rfl⟩
    | some => exact ⟨(@defer_adds before .application trivial).plain_after plain, rfl⟩
  | destroy => exact ⟨plain, rfl⟩
  | _ => exact ⟨entered, rfl⟩

theorem goOn_plain (coded : codec.Plain) (plain : before.Plain)
    (calm : ∀ task ∈ before.tasks, task.dispatches = false) :
    (before.goOn codec).2.Plain ∧ ∀ task ∈ (before.goOn codec).2.tasks, task.dispatches = false := by
  obtain ⟨world, said⟩ := Smp.World.proceed_plain plain.world coded.extractMgmtError
  have called (tasks : List Task) (fair : ∀ task ∈ tasks, task.Plain) (others : ∀ task ∈ tasks, task.dispatches = false) :
      Plain { before with world := (before.world.proceed codec.extractMgmtError).2, tasks := tasks ++ before.tasks } ∧
        ∀ task ∈ tasks ++ before.tasks, task.dispatches = false := by
    refine ⟨⟨world, plain.jobs, fun task member => ?_⟩, fun task member => ?_⟩
    · rcases mem_append.mp member with new | old
      · exact fair task new
      · exact plain.tasks task old
    rcases mem_append.mp member with new | old
    · exact others task new
    · exact calm task old
  unfold goOn
  dsimp only
  refine called _ ?_ ?_
  · split
    · rename_i callback result completed
      rw [completed] at said
      intro task member
      simp only [mem_cons, not_mem_nil, or_false] at member
      rcases member with rfl | rfl
      · exact said
      · trivial
    · rename_i number worked
      intro task member
      simp only [mem_cons, not_mem_nil, or_false] at member
      rcases member with rfl | rfl
      · show Job.Plain _
        rw [getD_eq_getElem?_getD]
        cases found : before.jobs[number]? with
        | none => trivial
        | some job => exact plain.jobs job (mem_of_getElem? found)
      · trivial
    · simp
  · split
    · intro task member
      simp only [mem_cons, not_mem_nil, or_false] at member
      rcases member with rfl | rfl <;> rfl
    · intro task member
      simp only [mem_cons, not_mem_nil, or_false] at member
      rcases member with rfl | rfl <;> rfl
    · simp

theorem proceed_plain (coded : codec.Plain) (fair : env.Plain) (plain : before.Plain) (prompt : before.Prompt) :
    (before.proceed codec env).2.Plain ∧ (before.proceed codec env).2.Prompt := by
  have settled {after : Host} (is : after.Plain) (calm : ∀ task ∈ after.tasks, task.dispatches = false) :
      after.Plain ∧ after.Prompt := ⟨is, fun task member => calm task (mem_of_mem_tail member), fun _ => calm⟩
  unfold proceed
  by_cases controlled : before.controlled = true
  · rw [if_neg (by simp [controlled])]
    cases stack : before.tasks with
    | nil => exact ⟨plain, prompt⟩
    | cons task rest =>
      have calm := prompt.calm stack
      have below : Plain { before with tasks := rest } :=
        ⟨plain.world, plain.jobs, fun other member => plain.tasks other (stack ▸ mem_cons_of_mem _ member)⟩
      have own := plain.tasks task (stack ▸ mem_cons_self)
      by_cases returns : task = .returning
      · subst returns
        refine settled ⟨(Smp.World.proceed_plain plain.world coded.extractMgmtError).1, plain.jobs, below.tasks⟩ calm
      · obtain ⟨top, adds, promptly⟩ := @execute_adds codec env { before with tasks := rest } coded fair task own returns
        exact ⟨adds.plain_after below, adds.prompt_after promptly controlled calm⟩
  · rw [if_pos (by simp [controlled])]
    obtain ⟨is, calm⟩ := @goOn_plain codec before coded plain (prompt.heeded (by simpa using controlled))
    exact settled is calm

theorem step_plain (coded : codec.Plain) {event : Event} (fair : event.Plain) (plain : before.Plain)
    (prompt : before.Prompt) : (before.step codec event).2.Plain ∧ (before.step codec event).2.Prompt := by
  cases event with
  | proceed => exact proceed_plain coded fair plain prompt
  | call made env =>
    simp only [step]
    by_cases free : before.free = true
    · rw [if_pos free]
      obtain ⟨controlled, calm⟩ := prompt.free free
      by_cases inner : ∃ call, made = .client call
      · obtain ⟨call, rfl⟩ := inner
        obtain ⟨is, same⟩ := enterClient_plain plain fair.1
        exact ⟨is, fun task member => calm task (same ▸ mem_of_mem_tail member), fun _ task member =>
          calm task (same ▸ member)⟩
      · obtain ⟨top, adds, promptly⟩ := @enter_adds codec env before fair.2 made fair.1
          fun call same => inner ⟨call, same⟩
        exact ⟨adds.plain_after plain, adds.prompt_after promptly controlled calm⟩
    · rw [if_neg free]
      exact ⟨plain, prompt⟩

theorem new_plain (transport : Nat) (config : SmpClientConfig) :
    (new transport config).Plain ∧ (new transport config).Prompt := by
  have none_ : (new transport config).tasks = [] ∧ (new transport config).jobs = [] := ⟨rfl, rfl⟩
  refine ⟨⟨Smp.World.start_plain transport config, ?_, ?_⟩, ?_, ?_⟩ <;> simp [Promptly, none_]

end

end Host

end Smply
