import Smply.Host.Ledger

namespace Smply.Host

open List

open Smp (World RawResponse RequestSpec RequestHandle SmpClientConfig)

variable {first second third : Host} {before after : Host} {spent : List Code} {driver : UploadDriver}

def Code.asks (p : Reply → Bool) : Code → Bool
  | .reply asked => p asked
  | _ => false

structure Moves (before after : Host) (spent made : List Code) : Prop where
  booked : before.booked → after.booked
  present : before.booked → ∀ p, spent.countP (weigh p) ≤ before.count p
  count : before.booked → ∀ p, after.count p + spent.countP (weigh p) = before.count p + made.countP (weigh p)
  stack : ∃ pushed rest, before.tasks = spent.filterMap Code.onStack ++ rest ∧ after.tasks = pushed ++ rest
  jobs : before.jobs <+: after.jobs
  asked : before.replies <+: after.replies
  waits : before.booked → ∀ callback error, .fail callback error ∈ before.world.waiting →
    .fail callback error ∈ after.world.waiting ∨ ∃ reply, before.replies[callback]? = some reply ∧ .reply reply ∈ spent
  replies : ∀ p : Reply → Bool, p .application = false →
    after.replies.countP p = before.replies.countP p + made.countP (Code.asks p)

section
variable (host : Host)
include host

theorem Moves.refl : Moves host host [] [] :=
  ⟨id, fun _ _ => Nat.zero_le _, fun _ _ => rfl, ⟨[], host.tasks, rfl, rfl⟩, prefix_rfl, prefix_rfl,
    fun _ _ _ => .inl, fun _ _ => rfl⟩

omit host in
theorem Moves.trans {spent made more : List Code} (one : Moves first second spent made)
    (two : Moves second third [] more) : Moves first third spent (made ++ more) := by
  refine ⟨fun books => two.booked (one.booked books), one.present, fun books p => ?_, ?_, one.jobs.trans two.jobs,
    one.asked.trans two.asked, fun books callback error waits => ?_, fun p other => ?_⟩
  · have left := one.count books p
    have right := two.count (one.booked books) p
    rw [countP_nil, Nat.add_zero] at right
    rw [countP_append]
    omega
  · obtain ⟨pushed, rest, before, after⟩ := one.stack
    obtain ⟨more, same, under, over_⟩ := two.stack
    rw [filterMap_nil, nil_append] at under
    exact ⟨more ++ pushed, rest, before, by rw [over_, ← under, after, append_assoc]⟩
  · rcases one.waits books callback error waits with waits | taken
    · rcases two.waits (one.booked books) callback error waits with waits | ⟨reply, _, member⟩
      · exact .inl waits
      · cases member
    · exact .inr taken
  · rw [two.replies p other, one.replies p other, countP_append, Nat.add_assoc]

theorem Moves.push (task : Task) : Moves host (host.push task) [] [.task task] := by
  refine ⟨id, fun _ _ => Nat.zero_le _, fun _ p => ?_, ⟨[task], host.tasks, rfl, rfl⟩, prefix_rfl, prefix_rfl,
    fun _ _ _ => .inl, fun _ _ => rfl⟩
  simp only [Host.count, Host.push, countP_cons, countP_nil, Nat.add_zero]
  omega

theorem Moves.push_application : Moves host (host.push .application) [] [] :=
  ⟨(Moves.push host .application).booked, fun _ _ => Nat.zero_le _, (Moves.push host .application).count,
    (Moves.push host .application).stack, prefix_rfl, prefix_rfl, fun _ _ _ => .inl, fun _ _ => rfl⟩

theorem Moves.push_returning : Moves host (host.push .returning) [] [] :=
  ⟨(Moves.push host .returning).booked, fun _ _ => Nat.zero_le _, (Moves.push host .returning).count,
    (Moves.push host .returning).stack, prefix_rfl, prefix_rfl, fun _ _ _ => .inl, fun _ _ => rfl⟩

omit host in
theorem Moves.pop {task : Task} (world : after.world = before.world)
    (replies : after.replies = before.replies) (jobs : after.jobs = before.jobs)
    (tasks : before.tasks = task :: after.tasks) : Moves before after [.task task] [] := by
  refine ⟨fun books => ?_, fun _ p => ?_, fun _ p => ?_, ⟨[], after.tasks, tasks, rfl⟩, jobs ▸ prefix_rfl,
    replies ▸ prefix_rfl, fun _ _ _ waits => .inl (world ▸ waits), fun p _ => by rw [replies]; rfl⟩
  · rwa [Host.booked, world, replies, jobs]
  · simp only [Host.count, tasks, countP_cons, countP_nil]
    omega
  · simp only [Host.count, world, replies, jobs, tasks, countP_cons, countP_nil]
    omega

theorem Moves.defer (job : Job) : Moves host (host.defer job) [] [.job job] := by
  refine ⟨fun books => (Books.deferred books job).1, fun _ _ => Nat.zero_le _, fun books p => ?_,
    ⟨[], host.tasks, rfl, rfl⟩, prefix_append .., prefix_rfl, fun _ _ _ waits => .inl (World.enter_waits _ _ waits), fun _ _ => rfl⟩
  have queued := (Books.deferred books job).2 p
  simp only [Host.count, Host.defer, queued, countP_cons, countP_nil, Nat.add_zero]
  omega

theorem Moves.ask (reply : Reply) (spec : RequestSpec) (sent : Result Unit) (now : TimePoint) :
    Moves host (host.ask reply spec true sent now).2 [] [.reply reply] := by
  refine ⟨fun books => (Books.asked books reply spec true sent now).1, fun _ _ => Nat.zero_le _, fun books p => ?_,
    ⟨[], host.tasks, rfl, rfl⟩, prefix_rfl, prefix_append ..,
    fun _ _ _ waits => .inl (World.enter_waits _ _ waits), fun p _ => ?_⟩
  · have asked := (Books.asked books reply spec true sent now).2 p
    simp only [Host.count, Host.ask, asked, countP_cons, countP_nil, Bool.true_and]
    omega
  · simp only [Host.ask, countP_append, countP_cons, countP_nil, Code.asks]
    rfl

theorem Moves.ask_application (spec : RequestSpec) (given : Bool) (sent : Result Unit)
    (now : TimePoint) : Moves host (host.ask .application spec given sent now).2 [] [] := by
  refine ⟨fun books => (Books.asked books .application spec given sent now).1, fun _ _ => Nat.zero_le _,
    fun books p => ?_, ⟨[], host.tasks, rfl, rfl⟩, prefix_rfl, prefix_append .., fun _ _ _ waits => .inl (World.enter_waits _ _ waits),
    fun p other => ?_⟩
  · have asked := (Books.asked books .application spec given sent now).2 p
    have neutral : weigh p (.reply .application) = false := rfl
    simp only [Host.count, Host.ask, asked, neutral, Bool.and_false, Bool.false_eq_true, ↓reduceIte]
    omega
  · simp only [Host.ask, countP_append, countP_cons, countP_nil, other, Bool.false_eq_true, ↓reduceIte]

theorem Moves.enter {call : Smp.Call} (handsNothing : plain call = true) :
    Moves host { host with world := (host.world.enter call).2 } [] [] := by
  refine ⟨fun books => (Books.entered books handsNothing).1, fun _ _ => Nat.zero_le _, fun books p => ?_,
    ⟨[], host.tasks, rfl, rfl⟩, prefix_rfl, prefix_rfl, fun _ _ _ waits => .inl (World.enter_waits _ _ waits), fun _ _ => rfl⟩
  have same := (Books.entered books handsNothing).2 p
  simp only [Host.count, same]

theorem Moves.proceed (extractMgmtError : Bytes → Result Smp.MgmtOutcome) :
    Moves host { host with world := (host.world.proceed extractMgmtError).2 }
      (called host.replies host.jobs (host.world.proceed extractMgmtError).1).toList [] := by
  have count (books : host.booked) (p : Code → Bool) :
      host.count p = Host.count { host with world := (host.world.proceed extractMgmtError).2 } p +
        (called host.replies host.jobs (host.world.proceed extractMgmtError).1).toList.countP (weigh p) := by
    have took := (@Books.proceeded extractMgmtError _ _ _ books).2 p
    simp only [Host.count, took]
    cases called host.replies host.jobs (host.world.proceed extractMgmtError).1 with
    | none =>
      simp only [Option.any_none, Bool.false_eq_true, ↓reduceIte, Option.toList_none, countP_nil]
      omega
    | some =>
      simp only [Option.any_some, Option.toList_some, countP_cons, countP_nil]
      omega
  refine ⟨fun books => (Books.proceeded books).1, fun books p => ?_, fun books p => (count books p).symm,
    ⟨[], host.tasks, by rw [called_onStack]; rfl, rfl⟩, prefix_rfl, prefix_rfl,
    fun books callback error waits => ?_, fun _ _ => rfl⟩
  · rw [count books p]
    exact Nat.le_add_left ..
  rcases (@World.proceed_handed extractMgmtError host.world).waits waits with waits | ran
  · exact .inl waits
  have found := getElem?_eq_getElem (Books.completed_inside books ran)
  refine .inr ⟨_, found, ?_⟩
  rw [ran]
  simp [called, found]

end

theorem Moves.framed {fourth : Host} {spent made : List Code} (moves : Moves first second spent made)
    (before : (first.world, first.replies, first.jobs, first.tasks) = (third.world, third.replies, third.jobs, third.tasks))
    (after : (second.world, second.replies, second.jobs, second.tasks) =
      (fourth.world, fourth.replies, fourth.jobs, fourth.tasks)) : Moves third fourth spent made := by
  simp only [Prod.mk.injEq] at before after
  obtain ⟨booked, present, count, stack, jobs, asked, waits, replies⟩ := moves
  simp only [Host.booked, Host.count, before, after] at booked present count stack jobs asked waits replies
  exact ⟨booked, present, count, stack, jobs, asked, waits, replies⟩

structure Still (before after : Host) : Prop where
  updater : after.updater = before.updater
  updates : after.updates = before.updates

def telling (origin : Origin) (owner : Owner) (event : Dfu.Event) : List Code :=
  match owner with
  | .application => []
  | .updater update => [.task (.dispatch origin update event)]

theorem tell_moves (before : Host) (origin : Origin) (life : Option Nat) (owner : Owner)
    (result : Result UploadResult) :
    Moves before (before.tell origin life owner result).2 [] (telling origin owner (before.uploadEvent result)) ∧
      Still before (before.tell origin life owner result).2 ∧
      (before.tell origin life owner result).2.image = before.image := by
  cases owner with
  | application => exact ⟨Moves.push_application before, ⟨rfl, rfl⟩, rfl⟩
  | updater => exact ⟨Moves.push before _, ⟨rfl, rfl⟩, rfl⟩

theorem uploadEvent_same (image : after.image = before.image) (still : Still before after)
    (result : Result UploadResult) : after.uploadEvent result = before.uploadEvent result := by
  unfold uploadEvent uploadOf
  rw [image, still.updater]

inductive Ends (before : Host) (base : ImageManagement) (driver : UploadDriver) (origin : Option Origin)
    (outcome : Result UploadResult) (spent : List Code) : Output × Host → Prop
  | inactive {after : Host} (idle : driver.active = false) (moves : Moves before after spent [])
      (still : Still before after) (image : after.image = { base with upload := some driver }) :
      Ends before base driver origin outcome spent (.quiet, after)
  | unheard {after : Host} (active : driver.active = true) (nobody : driver.onDone = none)
      (moves : Moves before after spent []) (still : Still before after)
      (image : after.image = { base with upload := some { driver with active := false, onDone := none } }) :
      Ends before base driver origin outcome spent (.quiet, after)
  | queued {owner} {after : Host} (active : driver.active = true) (given : driver.onDone = some owner)
      (starting : origin = none) (moves : Moves before after spent [.job (.finished driver.life owner outcome)])
      (still : Still before after)
      (image : after.image = { base with upload := some { driver with active := false, onDone := none } }) :
      Ends before base driver origin outcome spent (.quiet, after)
  | told {owner cause} {after : Host} (active : driver.active = true) (given : driver.onDone = some owner)
      (goes : origin = some cause) (moves : Moves before after spent (telling cause owner (after.uploadEvent outcome)))
      (still : Still before after)
      (image : after.image = { base with upload := some { driver with active := false, onDone := none } }) :
      Ends before base driver origin outcome spent (.finished (some driver.life) owner outcome, after)

theorem finishUpload_ends (before : Host) (driver : UploadDriver) (origin : Option Origin)
    (outcome : Result UploadResult) :
    Ends before before.image driver origin outcome [] (before.finishUpload driver origin outcome) := by
  have kept (driver : UploadDriver) : Moves before (before.keep driver) [] [] := (Moves.refl before).framed rfl rfl
  unfold finishUpload
  by_cases active : driver.active = true
  · rw [if_neg (by simp [active])]
    dsimp only
    cases given : driver.onDone with
    | none => exact .unheard active given (kept _) ⟨rfl, rfl⟩ rfl
    | some owner =>
      cases origin with
      | none => exact .queued active given rfl ((kept _).trans (Moves.defer _ _)) ⟨rfl, rfl⟩ rfl
      | some cause =>
        obtain ⟨moves, still, image⟩ := tell_moves (before.keep { driver with active := false, onDone := none }) cause
          (some driver.life) owner outcome
        rw [← uploadEvent_same image still] at moves
        exact .told active given rfl ((kept _).trans moves) ⟨still.updater, still.updates⟩ image
  · rw [if_pos (by simp [active])]
    exact .inactive (by simpa using active) (kept driver) ⟨rfl, rfl⟩ rfl

def Tells (before : Host) (update : Nat) (event : UpdateEvent → Prop) (output : Output) : Prop :=
  output = .quiet ∨
    ∃ listener said, before.updater.onEvent = some listener ∧ event said ∧ output = .emitted listener update said

def Reports (before : Host) (driver : UploadDriver) (output : Output) : Prop :=
  match driver.onProgress with
  | none => output = .quiet
  | some .application => output = .progressed driver.life driver.state.confirmedOff driver.config.imageSize
  | some (.updater update) =>
    Tells before update (· = .progress driver.state.confirmedOff driver.config.imageSize) output

theorem emit_tells (before : Host) (update : Nat) (event : UpdateEvent) :
    Tells before update (· = event) (before.emit update event).1 ∧ Moves before (before.emit update event).2 [] [] ∧
      Still before (before.emit update event).2 ∧ (before.emit update event).2.image = before.image := by
  unfold emit
  split
  · exact ⟨.inl rfl, Moves.refl _, ⟨rfl, rfl⟩, rfl⟩
  · rename_i listener given
    exact ⟨.inr ⟨listener, event, given, rfl, rfl⟩, Moves.push_application before, ⟨rfl, rfl⟩, rfl⟩

theorem progress_reports (before : Host) (driver : UploadDriver) :
    Reports before driver (before.progress driver).1 ∧ Moves before (before.progress driver).2 [] [] ∧
      Still before (before.progress driver).2 ∧ (before.progress driver).2.image = before.image := by
  unfold progress Reports
  cases driver.onProgress with
  | none => exact ⟨rfl, Moves.refl _, ⟨rfl, rfl⟩, rfl⟩
  | some owner =>
    cases owner with
    | application => exact ⟨rfl, Moves.push_application before, ⟨rfl, rfl⟩, rfl⟩
    | updater update => exact emit_tells before update _

theorem keep_progress (before : Host) (driver : UploadDriver) (task : Task) :
    Reports before driver (((before.keep driver).push task).progress driver).1 ∧
      Moves before (((before.keep driver).push task).progress driver).2 [] [.task task] ∧
      Still before (((before.keep driver).push task).progress driver).2 ∧
      (((before.keep driver).push task).progress driver).2.image = { before.image with upload := some driver } := by
  obtain ⟨reports, moves, still, image⟩ := progress_reports ((before.keep driver).push task) driver
  refine ⟨reports, ?_, ⟨still.updater, still.updates⟩, image⟩
  have pushed := (Moves.push (before.keep driver) task).trans moves
  exact pushed.framed rfl rfl

inductive Advanced (before : Host) (base : ImageManagement) (driver : UploadDriver) (origin : Option Origin)
    (step : Upload.Step) (spent : List Code) : Output × Host → Prop
  | sent {request handle} {after : Host} (asks : step = .sendChunk request)
      (moves : Moves before after spent [.reply (.driver driver.life)]) (still : Still before after)
      (image : after.image = { base with
        upload := some { driver with state := Upload.recordSent driver.state request, request := handle } }) :
      Advanced before base driver origin step spent (.quiet, after)
  | ended {outcome} (result : Output × Host) (failed : ∀ error, step = .fail error → outcome = .error error)
      (ends : Ends before base driver origin outcome spent result) :
      Advanced before base driver origin step spent result
  | reported {cause result output} {after : Host} (goes : origin = some cause)
      (completes : ∃ match_ first, step = .complete match_ first)
      (moves : Moves before after spent [.task (.conclude cause driver.life result)]) (still : Still before after)
      (image : after.image = { base with
        upload := some { driver with reportedOff := driver.state.confirmedOff } })
      (reports : Reports before { driver with reportedOff := driver.state.confirmedOff } output) :
      Advanced before base driver origin step spent (output, after)

section
variable (codec : Codec) (env : Env) (before : Host) (driver : UploadDriver) (origin : Option Origin)

theorem send_advanced (request : Upload.UploadRequest) :
    Advanced before before.image driver origin (.sendChunk request) []
      (before.send codec env driver origin request) := by
  unfold send
  split
  · exact .ended _ (by simp) (finishUpload_ends ..)
  split
  · exact .ended _ (by simp) (finishUpload_ends ..)
  · refine .sent rfl ?_ ⟨rfl, rfl⟩ rfl
    exact (Moves.ask before ..).framed rfl rfl

theorem advance_advanced (step : Upload.Step) :
    Advanced before before.image driver origin step [] (before.advance codec env driver origin step) := by
  unfold advance
  split
  · exact send_advanced codec env before driver origin _
  · dsimp only
    split
    · exact .ended _ (by simp) (finishUpload_ends ..)
    rename_i cause
    split
    · have told := keep_progress before { driver with reportedOff := driver.state.confirmedOff }
      exact .reported rfl ⟨_, _, rfl⟩ (told _).2.1 (told _).2.2.1 (told _).2.2.2 (told _).1
    · exact .ended _ (by simp) (finishUpload_ends ..)
  · refine .ended _ ?_ (finishUpload_ends ..)
    intro error same
    cases same
    rfl
  · exact .ended _ (by simp) (finishUpload_ends ..)

end

theorem Tells.still {update : Nat} {event : UpdateEvent → Prop} {output : Output}
    (tells : Tells after update event output) (still : Still before after) : Tells before update event output := by
  rcases tells with quiet | ⟨listener, said, given, is, emitted⟩
  · exact .inl quiet
  · exact .inr ⟨listener, said, by rw [← still.updater]; exact given, is, emitted⟩

theorem Reports.still {output : Output}
    (reports : Reports after driver output) (still : Still before after) : Reports before driver output := by
  unfold Reports at reports ⊢
  revert reports
  cases driver.onProgress with
  | none => exact id
  | some owner =>
    cases owner with
    | application => exact id
    | updater => exact fun tells => Tells.still tells still

theorem Still.trans (one : Still first second) (two : Still second third) : Still first third :=
  ⟨two.updater.trans one.updater, two.updates.trans one.updates⟩

section
variable {first before : Host} {base : ImageManagement} {origin : Option Origin}

theorem Ends.prepend {outcome : Result UploadResult} {result : Output × Host}
    (ends : Ends before base driver origin outcome [] result) (moves : Moves first before spent [])
    (still : Still first before) : Ends first base driver origin outcome spent result := by
  have both {after : Host} {made : List Code} (goes : Moves before after [] made) : Moves first after spent made :=
    moves.trans goes
  cases ends with
  | inactive idle goes quiet image => exact .inactive idle (both goes) (still.trans quiet) image
  | unheard active nobody goes quiet image =>
    exact .unheard active nobody (both goes) (still.trans quiet) image
  | queued active given starting goes quiet image =>
    exact .queued active given starting (both goes) (still.trans quiet) image
  | told active given origin goes quiet image =>
    exact .told active given origin (both goes) (still.trans quiet) image

theorem Advanced.prepend {step : Upload.Step} {result : Output × Host}
    (advanced : Advanced before base driver origin step [] result) (moves : Moves first before spent [])
    (still : Still first before) : Advanced first base driver origin step spent result := by
  cases advanced with
  | sent asks goes quiet image =>
    exact .sent asks (moves.trans goes) (still.trans quiet) image
  | ended result failed ends => exact .ended result failed (ends.prepend moves still)
  | reported goes completes made quiet image reports =>
    exact .reported goes completes (moves.trans made) (still.trans quiet) image (reports.still still)

end

def rejecting (onDone : Option Owner) (error : Error) : List Code :=
  (onDone.map fun owner => Code.job (.rejected owner error)).toList

theorem reject_moves (before : Host) (onDone : Option Owner) (error : Error) :
    Moves before (before.reject onDone error) [] (rejecting onDone error) ∧
      Still before (before.reject onDone error) ∧ (before.reject onDone error).image = before.image := by
  cases onDone with
  | none => exact ⟨Moves.refl _, ⟨rfl, rfl⟩, rfl⟩
  | some => exact ⟨Moves.defer before _, ⟨rfl, rfl⟩, rfl⟩

inductive Uploads (before : Host) (onProgress onDone : Option Owner) (spent : List Code) :
    UploadHandle × Host → Prop
  | refused {error} {after : Host} (moves : Moves before after spent (rejecting onDone error))
      (still : Still before after) (image : after.image = before.image) :
      Uploads before onProgress onDone spent ({}, after)
  | begun {driver output} {after : Host} (idle : before.uploadActive = false)
      (life : driver.life = before.image.lives + 1) (generation : driver.generation = before.image.uploadGeneration + 1)
      (progress : driver.onProgress = onProgress) (done : driver.onDone = onDone) (active : driver.active = true)
      (fresh : driver.state = {})
      (advanced : Advanced before ⟨some driver, driver.generation, driver.life⟩ driver none (Upload.planNext driver.config {}) spent
        (output, after)) :
      Uploads before onProgress onDone spent (if after.uploadActive then ⟨driver.generation⟩ else {}, after)

theorem upload_uploads (codec : Codec) (env : Env) (before : Host) (source : Source) (options : UploadOptions)
    (onProgress onDone : Option Owner) :
    Uploads before onProgress onDone [] (before.upload codec env source options onProgress onDone) := by
  unfold upload
  split
  · obtain ⟨moves, still, image⟩ := reject_moves before onDone (.at .invalidState "image: an upload is already running")
    exact .refused moves still image
  rename_i idle
  split
  · rename_i error _
    obtain ⟨moves, still, image⟩ := reject_moves before onDone error
    exact .refused moves still image
  rename_i config _
  let driver : UploadDriver :=
    { life := before.image.lives + 1, generation := before.image.uploadGeneration + 1
      source := source, config := config
      firstChunkTimeout := options.firstChunkTimeout, finalChunkTimeout := options.finalChunkTimeout
      chunkTimeout := options.chunkTimeout, onProgress := onProgress, onDone := onDone, active := true }
  have moves : Moves before { before with image := ⟨some driver, driver.generation, driver.life⟩ } [] [] :=
    (Moves.refl before).framed rfl rfl
  have advanced := (advance_advanced codec env { before with image := ⟨some driver, driver.generation, driver.life⟩ } driver none
    (Upload.planNext config {})).prepend moves ⟨rfl, rfl⟩
  exact .begun (by simpa using idle) rfl rfl rfl rfl rfl rfl advanced

theorem Uploads.prepend {before : Host} {onProgress onDone : Option Owner} {result : UploadHandle × Host}
    (uploads : Uploads before onProgress onDone [] result)
    (moves : Moves first before spent []) (still : Still first before) (same : before.image = first.image) :
    Uploads first onProgress onDone spent result := by
  cases uploads with
  | refused goes quiet image =>
    exact .refused (moves.trans goes) (still.trans quiet) (image.trans same)
  | begun idle life generation progress done active fresh advanced =>
    rw [uploadActive, same] at idle
    rw [same] at life generation
    exact .begun idle life generation progress done active fresh (advanced.prepend moves still)

inductive Resumes (before : Host) (handle : UploadHandle) (onDone : Option Owner) (spent : List Code) :
    UploadHandle × Host → Prop
  | refused {error} {after : Host} (moves : Moves before after spent (rejecting onDone error))
      (still : Still before after) (image : after.image = before.image) : Resumes before handle onDone spent ({}, after)
  | begun {old output} {after : Host} (found : before.uploadOf handle = some old) (suspended : old.resumable = true)
      (advanced : Advanced before before.image
        { old with onDone := onDone, active := true, state := (Upload.resume old.config old.state).2 } none
        (Upload.resume old.config old.state).1 spent (output, after)) :
      Resumes before handle onDone spent (handle, after)

theorem resume_resumes (codec : Codec) (env : Env) (before : Host) (handle : UploadHandle) (onDone : Option Owner) :
    Resumes before handle onDone [] (before.resume codec env handle onDone) := by
  have rejected := reject_moves before onDone (.at .invalidState "image: no upload to resume")
  unfold resume
  split
  · exact .refused rejected.1 rejected.2.1 rejected.2.2
  rename_i old found
  split
  · exact .refused rejected.1 rejected.2.1 rejected.2.2
  · rename_i suspended
    exact .begun found (by simpa using suspended) (advance_advanced codec env before _ none _)

theorem Resumes.prepend {before : Host} {handle : UploadHandle} {onDone : Option Owner} {result :
    UploadHandle × Host} (resumes : Resumes before handle onDone [] result)
    (moves : Moves first before spent []) (still : Still first before) (same : before.image = first.image) :
    Resumes first handle onDone spent result := by
  cases resumes with
  | refused goes quiet image =>
    exact .refused (moves.trans goes) (still.trans quiet) (image.trans same)
  | begun found suspended advanced =>
    rw [uploadOf, same] at found
    rw [same] at advanced
    exact .begun found suspended (advanced.prepend moves still)

end Smply.Host
