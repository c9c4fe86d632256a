import Smply.Host.Moves

namespace Smply.Host

open Moves Option

open Smp (World RawResponse RequestSpec RequestHandle SmpClientConfig)

variable {update : Nat} {step : Dfu.Step} {task : Task} {event : Dfu.Event}

inductive Drops (before : Host) : Task → Prop
  | stale (callback life : Nat) (result : Result RawResponse)
      (gone : ∀ driver, before.uploadDriver life = some driver → driver.active = false) :
      Drops before (.answer callback (.driver life) result)
  | orphan (number life : Nat) (owner : Owner) (result : Result UploadResult)
      (gone : before.uploadDriver life = none) : Drops before (.work number (.finished life owner result))
  | advance (origin : Origin) (life : Nat) (step : Upload.Step) (gone : before.uploadDriver life = none) :
      Drops before (.advance origin life step)
  | conclude (origin : Origin) (life : Nat) (result : UploadResult) (gone : before.uploadDriver life = none) :
      Drops before (.conclude origin life result)
  | dispatch (origin : Origin) (update : Nat) (event : Dfu.Event)
      (over_ : before.updater.machine = none ∨ before.updater.running = false) :
      Drops before (.dispatch origin update event)
  | carry (update : Nat) (step : Dfu.Step)
      (nothing : step.effect = .none ∨ step.effect = .awaitApply ∨
        (step.effect = .continue ∧ before.updater.machine = none) ∨
        (step.effect = .startUpload ∧ before.sourceOf step = none)) : Drops before (.carry update step)

inductive Relays (codec : Codec) : Task → Origin → Nat → Dfu.Event → Prop
  | answer (callback update : Nat) (query : Query) (result : Result RawResponse) :
      Relays codec (.answer callback (.updater update query) result) (.reply callback) update (query.event codec result)
  | post (number update : Nat) (event : Dfu.Event) :
      Relays codec (.work number (.post update event)) (.job number) update event

inductive Speaks (before : Host) : Job → Option Nat → Owner → Result UploadResult → Prop
  | rejected (owner : Owner) (error : Error) : Speaks before (.rejected owner error) none owner (.error error)
  | finished (life : Nat) (owner : Owner) (result : Result UploadResult)
      (alive : (before.uploadDriver life).isSome = true) :
      Speaks before (.finished life owner result) (some life) owner result

inductive Turns (before : Host) : Task → Nat → Dfu.Event → Prop
  | dispatch (origin : Origin) (update : Nat) (event : Dfu.Event) (running : before.updater.running = true) :
      Turns before (.dispatch origin update event) before.updates event
  | continue (update : Nat) (step : Dfu.Step) (goesOn : step.effect = .continue) :
      Turns before (.carry update step) update { kind := .continue }

def queryOf (step : Dfu.Step) : Option Query :=
  match step.effect with
  | .queryParameters => some .parameters
  | .queryBootloader => some .bootloader
  | .readState => some .state
  | .markForTest => some (.markForTest step.hash)
  | .reset => some (.reset false)
  | .forceReset => some (.reset true)
  | .confirm => some (.confirm step.hash)
  | _ => none

def announcement (plan : Plan) (step : Dfu.Step) : Option UpdateEvent :=
  match step.effect with
  | .awaitDisconnect => some .disconnectExpected
  | .requestReconnect => some (.reconnectRequired plan.reconnectHint)
  | .requestConfirmation => some .confirmationRequired
  | _ => none

inductive Posts (before : Host) : Call → Dfu.Event → Output → Prop
  | confirm (here : before.updater.state = .awaitingConfirmation) :
      Posts before .confirm { kind := .confirmApproved } .accepted
  | resume (here : before.updater.state = .awaitingReconnect) :
      Posts before .resumeAfterReconnect { kind := .reconnected } .accepted
  | reconnectFailed (error : Error) (running : before.updater.running = true) :
      Posts before (.reconnectFailed error) { kind := .reconnectFailed, error := error } .quiet

inductive Due (before : Host) : List Code → Prop
  | nothing : Due before []
  | dropped (running : before.updater.running = true) (here : before.updater.state = .awaitingDisconnect) :
      Due before [.task (.dispatch .poll before.updates { kind := .disconnected })]
  | deadline (running : before.updater.running = true) :
      Due before [.task (.dispatch .poll before.updates { kind := .tick })]

def Output.inert : Output → Bool
  | .quiet | .refused _ | .uploading _ => true
  | _ => false

inductive Row (codec : Codec) (before : Host) : Event → Output → Host → Prop
  | idle {event output after} (moves : Moves before after [] []) (still : Still before after)
      (image : after.image = before.image) (inert : output.inert = true) : Row codec before event output after
  | returned {env task after} (moves : Moves before after [.task task] []) (still : Still before after)
      (image : after.image = before.image) (neutral : (Code.task task).neutral = true) :
      Row codec before (.proceed env) .quiet after
  | dropped {env task after} (moves : Moves before after [.task task] []) (still : Still before after)
      (image : after.image = before.image) (drops : Drops before task) : Row codec before (.proceed env) .quiet after
  | answering {env callback reply result after}
      (moves : Moves before after [.reply reply] [.task (.answer callback reply result)]) (still : Still before after)
      (image : after.image = before.image) (found : before.replies[callback]? = some reply)
      (ran : before.world.proceed codec.extractMgmtError = (.completed callback result, after.world)) :
      Row codec before (.proceed env) .quiet after
  | working {env number job after} (moves : Moves before after [.job job] [.task (.work number job)])
      (still : Still before after) (image : after.image = before.image) (found : before.jobs[number]? = some job)
      (ran : before.world.proceed codec.extractMgmtError = (.worked number, after.world)) :
      Row codec before (.proceed env) .quiet after
  | relayed {env task origin update event after}
      (moves : Moves before after [.task task] [.task (.dispatch origin update event)]) (still : Still before after)
      (image : after.image = before.image) (relays : Relays codec task origin update event) :
      Row codec before (.proceed env) .quiet after
  | told {env number job life owner result after} (speaks : Speaks before job life owner result)
      (moves : Moves before after [.task (.work number job)]
        (telling (.job number) owner (before.uploadEvent result))) (still : Still before after)
      (image : after.image = before.image) : Row codec before (.proceed env) (.finished life owner result) after
  | paused {env callback life result driver request state output after} (found : before.uploadDriver life = some driver)
      (active : driver.active = true)
      (answered : Upload.onResponse driver.config driver.state (decodeChunk codec result) = (.sendChunk request, state))
      (moves : Moves before after [.task (.answer callback (.driver life) result)]
        [.task (.advance (.reply callback) life (.sendChunk request))]) (still : Still before after)
      (image : after.image = { before.image with
        upload := some { driver with request := {}, state := state, reportedOff := state.confirmedOff } })
      (reports : Reports before { driver with request := {}, state := state, reportedOff := state.confirmedOff } output) :
      Row codec before (.proceed env) output after
  | handled {env callback life result driver step state output after} (found : before.uploadDriver life = some driver)
      (active : driver.active = true)
      (answered : Upload.onResponse driver.config driver.state (decodeChunk codec result) = (step, state))
      (advanced : Advanced before before.image { driver with request := {}, state := state } (some (.reply callback))
        step [.task (.answer callback (.driver life) result)] (output, after)) :
      Row codec before (.proceed env) output after
  | advanced {env origin life step driver output after} (found : before.uploadDriver life = some driver)
      (advanced : Advanced before before.image driver (some origin) step [.task (.advance origin life step)]
        (output, after)) : Row codec before (.proceed env) output after
  | concluded {env origin life result driver output after} (found : before.uploadDriver life = some driver)
      (ends : Ends before before.image driver (some origin) (.ok result) [.task (.conclude origin life result)]
        (output, after)) : Row codec before (.proceed env) output after
  | turned {env task update event machine output after} (turns : Turns before task update event)
      (here : before.updater.machine = some machine) (moves : Moves before after [.task task]
        [.task (.carry update (machine.apply { event with now := before.updater.lastPoll }).1)])
      (updater : after.updater = { before.updater with
        machine := some (machine.apply { event with now := before.updater.lastPoll }).2 })
      (updates : after.updates = before.updates) (image : after.image = before.image)
      (tells : Tells before update (fun said => ∃ previous next, said = .stateChanged previous next) output) :
      Row codec before (.proceed env) output after
  | announced {env update step event output after} (moves : Moves before after [.task (.carry update step)] [])
      (still : Still before after) (image : after.image = before.image)
      (effect : announcement before.updater.plan step = some event) (tells : Tells before update (· = event) output) :
      Row codec before (.proceed env) output after
  | queried {env update step query after}
      (moves : Moves before after [.task (.carry update step)] [.reply (.updater update query)])
      (still : Still before after) (image : after.image = before.image) (asks : queryOf step = some query) :
      Row codec before (.proceed env) .quiet after
  | uploaded {env update step handle after} (effect : step.effect = .startUpload)
      (uploads : Uploads before (some (.updater update)) (some (.updater update)) [.task (.carry update step)]
        (handle, after)) :
      Row codec before (.proceed env) .quiet { after with updater := { after.updater with upload := handle } }
  | resumed {env update step handle after} (effect : step.effect = .resumeUpload)
      (resumes : Resumes before before.updater.upload (some (.updater update)) [.task (.carry update step)]
        (handle, after)) : Row codec before (.proceed env) .quiet after
  | finished {env update step output after} (effect : step.effect = .finish)
      (moves : Moves before after [.task (.carry update step)] [.task .clear])
      (updater : after.updater = { before.updater with running := false }) (updates : after.updates = before.updates)
      (image : after.image = before.image) (tells : output = match before.updater.onEvent with
        | none => .quiet
        | some listener => .emitted listener update (.finished before.updater.outcome)) :
      Row codec before (.proceed env) output after
  | cleared {env after} (moves : Moves before after [.task .clear] [])
      (updater : after.updater = { before.updater with onEvent := none, sources := [], upload := {} })
      (updates : after.updates = before.updates) (image : after.image = before.image) :
      Row codec before (.proceed env) .quiet after
  | started {targets plan env read after} (idle : before.updater.running = false)
      (valid : validate targets plan = .ok ()) (reads : targets.mapM (readTarget env) = .ok read)
      (moves : Moves before after [] [.job (.post (before.updates + 1) { kind := .start })])
      (updater : after.updater = { before.updater with
        plan := plan, sources := read.map (·.2), onEvent := some (before.updates + 1)
        machine := some (.new (read.map (·.1)) plan.decisions), running := true })
      (updates : after.updates = before.updates + 1) (image : after.image = before.image) :
      Row codec before (.call (.start targets plan true) env) .accepted after
  | posted {call env event output after} (posts : Posts before call event output)
      (moves : Moves before after [] [.job (.post before.updates event)]) (still : Still before after)
      (image : after.image = before.image) : Row codec before (.call call env) output after
  | cancelled {env after} (running : before.updater.running = true)
      (moves : Moves before after [] [.job (.post before.updates { kind := .cancel })]) (still : Still before after)
      (image : after.image = before.image ∨
        ∃ driver, before.uploadOf before.updater.upload = some driver ∧ driver.active = true ∧
          after.image = { before.image with upload := some { driver with request := {} } }) :
      Row codec before (.call .cancel env) .quiet after
  | polled {now env due after} (finds : Due before due) (moves : Moves before after [] due)
      (updater : after.updater = { before.updater with lastPoll := now }) (updates : after.updates = before.updates)
      (image : after.image = before.image) : Row codec before (.call (.poll now) env) .quiet after
  | uploadAsked {source options onProgress onDone env handle after}
      (uploads : Uploads before (given onProgress) (given onDone) [] (handle, after)) :
      Row codec before (.call (.upload source options onProgress onDone) env) (.uploading handle) after
  | resumeAsked {handle onDone env result after} (owned : before.owned handle = true)
      (resumes : Resumes before handle (given onDone) [] (result, after)) :
      Row codec before (.call (.resumeUpload handle onDone) env) (.uploading result) after
  | cancelAsked {handle env driver after} (owned : before.owned handle = true)
      (found : before.uploadOf handle = some driver) (active : driver.active = true) (moves : Moves before after [] [])
      (still : Still before after)
      (image : after.image = { before.image with upload := some { driver with request := {} } }) :
      Row codec before (.call (.cancelUpload handle) env) .quiet after

variable {codec : Codec} {env : Env}

section
variable {before : Host} {tasks : List Task}

theorem popped (top : before.tasks = task :: tasks) : Moves before { before with tasks := tasks } [.task task] [] :=
  pop rfl rfl rfl top

theorem popped_push (top : before.tasks = task :: tasks) (next : Task) :
    Moves before ({ before with tasks := tasks }.push next) [.task task] [.task next] :=
  (popped top).trans (Moves.push _ next)

theorem handle_row {callback life : Nat} {result : Result RawResponse}
    (top : before.tasks = .answer callback (.driver life) result :: tasks) :
    Row codec before (.proceed env) ({ before with tasks := tasks }.handle codec env callback life result).1
      ({ before with tasks := tasks }.handle codec env callback life result).2 := by
  unfold handle
  cases found : before.uploadDriver life with
  | none =>
    simp only [show { before with tasks := tasks }.uploadDriver life = none from found]
    refine .dropped (popped top) ⟨rfl, rfl⟩ rfl (.stale _ _ _ ?_)
    intro driver same
    rw [found] at same
    cases same
  | some driver =>
    simp only [show { before with tasks := tasks }.uploadDriver life = some driver from found]
    by_cases active : driver.active = true
    · rw [if_neg (by simp [active])]
      generalize answered : Upload.onResponse driver.config driver.state (decodeChunk codec result) = outcome
      obtain ⟨step, state⟩ := outcome
      dsimp only
      by_cases moved : sends step = true ∧ state.confirmedOff ≠ driver.reportedOff ∧ driver.onProgress.isSome = true
      · rw [if_pos moved]
        cases step with
        | sendChunk request =>
          obtain ⟨reports, moves, still, image⟩ := keep_progress { before with tasks := tasks }
            { driver with request := {}, state := state, reportedOff := state.confirmedOff }
            (.advance (.reply callback) life (.sendChunk request))
          exact .paused found active answered
            ((popped top).trans moves) ⟨still.updater, still.updates⟩ image (reports.still ⟨rfl, rfl⟩)
        | _ => cases moved.1
      · rw [if_neg moved]
        have advanced := advance_advanced codec env { before with tasks := tasks }
          { driver with request := {}, state := state } (some (.reply callback)) step
        exact .handled found active answered
          (advanced.prepend (popped top) ⟨rfl, rfl⟩)
    · rw [if_pos (by simp [active])]
      refine .dropped (popped top) ⟨rfl, rfl⟩ rfl (.stale _ _ _ ?_)
      intro other same
      obtain rfl : driver = other := Option.some.inj (found.symm.trans same)
      simpa using active

theorem answer_row {callback : Nat} {reply : Reply} {result : Result RawResponse}
    (top : before.tasks = .answer callback reply result :: tasks) :
    Row codec before (.proceed env) ({ before with tasks := tasks }.answer codec env callback reply result).1
      ({ before with tasks := tasks }.answer codec env callback reply result).2 := by
  cases reply with
  | application => exact .returned ((popped top).trans (push_application _)) ⟨rfl, rfl⟩ rfl rfl
  | driver => exact handle_row top
  | updater update query =>
    exact .relayed (popped_push top _) ⟨rfl, rfl⟩ rfl (.answer callback update query result)

section
variable {job : Job} {number : Nat} (top : before.tasks = .work number job :: tasks)
include top

theorem tell_row {life : Option Nat} {owner : Owner} {result : Result UploadResult}
    (speaks : Speaks before job life owner result) :
    Row codec before (.proceed env) ({ before with tasks := tasks }.tell (.job number) life owner result).1
      ({ before with tasks := tasks }.tell (.job number) life owner result).2 := by
  obtain ⟨moves, still, image⟩ := tell_moves { before with tasks := tasks } (.job number) life owner result
  exact .told speaks ((popped top).trans moves) ⟨still.updater, still.updates⟩ image

theorem work_row : Row codec before (.proceed env) ({ before with tasks := tasks }.work number job).1
      ({ before with tasks := tasks }.work number job).2 := by
  cases job with
  | application => exact .returned ((popped top).trans (push_application _)) ⟨rfl, rfl⟩ rfl rfl
  | post update event => exact .relayed (popped_push top _) ⟨rfl, rfl⟩ rfl (.post number update event)
  | rejected owner error => exact tell_row top (.rejected owner error)
  | finished life owner result =>
    unfold work
    by_cases alive : (before.uploadDriver life).isSome = true
    · simp only [show ({ before with tasks := tasks }.uploadDriver life).isSome = true from alive, ↓reduceIte]
      exact tell_row top (.finished life owner result alive)
    have gone := not_isSome_iff_eq_none.mp alive
    simp only [show { before with tasks := tasks }.uploadDriver life = none from gone, isSome_none,
      Bool.false_eq_true, ↓reduceIte]
    exact .dropped (popped top) ⟨rfl, rfl⟩ rfl (.orphan number life owner result gone)

end

theorem turn_row {machine : Dfu.Machine} (top : before.tasks = task :: tasks) (turns : Turns before task update event)
    (here : before.updater.machine = some machine) (previous : Dfu.UpdateState) :
    Row codec before (.proceed env) ({ before with tasks := tasks }.turn update machine previous event).1
      ({ before with tasks := tasks }.turn update machine previous event).2 := by
  unfold turn
  dsimp only
  have moves := popped_push top (.carry update (machine.apply { event with now := before.updater.lastPoll }).1)
  by_cases same : (machine.apply { event with now := before.updater.lastPoll }).1.next = previous
  · simp only [if_pos same]
    exact .turned turns here (moves.framed rfl rfl) rfl rfl rfl (.inl rfl)
  simp only [if_neg same]
  obtain ⟨tells, quiet, still, image⟩ := emit_tells ({ before with
      tasks := tasks
      updater := { before.updater with
        machine := some (machine.apply { event with now := before.updater.lastPoll }).2 } }.push
    (.carry update (machine.apply { event with now := before.updater.lastPoll }).1)) update
    (.stateChanged previous (machine.apply { event with now := before.updater.lastPoll }).1.next)
  refine .turned turns here ?_ still.updater still.updates image ?_
  · exact moves.trans (quiet.framed rfl rfl)
  rcases tells with quiet | ⟨listener, said, given, rfl, emitted⟩
  · exact .inl quiet
  · exact .inr ⟨listener, _, given, ⟨_, _, rfl⟩, emitted⟩

theorem dispatch_row {origin : Origin} (top : before.tasks = .dispatch origin update event :: tasks) :
    Row codec before (.proceed env) ({ before with tasks := tasks }.dispatch event).1
      ({ before with tasks := tasks }.dispatch event).2 := by
  unfold dispatch
  cases here : before.updater.machine with
  | none => exact .dropped (popped top) ⟨rfl, rfl⟩ rfl (.dispatch origin update event (.inl here))
  | some machine =>
    dsimp only
    by_cases running : before.updater.running = true
    · simp only [running, Bool.not_true, Bool.false_eq_true, ↓reduceIte]
      exact turn_row top (.dispatch origin update event running) here machine.state
    simp only [running, Bool.not_false, ↓reduceIte]
    have over_ : before.updater.running = false := by simpa using running
    exact .dropped (popped top) ⟨rfl, rfl⟩ rfl (.dispatch origin update event (.inr over_))

section
variable (top : before.tasks = .carry update step :: tasks)
include top

theorem query_row {query : Query} (asks : queryOf step = some query) :
    Row codec before (.proceed env) ({ before with tasks := tasks }.query codec env update query).1
      ({ before with tasks := tasks }.query codec env update query).2 :=
  .queried ((popped top).trans (Moves.ask ..)) ⟨rfl, rfl⟩ rfl asks

theorem announce_row {event : UpdateEvent} (effect : announcement before.updater.plan step = some event) :
    Row codec before (.proceed env) ({ before with tasks := tasks }.emit update event).1
      ({ before with tasks := tasks }.emit update event).2 := by
  obtain ⟨tells, moves, still, image⟩ := emit_tells { before with tasks := tasks } update event
  exact .announced ((popped top).trans moves) ⟨still.updater, still.updates⟩ image effect
    (tells.still ⟨rfl, rfl⟩)

end

section
variable (top : before.tasks = .carry update step :: tasks)
include top

theorem finish_row (effect : step.effect = .finish) :
    Row codec before (.proceed env) ({ before with tasks := tasks }.finish update).1
      ({ before with tasks := tasks }.finish update).2 := by
  obtain ⟨_, moves, still, image⟩ := emit_tells
    ({ before with tasks := tasks, updater := { before.updater with running := false } }.push .clear) update
    (.finished before.updater.outcome)
  refine @Row.finished codec before env update step _ _ effect ?_ still.updater still.updates image ?_
  · exact (popped_push top .clear).trans (moves.framed rfl rfl)
  simp only [finish, emit, Host.push]
  cases before.updater.onEvent with
  | none | some => rfl

theorem startUpload_row (effect : step.effect = .startUpload) :
    Row codec before (.proceed env) .quiet ({ before with tasks := tasks }.startUpload codec env update step) := by
  unfold startUpload
  dsimp only
  split
  · rename_i missing
    exact .dropped (popped top) ⟨rfl, rfl⟩ rfl (.carry update step (.inr (.inr (.inr ⟨effect, missing⟩))))
  · rename_i source _
    exact .uploaded effect ((upload_uploads ..).prepend (popped top) ⟨rfl, rfl⟩ rfl)

theorem apply_row (other : step.effect ≠ .continue) :
    Row codec before (.proceed env) ({ before with tasks := tasks }.apply codec env update step).1
      ({ before with tasks := tasks }.apply codec env update step).2 := by
  unfold apply
  cases effect : step.effect with
  | none => exact .dropped (popped top) ⟨rfl, rfl⟩ rfl (.carry update step (.inl effect))
  | awaitApply => exact .dropped (popped top) ⟨rfl, rfl⟩ rfl (.carry update step (.inr (.inl effect)))
  | «continue» => exact absurd effect other
  | startUpload => exact startUpload_row top effect
  | resumeUpload =>
    exact .resumed effect ((resume_resumes ..).prepend (popped top) ⟨rfl, rfl⟩ rfl)
  | awaitDisconnect | requestReconnect | requestConfirmation => exact announce_row top (by rw [announcement, effect])
  | finish => exact finish_row top effect
  | _ => exact query_row top (by rw [queryOf, effect])

theorem carry_row : Row codec before (.proceed env) ({ before with tasks := tasks }.carry codec env update step).1
      ({ before with tasks := tasks }.carry codec env update step).2 := by
  unfold carry
  by_cases goesOn : step.effect = .continue
  · simp only [if_pos goesOn]
    cases here : before.updater.machine with
    | none =>
      exact .dropped (popped top) ⟨rfl, rfl⟩ rfl (.carry update step (.inr (.inr (.inl ⟨goesOn, here⟩))))
    | some => exact turn_row top (.continue update step goesOn) here step.next
  · simp only [if_neg goesOn]
    exact apply_row top goesOn

end

theorem controlled_quiet {extractMgmtError : Bytes → Result Smp.MgmtOutcome}
    (controlled : before.controlled = true) : (before.world.proceed extractMgmtError).1 = .quiet := by
  unfold Host.controlled at controlled
  unfold World.proceed
  split at controlled
  · rename_i stack
    simp only [stack]
  · rename_i stack
    simp only [stack]
  · cases controlled

theorem execute_row (top : before.tasks = task :: tasks) (controlled : before.controlled = true) :
    Row codec before (.proceed env) ({ before with tasks := tasks }.execute codec env task).1
      ({ before with tasks := tasks }.execute codec env task).2 := by
  cases task with
  | application => exact .returned (popped top) ⟨rfl, rfl⟩ rfl rfl
  | returning =>
    have moves := Moves.proceed { before with tasks := tasks } codec.extractMgmtError
    rw [show ({ before with tasks := tasks } : Host).world = before.world from rfl, controlled_quiet controlled] at moves
    exact .returned ((popped top).trans moves) ⟨rfl, rfl⟩ rfl rfl
  | answer => exact answer_row top
  | work => exact work_row top
  | advance origin life step =>
    unfold execute
    cases found : before.uploadDriver life with
    | none =>
      simp only [show { before with tasks := tasks }.uploadDriver life = none from found]
      exact .dropped (popped top) ⟨rfl, rfl⟩ rfl (.advance origin life step found)
    | some driver =>
      simp only [show { before with tasks := tasks }.uploadDriver life = some driver from found]
      exact .advanced found
        ((advance_advanced codec env { before with tasks := tasks } driver (some origin) step).prepend (popped top)
          ⟨rfl, rfl⟩)
  | conclude origin life result =>
    unfold execute
    cases found : before.uploadDriver life with
    | none =>
      simp only [show { before with tasks := tasks }.uploadDriver life = none from found]
      exact .dropped (popped top) ⟨rfl, rfl⟩ rfl (.conclude origin life result found)
    | some driver =>
      simp only [show { before with tasks := tasks }.uploadDriver life = some driver from found]
      exact .concluded found
        ((finishUpload_ends { before with tasks := tasks } driver (some origin) (.ok result)).prepend (popped top)
          ⟨rfl, rfl⟩)
  | dispatch => exact dispatch_row top
  | carry => exact carry_row top
  | clear => exact .cleared ((popped top).framed rfl rfl) rfl rfl rfl

theorem goOn_row (books : before.booked) :
    Row codec before (.proceed env) (before.goOn codec).1 (before.goOn codec).2 := by
  have moves := Moves.proceed before codec.extractMgmtError
  have completed {callback : Nat} {result : Result RawResponse} :=
    @Books.completed_inside codec.extractMgmtError _ _ _ books callback result
  have worked {number : Nat} := @Books.worked_inside codec.extractMgmtError _ _ _ books number
  unfold goOn
  generalize went : before.world.proceed codec.extractMgmtError = result at moves completed worked
  obtain ⟨output, world⟩ := result
  dsimp only at moves ⊢
  cases output with
  | quiet | requested => exact .idle moves ⟨rfl, rfl⟩ rfl rfl
  | completed callback result =>
    have inside := completed rfl
    have found := List.getElem?_eq_getElem inside
    refine .answering ?_ ⟨rfl, rfl⟩ rfl found went
    simp only [called, found, map_some, toList_some] at moves
    have pushed := (moves.trans (Moves.push_returning _)).trans
      (Moves.push _ (.answer callback before.replies[callback] result))
    simp only [List.getD_eq_getElem?_getD, found, getD_some]
    exact pushed
  | worked number =>
    have inside := worked rfl
    have found := List.getElem?_eq_getElem inside
    refine .working ?_ ⟨rfl, rfl⟩ rfl found went
    simp only [called, found, map_some, toList_some] at moves
    have pushed := (moves.trans (Moves.push_returning _)).trans (Moves.push _ (.work number before.jobs[number]))
    simp only [List.getD_eq_getElem?_getD, found, getD_some]
    exact pushed

theorem proceed_row (books : before.booked) :
    Row codec before (.proceed env) (before.proceed codec env).1 (before.proceed codec env).2 := by
  unfold Host.proceed
  by_cases controlled : before.controlled = true
  · simp only [controlled, Bool.not_true, Bool.false_eq_true, ↓reduceIte]
    cases top : before.tasks with
    | nil => exact .idle (refl _) ⟨rfl, rfl⟩ rfl rfl
    | cons => exact execute_row top controlled
  · simp only [controlled, Bool.not_false, ↓reduceIte]
    exact goOn_row books

end

section
variable {before : Host}

theorem enterClient_row (call : Smp.Call) :
    Row codec before (.call (.client call) env) .quiet (before.enterClient call) := by
  cases call with
  | request spec callback sent now =>
    exact .idle (ask_application before spec callback sent now) ⟨rfl, rfl⟩ rfl rfl
  | defer work =>
    cases work with
    | none => exact .idle (refl _) ⟨rfl, rfl⟩ rfl rfl
    | some =>
      obtain ⟨booked, present, count, stack, jobs, asked, waits, replies⟩ := Moves.defer before .application
      exact .idle ⟨booked, present, count, stack, jobs, asked, waits, replies⟩ ⟨rfl, rfl⟩ rfl rfl
  | destroy => exact .idle (Moves.refl _) ⟨rfl, rfl⟩ rfl rfl
  | _ => exact .idle (Moves.enter before rfl) ⟨rfl, rfl⟩ rfl rfl

theorem start_row (targets : List ImageTarget) (plan : Plan) (onEvent : Bool) :
    Row codec before (.call (.start targets plan onEvent) env) (before.start env targets plan onEvent).1
      (before.start env targets plan onEvent).2 := by
  have refused (error : Error) : Row codec before (.call (.start targets plan onEvent) env) (.refused error) before :=
    .idle (refl _) ⟨rfl, rfl⟩ rfl rfl
  unfold Host.start
  by_cases running : before.updater.running = true
  · simp only [if_pos running]
    exact refused _
  cases onEvent with
  | false =>
    simp only [if_neg running, Bool.not_false, ↓reduceIte]
    exact refused _
  | true =>
    simp only [if_neg running, Bool.not_true, Bool.false_eq_true, ↓reduceIte]
    cases valid : validate targets plan with
    | error => exact refused _
    | ok =>
      cases reads : targets.mapM (readTarget env) with
      | error => exact refused _
      | ok read =>
        have idle : before.updater.running = false := by simpa using running
        refine .started idle valid reads ?_ rfl rfl rfl
        exact (Moves.defer _ _).framed rfl rfl

theorem post_row {call : Call} {output : Output} (posts : Posts before call event output) :
    Row codec before (.call call env) output (before.post event) :=
  .posted posts (Moves.defer before _) ⟨rfl, rfl⟩ rfl

theorem confirm_row : Row codec before (.call .confirm env) before.confirm.1 before.confirm.2 := by
  unfold confirm
  by_cases here : before.updater.state = .awaitingConfirmation
  · simp only [here, ne_eq, not_true_eq_false, ↓reduceIte]
    exact post_row (.confirm here)
  · simp only [ne_eq, here, not_false_eq_true, ↓reduceIte]
    exact .idle (refl _) ⟨rfl, rfl⟩ rfl rfl

theorem resumeAfterReconnect_row :
    Row codec before (.call .resumeAfterReconnect env) before.resumeAfterReconnect.1 before.resumeAfterReconnect.2 := by
  unfold resumeAfterReconnect
  by_cases here : before.updater.state = .awaitingReconnect
  · simp only [here, ne_eq, not_true_eq_false, ↓reduceIte]
    exact post_row (.resume here)
  · simp only [ne_eq, here, not_false_eq_true, ↓reduceIte]
    exact .idle (refl _) ⟨rfl, rfl⟩ rfl rfl

theorem reconnectFailed_row (error : Error) :
    Row codec before (.call (.reconnectFailed error) env) .quiet (before.reconnectFailed error) := by
  unfold reconnectFailed
  split
  · exact .idle (refl _) ⟨rfl, rfl⟩ rfl rfl
  · rename_i running
    exact post_row (.reconnectFailed error (by simpa using running))

theorem cancelUpload_moves (handle : UploadHandle) :
    Moves before (before.cancelUpload handle) [] [] ∧ Still before (before.cancelUpload handle) ∧
      ((before.cancelUpload handle).image = before.image ∨
        ∃ driver, before.uploadOf handle = some driver ∧ driver.active = true ∧
          (before.cancelUpload handle).image = { before.image with upload := some { driver with request := {} } }) := by
  unfold cancelUpload
  split
  · exact ⟨refl _, ⟨rfl, rfl⟩, .inl rfl⟩
  rename_i driver found
  split
  · exact ⟨refl _, ⟨rfl, rfl⟩, .inl rfl⟩
  rename_i active
  refine ⟨?_, ⟨rfl, rfl⟩, .inr ⟨driver, found, by simpa using active, rfl⟩⟩
  have entered : Moves before { before with world := (before.world.enter (.cancel driver.request)).2 } [] [] :=
    Moves.enter before rfl
  exact entered.framed rfl rfl

theorem cancel_row : Row codec before (.call .cancel env) .quiet before.cancel := by
  unfold cancel
  split
  · exact .idle (refl _) ⟨rfl, rfl⟩ rfl rfl
  rename_i running
  have running : before.updater.running = true := by simpa using running
  obtain ⟨moves, still, image⟩ := @cancelUpload_moves before before.updater.upload
  dsimp only
  split
  · refine .cancelled running ?_ ⟨still.updater, still.updates⟩ image
    rw [← still.updates]
    exact moves.trans (Moves.defer _ _)
  · exact .cancelled running (Moves.defer before _) ⟨rfl, rfl⟩ (.inl rfl)

theorem poll_row (now : TimePoint) : Row codec before (.call (.poll now) env) .quiet (before.poll now) := by
  have same : Moves before { before with updater := { before.updater with lastPoll := now } } [] [] :=
    (refl before).framed rfl rfl
  unfold poll
  dsimp only
  split
  · exact .polled .nothing same rfl rfl rfl
  rename_i running
  have running : before.updater.running = true := by simpa using running
  split
  · rename_i here
    exact .polled (.dropped running here.1) (same.trans (Moves.push _ _)) rfl rfl rfl
  split
  · exact .polled (.deadline running) (same.trans (Moves.push _ _)) rfl rfl rfl
  · exact .polled .nothing same rfl rfl rfl

theorem enter_row (call : Call) :
    Row codec before (.call call env) (before.enter codec env call).1 (before.enter codec env call).2 := by
  cases call with
  | client call => exact enterClient_row call
  | start targets plan onEvent => exact start_row targets plan onEvent
  | confirm => exact confirm_row
  | resumeAfterReconnect => exact resumeAfterReconnect_row
  | reconnectFailed error => exact reconnectFailed_row error
  | cancel => exact cancel_row
  | poll now => exact poll_row now
  | upload source options onProgress onDone =>
    exact .uploadAsked (upload_uploads ..)
  | resumeUpload handle onDone =>
    unfold enter
    by_cases owned : before.owned handle = true
    · simp only [if_pos owned]
      exact .resumeAsked owned (resume_resumes ..)
    · simp only [if_neg owned]
      exact .idle (refl _) ⟨rfl, rfl⟩ rfl rfl
  | cancelUpload handle =>
    unfold enter
    by_cases owned : before.owned handle = true
    · simp only [if_pos owned]
      obtain ⟨moves, still, image⟩ := @cancelUpload_moves before handle
      rcases image with image | ⟨driver, found, active, image⟩
      · exact .idle moves still image rfl
      · exact .cancelAsked owned found active moves still image
    · simp only [if_neg owned]
      exact .idle (refl _) ⟨rfl, rfl⟩ rfl rfl

end

theorem step_row (before : Host) (event : Event) (books : before.booked) :
    Row codec before event (before.step codec event).1 (before.step codec event).2 := by
  cases event with
  | call call =>
    unfold step
    by_cases free : before.free = true
    · simp only [if_pos free]
      exact enter_row call
    · simp only [if_neg free]
      exact .idle (refl _) ⟨rfl, rfl⟩ rfl rfl
  | proceed => exact proceed_row books

end Smply.Host
