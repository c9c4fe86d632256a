import Smply.Host.Finish
import Smply.Host.Projection
import Smply.Host.Trades

namespace Smply.Host

open Systems List
open Dfu (isTerminal CleanlyCancelled)
open Smp (World SmpClientConfig)
open Cbor (documentCodec field)

variable {host : Host} {codec : Codec}

section
variable (extractMgmtError : Bytes → Result Smp.MgmtOutcome)

theorem proceed_deferred (world : World) :
    (world.proceed extractMgmtError).2.client.deferred = world.client.deferred ∨
      ∃ below, world.stack = .deliver [] :: below := by
  have goesOn (below : List Smp.Frame) (completed : Option Smp.SmpClient.Completion × Smp.SmpClient) :
      (world.goOn below completed).2.client = completed.2 := by
    obtain ⟨completion, client⟩ := completed
    cases completion <;> rfl
  unfold World.proceed
  dsimp only
  split
  case h_3 below top => exact .inr ⟨below, top⟩
  case h_8 =>
    split
    · exact .inl rfl
    · rw [goesOn]
      exact .inl (World.complete_deferred ..)
  case h_9 =>
    repeat' split
    · exact .inl rfl
    · exact .inl rfl
    · rw [goesOn]
      exact .inl (World.complete_deferred ..)
  case h_11 =>
    split
    · exact .inl rfl
    · exact .inl rfl
    · rw [goesOn]
      exact .inl (World.onMessage_deferred ..)
  all_goals exact .inl rfl

end

theorem Calls.deferred {before after : World} (calls : Calls after before) :
    before.client.deferred <+: after.client.deferred := by
  induction calls with
  | none => exact prefix_rfl
  | more _ call _ ih => exact ih.trans (World.enter_deferred _ call)

/-- The queue only grows at its end, until `deliver()` takes all of it. -/
theorem step_deferred (event : Event) :
    host.world.client.deferred <+: (host.step codec event).2.world.client.deferred ∨
      ∃ below, host.world.stack = .deliver [] :: below := by
  have moves : host.world.client.deferred <+: (host.world.proceed codec.extractMgmtError).2.client.deferred ∨
      ∃ below, host.world.stack = .deliver [] :: below :=
    (proceed_deferred codec.extractMgmtError host.world).imp_left fun same => by rw [same]
  cases event with
  | call made env =>
    unfold step
    dsimp only
    split
    · refine .inl ?_
      cases made with
      | client inner =>
        cases inner with
        | defer work => cases work <;> first | exact prefix_rfl | exact World.enter_deferred host.world _
        | destroy => exact prefix_rfl
        | _ => exact World.enter_deferred host.world _
      | _ => exact (enter_calls _ _ _ _ (by simp)).deferred
    · exact .inl prefix_rfl
  | proceed env =>
    unfold step proceed
    dsimp only
    split
    · exact moves
    · split
      · exact .inl prefix_rfl
      · rename_i task tasks _
        by_cases returns : task = .returning
        · rw [returns]
          exact moves
        · exact .inl (execute_calls codec env { host with tasks := tasks } task returns).deferred

/-- The update goes on, and job `number` is a `Cancel` for it. -/
structure Stopping (update number : Nat) (host : Host) : Prop where
  updates : host.updates = update
  running : host.updater.running = true
  live : isTerminal host.updater.state = false
  posts : ∃ update, host.jobs[number]? = some (.post update { kind := .cancel })

def Gone (update : Nat) (host : Host) : Prop :=
  host.updates = update ∧ ∃ machine, host.updater.machine = some machine ∧ CleanlyCancelled machine

/-- The client is about to run job `number`, or runs it: nobody can call in before its event is handed over. -/
inductive Coming (number : Nat) (host : Host) : Prop
  | due (rest : List Smp.Deferred) (below : List Smp.Frame) (first : host.world.client.deferred = .work number :: rest)
      (stack : host.world.stack = .deliver [] :: below)
  | taken (batch : List Smp.Deferred) (below : List Smp.Frame)
      (stack : host.world.stack = .deliver (.work number :: batch) :: below)
  | working (update : Nat) (below : List Smp.Frame) (tasks : List Task) (stack : host.world.stack = .callback :: below)
      (top : host.tasks = .work number (.post update { kind := .cancel }) :: tasks)
  | handing (origin : Origin) (update : Nat) (below : List Smp.Frame) (tasks : List Task)
      (stack : host.world.stack = .callback :: below)
      (top : host.tasks = .dispatch origin update { kind := .cancel } :: tasks)

section
variable {before after : Host} {event : Event} {output : Output} {update number : Nat}

theorem Stopping.step (stopping : Stopping update number before) (beat : Beat before event output after)
    (books : before.booked) (updating : before.Updating) (minded : before.Minded) (jobs : before.jobs <+: after.jobs)
    (alone : isTerminal after.updater.state = true → ∃ origin other given rest,
      before.tasks = .dispatch origin other given :: rest ∧ given.kind = .cancel) :
    Stopping update number after ∨ Gone update after := by
  obtain ⟨machine, here⟩ := Option.isSome_iff_exists.mp (updating.present stopping.running)
  have live := (state_eq here) ▸ stopping.live
  obtain ⟨sane, blameless⟩ := minded machine here
  obtain ⟨poster, posted⟩ := stopping.posts
  have goesOn (updates : after.updates = before.updates) (running : after.updater.running = before.updater.running)
      (live : isTerminal after.updater.state = false) : Stopping update number after := by
    refine ⟨updates.trans stopping.updates, running.trans stopping.running, live, poster, ?_⟩
    obtain ⟨more, whole⟩ := jobs
    rw [← whole, List.getElem?_append_left (List.getElem?_eq_some_iff.mp posted).1]
    exact posted
  cases beat with
  | steady _ steady => exact .inl (goesOn steady.updates steady.running (steady.state ▸ stopping.live))
  | cleared _ updater updates =>
    refine .inl (goesOn updates (by rw [updater]) ?_)
    rw [updater]
    exact stopping.live
  | started _ _ idle => exact absurd (idle.symm.trans stopping.running) (by simp)
  | finished _ effect moves =>
    have present := moves.present books finishes
    have waits := updating.finishing
    rw [stopping.live, Bool.and_false, if_neg Bool.false_ne_true] at waits
    rw [waits, countP_singleton, if_pos (by simp [weigh, finishes, effect, Code.neutral])] at present
    cases present
  | @turned task other given _ turns same moves updater updates =>
    obtain rfl := Option.some.inj (here.symm.trans same)
    by_cases final : isTerminal after.updater.state = true
    · obtain ⟨origin, owner, handed, rest, top, kind⟩ := alone final
      obtain ⟨pushed, below, stack, _⟩ := moves.stack
      obtain rfl : task = .dispatch origin owner handed := (List.cons.inj (stack.symm.trans top)).1
      cases turns with
      | dispatch =>
        refine .inr ⟨updates.trans stopping.updates, _, by rw [updater], ?_⟩
        exact Dfu.apply_cancel sane blameless live kind
    · exact .inl (goesOn updates (by rw [updater]) (by simpa using final))

theorem Gone.step (gone : Gone update before) (beat : Beat before event output after) :
    Gone update after ∨ update < after.updates := by
  obtain ⟨updates, machine, here, clean⟩ := gone
  cases beat with
  | steady _ steady => exact .inl ⟨steady.updates.trans updates, machine, steady.machine.trans here, clean⟩
  | cleared _ updater same => exact .inl ⟨same.trans updates, machine, by rw [updater]; exact here, clean⟩
  | started => exact .inr (by omega)
  | finished _ _ _ updater same => exact .inl ⟨same.trans updates, machine, by rw [updater]; exact here, clean⟩
  | turned _ same _ updater next =>
    obtain rfl := Option.some.inj (here.symm.trans same)
    exact .inl ⟨next.trans updates, _, by rw [updater], clean.apply _⟩

theorem Coming.busy (coming : Coming number host) : host.free = false := by
  unfold free controlled
  cases coming with
  | due _ _ _ stack | taken _ _ stack => rw [stack]; rfl
  | working _ _ _ stack top | handing _ _ _ _ stack top => rw [stack, top]; rfl

theorem dispatch_gone {given : Dfu.Event} (stopping : Stopping update number host)
    (present : host.updater.machine.isSome = true) (minded : host.Minded) (kind : given.kind = .cancel) :
    Gone update (host.dispatch given).2 := by
  obtain ⟨machine, here⟩ := Option.isSome_iff_exists.mp present
  obtain ⟨sane, blameless⟩ := minded machine here
  have clean : CleanlyCancelled (machine.apply { given with now := host.updater.lastPoll }).2 :=
    Dfu.apply_cancel sane blameless ((state_eq here) ▸ stopping.live) kind
  unfold dispatch
  rw [here]
  simp only [stopping.running, Bool.not_true, Bool.false_eq_true, if_false, turn, emit]
  repeat' split
  all_goals exact ⟨stopping.updates, _, rfl, clean⟩

theorem Coming.step (coming : Coming number host) (stopping : Stopping update number host) (updating : host.Updating)
    (minded : host.Minded) (event : Event) :
    (Stopping update number (host.step codec event).2 ∧ Coming number (host.step codec event).2) ∨
      Gone update (host.step codec event).2 := by
  cases event with
  | call =>
    rw [Host.step, if_neg (by simp [coming.busy])]
    exact .inl ⟨stopping, coming⟩
  | proceed env =>
    obtain ⟨updates, running, live, poster, posted⟩ := stopping
    cases coming with
    | due rest below first stack =>
      refine .inl ⟨?_, .taken rest below ?_⟩
      all_goals simp only [Host.step, proceed, controlled, goOn, World.proceed, stack, first]
      exacts [⟨updates, running, live, poster, posted⟩, rfl]
    | taken batch below stack =>
      refine .inl ⟨?_, .working poster (.deliver batch :: below) (.returning :: host.tasks) ?_ ?_⟩
      all_goals simp only [Host.step, proceed, controlled, goOn, World.proceed, stack]
      · exact ⟨updates, running, live, poster, posted⟩
      · rfl
      · simp [posted]
    | working other below tasks stack top =>
      refine .inl ⟨?_, .handing (.job number) other below tasks ?_ ?_⟩
      all_goals simp only [Host.step, proceed, controlled, stack, top, execute, work]
      exacts [⟨updates, running, live, poster, posted⟩, stack, rfl]
    | handing _ _ below tasks stack top =>
      have waiting : Stopping update number { host with tasks := tasks } := ⟨updates, running, live, poster, posted⟩
      refine .inr ?_
      simp only [Host.step, proceed, controlled, stack, top, execute]
      exact dispatch_gone waiting (updating.present running) minded rfl

end

def uploadPending (host : Host) : Bool :=
  host.updater.upload.valid && (host.uploadOf host.updater.upload).any fun driver =>
    driver.active && (host.world.client.resolve driver.request).isSome

theorem cancel_eq (running : host.updater.running = true) (unasked : host.uploadPending = false) :
    ∃ image, host.cancel = { host with image := image }.post { kind := .cancel } := by
  unfold uploadPending at unasked
  unfold cancel
  rw [if_neg (by simp [running])]
  dsimp only
  split
  · rename_i valid
    rw [valid, Bool.true_and] at unasked
    unfold cancelUpload
    split
    · exact ⟨host.image, rfl⟩
    rename_i driver found
    split
    · exact ⟨host.image, rfl⟩
    rename_i active
    rw [found, Option.any_some, Bool.and_eq_false_iff] at unasked
    have absent : host.world.client.resolve driver.request = none := by
      rcases unasked with idle | absent
      · simp [idle] at active
      · simpa using absent
    have same : host.world.client.cancel driver.request = host.world.client := by rw [Smp.SmpClient.cancel, absent]
    refine ⟨{ host.image with upload := some { driver with request := {} } }, ?_⟩
    simp only [World.enter, same]
    rfl
  · exact ⟨host.image, rfl⟩

theorem cancel_stopping (running : host.updater.running = true) (live : isTerminal host.updater.state = false)
    (unasked : host.uploadPending = false) (none_ : host.world.client.deferred = []) :
    Stopping host.updates host.jobs.length host.cancel ∧
      host.cancel.world.client.deferred = [.work host.jobs.length] := by
  obtain ⟨image, is⟩ := cancel_eq running unasked
  rw [is]
  refine ⟨⟨rfl, running, live, host.updates, ?_⟩, ?_⟩
  · simp [post, defer]
  · simp [post, defer, World.enter, Smp.SmpClient.deferWork, none_]

/-- An accepted call of the client's `poll()`. -/
def polls (u : Transition Host Event Output) : Bool :=
  match u.event with
  | .call (.client (.poll _)) _ => u.before.free
  | _ => false

/-- If `u` ends the update that `t` is about, then by a `Cancel`. -/
def undisturbed (t u : Transition Host Event Output) : Bool :=
  !(decide (u.before.updates = t.before.updates) && !isTerminal u.before.updater.state &&
      isTerminal u.after.updater.state) ||
    match u.before.tasks with
    | .dispatch _ _ event :: _ => event.kind == .cancel
    | _ => false

theorem undisturbed_ends {t u : Transition Host Event Output} (alone : undisturbed t u = true)
    (same : u.before.updates = t.before.updates) (live : isTerminal u.before.updater.state = false)
    (final : isTerminal u.after.updater.state = true) :
    ∃ origin update given rest, u.before.tasks = .dispatch origin update given :: rest ∧ given.kind = .cancel := by
  unfold undisturbed at alone
  rw [same, live, final] at alone
  split at alone
  · rename_i origin update given rest top
    exact ⟨origin, update, given, rest, top, by simpa using alone⟩
  · simp at alone

theorem works_drained (drained : host.Drained) (p : Code → Bool)
    (reply : ∀ reply, p (.reply reply) = false) : host.count p = 0 := by
  have works (number : Nat) : host.world.works number = 0 := by
    rw [World.works, drained.deferred, drained.stack]
    rfl
  rw [count, waiting, tally_none _ _ _ (by simp [weigh, reply]), tally_empty _ _ works, drained.tasks]
  rfl

/-- What has become of the update `t` cancels. Up to the next poll the `Cancel` is the first in the queue. -/
inductive Stage (t : Transition Host Event Output) (since : List (Transition Host Event Output)) (host : Host) : Prop
  | queued (stopping : Stopping t.before.updates t.before.jobs.length host) (unpolled : ∀ u ∈ since, polls u = false)
      (rest : List Smp.Deferred) (first : host.world.client.deferred = .work t.before.jobs.length :: rest)
  | coming (stopping : Stopping t.before.updates t.before.jobs.length host) (coming : Coming t.before.jobs.length host)
  | gone (gone : Gone t.before.updates host)
  | later (later : t.before.updates < host.updates)

section
variable {t : Transition Host Event Output} {since : List (Transition Host Event Output)}

theorem polls_due {event : Event} {number : Nat} {rest : List Smp.Deferred}
    (first : host.world.client.deferred = .work number :: rest)
    (polled : polls (transition (step codec) host event) = true) :
    (host.step codec event).2.updater = host.updater ∧ Coming number (host.step codec event).2 := by
  unfold polls transition at polled
  dsimp only at polled
  split at polled
  · rw [step, if_pos polled]
    exact ⟨rfl, .due rest _ first rfl⟩
  · cases polled

theorem Stage.step (stage : Stage t since host) (grounded : host.Grounded) (minded : host.Minded) (event : Event)
    (alone : (∀ u ∈ since, polls u = false) → polls (transition (Host.step codec) host event) = false →
      undisturbed t (transition (Host.step codec) host event) = true) :
    Stage t (since ++ [transition (Host.step codec) host event]) (host.step codec event).2 := by
  have beat := (@Grounded.row codec _ grounded event).beat grounded.books grounded.driven
  have arrives (stopping : Stopping t.before.updates t.before.jobs.length host)
      (coming : Coming t.before.jobs.length host) :
      Stage t (since ++ [transition (Host.step codec) host event]) (host.step codec event).2 := by
    rcases coming.step stopping grounded.updating minded event with ⟨stopping, coming⟩ | gone
    · exact .coming stopping coming
    · exact .gone gone
  cases stage with
  | queued stopping unpolled rest first =>
    rcases @step_deferred host codec event with ⟨more, whole⟩ | ⟨below, stack⟩
    · rw [first, cons_append] at whole
      obtain ⟨spent, made, moves⟩ := (@Grounded.row codec _ grounded event).moves
      have next := stopping.step beat grounded.books grounded.updating minded moves.jobs (by
        intro final
        cases polled : polls (transition (Host.step codec) host event) with
        | false => exact undisturbed_ends (alone unpolled polled) stopping.updates stopping.live final
        | true =>
          rw [(polls_due first polled).1, stopping.live] at final
          cases final)
      rcases next with stopping | gone
      · cases polled : polls (transition (Host.step codec) host event) with
        | false =>
          refine .queued stopping (fun u member => ?_) _ whole.symm
          rcases mem_append.mp member with member | member
          · exact unpolled u member
          · rw [mem_singleton.mp member, polled]
        | true => exact .coming stopping (polls_due first polled).2
      · exact .gone gone
    -- A poll that was under way already takes the queue.
    · exact arrives stopping (.due rest below first stack)
  | coming stopping coming => exact arrives stopping coming
  | gone gone =>
    rcases gone.step beat with gone | later
    · exact .gone gone
    · exact .later later
  | later later => exact .later (Nat.lt_of_lt_of_le later (grounded.trade event).updates_le)

theorem Stage.undrained (stage : Stage t since host) (drained : host.Drained) (same : host.updates = t.before.updates) :
    Gone t.before.updates host := by
  cases stage with
  | queued _ _ _ first => exact absurd (first.symm.trans drained.deferred) (by simp)
  | coming _ coming =>
    have idle := drained.stack
    cases coming with
    | due _ _ _ stack | taken _ _ stack | working _ _ _ stack | handing _ _ _ _ stack =>
      exact absurd (stack.symm.trans idle) (by simp)
  | gone gone => exact gone
  | later => omega

theorem Stage.ended (stage : Stage t since host) (final : isTerminal host.updater.state = true)
    (same : host.updates = t.before.updates) : Gone t.before.updates host := by
  cases stage with
  | queued stopping | coming stopping =>
    rw [stopping.live] at final
    cases final
  | gone gone => exact gone
  | later => omega

end

section
variable (codec : Codec) (transport : Nat) (config : SmpClientConfig) (events : List Event)

theorem Stage.run {past later : List (Transition Host Event Output)} {t : Transition Host Event Output}
    (start : Stage t [] t.after) (split : history codec transport config events = past ++ t :: later)
    (grounded : t.after.Grounded) (minded : t.after.Minded)
    (alone : ∀ u ∈ later.takeWhile (fun u => !polls u), undisturbed t u = true) :
    (reached codec transport config events).Grounded ∧ Stage t later (reached codec transport config events) := by
  suffices kept : (reached codec transport config events).Grounded ∧ (reached codec transport config events).Minded ∧
      ((∀ u ∈ later.takeWhile (fun u => !polls u), undisturbed t u = true) → Stage t later _) from
    ⟨kept.1, kept.2.2 alone⟩
  refine invariant_since (Host.step codec) (new transport config) events split (fun _ => True)
    (fun since host => host.Grounded ∧ host.Minded ∧
      ((∀ u ∈ since.takeWhile (fun u => !polls u), undisturbed t u = true) → Stage t since host))
    ⟨grounded, minded, fun _ => start⟩ ?_ (fun _ _ => trivial)
  intro since host event _ before
  obtain ⟨grounded, minded, stage⟩ := before
  refine ⟨grounded.step event, (grounded.trade event).minded minded, fun alone => ?_⟩
  refine (stage ?_).step grounded minded event ?_
  · intro u member
    refine alone u ?_
    rw [takeWhile_append]
    split
    · exact mem_append_left _ ((takeWhile_sublist _).mem member)
    · exact member
  · intro unpolled polled
    refine alone _ ?_
    rw [takeWhile_append_of_pos (by simpa using unpolled)]
    simp [polled]

/-- An update cancelled while no chunk is on its way and nothing is queued in the client ends as cancelled, without a
cause, if no other event ends it before the next poll. -/
theorem cancelled_update_ends_cancelled (past later : List (Transition Host Event Output))
    (t : Transition Host Event Output) (env : Env)
    (split : history codec transport config events = past ++ t :: later) (called : t.event = .call .cancel env)
    (free : t.before.free = true) (running : t.before.updater.running = true)
    (live : isTerminal t.before.updater.state = false) (unasked : t.before.uploadPending = false)
    (none_ : t.before.world.client.deferred = [])
    (alone : ∀ u ∈ later.takeWhile (fun u => !polls u), undisturbed t u = true)
    (same : (reached codec transport config events).updates = t.before.updates) :
    (isTerminal (reached codec transport config events).updater.state = true →
      ∃ machine, (reached codec transport config events).updater.machine = some machine ∧ CleanlyCancelled machine) ∧
    ((reached codec transport config events).Drained →
      isTerminal (reached codec transport config events).updater.state = true ∧
        (reached codec transport config events).updater.running = false) := by
  obtain ⟨earlier, event, rest, _, _, is, _⟩ := log_split (step codec) (new transport config) events split
  have before : t.before = reached codec transport config earlier := by
    rw [is]
    rfl
  have event_eq : event = .call .cancel env := by
    rw [is] at called
    exact called
  have after : t.after = (t.before.step codec (.call .cancel env)).2 := by
    rw [before, is, event_eq]
    rfl
  have grounded := before ▸ reached_grounded codec transport config earlier
  have minded : t.after.Minded :=
    after ▸ (grounded.trade _).minded (before ▸ reached_minded codec transport config earlier)
  have grounded : t.after.Grounded := after ▸ grounded.step _
  have start : Stage t [] t.after := by
    obtain ⟨stopping, first⟩ := cancel_stopping running live unasked none_
    rw [after, step, if_pos free]
    exact .queued stopping (by simp) [] first
  obtain ⟨last, stage⟩ := start.run codec transport config events split grounded minded alone
  refine ⟨fun final => (stage.ended final same).2, fun drained => ?_⟩
  obtain ⟨_, machine, here, clean⟩ := stage.undrained drained same
  have final : isTerminal (reached codec transport config events).updater.state = true := by
    rw [state_eq here, clean.state]
    rfl
  refine ⟨final, ?_⟩
  by_contra runs
  have waits := last.updating.finishing
  rw [final, Bool.and_true, if_pos (by simpa using runs), works_drained drained _ (fun _ => rfl)] at waits
  cases waits

end

def pollClient : Event := .call (.client (.poll 0)) oneFile

def askingOne : List Event := [startOne, pollClient] ++ goesOn 11

def parametersReply : Event :=
  arrives .readResponse Group.os 6 0 (0xA2 :: field "buf_size" [0x19, 2, 0] ++ field "buf_count" [4])

/-- The answers up to the image state, which lists the running image alone. -/
def answersOne (running : List Bytes) : List Event :=
  parametersReply :: goesOn 7 ++ arrives .readResponse Group.os 8 1 (0xA1 :: field "mode" [3]) :: goesOn 7 ++
    [arrives .readResponse Group.image 0 2 (0xA1 :: field "images"
      (0x81 :: (0xA0 + running.length.toUInt8) :: running.flatten))]

def uploadingOne : List Event :=
  askingOne ++ answersOne [field "slot" [0], field "version" [0x61, 0x31], field "hash" [0x41, 2],
    field "confirmed" [0xF5], field "active" [0xF5]] ++ goesOn 9

def cancels (events : List Event) : List Event := events ++ .call .cancel oneFile :: pollClient :: goesOn 18

/-- The upload fails with the chunk that `cancel()` has cancelled, and the update with it. -/
theorem update_cancelled_uploading_fails : ∃ past later t,
    history documentCodec 0 {} (cancels uploadingOne) = past ++ t :: later ∧ t.event = .call .cancel oneFile ∧
      t.before.free = true ∧ t.before.updater.running = true ∧ t.before.updater.state = .uploading ∧
      t.before.world.client.deferred = [] ∧
      (∀ u ∈ later.takeWhile (fun u => !polls u), undisturbed t u = true) ∧
      (reached documentCodec 0 {} (cancels uploadingOne)).updates = t.before.updates ∧
      (reached documentCodec 0 {} (cancels uploadingOne)).Drained ∧
      (reached documentCodec 0 {} (cancels uploadingOne)).updater.state = .failed ∧
      ((reached documentCodec 0 {} (cancels uploadingOne)).updater.machine.map fun machine =>
        (machine.report.finalState, machine.report.cause)) = some (.failed, some cancelledError) := by
  refine ⟨_, _, _, log_append .., rfl, ?_, ?_, ?_, length_eq_zero_iff.mp ?_, ?_, ?_, ?_, ?_, ?_⟩
  · decide +kernel
  · decide +kernel
  · decide +kernel
  · decide +kernel
  · decide +kernel
  · decide +kernel
  · refine ⟨?_, ?_, ?_⟩ <;> refine length_eq_zero_iff.mp ?_ <;> decide +kernel
  · decide +kernel
  · decide +kernel

/-- An answer comes between `cancel()` and the poll, and the update goes on to the next query. -/
def cancelledAsking : List Event :=
  askingOne ++ .call .cancel oneFile :: parametersReply :: (goesOn 7 ++ pollClient :: goesOn 18)

theorem update_cancelled_asking_ends : ∃ machine,
    (reached documentCodec 0 {} cancelledAsking).updater.machine = some machine ∧ CleanlyCancelled machine := by
  refine (cancelled_update_ends_cancelled documentCodec 0 {} cancelledAsking _ _ _ oneFile (log_append ..) rfl
    ?_ ?_ ?_ ?_ (length_eq_zero_iff.mp ?_) ?_ ?_).1 ?_ <;> decide +kernel

end Smply.Host
