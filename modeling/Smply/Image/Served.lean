import Smply.Systems.Tally
import Smply.Smp.Sweep
import Smply.Image.Uploads
import Smply.Cbor.Codec

namespace Smply.Uploads

open Systems Output
open Host (Env UploadOptions UploadHandle UploadResult Codec Source)
open Smp (RawResponse RequestSpec RequestHandle SmpClientConfig World)
open Cbor (documentCodec)

variable {driver next : Driver} {after : Uploads}

def Job.carries (callback : Nat) : Job → Bool
  | .application => false
  | .rejected other _ => other == callback
  | .finished _ other _ => other == callback

def Job.isEnd : Job → Bool
  | .finished .. => true
  | _ => false

def Output.calls (callback : Nat) : Output → Bool
  | .called other _ => other == callback
  | _ => false

def held (desk : Uploads) (callback : Nat) : Nat :=
  (if desk.upload.any (·.callback == some callback) then 1 else 0) +
    tally (Job.carries callback) desk.jobs desk.world.works

def known (desk : Uploads) (callback : Nat) : Nat := if callback < desk.passed then 1 else 0

structure Sound (desk : Uploads) : Prop where
  numbered : ∀ number, desk.jobs.length ≤ number → desk.world.works number = 0
  holding : ∀ driver, desk.upload = some driver → driver.callback ≠ none → driver.active = true
  own : ∀ (number life callback : Nat) (result : Result UploadResult),
    desk.jobs[number]? = some (.finished life callback result) → desk.world.works number ≠ 0 →
    ∃ driver, desk.upload = some driver ∧ driver.life = life
  shut : desk.closed = true → desk.upload = none

def Awake (desk : Uploads) : Prop :=
  ∀ driver, desk.upload = some driver → driver.active = true → driver.state.phase ≠ .suspended

structure Serves (before : Uploads) (output : Output) (after : Uploads) : Prop where
  sound : Sound after
  awake : Awake after
  balance : ∀ callback, after.held callback + (if output.calls callback then 1 else 0) + before.known callback =
    before.held callback + after.known callback
  gone : after.world.gone = before.world.gone

section
variable {before middle after : Uploads} {output : Output}

theorem Serves.trans (first : Serves before .quiet middle) (second : Serves middle output after) :
    Serves before output after := by
  refine ⟨second.sound, second.awake, fun callback => ?_, second.gone.trans first.gone⟩
  have one := first.balance callback
  have two := second.balance callback
  simp only [calls, Bool.false_eq_true, ↓reduceIte] at one
  omega

theorem Serves.silent (serves : Serves before .quiet after) (silent : ∀ callback, output.calls callback = false) :
    Serves before output after := by
  refine ⟨serves.sound, serves.awake, fun callback => ?_, serves.gone⟩
  have balance := serves.balance callback
  simp only [calls, Bool.false_eq_true, ↓reduceIte] at balance
  simp only [silent callback, Bool.false_eq_true, ↓reduceIte]
  exact balance

theorem Serves.moved (sound : Sound after) (awake : Awake after) (passed : after.passed = before.passed)
    (gone : after.world.gone = before.world.gone)
    (moved : ∀ callback, after.held callback + (if output.calls callback then 1 else 0) = before.held callback) :
    Serves before output after := by
  refine ⟨sound, awake, fun callback => ?_, gone⟩
  have now := moved callback
  simp only [known, passed]
  omega

theorem held_some {desk : Uploads} {driver : Driver} (here : desk.upload = some driver) (callback : Nat) :
    desk.held callback = (if driver.callback = some callback then 1 else 0) +
      tally (Job.carries callback) desk.jobs desk.world.works := by
  simp [held, here]

theorem Serves.same (sound : Sound before) (awake : Awake before) (jobs : after.jobs = before.jobs)
    (works : ∀ number, after.world.works number = before.world.works number) (upload : after.upload = before.upload)
    (passed : after.passed = before.passed) (closed : after.closed = before.closed)
    (gone : after.world.gone = before.world.gone) : Serves before .quiet after := by
  refine ⟨⟨?_, ?_, ?_, ?_⟩, ?_, fun callback => ?_, gone⟩
  · intro number beyond
    rw [works]
    exact sound.numbered number (jobs ▸ beyond)
  · rw [upload]
    exact sound.holding
  · intro number life callback result found waits
    rw [jobs] at found
    rw [works] at waits
    rw [upload]
    exact sound.own number life callback result found waits
  · rw [closed, upload]
    exact sound.shut
  · rw [Awake, upload]
    exact awake
  · simp only [held, known, jobs, upload, passed, tally_congr _ fun number _ => works number, calls,
      Bool.false_eq_true, ↓reduceIte, Nat.add_zero]

theorem Sound.kept (sound : Sound before) (here : before.upload = some driver)
    (upload : after.upload = some next) (life : next.life = driver.life)
    (holding : next.callback ≠ none → next.active = true) (jobs : after.jobs = before.jobs)
    (works : ∀ number, after.world.works number = before.world.works number) (closed : after.closed = before.closed) :
    Sound after := by
  refine ⟨?_, ?_, ?_, ?_⟩
  · intro number beyond
    rw [works]
    exact sound.numbered number (jobs ▸ beyond)
  · intro other same holds
    obtain rfl : next = other := Option.some.inj (upload.symm.trans same)
    exact holding holds
  · intro number old waiting result found waits
    rw [jobs] at found
    rw [works] at waits
    obtain ⟨owner, there, is⟩ := sound.own number old waiting result found waits
    obtain rfl : driver = owner := Option.some.inj (here.symm.trans there)
    exact ⟨next, upload, life.trans is⟩
  · intro shut
    have none_ := sound.shut (closed ▸ shut)
    rw [here] at none_
    cases none_

theorem held_kept (here : before.upload = some driver) (upload : after.upload = some next)
    (callback : next.callback = driver.callback) (jobs : after.jobs = before.jobs)
    (works : ∀ number, after.world.works number = before.world.works number) (number : Nat) :
    after.held number = before.held number := by
  rw [held_some here, held_some upload, callback, jobs, tally_congr _ fun number _ => works number]

theorem Serves.kept (sound : Sound before) (here : before.upload = some driver)
    (upload : after.upload = some next) (life : next.life = driver.life) (callback : next.callback = driver.callback)
    (active : next.active = driver.active) (awake : next.active = true → next.state.phase ≠ .suspended)
    (jobs : after.jobs = before.jobs) (works : ∀ number, after.world.works number = before.world.works number)
    (passed : after.passed = before.passed) (closed : after.closed = before.closed)
    (gone : after.world.gone = before.world.gone) : Serves before .quiet after := by
  refine .moved (sound.kept here upload life (fun holds => ?_) jobs works closed) ?_ passed gone fun number => ?_
  · rw [active]
    exact sound.holding driver here (callback ▸ holds)
  · intro other same
    obtain rfl : next = other := Option.some.inj (upload.symm.trans same)
    exact awake
  · rw [held_kept here upload callback jobs works]
    rfl

theorem Serves.from (serves : Serves middle output after) (held : ∀ number, middle.held number = before.held number)
    (passed : middle.passed = before.passed) (gone : middle.world.gone = before.world.gone) :
    Serves before output after := by
  refine ⟨serves.sound, serves.awake, fun number => ?_, serves.gone.trans gone⟩
  have balance := serves.balance number
  rw [held number, known, passed] at balance
  exact balance

end

section
variable {desk : Uploads}

theorem defer_works (job : Job) (number : Nat) :
    (desk.defer job).world.works number = desk.world.works number + if number = desk.jobs.length then 1 else 0 := by
  have queued := desk.world.enter_works (.defer (some desk.jobs.length)) number
  rw [defer, queued]
  simp [Smp.Call.queues, eq_comm]

theorem defer_tally (numbered : ∀ number, desk.jobs.length ≤ number → desk.world.works number = 0) (p : Job → Bool)
    (job : Job) : tally p (desk.defer job).jobs (desk.defer job).world.works =
      tally p desk.jobs desk.world.works + if p job then 1 else 0 := by
  have earlier : tally p desk.jobs (desk.defer job).world.works = tally p desk.jobs desk.world.works := by
    refine tally_congr p fun number bound => ?_
    rw [defer_works, if_neg (Nat.ne_of_lt bound), Nat.add_zero]
  have last : (desk.defer job).world.works desk.jobs.length = 1 := by
    rw [defer_works, if_pos rfl, numbered _ (Nat.le_refl _)]
  show tally p (desk.jobs ++ [job]) _ = _
  rw [tally_concat, earlier, last]

theorem Sound.deferred (sound : Sound desk) (job : Job)
    (own : ∀ life callback result, job = .finished life callback result →
      ∃ driver, desk.upload = some driver ∧ driver.life = life) : Sound (desk.defer job) := by
  refine ⟨fun number beyond => ?_, sound.holding, fun number life callback result found waits => ?_, sound.shut⟩
  · have length : (desk.defer job).jobs.length = desk.jobs.length + 1 := by simp [defer]
    rw [length] at beyond
    rw [defer_works, if_neg (by omega), Nat.add_zero]
    exact sound.numbered number (by omega)
  · by_cases here : number < desk.jobs.length
    · have found : desk.jobs[number]? = some (.finished life callback result) := by
        rw [← found]
        exact (List.getElem?_append_left here).symm
      rw [defer_works, if_neg (by omega), Nat.add_zero] at waits
      exact sound.own number life callback result found waits
    · have last : (desk.jobs ++ [job])[number]? = some (.finished life callback result) := found
      rw [List.getElem?_append_right (Nat.le_of_not_lt here)] at last
      have same : job = .finished life callback result := by
        rw [List.getElem?_singleton] at last
        split at last
        · exact Option.some.inj last
        · cases last
      exact own life callback result same

end

section
variable {desk : Uploads} {driver : Driver}

theorem ask_works (reply : Reply) (spec : RequestSpec) (given : Bool) (sent : Result Unit) (now : TimePoint)
    (number : Nat) : (desk.ask reply spec given sent now).2.world.works number = desk.world.works number := by
  rw [ask, desk.world.enter_works]
  simp [Smp.Call.queues]

theorem finish_serves (sound : Sound (desk.keep driver)) (starting : Bool) (outcome : Result UploadResult) :
    Serves (desk.keep driver) (desk.finish driver starting outcome).1 (desk.finish driver starting outcome).2 := by
  unfold finish
  cases active : driver.active with
  | false =>
    refine .same sound (fun other same running => ?_) rfl (fun _ => rfl) rfl rfl rfl rfl
    obtain rfl : driver = other := Option.some.inj same
    rw [active] at running
    cases running
  | true =>
    -- The driver lets go of its callback; what is left is to see where it goes.
    have ended : Sound (desk.keep { driver with active := false, callback := none }) := by
      refine ⟨sound.numbered, ?_, ?_, fun shut => ?_⟩
      · intro other same holds
        obtain rfl := Option.some.inj same
        exact absurd rfl holds
      · intro number life callback result found waits
        obtain ⟨owner, there, is⟩ := sound.own number life callback result found waits
        obtain rfl : driver = owner := Option.some.inj there
        exact ⟨_, rfl, is⟩
      · exact absurd (sound.shut shut) (by simp [keep])
    have asleep : Awake (desk.keep { driver with active := false, callback := none }) := by
      intro other same running
      obtain rfl := Option.some.inj same
      cases running
    simp only [Bool.not_true, Bool.false_eq_true, ↓reduceIte]
    have before (number : Nat) := @held_some (desk.keep driver) driver rfl number
    have after (number : Nat) := @held_some (desk.keep { driver with active := false, callback := none }) _ rfl number
    cases given : driver.callback with
    | none =>
      refine .moved ended asleep rfl rfl fun number => ?_
      rw [before, after, given]
      simp [calls, keep]
    | some callback =>
      cases starting with
      | true =>
        refine .moved (ended.deferred _ fun life other result same => ?_) asleep rfl (Smp.World.enter_gone (by simp))
          fun number => ?_
        · cases same
          exact ⟨_, rfl, rfl⟩
        have queued := defer_tally ended.numbered (Job.carries number) (.finished driver.life callback outcome)
        have last := @held_some ((desk.keep { driver with active := false, callback := none }).defer
          (.finished driver.life callback outcome)) _ rfl number
        rw [before, given]
        simp only [↓reduceIte, last, queued, Job.carries, calls, Bool.false_eq_true, Nat.add_zero, reduceCtorEq,
          Nat.zero_add, beq_iff_eq, Option.some.injEq]
        exact Nat.add_comm ..
      | false =>
        refine .moved ⟨ended.numbered, ended.holding, ended.own, ended.shut⟩ asleep rfl rfl fun number => ?_
        have last := @held_some (((desk.keep { driver with active := false, callback := none }).tell callback outcome).2)
          _ rfl number
        rw [before, given]
        simp only [Bool.false_eq_true, ↓reduceIte, last, reduceCtorEq, Nat.zero_add]
        simp only [tell, calls, beq_iff_eq, Option.some.injEq]
        exact Nat.add_comm ..

variable (codec : Codec) (env : Env)

theorem send_serves (sound : Sound (desk.keep driver)) (starting : Bool) (request : Upload.UploadRequest) :
    Serves (desk.keep driver) (desk.send codec env driver starting request).1
      (desk.send codec env driver starting request).2 := by
  unfold send
  split
  · exact finish_serves sound starting _
  split
  · exact finish_serves sound starting _
  · exact .kept sound rfl rfl rfl rfl rfl (by rintro _ ⟨⟩) rfl (ask_works (.driver driver.life) _ _ _ _) rfl rfl
      (Smp.World.enter_gone (by simp))

theorem progress_serves (sound : Sound desk) (awake : Awake desk) :
    Serves desk (desk.progress driver).1 (desk.progress driver).2 := by
  unfold progress
  split
  · have pushed : Serves desk .quiet (desk.push .application) := .same sound awake rfl (fun _ => rfl) rfl rfl rfl rfl
    exact pushed.silent fun _ => rfl
  · exact .same sound awake rfl (fun _ => rfl) rfl rfl rfl rfl

theorem advance_serves (sound : Sound (desk.keep driver)) (starting : Bool) (step : Upload.Step)
    (awake : (∀ error, step ≠ .suspend error) → driver.active = true → driver.state.phase ≠ .suspended) :
    Serves (desk.keep driver) (desk.advance codec env driver starting step).1
      (desk.advance codec env driver starting step).2 := by
  unfold advance
  cases step with
  | sendChunk request => exact send_serves codec env sound starting request
  | fail | suspend => exact finish_serves sound starting _
  | complete match_ onFirst =>
    dsimp only
    split
    · have phase := awake nofun
      let next : Driver := { driver with reportedOff := driver.state.confirmedOff }
      have kept : Serves (desk.keep driver) .quiet ((desk.keep next).push
          (.conclude driver.life ⟨driver.state.confirmedOff, onFirst, match_⟩)) :=
        .kept sound rfl rfl rfl rfl rfl phase rfl (fun _ => rfl) rfl rfl rfl
      exact kept.trans (progress_serves kept.sound kept.awake)
    · exact finish_serves sound starting _

theorem advance_starting (step : Upload.Step) : (desk.advance codec env driver true step).1 = .quiet := by
  have finished (outcome : Result UploadResult) : (desk.finish driver true outcome).1 = .quiet := by
    unfold finish
    split
    · rfl
    · dsimp only
      split <;> rfl
  unfold advance
  cases step with
  | sendChunk =>
    dsimp only
    unfold send
    split
    · exact finished _
    split
    · exact finished _
    · rfl
  | complete => simp [finished]
  | fail | suspend => exact finished _

theorem driverOf_found {life : Nat} (found : desk.driverOf life = some driver) :
    desk.upload = some driver ∧ driver.life = life := by
  simpa [driverOf, Option.filter_eq_some_iff] using found

theorem keep_same (here : desk.upload = some driver) : desk.keep driver = desk := by
  rw [keep, ← here]

theorem onResponse_phase {config : Upload.UploadConfig Bytes} {state : Upload.UploadState}
    (response : Upload.UploadResponse) (awake : state.phase ≠ .suspended)
    (goesOn : ∀ error, (Upload.onResponse config state response).1 ≠ .suspend error) :
    (Upload.onResponse config state response).2.phase ≠ .suspended := by
  have answered := @Upload.onResponse_answered Bytes config state response
  generalize Upload.onResponse config state response = result at answered goesOn
  cases answered with
  | resent => exact awake
  | suspended error => exact absurd rfl (goesOn error)
  | failed _ _ phase => simp [phase]
  | completed => simp
  | advanced _ _ _ _ _ _ _ phase => exact phase ▸ awake

theorem handle_serves (sound : Sound desk) (awake : Awake desk) (life : Nat) (response : Result RawResponse) :
    Serves desk (desk.handle codec env life response).1 (desk.handle codec env life response).2 := by
  unfold handle
  split
  · exact .same sound awake rfl (fun _ => rfl) rfl rfl rfl rfl
  rename_i driver found
  obtain ⟨here, _⟩ := driverOf_found found
  by_cases active : driver.active = true
  · have phase := @onResponse_phase driver.config driver.state (Host.decodeChunk codec response)
      (awake driver here active)
    rw [if_neg (by simp [active])]
    generalize Upload.onResponse driver.config driver.state (Host.decodeChunk codec response) = result at phase ⊢
    obtain ⟨step, state⟩ := result
    dsimp only at phase ⊢
    split
    · rename_i sends
      have goesOn (error : Error) : step ≠ .suspend error := by
        rintro rfl
        cases sends.1
      have kept : Serves desk .quiet ((desk.keep { driver with
          request := {}, state := state, reportedOff := state.confirmedOff }).push (.advance life step)) :=
        .kept sound here rfl rfl rfl rfl (fun _ => phase goesOn) rfl (fun _ => rfl) rfl rfl rfl
      exact kept.trans (progress_serves kept.sound kept.awake)
    · -- The session may be asleep here, but then the upload ends in the same step.
      let next : Driver := { driver with request := {}, state := state }
      have sound : Sound (desk.keep next) :=
        sound.kept here rfl rfl (sound.holding driver here) rfl (fun _ => rfl) rfl
      exact (advance_serves codec env sound false step fun goesOn _ => phase goesOn).from
        (held_kept here rfl rfl rfl fun _ => rfl) rfl rfl
  · rw [if_pos (by simp [active])]
    exact .same sound awake rfl (fun _ => rfl) rfl rfl rfl rfl

end

section
variable {desk : Uploads} (codec : Codec) (env : Env)

theorem known_succ (passed callback : Nat) : (if callback < passed + 1 then 1 else 0) =
    (if callback < passed then 1 else 0) + if passed = callback then 1 else 0 := by
  split <;> split <;> split <;> omega

theorem reject_serves (sound : Sound desk) (awake : Awake desk) (given : Bool) (error : Error) :
    Serves desk .quiet ((desk.take given).2.reject (desk.take given).1 error) := by
  cases given with
  | false => exact .same sound awake rfl (fun _ => rfl) rfl rfl rfl rfl
  | true =>
    let taken : Uploads := { desk with passed := desk.passed + 1 }
    have same : Sound taken := ⟨sound.numbered, sound.holding, sound.own, sound.shut⟩
    refine ⟨same.deferred (.rejected desk.passed error) (fun _ _ _ => nofun), awake, fun number => ?_,
      Smp.World.enter_gone (by simp)⟩
    have queued := defer_tally same.numbered (Job.carries number) (.rejected desk.passed error)
    have more := known_succ desk.passed number
    show (if desk.upload.any (·.callback == some number) then 1 else 0) + tally (Job.carries number)
      (taken.defer (.rejected desk.passed error)).jobs (taken.defer (.rejected desk.passed error)).world.works + 0 +
        (if number < desk.passed then 1 else 0) = desk.held number + (if number < desk.passed + 1 then 1 else 0)
    rw [queued, more, held]
    simp only [Job.carries, beq_iff_eq, taken]
    omega

theorem Serves.taken (given : Bool)
    (empty : ∀ old, desk.upload = some old → old.callback = none) (upload : after.upload = some driver)
    (callback : driver.callback = (desk.take given).1) (passed : after.passed = (desk.take given).2.passed)
    (jobs : after.jobs = desk.jobs) (works : ∀ number, after.world.works number = desk.world.works number)
    (gone : after.world.gone = desk.world.gone) (sound : Sound after) (awake : Awake after) :
    Serves desk .quiet after := by
  refine ⟨sound, awake, fun number => ?_, gone⟩
  have before : desk.held number = tally (Job.carries number) desk.jobs desk.world.works := by
    have none_ : desk.upload.any (·.callback == some number) = false := by
      cases here : desk.upload with
      | none => rfl
      | some old => simp [empty old here]
    simp [held, none_]
  rw [before, held_some upload, callback, jobs, tally_congr _ fun number _ => works number, known, known, passed]
  cases given with
  | false => simp [take, calls]
  | true =>
    have more := known_succ desk.passed number
    simp only [take, ↓reduceIte, calls, Bool.false_eq_true, Nat.add_zero, Option.some.injEq]
    rw [more]
    omega

def endWaits (desk : Uploads) : Bool := decide (0 < tally Job.isEnd desk.jobs desk.world.works)

theorem own_of_none {upload : Option Driver} (none_ : desk.endWaits = false) (number life callback : Nat)
    (result : Result UploadResult) (found : desk.jobs[number]? = some (.finished life callback result))
    (waits : desk.world.works number ≠ 0) : ∃ driver, upload = some driver ∧ driver.life = life := by
  have some_ := @held_le_tally _ Job.isEnd desk.jobs number _ desk.world.works found rfl
  have zero : ¬ 0 < tally Job.isEnd desk.jobs desk.world.works := by simpa [endWaits] using none_
  omega

section
variable (sound : Sound desk)
include sound

theorem start_serves (awake : Awake desk) (open_ : desk.closed = false) (source : Source)
    (options : UploadOptions) (onProgress onDone : Bool)
    (kept : desk.uploading = false → (Host.configure env source options).toOption ≠ none → desk.endWaits = false) :
    Serves desk .quiet (desk.start codec env source options onProgress onDone).2 := by
  have taken : (desk.take onDone).2 = { desk with passed := (desk.take onDone).2.passed } := by
    cases onDone <;> rfl
  have busy : (desk.take onDone).2.uploading = desk.uploading := by rw [taken]; rfl
  unfold start
  dsimp only
  rw [busy]
  cases running : desk.uploading with
  | true => exact reject_serves sound awake onDone _
  | false =>
    simp only [Bool.false_eq_true, ↓reduceIte]
    cases config : Host.configure env source options with
    | error => exact reject_serves sound awake onDone _
    | ok config' =>
      have none_ := kept running (by simp [config, Except.toOption])
      have empty (old : Driver) (here : desk.upload = some old) : old.callback = none := by
        by_contra holds
        have active := sound.holding old here holds
        simp [uploading, here, active] at running
      dsimp only
      generalize fresh : ({
        life := (desk.take onDone).2.lives + 1, generation := (desk.take onDone).2.uploadGeneration + 1, source := source
        config := config', firstChunkTimeout := options.firstChunkTimeout, finalChunkTimeout := options.finalChunkTimeout
        chunkTimeout := options.chunkTimeout, onProgress := if onProgress then some .application else none
        onDone := none, active := true, callback := (desk.take onDone).1 } : Driver) = driver
      rw [taken]
      let placed : Uploads := { desk with
        passed := (desk.take onDone).2.passed, upload := some driver
        uploadGeneration := desk.uploadGeneration + 1, lives := desk.lives + 1 }
      have settled : Sound placed := by
        refine ⟨sound.numbered, fun other same _ => ?_, own_of_none none_, fun shut => ?_⟩
        · obtain rfl : driver = other := Option.some.inj same
          rw [← fresh]
        · exact absurd (open_.symm.trans shut) (by decide)
      have awake : driver.state.phase ≠ .suspended := by
        rw [← fresh]
        exact nofun
      have begun : Serves desk .quiet placed := by
        refine .taken onDone empty rfl ?_ rfl rfl (fun _ => rfl) rfl settled fun other same _ => ?_
        · rw [← fresh]
        · obtain rfl : driver = other := Option.some.inj same
          exact awake
      have goesOn := @advance_serves placed driver codec env settled true (Upload.planNext config' {}) fun _ _ => awake
      rw [advance_starting] at goesOn
      exact begun.trans goesOn

omit sound in
theorem uploadOf_found {handle : UploadHandle} (found : desk.uploadOf handle = some driver) :
    desk.upload = some driver := by
  have both : desk.upload = some driver ∧ driver.generation = handle.generation := by
    simpa [uploadOf, Option.filter_eq_some_iff] using found
  exact both.1

theorem resume_serves (awake : Awake desk) (handle : UploadHandle) (onDone : Bool) :
    Serves desk .quiet (desk.resume codec env handle onDone).2 := by
  have taken : (desk.take onDone).2 = { desk with passed := (desk.take onDone).2.passed } := by
    cases onDone <;> rfl
  have same : (desk.take onDone).2.uploadOf handle = desk.uploadOf handle := by rw [taken]; rfl
  unfold resume
  dsimp only
  rw [same]
  split
  · exact reject_serves sound awake onDone _
  rename_i driver found
  have here := uploadOf_found found
  split
  · exact reject_serves sound awake onDone _
  rename_i resumable
  have asleep : driver.state.phase = .suspended := by simpa [Host.UploadDriver.resumable] using resumable
  have ended (old : Driver) (there : desk.upload = some old) : old.callback = none := by
    obtain rfl : driver = old := Option.some.inj (here.symm.trans there)
    by_contra holds
    exact awake driver here (sound.holding driver here holds) asleep
  simp only [Upload.resume, asleep, ne_eq, not_true_eq_false, ↓reduceIte]
  rw [taken]
  generalize awoken : ({ driver with
    callback := (desk.take onDone).1, active := true
    state := { driver.state with
      firstPacketPending := true, phase := .idle, retries := 0, consecutiveNoProgress := 0 } } : Driver) = next
  let placed : Uploads := { desk with passed := (desk.take onDone).2.passed, upload := some next }
  have settled : Sound placed := by
    refine .kept sound here rfl ?_ (fun _ => ?_) rfl (fun _ => rfl) rfl <;> rw [← awoken]
  have woken : next.state.phase ≠ .suspended := by
    rw [← awoken]
    simp
  have begun : Serves desk .quiet placed := by
    refine .taken onDone ended rfl ?_ rfl rfl (fun _ => rfl) rfl settled fun other same _ => ?_
    · rw [← awoken]
    · obtain rfl : next = other := Option.some.inj same
      exact woken
  have goesOn (step : Upload.Step) := @advance_serves { desk with passed := (desk.take onDone).2.passed } next codec env
    settled true step fun _ _ => woken
  simp only [advance_starting] at goesOn
  exact begun.trans (goesOn _)

theorem cancel_serves (awake : Awake desk) (handle : UploadHandle) : Serves desk .quiet (desk.cancel handle) := by
  unfold cancel
  split
  · exact .same sound awake rfl (fun _ => rfl) rfl rfl rfl rfl
  rename_i driver found
  have here := uploadOf_found found
  split
  · exact .same sound awake rfl (fun _ => rfl) rfl rfl rfl rfl
  refine .kept sound here rfl rfl rfl rfl (awake driver here) rfl (fun number => ?_) rfl rfl
    (Smp.World.enter_gone (by simp))
  show (desk.world.enter (.cancel driver.request)).2.works number = desk.world.works number
  rw [desk.world.enter_works]
  rfl

theorem Serves.dropped {output : Output} (none_ : desk.endWaits = false)
    (upload : after.upload = none) (jobs : after.jobs = desk.jobs)
    (works : ∀ number, after.world.works number = desk.world.works number) (passed : after.passed = desk.passed)
    (gone : after.world.gone = desk.world.gone)
    (calls : ∀ number, output.calls number = desk.upload.any (·.callback == some number)) :
    Serves desk output after := by
  refine .moved ⟨fun number beyond => ?_, fun driver same => ?_, fun number life callback result found waits => ?_,
    fun _ => upload⟩ (fun driver same => ?_) passed gone fun number => ?_
  · rw [works]
    exact sound.numbered number (jobs ▸ beyond)
  · cases upload.symm.trans same
  · rw [jobs] at found
    rw [works] at waits
    exact own_of_none none_ number life callback result found waits
  · cases upload.symm.trans same
  · rw [held, held, upload, jobs, tally_congr _ fun number _ => works number, calls]
    simp only [Option.any_none, Bool.false_eq_true, ↓reduceIte]
    omega

theorem destroy_serves (none_ : desk.endWaits = false) : Serves desk desk.destroy.1 desk.destroy.2 := by
  have cancelled (handle : RequestHandle) (number : Nat) :
      (desk.world.enter (.cancel handle)).2.works number = desk.world.works number := by
    rw [desk.world.enter_works]
    rfl
  unfold destroy
  dsimp only
  cases here : desk.upload with
  | none => exact .dropped sound none_ rfl rfl (fun _ => rfl) rfl rfl (by simp [here, calls])
  | some driver =>
    dsimp only
    by_cases active : driver.active = true
    · rw [if_neg (by simp [active])]
      have kept := @Smp.World.enter_gone desk.world (.cancel driver.request) (by simp)
      cases given : driver.callback with
      | none => exact .dropped sound none_ rfl rfl (cancelled driver.request) rfl kept (by simp [here, given, calls])
      | some callback =>
        exact .dropped sound none_ rfl rfl (cancelled driver.request) rfl kept (by simp [here, given, calls, tell])
    · rw [if_pos (by simp [active])]
      have given : driver.callback = none := by
        by_contra holds
        exact active (sound.holding driver here holds)
      exact .dropped sound none_ rfl rfl (fun _ => rfl) rfl rfl (by simp [here, given, calls])

end

end

section
variable {desk : Uploads} (codec : Codec) (env : Env)

theorem Serves.turned {after : Uploads} (sound : Sound desk) (awake : Awake desk)
    (world : after.world = (desk.world.proceed codec.extractMgmtError).2)
    (quiet : ∀ work, (desk.world.proceed codec.extractMgmtError).1.works work = false) (jobs : after.jobs = desk.jobs)
    (upload : after.upload = desk.upload) (passed : after.passed = desk.passed) (closed : after.closed = desk.closed) :
    Serves desk .quiet after := by
  refine .same sound awake jobs (fun number => ?_) upload passed closed ?_
  · have works := @Smp.World.proceed_works codec.extractMgmtError desk.world number
    rw [quiet] at works
    rw [world, works]
    rfl
  · rw [world]
    exact Smp.World.proceed_gone desk.world

theorem Serves.ran {output : Output} {number : Nat} {job : Job} (sound : Sound desk) (awake : Awake desk)
    (found : desk.jobs[number]? = some job)
    (works : ∀ other, desk.world.works other = after.world.works other + if other = number then 1 else 0)
    (jobs : after.jobs = desk.jobs) (upload : after.upload = desk.upload) (passed : after.passed = desk.passed)
    (closed : after.closed = desk.closed) (gone : after.world.gone = desk.world.gone)
    (calls : ∀ callback, output.calls callback = job.carries callback) : Serves desk output after := by
  refine .moved ⟨fun other beyond => ?_, ?_, fun other life callback result queued waits => ?_, ?_⟩ ?_ passed gone
    fun callback => ?_
  · have before := sound.numbered other (jobs ▸ beyond)
    have now := works other
    omega
  · rw [upload]
    exact sound.holding
  · rw [jobs] at queued
    rw [upload]
    refine sound.own other life callback result queued ?_
    have now := works other
    omega
  · rw [closed, upload]
    exact sound.shut
  · rw [Awake, upload]
    exact awake
  · have took := tally_take (Job.carries callback) found fun other _ => works other
    rw [held, held, upload, jobs, calls, took]
    omega

section
variable (sound : Sound desk) (awake : Awake desk)
include sound awake

theorem goOn_serves : Serves desk (desk.goOn codec env).1 (desk.goOn codec env).2 := by
  have works := @Smp.World.proceed_works codec.extractMgmtError desk.world
  have gone := @Smp.World.proceed_gone codec.extractMgmtError desk.world
  have turned := @Serves.turned desk codec
  unfold goOn
  generalize desk.world.proceed codec.extractMgmtError = result at works gone turned
  obtain ⟨output, world⟩ := result
  cases output with
  | completed callback result =>
    have called := @turned { desk with world := world, tasks := .returning :: desk.tasks } sound awake rfl (fun _ => rfl)
      rfl rfl rfl rfl
    dsimp only
    cases desk.replies.getD callback .application with
    | application => exact called.trans (.same called.sound called.awake rfl (fun _ => rfl) rfl rfl rfl rfl)
    | driver life => exact called.trans (handle_serves codec env called.sound called.awake life result)
  | worked number =>
    have took (other : Nat) : desk.world.works other = world.works other + if other = number then 1 else 0 := by
      have now := works other
      simp only [Smp.Output.works, decide_eq_true_eq] at now
      rw [now]
      simp [eq_comm]
    have inside : number < desk.jobs.length := by
      by_contra beyond
      have none_ := sound.numbered number (by omega)
      have now := took number
      rw [if_pos rfl] at now
      omega
    have found := List.getElem?_eq_getElem inside
    have waits : desk.world.works number ≠ 0 := by
      rw [took, if_pos rfl]
      omega
    dsimp only
    rw [List.getD_eq_getElem?_getD, found, Option.getD_some]
    generalize desk.jobs[number] = job at found
    cases job with
    | application | rejected callback error => exact .ran sound awake found took rfl rfl rfl rfl gone fun _ => rfl
    | finished life callback result =>
      -- The driver whose end this is has not been replaced, so the callback is called.
      obtain ⟨driver, here, is⟩ := sound.own number life callback result found waits
      have there : (driverOf { desk with world := world, tasks := .returning :: desk.tasks } life).isSome = true := by
        simp [driverOf, here, is]
      rw [work, if_pos there]
      exact .ran sound awake found took rfl rfl rfl rfl gone fun _ => rfl
  | _ => exact turned sound awake rfl (fun _ => rfl) rfl rfl rfl rfl

theorem execute_serves (controlled : desk.controlled = true) (task : Task) :
    Serves desk (desk.execute codec env task).1 (desk.execute codec env task).2 := by
  unfold execute
  cases task with
  | application => exact .same sound awake rfl (fun _ => rfl) rfl rfl rfl rfl
  | returning =>
    refine .turned codec sound awake rfl (fun _ => ?_) rfl rfl rfl rfl
    unfold Uploads.controlled at controlled
    unfold Smp.World.proceed
    split at controlled <;> simp_all [Smp.Output.works]
  | advance life step =>
    dsimp only
    split
    · exact .same sound awake rfl (fun _ => rfl) rfl rfl rfl rfl
    rename_i driver found
    obtain ⟨here, _⟩ := driverOf_found found
    have same := keep_same here
    have goesOn := @advance_serves desk driver codec env (same.symm ▸ sound) false step fun _ => awake driver here
    rwa [same] at goesOn
  | conclude life result =>
    dsimp only
    split
    · exact .same sound awake rfl (fun _ => rfl) rfl rfl rfl rfl
    rename_i driver found
    obtain ⟨here, _⟩ := driverOf_found found
    have same := keep_same here
    have ends := @finish_serves desk driver (same.symm ▸ sound) false (.ok result)
    rwa [same] at ends

theorem proceed_serves : Serves desk (desk.proceed codec env).1 (desk.proceed codec env).2 := by
  unfold proceed
  split
  · exact goOn_serves codec env sound awake
  rename_i controlled
  have controlled : desk.controlled = true := by simpa using controlled
  split
  · exact .same sound awake rfl (fun _ => rfl) rfl rfl rfl rfl
  rename_i task tasks _
  have popped : Serves desk .quiet { desk with tasks := tasks } :=
    .same sound awake rfl (fun _ => rfl) rfl rfl rfl rfl
  exact popped.trans (execute_serves codec env popped.sound popped.awake controlled task)

theorem enterClient_serves {call : Smp.Call} (other : call ≠ .destroy) :
    Serves desk .quiet (desk.enterClient call) := by
  have entered (call : Smp.Call) (other : call ≠ .destroy) (queues : ∀ work, call.queues work = false) :
      Serves desk .quiet { desk with world := (desk.world.enter call).2 } := by
    refine .same sound awake rfl (fun number => ?_) rfl rfl rfl (Smp.World.enter_gone other)
    show (desk.world.enter call).2.works number = desk.world.works number
    rw [desk.world.enter_works, queues]
    rfl
  unfold enterClient
  split
  · exact .same sound awake rfl (fun _ => rfl) rfl rfl rfl rfl
  cases call with
  | request spec given sent now =>
    exact .same sound awake rfl (ask_works (.application) spec given sent now) rfl rfl rfl (Smp.World.enter_gone (by simp))
  | defer work =>
    cases work with
    | none => exact .same sound awake rfl (fun _ => rfl) rfl rfl rfl rfl
    | some work =>
      refine .moved (sound.deferred .application fun _ _ _ => nofun) awake rfl (Smp.World.enter_gone (by simp))
        fun number => ?_
      have queued := defer_tally sound.numbered (Job.carries number) .application
      show (if desk.upload.any (·.callback == some number) then 1 else 0) + tally (Job.carries number)
        (desk.defer .application).jobs (desk.defer .application).world.works + 0 = desk.held number
      rw [queued, held]
      rfl
  | destroy => exact absurd rfl other
  | _ => exact entered _ (by simp) fun _ => rfl

end

def keepsEnds (t : Transition Uploads Event Output) : Bool :=
  match t.event with
  | .call (.upload source options _ _) env =>
    !t.before.free || t.before.closed || t.before.uploading || (Host.configure env source options).toOption.isNone ||
      !t.before.endWaits
  | .call .destroy _ => !t.before.free || t.before.closed || !t.before.endWaits
  | _ => true

def closesClient (desk : Uploads) : Event → Bool
  | .call (.client .destroy) _ => desk.free && desk.world.callable .destroy && desk.closed && desk.tasks.isEmpty
  | _ => false

theorem step_serves (sound : Sound desk) (awake : Awake desk) (event : Event)
    (keeps : keepsEnds (transition (step codec) desk event) = true) (goesOn : desk.closesClient event = false) :
    Serves desk (desk.step codec event).1 (desk.step codec event).2 := by
  have stays : Serves desk .quiet desk := .same sound awake rfl (fun _ => rfl) rfl rfl rfl rfl
  cases event with
  | proceed env => exact proceed_serves codec env sound awake
  | call call env =>
    rw [step]
    by_cases free : desk.free = true
    · rw [if_pos free]
      have open_ (other : desk.closed ≠ true) : desk.closed = false := by simpa using other
      cases call with
      | client call =>
        by_cases ends : call = .destroy
        · subst ends
          simp only [closesClient, free, Bool.true_and, Bool.and_eq_false_imp] at goesOn
          simp only [enter, enterClient]
          split
          · exact stays
          rename_i callable
          have busy : ¬ (desk.closed = true ∧ desk.tasks.isEmpty = true) := by
            rintro ⟨closed, idle⟩
            have callable : desk.world.callable .destroy = true := by simpa using callable
            exact absurd (goesOn (by simp [callable, closed])) (by simp [idle])
          rw [if_neg busy]
          exact stays
        · exact enterClient_serves sound awake ends
      | upload source options onProgress onDone =>
        simp only [enter]
        split
        · exact stays
        rename_i closed
        have begun := start_serves codec env sound awake (open_ closed) source options onProgress onDone (by
          intro idle configured
          simpa [keepsEnds, transition, free, open_ closed, idle, configured] using keeps)
        exact begun.silent fun _ => rfl
      | resume handle onDone =>
        simp only [enter]
        split
        · exact stays
        · exact (resume_serves codec env sound awake handle onDone).silent fun _ => rfl
      | cancel handle =>
        simp only [enter]
        split
        · exact stays
        · exact cancel_serves sound awake handle
      | destroy =>
        simp only [enter]
        split
        · exact stays
        · rename_i closed
          exact destroy_serves sound (by simpa [keepsEnds, transition, free, open_ closed] using keeps)
    · rw [if_neg free]
      exact stays

inductive Left (before : Uploads) (after : Uploads) : Prop
  | same (closed : after.closed = true) (world : after.world = before.world)
  | turned (closed : after.closed = true) (world : after.world = (before.world.proceed codec.extractMgmtError).2)
  | entered (closed : after.closed = true) (call : Smp.Call) (callable : before.world.callable call = true)
      (world : after.world = (before.world.enter call).2)

theorem proceed_left (sound : Sound desk) (closed : desk.closed = true) :
    Left codec desk (desk.proceed codec env).2 := by
  have here := sound.shut closed
  have nobody (life : Nat) : desk.driverOf life = none := by simp [driverOf, here]
  unfold proceed
  split
  · unfold goOn
    dsimp only
    split
    · rename_i callback result _
      cases desk.replies.getD callback .application with
      | application => exact .turned closed rfl
      | driver life =>
        have none_ (world : World) (tasks : List Task) : { desk with world := world, tasks := tasks }.driverOf life = none :=
          nobody life
        simp only [answer, handle, none_]
        exact .turned closed rfl
    · rename_i number _
      cases desk.jobs.getD number .application with
      | application | rejected => exact .turned closed rfl
      | finished life =>
        have none_ (world : World) (tasks : List Task) : { desk with world := world, tasks := tasks }.driverOf life = none :=
          nobody life
        simp only [work, none_]
        exact .turned closed rfl
    · exact .turned closed rfl
  · split
    · exact .same closed rfl
    rename_i task tasks _
    have none_ (life : Nat) : { desk with tasks := tasks }.driverOf life = none := nobody life
    cases task with
    | application => exact .same closed rfl
    | returning => exact .turned closed rfl
    | advance | conclude =>
      simp only [execute, none_]
      exact .same closed rfl

theorem step_left (sound : Sound desk) (closed : desk.closed = true) (event : Event) :
    Left codec desk (desk.step codec event).2 := by
  cases event with
  | proceed env => exact proceed_left codec env sound closed
  | call call env =>
    rw [step]
    split
    · cases call with
      | client call =>
        simp only [enter, enterClient]
        split
        · exact .same closed rfl
        rename_i callable
        have callable : desk.world.callable call = true := by simpa using callable
        cases call with
        | defer work =>
          cases work with
          | none => exact .same closed rfl
          | some => exact .entered closed (.defer (some desk.jobs.length)) callable rfl
        | destroy =>
          dsimp only
          split
          · exact .entered closed .destroy callable rfl
          · exact .same closed rfl
        | _ => exact .entered closed _ callable rfl
      | _ =>
        simp only [enter, closed, ↓reduceIte]
        exact .same closed rfl
    · exact .same closed rfl

def Ends (desk : Uploads) : Prop := desk.world.gone = true → desk.closed = true ∧ desk.world.Draining

theorem Left.ends (left : Left codec desk after) (draining : desk.world.Draining)
    (gone : desk.world.gone = true) : after.closed = true ∧ after.world.Draining := by
  cases left with
  | same closed world => exact ⟨closed, world ▸ draining⟩
  | turned closed world => exact ⟨closed, world ▸ Smp.World.proceed_draining draining⟩
  | entered closed _ callable world =>
    exact ⟨closed, world ▸ Smp.World.enter_draining draining (Smp.World.callable_gone callable gone)⟩

theorem step_closes (sound : Sound desk) (awake : Awake desk) {event : Event} (ends : desk.closesClient event = true) :
    (desk.step codec event).1 = .quiet ∧ Sound (desk.step codec event).2 ∧ Awake (desk.step codec event).2 ∧
      Ends (desk.step codec event).2 ∧ (∀ callback, (desk.step codec event).2.held callback = desk.held callback) ∧
      (desk.step codec event).2.passed = desk.passed := by
  unfold closesClient at ends
  split at ends
  · simp only [Bool.and_eq_true] at ends
    obtain ⟨⟨⟨free, callable⟩, closed⟩, idle⟩ := ends
    have works (number : Nat) : (desk.world.enter .destroy).2.works number = desk.world.works number := by
      rw [desk.world.enter_works]
      rfl
    have same : desk.step codec (.call (.client .destroy) ‹_›) =
        (.quiet, { desk with world := (desk.world.enter .destroy).2 }) := by
      simp [step, free, enter, enterClient, callable, closed, idle]
    rw [same]
    refine ⟨rfl, ⟨fun number beyond => ?_, sound.holding, fun number life callback result found waits => ?_, sound.shut⟩,
      awake, fun gone => ⟨closed, (Smp.World.destroy_closing callable).draining gone⟩, fun callback => ?_, rfl⟩
    · exact (works number).trans (sound.numbered number beyond)
    · exact sound.own number life callback result found (works number ▸ waits)
    · simp only [held, tally_congr _ fun number _ => works number]
  · cases ends

def callsOf (history : List (Transition Uploads Event Output)) (callback : Nat) : Nat :=
  history.countP fun t => t.output.calls callback

/-- Every callback passed in has been called or is held in one place, and none is both. -/
structure Accounted (past : List (Transition Uploads Event Output)) (desk : Uploads) : Prop where
  sound : Sound desk
  awake : Awake desk
  once : ∀ callback, desk.held callback + callsOf past callback = desk.known callback
  ends : Ends desk

theorem Accounted.step {past : List (Transition Uploads Event Output)} (accounted : Accounted past desk) (event : Event)
    (keeps : keepsEnds (transition (step codec) desk event) = true) :
    Accounted (past ++ [transition (Uploads.step codec) desk event]) (desk.step codec event).2 := by
  have more (callback : Nat) : callsOf (past ++ [transition (Uploads.step codec) desk event]) callback =
      callsOf past callback + if (desk.step codec event).1.calls callback then 1 else 0 := by
    simp [callsOf, List.countP_append, List.countP_cons, transition]
  cases closes : desk.closesClient event with
  | true =>
    obtain ⟨quiet, sound, awake, ends, held, passed⟩ := step_closes codec accounted.sound accounted.awake closes
    refine ⟨sound, awake, fun callback => ?_, ends⟩
    have before := accounted.once callback
    rw [more, quiet, held, known, passed]
    exact before
  | false =>
    have serves := step_serves codec accounted.sound accounted.awake event keeps closes
    refine ⟨serves.sound, serves.awake, fun callback => ?_, fun gone => ?_⟩
    · have before := accounted.once callback
      have now := serves.balance callback
      rw [more]
      omega
    · have gone := serves.gone ▸ gone
      obtain ⟨closed, draining⟩ := accounted.ends gone
      exact (step_left codec accounted.sound closed event).ends codec draining gone

end

section
variable (codec : Codec) (transport : Nat) (config : SmpClientConfig)

def history (events : List Event) : List (Transition Uploads Event Output) :=
  log (step codec) (new transport config) events

def reached (events : List Event) : Uploads := run (step codec) (new transport config) events

theorem new_accounted : Accounted [] (new transport config) := by
  refine ⟨⟨fun _ _ => rfl, fun _ => nofun, fun _ _ _ _ => nofun, fun _ => rfl⟩, fun _ => nofun, fun callback => ?_, nofun⟩
  simp [held, known, callsOf, new, tally]

theorem reached_accounted (events : List Event)
    (keeps : ∀ t ∈ history codec transport config events, keepsEnds t = true) :
    Accounted (history codec transport config events) (reached codec transport config events) := by
  have whole := history_invariant (step codec) (new transport config)
    (fun past desk => (∀ t ∈ past, keepsEnds t = true) → Accounted past desk)
    (fun _ => new_accounted transport config) (by
      intro past desk event before keeps
      have accounted := before fun t member => keeps t (List.mem_append_left _ member)
      exact accounted.step codec event (keeps _ (by simp)))
    events
  exact whole keeps

def Over (desk : Uploads) : Prop := desk.world.gone = true ∧ desk.world.stack = []

theorem Accounted.over_ {past : List (Transition Uploads Event Output)} {desk : Uploads}
    (accounted : Accounted past desk)
    (ended : desk.Over) (callback : Nat) : desk.held callback = 0 := by
  obtain ⟨closed, draining⟩ := accounted.ends ended.1
  have deferred : desk.world.client.deferred = [] := by
    rcases draining with ⟨frames, batch, stack⟩ | ⟨_, deferred⟩
    · rw [ended.2] at stack
      cases frames <;> cases stack
    · exact deferred
  have empty (number : Nat) : desk.world.works number = 0 := by simp [Smp.World.works, deferred, ended.2]
  simp [held, accounted.sound.shut closed, tally_empty _ _ empty]

/-- If no driver is replaced and no group destroyed while an end waits, each callback is called once at most, and once
in the end. -/
theorem uploads_end_once (events : List Event) (keeps : ∀ t ∈ history codec transport config events, keepsEnds t = true)
    (callback : Nat) (passed : callback < (reached codec transport config events).passed) :
    callsOf (history codec transport config events) callback ≤ 1 ∧
      ((reached codec transport config events).Over →
        callsOf (history codec transport config events) callback = 1) := by
  have accounted := reached_accounted codec transport config events keeps
  have once := accounted.once callback
  rw [known, if_pos passed] at once
  refine ⟨by omega, fun ended => ?_⟩
  have none_ := accounted.over_ ended callback
  omega

end

def unreadable : Env := { size := fun _ => 64, read := fun _ _ _ => .error (.at .invalidArgument "source: no such file") }

def readable : Env := { size := fun _ => 64 }

def tearDown : List Event :=
  [.call .destroy readable, .proceed readable, .call (.client .destroy) readable] ++ List.replicate 12 (.proceed readable)

/-- An upload with a hash given, so that its source is first read for a chunk, and another one before its end is told. -/
def replaced : List Event :=
  [.call (.upload 0 { sha := some [1], chunkSize := 32 } false true) unreadable,
    .call (.upload 1 { chunkSize := 32 } false true) readable, .call (.client (.poll 0)) readable] ++
    List.replicate 10 (.proceed readable) ++ tearDown

theorem replaced_upload_never_ends :
    (reached documentCodec 0 {} replaced).Over ∧ 0 < (reached documentCodec 0 {} replaced).passed ∧
      callsOf (history documentCodec 0 {} replaced) 0 = 0 := by
  refine ⟨⟨?_, List.length_eq_zero_iff.mp ?_⟩, ?_, ?_⟩ <;> decide +kernel

def polledBetween : List Event :=
  [.call (.upload 0 { sha := some [1], chunkSize := 32 } false true) unreadable, .call (.client (.poll 0)) readable] ++
    List.replicate 10 (.proceed readable) ++ .call (.upload 1 { chunkSize := 32 } false true) readable :: tearDown

theorem uploads_end_once_polled : callsOf (history documentCodec 0 {} polledBetween) 0 = 1 ∧
    callsOf (history documentCodec 0 {} polledBetween) 1 = 1 := by
  have keeps : ∀ t ∈ history documentCodec 0 {} polledBetween, keepsEnds t = true := by decide +kernel
  have ended : (reached documentCodec 0 {} polledBetween).Over := by
    refine ⟨?_, List.length_eq_zero_iff.mp ?_⟩ <;> decide +kernel
  exact ⟨(uploads_end_once documentCodec 0 {} polledBetween keeps 0 (by decide +kernel)).2 ended,
    (uploads_end_once documentCodec 0 {} polledBetween keeps 1 (by decide +kernel)).2 ended⟩

end Smply.Uploads
