import Smply.Cbor.Codec
import Smply.Host.Paced

namespace Smply.Host

open Systems
open Dfu (isTerminal)
open Smp (SmpClientConfig)
open Cbor (documentCodec field)

/-- `start()` finds nothing left; a call that hands in an event finds the machine waiting for it, and none on its way.
-/
def timely (host : Host) : Event → Bool
  | .call (.start ..) _ => host.updater.running || (host.untouched && !host.clearing)
  | .call .confirm _ => host.updater.state != .awaitingConfirmation || host.count approving == 0
  | .call .resumeAfterReconnect _ => host.updater.state != .awaitingReconnect || host.count reconnecting == 0
  | .call (.reconnectFailed _) _ =>
    !host.updater.running || (host.updater.state == .awaitingReconnect && host.count reconnecting == 0)
  | _ => true

section
variable {codec : Codec} {before after : Host} {event : Event} {output : Output}

theorem Beat.tells_outcome {listener update : Nat} {result : Result Dfu.UpdateReport}
    (beat : Beat before event output after) (emitted : output = .emitted listener update (.finished result)) :
    result = before.updater.outcome := by
  cases beat with
  | steady _ _ _ _ _ remarks =>
    have short := (remarks listener update _ emitted).2.1
    cases short
  | turned _ _ _ _ _ tells =>
    obtain ⟨_, _, said⟩ := (tells.heard listener update _ emitted).2
    cases said
  | finished _ _ _ _ _ tells =>
    rw [tells] at emitted
    split at emitted
    · cases emitted
    · cases emitted
      rfl
  | cleared _ _ _ quiet =>
    rw [quiet] at emitted
    cases emitted
  | started _ _ _ _ _ _ accepted =>
    rw [accepted] at emitted
    cases emitted

theorem Tuned.outcome (tuned : before.Tuned) {error : Error} (ended : before.updater.outcome = .error error) :
    error.Plain := by
  unfold FirmwareUpdater.outcome at ended
  dsimp only at ended
  split at ended
  · cases ended
  cases ended
  cases stands : before.updater.machine with
  | none => nofun
  | some machine =>
    show (machine.report.cause.getD _).Plain
    cases cause : machine.report.cause with
    | none => nofun
    | some error => exact (tuned machine stands).1 error cause

theorem Prompt.undropped (prompt : before.Prompt) (free : before.free = true) : before.count dropping = 0 := by
  rw [count_stack before (fun _ => rfl) (fun _ => rfl), List.countP_eq_zero]
  intro task member dropped
  have calm := (prompt.free free).2 task member
  have drops := (Bool.and_eq_true _ _ ▸ dropped).2
  cases task with
  | dispatch => cases calm
  | _ => cases drops

theorem timely_of (row : Row codec before event output after) (prompt : before.Prompt)
    (free : ∀ call env, event = .call call env → before.free = true) (timely : before.timely event = true) :
    Timely before event output := by
  constructor
  · rintro ⟨targets, plan, onEvent, env, rfl⟩ rfl
    have idle : before.updater.running = false := by
      cases row with
      | idle _ _ _ inert => cases inert
      | posted posts => cases posts
      | started idle => exact idle
    rw [Host.timely, idle, Bool.false_or, Bool.and_eq_true] at timely
    exact timely.1
  · rintro ⟨env, rfl⟩ state
    simpa [Host.timely, state] using timely
  · rintro ⟨env, rfl⟩ state
    simpa [Host.timely, state] using timely
  · rintro ⟨error, env, rfl⟩ running
    simpa [Host.timely, running] using timely
  · rintro ⟨now, env, rfl⟩
    exact prompt.undropped (free _ _ rfl)

theorem Tuned.step (tuned : before.Tuned) (grounded : before.Grounded) (plain : before.Plain) (prompt : before.Prompt)
    (timely : before.free = true → before.timely event = true) : (before.step codec event).2.Tuned := by
  by_cases heeded : ∀ call env, event = .call call env → before.free = true
  · have now : before.timely event = true := by
      cases event with
      | proceed => rfl
      | call made env => exact timely (heeded made env rfl)
    exact (@Grounded.trade codec _ grounded event).tuned grounded.books grounded.updating tuned plain prompt
      (timely_of (grounded.row event) prompt heeded now)
  · push Not at heeded
    obtain ⟨made, env, rfl, busy⟩ := heeded
    simp only [Host.step, if_neg busy]
    exact tuned

end

section
variable {Context : Type} (qcbor : Cbor.Qcbor Context)
  (chunk : Upload.UploadConfig Bytes → Upload.UploadRequest → Bytes → Bytes) (query : Query → Bytes) (transport : Nat)
  (config : SmpClientConfig) (events : List Event)

/-- In a run in which every call finds what it waits for, no update ends with an internal error. -/
theorem no_update_ends_internal (plain : ∀ event ∈ events, event.Plain)
    (timely : ∀ t ∈ history (Cbor.codec qcbor chunk query) transport config events,
      t.before.free = true → t.before.timely t.event = true) :
    ∀ t ∈ history (Cbor.codec qcbor chunk query) transport config events,
      (∀ machine, t.after.updater.machine = some machine → ∀ error, machine.report.cause = some error →
        error.code ≠ .internal) ∧
      ∀ listener update error, t.output = .emitted listener update (.finished (.error error)) →
        error.code ≠ .internal := by
  have coded := @Cbor.codec_plain _ qcbor chunk query
  refine guarded_transitions (step (Cbor.codec qcbor chunk query)) (new transport config)
    (fun host => host.Grounded ∧ host.Tuned ∧ host.Plain ∧ host.Prompt)
    (fun t => t.event.Plain ∧ (t.before.free = true → t.before.timely t.event = true)) _ ?_ ?_ ?_ events
    fun t member => ⟨plain _ (log_event _ _ member), timely t member⟩
  · refine ⟨reached_grounded (Cbor.codec qcbor chunk query) transport config [], ?_, new_plain transport config⟩
    have none_ : (new transport config).updater.machine = none := rfl
    simp [Tuned, none_]
  · rintro host event ⟨fair, timely⟩ ⟨grounded, tuned, plain, prompt⟩
    exact ⟨grounded.step event, tuned.step grounded plain prompt timely, step_plain coded fair plain prompt⟩
  · rintro host event ⟨fair, timely⟩ ⟨grounded, tuned, plain, prompt⟩
    refine ⟨fun machine stands => (tuned.step grounded plain prompt timely machine stands).1, ?_⟩
    intro listener update error emitted
    have beat := (@Grounded.row (Cbor.codec qcbor chunk query) _ grounded event).beat grounded.books grounded.driven
    exact tuned.outcome (beat.tells_outcome emitted).symm

end

/-- The update's image runs on trial. -/
def asksToConfirm : List Event :=
  askingOne ++ answersOne [field "slot" [0], field "version" [0x61, 0x31], field "hash" [0x41, 1],
    field "bootable" [0xF5], field "active" [0xF5]] ++ goesOn 10

def confirmedTwice : List Event :=
  asksToConfirm ++ .call .confirm oneFile :: .call .confirm oneFile :: pollClient :: goesOn 18

def confirmedOnce : List Event := asksToConfirm ++ .call .confirm oneFile :: pollClient :: goesOn 18

theorem plain_env {env : Env} (digest : ∀ source error, env.digest source ≠ .error error)
    (read : ∀ source off length error, env.read source off length ≠ .error error)
    (chunk : ∀ size error, env.chunk size ≠ .error error) (sent : ∀ error, env.sent ≠ .error error) : env.Plain where
  digest source error failed := absurd failed (digest source error)
  read source off length error failed := absurd failed (read source off length error)
  chunk size error failed := absurd failed (chunk size error)
  sent error failed := absurd failed (sent error)

theorem oneFile_plain : oneFile.Plain :=
  plain_env (fun _ _ => nofun) (fun _ _ _ _ => nofun) (fun _ _ => nofun) fun _ => nofun

theorem goesOn_fair (steps : Nat) : ∀ event ∈ goesOn steps, event.Plain := by
  intro event member
  rw [List.eq_of_mem_replicate member]
  exact oneFile_plain

theorem arrives_fair (op : Smp.Operation) (group : Group) (command seq : UInt8) (payload : Bytes) :
    (arrives op group command seq payload).Plain :=
  ⟨trivial, plain_env (fun _ _ => nofun) (fun _ _ _ _ => nofun) (fun _ _ => nofun) fun _ => nofun⟩

theorem asksToConfirm_fair : ∀ event ∈ asksToConfirm, event.Plain := by
  have called (made : Call) (fair : made.Plain) : (Event.call made oneFile).Plain := ⟨fair, oneFile_plain⟩
  have none_ : ∀ event ∈ ([] : List Event), event.Plain := by simp
  simp only [asksToConfirm, askingOne, answersOne, parametersReply, List.forall_mem_append, List.forall_mem_cons]
  exact ⟨⟨⟨⟨called _ trivial, called _ trivial, none_⟩, goesOn_fair _⟩, ⟨⟨arrives_fair .., goesOn_fair _⟩,
    arrives_fair .., goesOn_fair _⟩, arrives_fair .., none_⟩, goesOn_fair _⟩

theorem confirmed_fair {events : List Event} (fair : ∀ event ∈ events, event.Plain) :
    ∀ event ∈ .call .confirm oneFile :: events, event.Plain :=
  List.forall_mem_cons.mpr ⟨⟨trivial, oneFile_plain⟩, fair⟩

theorem polled_fair (steps : Nat) : ∀ event ∈ pollClient :: goesOn steps, event.Plain :=
  List.forall_mem_cons.mpr ⟨⟨trivial, oneFile_plain⟩, goesOn_fair steps⟩

theorem confirm_accepted {codec : Codec} {host : Host} {env : Env} (free : host.free = true)
    (state : host.updater.state = .awaitingConfirmation) :
    (transition (step codec) host (.call .confirm env)).output = .accepted := by
  simp [transition, step, free, enter, confirm, state]

/-- Both calls of `confirm()` are accepted, and the second one is held against the update later. -/
theorem confirm_twice_ends_internal : (∀ event ∈ confirmedTwice, event.Plain) ∧ ∃ past later t u,
    history documentCodec 0 {} confirmedTwice = past ++ t :: u :: later ∧
      t.event = .call .confirm oneFile ∧ t.output = .accepted ∧ u.event = .call .confirm oneFile ∧ u.output = .accepted ∧
      u.before.updater.state = .awaitingConfirmation ∧
      ((reached documentCodec 0 {} confirmedTwice).updater.machine.map fun machine =>
        (machine.report.finalState, machine.report.cause)) =
          some (.failed, some (.at .internal "dfu: event not legal in this state")) := by
  refine ⟨?_, _, _, _, _, log_append .., rfl, ?_, rfl, ?_, ?_, ?_⟩
  · exact List.forall_mem_append.mpr ⟨asksToConfirm_fair, confirmed_fair (confirmed_fair (polled_fair _))⟩
  · exact confirm_accepted (by decide +kernel) (by decide +kernel)
  · exact confirm_accepted (by decide +kernel) (by decide +kernel)
  · decide +kernel
  · decide +kernel

theorem no_update_ends_internal_confirmed_once : (reached documentCodec 0 {} confirmedOnce).updater.state = .confirming ∧
      ∀ t ∈ history documentCodec 0 {} confirmedOnce,
        (∀ machine, t.after.updater.machine = some machine → ∀ error, machine.report.cause = some error →
          error.code ≠ .internal) ∧
        ∀ listener update error, t.output = .emitted listener update (.finished (.error error)) →
          error.code ≠ .internal := by
  refine ⟨by decide +kernel, no_update_ends_internal Cbor.document _ _ 0 {} confirmedOnce ?_ ?_⟩
  · exact List.forall_mem_append.mpr ⟨asksToConfirm_fair, confirmed_fair (polled_fair _)⟩
  · decide +kernel

end Smply.Host
