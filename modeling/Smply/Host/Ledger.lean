import Smply.Systems.Tally
import Smply.Smp.Sweep
import Smply.Host.Step

namespace Smply.Host

open Systems List
open Smp (World RequestSpec RequestHandle)

/-- Something that waits to be run: a callback the client holds, deferred work, or a function on the stack. -/
inductive Code where
  | reply (reply : Reply)
  | job (job : Job)
  | task (task : Task)

def Code.neutral : Code → Bool
  | .reply .application => true
  | .job .application => true
  | .task .application => true
  | .task .returning => true
  | .task (.answer _ .application _) => true
  | .task (.work _ .application) => true
  | _ => false

def Code.onStack : Code → Option Task
  | .task running => some running
  | _ => none

def weigh (p : Code → Bool) (code : Code) : Bool := !code.neutral && p code

/-- What the client holds, with one function object for each request and each piece of work. -/
structure Books (world : World) (replies : List Reply) (jobs : List Job) : Prop where
  sound : world.Sound
  numbered : replies.length = world.requests.length
  held : ∀ callback, world.entries callback + world.items callback ≤ world.passed callback
  works : ∀ work, jobs.length ≤ work → world.works work = 0

def waiting (p : Code → Bool) (world : World) (replies : List Reply) (jobs : List Job) : Nat :=
  tally (fun reply => weigh p (.reply reply)) replies (fun callback => world.entries callback + world.items callback) +
    tally (fun job => weigh p (.job job)) jobs world.works

def count (host : Host) (p : Code → Bool) : Nat :=
  waiting p host.world host.replies host.jobs + host.tasks.countP fun task => weigh p (.task task)

def booked (host : Host) : Prop := Books host.world host.replies host.jobs

theorem passed_beyond {world : World} {callback : Nat} (beyond : world.requests.length ≤ callback) :
    world.passed callback = 0 := by
  rw [World.passed, getElem?_eq_none beyond]
  rfl

def plain : Smp.Call → Bool
  | .request .. => false
  | .defer (some _) => false
  | _ => true

theorem enter_requests (world : World) {call : Smp.Call} (other : ∀ spec given sent now,
    call ≠ .request spec given sent now) : (world.enter call).2.requests = world.requests := by
  cases call with
  | request spec given sent now => exact absurd rfl (other spec given sent now)
  | defer work => cases work <;> rfl
  | onBytes =>
    simp only [World.enter]
    split <;> rfl
  | _ => rfl

theorem enter_held (world : World) {call : Smp.Call} (sound : world.Sound)
    (other : ∀ spec given sent now, call ≠ .request spec given sent now) (callback : Nat) :
    (world.enter call).2.entries callback + (world.enter call).2.items callback =
      world.entries callback + world.items callback := by
  have balance := (world.enter_row call).balance sound callback
  have silent : (world.enter call).1.completes callback = false := by
    cases call with
    | defer work => cases work <;> rfl
    | onBytes =>
      simp only [World.enter]
      split <;> rfl
    | _ => rfl
  rw [World.passed, World.passed, enter_requests world other, silent] at balance
  simp only [Bool.false_eq_true, ↓reduceIte] at balance
  omega

section
variable {world : World} {replies : List Reply} {jobs : List Job} (books : Books world replies jobs)
include books

theorem Books.entered {call : Smp.Call} (handsNothing : plain call = true) : Books (world.enter call).2 replies jobs ∧
      ∀ p, waiting p (world.enter call).2 replies jobs = waiting p world replies jobs := by
  have other : ∀ spec given sent now, call ≠ .request spec given sent now := by
    rintro spec given sent now rfl
    cases handsNothing
  have requests := enter_requests world other
  have held := enter_held world books.sound other
  have works (work : Nat) : (world.enter call).2.works work = world.works work := by
    have queued := world.enter_works call work
    have none : call.queues work = false := by
      cases call with
      | defer given =>
        cases given with
        | none => rfl
        | some => cases handsNothing
      | _ => rfl
    rwa [none, if_neg (by simp), Nat.add_zero] at queued
  refine ⟨⟨(world.enter_row call).sound books.sound, by rw [requests]; exact books.numbered, ?_, ?_⟩, ?_⟩
  · intro callback
    rw [held, World.passed, requests]
    exact books.held callback
  · intro work beyond
    rw [works]
    exact books.works work beyond
  · intro p
    rw [waiting, waiting, tally_congr _ fun callback _ => held callback, tally_congr _ fun work _ => works work]

theorem Books.deferred (job : Job) :
    Books (world.enter (.defer (some jobs.length))).2 replies (jobs ++ [job]) ∧
      ∀ p, waiting p (world.enter (.defer (some jobs.length))).2 replies (jobs ++ [job]) =
        waiting p world replies jobs + if weigh p (.job job) then 1 else 0 := by
  have held := @enter_held world (.defer (some jobs.length)) books.sound (fun _ _ _ _ => nofun)
  have works (work : Nat) : (world.enter (.defer (some jobs.length))).2.works work =
      world.works work + if jobs.length = work then 1 else 0 := by
    have queued := world.enter_works (.defer (some jobs.length)) work
    simpa only [Smp.Call.queues, decide_eq_true_eq] using queued
  refine ⟨⟨(world.enter_row _).sound books.sound, books.numbered, ?_, ?_⟩, ?_⟩
  · intro callback
    rw [held]
    exact books.held callback
  · intro work beyond
    rw [length_append, length_singleton] at beyond
    have empty := books.works work (by omega)
    rw [works, empty, if_neg (by omega)]
  · intro p
    have fresh := works jobs.length
    rw [books.works jobs.length (Nat.le_refl _), if_pos rfl, Nat.zero_add] at fresh
    have earlier : tally (fun job => weigh p (.job job)) jobs (world.enter (.defer (some jobs.length))).2.works =
        tally (fun job => weigh p (.job job)) jobs world.works := by
      apply tally_congr
      intro work bound
      rw [works, if_neg (by omega), Nat.add_zero]
    rw [waiting, waiting, tally_concat, earlier, fresh, tally_congr _ fun callback _ => held callback]
    omega

theorem Books.asked (reply : Reply) (spec : RequestSpec) (given : Bool) (sent : Result Unit) (now : TimePoint) :
    Books (world.enter (.request spec given sent now)).2 (replies ++ [reply]) jobs ∧
      ∀ p, waiting p (world.enter (.request spec given sent now)).2 (replies ++ [reply]) jobs =
        waiting p world replies jobs + if given && weigh p (.reply reply) then 1 else 0 := by
  have row := world.enter_row (.request spec given sent now)
  obtain ⟨header, requests⟩ : ∃ header, (world.enter (.request spec given sent now)).2.requests =
      world.requests ++ [⟨spec, given, header⟩] := ⟨_, rfl⟩
  have held (callback : Nat) : (world.enter (.request spec given sent now)).2.entries callback +
      (world.enter (.request spec given sent now)).2.items callback =
        world.entries callback + world.items callback +
          if given ∧ callback = world.requests.length then 1 else 0 := by
    have balance := row.balance books.sound callback
    have took := World.passed_append requests callback
    have silent : (world.enter (.request spec given sent now)).1.completes callback = false := rfl
    rw [silent, took] at balance
    simp only [Bool.false_eq_true, ↓reduceIte] at balance
    omega
  have works (work : Nat) := World.request_works world spec given sent now work
  refine ⟨⟨row.sound books.sound, ?_, ?_, ?_⟩, ?_⟩
  · rw [requests, length_append, length_append, books.numbered]
    rfl
  · intro callback
    have before := books.held callback
    rw [held, World.passed_append requests]
    exact Nat.add_le_add_right before _
  · intro work beyond
    rw [works]
    exact books.works work beyond
  · intro p
    have fresh := held world.requests.length
    have none := books.held world.requests.length
    rw [passed_beyond (Nat.le_refl _)] at none
    have earlier : tally (fun reply => weigh p (.reply reply)) replies
        (fun callback => (world.enter (.request spec given sent now)).2.entries callback +
          (world.enter (.request spec given sent now)).2.items callback) =
        tally (fun reply => weigh p (.reply reply)) replies
          (fun callback => world.entries callback + world.items callback) := by
      apply tally_congr
      intro callback bound
      have other : ¬ (given = true ∧ callback = world.requests.length) := by
        rw [books.numbered] at bound
        omega
      rw [held, if_neg other, Nat.add_zero]
    rw [waiting, waiting, tally_concat, earlier, tally_congr _ fun work _ => works work, books.numbered, fresh]
    simp only [and_true, Bool.and_eq_true] at fresh ⊢
    by_cases hands : given = true <;> by_cases meets : weigh p (.reply reply) = true <;>
      simp only [hands, meets, and_true, and_false, ↓reduceIte, Bool.false_eq_true] <;> omega

end

variable {extractMgmtError : Bytes → Result Smp.MgmtOutcome}

theorem proceed_requests (world : World) : (world.proceed extractMgmtError).2.requests = world.requests := by
  have row := @World.proceed_row extractMgmtError world
  generalize world.proceed extractMgmtError = result at row
  obtain ⟨output, after⟩ := result
  cases row <;> assumption

theorem proceed_held (world : World) (sound : world.Sound) (callback : Nat) :
    world.entries callback + world.items callback =
      (world.proceed extractMgmtError).2.entries callback + (world.proceed extractMgmtError).2.items callback +
        if (world.proceed extractMgmtError).1.completes callback then 1 else 0 := by
  have balance := (@World.proceed_row extractMgmtError world).balance sound callback
  rw [World.passed, World.passed, proceed_requests] at balance
  omega

section
variable {world : World} {replies : List Reply} {jobs : List Job} (books : Books world replies jobs)
include books

theorem Books.completed_inside {callback : Nat} {result : Result Smp.RawResponse}
    (ran : (world.proceed extractMgmtError).1 = .completed callback result) : callback < replies.length := by
  by_contra beyond
  have before := books.held callback
  rw [passed_beyond (books.numbered ▸ Nat.not_lt.mp beyond)] at before
  have now := @proceed_held extractMgmtError world books.sound callback
  rw [ran] at now
  simp only [Smp.Output.completes, decide_true, ↓reduceIte] at now
  omega

theorem Books.worked_inside {work : Nat} (ran : (world.proceed extractMgmtError).1 = .worked work) :
    work < jobs.length := by
  by_contra beyond
  have before := books.works work (by omega)
  have now := @World.proceed_works extractMgmtError world work
  rw [ran] at now
  simp only [Smp.Output.works, decide_true, ↓reduceIte] at now
  omega

end

def called (replies : List Reply) (jobs : List Job) : Smp.Output → Option Code
  | .completed callback _ => replies[callback]?.map .reply
  | .worked work => jobs[work]?.map .job
  | _ => none

theorem called_onStack (replies : List Reply) (jobs : List Job) (output : Smp.Output) :
    (called replies jobs output).toList.filterMap Code.onStack = [] := by
  unfold called
  split
  · rename_i callback _
    cases replies[callback]? <;> rfl
  · rename_i work
    cases jobs[work]? <;> rfl
  · rfl

theorem Books.proceeded {world : World} {replies : List Reply} {jobs : List Job} (books : Books world replies jobs) :
    Books (world.proceed extractMgmtError).2 replies jobs ∧
      ∀ p, waiting p world replies jobs = waiting p (world.proceed extractMgmtError).2 replies jobs +
        if (called replies jobs (world.proceed extractMgmtError).1).any (weigh p) then 1 else 0 := by
  have row := @World.proceed_row extractMgmtError world
  have requests := @proceed_requests extractMgmtError world
  have held := @proceed_held extractMgmtError world books.sound
  have works (work : Nat) := @World.proceed_works extractMgmtError world work
  refine ⟨⟨row.sound books.sound, by rw [requests]; exact books.numbered, ?_, ?_⟩, ?_⟩
  · intro callback
    have before := books.held callback
    have now := held callback
    rw [World.passed, requests]
    exact Nat.le_trans (by omega) before
  · intro work beyond
    have before := books.works work beyond
    have now := works work
    omega
  · intro p
    have completed {callback : Nat} {result : Result Smp.RawResponse} :=
      @Books.completed_inside extractMgmtError _ _ _ books callback result
    have worked {work : Nat} := @Books.worked_inside extractMgmtError _ _ _ books work
    generalize world.proceed extractMgmtError = result at held works completed worked
    obtain ⟨output, after⟩ := result
    cases output with
    | completed callback =>
      have inside := completed rfl
      have took := tally_take (fun reply => weigh p (.reply reply)) (getElem?_eq_getElem inside)
        (fun number _ => by simpa only [Smp.Output.completes, decide_eq_true_eq, @eq_comm _ callback] using held number)
      have same : tally (fun job => weigh p (.job job)) jobs world.works =
          tally (fun job => weigh p (.job job)) jobs after.works := tally_congr _ fun work _ => works work
      rw [waiting, waiting, took, same, called, getElem?_eq_getElem inside]
      simp only [Option.map_some, Option.any_some]
      omega
    | worked work =>
      have inside := worked rfl
      have took := tally_take (fun job => weigh p (.job job)) (getElem?_eq_getElem inside)
        (fun number _ => by simpa only [Smp.Output.works, decide_eq_true_eq, @eq_comm _ work] using works number)
      have same : tally (fun reply => weigh p (.reply reply)) replies
          (fun callback => world.entries callback + world.items callback) =
          tally (fun reply => weigh p (.reply reply)) replies
            (fun callback => after.entries callback + after.items callback) :=
        tally_congr _ fun callback _ => held callback
      rw [waiting, waiting, took, same, called, getElem?_eq_getElem inside]
      simp only [Option.map_some, Option.any_some]
      omega
    | quiet | requested handle =>
      have first : tally (fun reply => weigh p (.reply reply)) replies
          (fun callback => world.entries callback + world.items callback) =
          tally (fun reply => weigh p (.reply reply)) replies
            (fun callback => after.entries callback + after.items callback) :=
        tally_congr _ fun callback _ => held callback
      have second : tally (fun job => weigh p (.job job)) jobs world.works =
          tally (fun job => weigh p (.job job)) jobs after.works := tally_congr _ fun work _ => works work
      rw [waiting, waiting, first, second]
      rfl

theorem weigh_and (p q : Code → Bool) (code : Code) :
    weigh (fun code => p code && q code) code = (weigh p code && q code) := by
  simp only [weigh, Bool.and_assoc]

theorem count_split (host : Host) (p q : Code → Bool) :
    host.count p = host.count (fun code => p code && q code) + host.count (fun code => p code && !q code) := by
  have replies := tally_split (fun reply => weigh p (.reply reply)) (fun reply => q (.reply reply)) host.replies
    (fun callback => host.world.entries callback + host.world.items callback)
  have jobs := tally_split (fun job => weigh p (.job job)) (fun job => q (.job job)) host.jobs host.world.works
  have tasks : host.tasks.countP (fun task => weigh p (.task task)) =
      host.tasks.countP (fun task => weigh p (.task task) && q (.task task)) +
        host.tasks.countP (fun task => weigh p (.task task) && !q (.task task)) := by
    induction host.tasks with
    | nil => rfl
    | cons task _ ih =>
      simp only [countP_cons, ih]
      cases weigh p (.task task) <;> cases q (.task task) <;> simp <;> omega
  simp only [count, waiting, weigh_and]
  omega

theorem count_waits {host : Host} {p : Code → Bool} {callback : Nat} {error : Error} {reply : Reply}
    (found : host.replies[callback]? = some reply) (meets : weigh p (.reply reply) = true)
    (waits : Smp.Deferred.fail callback error ∈ host.world.waiting) : 1 ≤ host.count p := by
  have holds : 1 ≤ host.world.items callback := by
    rw [World.items, ← countP_append]
    exact List.countP_pos_iff.mpr ⟨_, waits, by simp [Smp.Deferred.holds]⟩
  have held := @held_le_tally _ (fun reply => weigh p (.reply reply)) _ _ _
    (fun callback => host.world.entries callback + host.world.items callback) found meets
  simp only [count, waiting]
  omega

theorem count_task {host : Host} {p : Code → Bool} {task : Task} (member : task ∈ host.tasks)
    (meets : weigh p (.task task) = true) : 1 ≤ host.count p := by
  have some_ : 1 ≤ host.tasks.countP fun task => weigh p (.task task) := List.countP_pos_iff.mpr ⟨task, member, meets⟩
  rw [count]
  omega

theorem count_stack (host : Host) {p : Code → Bool} (reply : ∀ reply, p (.reply reply) = false)
    (job : ∀ job, p (.job job) = false) : host.count p = host.tasks.countP fun task => weigh p (.task task) := by
  rw [count, waiting, tally_none _ _ _ (by simp [weigh, reply]), tally_none _ _ _ (by simp [weigh, job]), Nat.zero_add]

end Smply.Host
