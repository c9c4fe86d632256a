import Smply.Host.Drivers

namespace Smply.Host

open Systems
open Smp (World SmpClientConfig)

/-- The calls the client returns from at once. -/
def immediate : Smp.Call → Bool
  | .request .. | .cancel _ | .defer _ => true
  | _ => false

/-- The first world comes from the second by calls of the layers above. -/
inductive Calls : World → World → Prop
  | none {world : World} : Calls world world
  | more {before after : World} (calls : Calls after before) (call : Smp.Call) (kept : immediate call = true) :
    Calls (after.enter call).2 before

section
variable (codec : Codec) (env : Env) (host : Host) (driver : UploadDriver) (origin : Option Origin)

theorem finishUpload_calls (outcome : Result UploadResult) :
    Calls (host.finishUpload driver origin outcome).2.world host.world := by
  unfold finishUpload tell
  dsimp only
  repeat' split
  all_goals first | exact .none | exact .more .none _ rfl

theorem advance_calls (step : Upload.Step) : Calls (host.advance codec env driver origin step).2.world host.world := by
  unfold advance send progress emit
  dsimp only
  repeat' split
  all_goals first | exact .none | exact .more .none _ rfl | exact finishUpload_calls ..

theorem upload_calls (source : Source) (options : UploadOptions) (onProgress onDone : Option Owner) :
    Calls (host.upload codec env source options onProgress onDone).2.world host.world := by
  unfold upload reject
  dsimp only
  repeat' split
  all_goals first | exact .none | exact .more .none _ rfl | exact advance_calls ..

theorem resume_calls (handle : UploadHandle) (onDone : Option Owner) :
    Calls (host.resume codec env handle onDone).2.world host.world := by
  unfold resume reject
  dsimp only
  repeat' split
  all_goals first | exact .none | exact .more .none _ rfl | exact advance_calls ..

theorem execute_calls (task : Task) (other : task ≠ .returning) :
    Calls (host.execute codec env task).2.world host.world := by
  cases task
  all_goals dsimp only [execute, answer, work, handle, progress, tell, dispatch, carry, turn, apply, query, startUpload,
    finish, emit]
  all_goals repeat' split
  all_goals first
    | exact .none
    | exact .more .none _ rfl
    | exact finishUpload_calls ..
    | exact advance_calls ..
    | exact upload_calls ..
    | exact resume_calls ..
    | exact absurd rfl other

theorem enter_calls (call : Call) (above : ∀ inner, call ≠ .client inner) :
    Calls (host.enter codec env call).2.world host.world := by
  cases call
  all_goals dsimp only [enter, start, confirm, resumeAfterReconnect, reconnectFailed, cancel, poll, cancelUpload]
  all_goals repeat' split
  all_goals first
    | exact .none
    | exact .more .none _ rfl
    | exact .more (.more .none _ rfl) _ rfl
    | exact upload_calls ..
    | exact resume_calls ..
    | exact absurd rfl (above _)

end

/-- A client that has not been destroyed, in a state its own calls and steps lead to. -/
def Follows (codec : Codec) (after before : World) : Prop :=
  after.gone = false ∧ ∃ events, after = run (World.step codec.extractMgmtError) before events

section
variable {codec : Codec} {before after : World}

theorem Follows.trans {later : World} (two : Follows codec later after) (one : Follows codec after before) :
    Follows codec later before := by
  obtain ⟨alive, second, reached⟩ := two
  obtain ⟨_, first, same⟩ := one
  exact ⟨alive, first ++ second, by rw [reached, same, run_append]⟩

theorem Follows.enter (alive : before.gone = false) (free : before.callable (.cancel {}) = true) {call : Smp.Call}
    (other : call ≠ .destroy) : Follows codec (before.enter call).2 before := by
  have callable : before.callable call = true := by
    cases call <;> first | exact free | exact absurd rfl other
  refine ⟨(World.enter_gone other).trans alive, [.call call], ?_⟩
  exact congrArg Prod.snd (if_pos callable).symm

theorem Calls.follows (calls : Calls after before) (alive : before.gone = false)
    (free : before.callable (.cancel {}) = true) :
    Follows codec after before ∧ after.callable (.cancel {}) = true := by
  induction calls with
  | none => exact ⟨⟨alive, [], rfl⟩, free⟩
  | more _ call kept ih =>
    obtain ⟨follows, free⟩ := ih alive free
    refine ⟨(Follows.enter follows.1 free (by rintro rfl; cases kept)).trans follows, ?_⟩
    cases call with
    | request | cancel => exact free
    | defer work => cases work <;> exact free
    | _ => cases kept

theorem step_follows {host : Host} (alive : host.world.gone = false) (event : Event) :
    Follows codec (host.step codec event).2.world host.world := by
  have still : Follows codec host.world host.world := ⟨alive, [], rfl⟩
  have moves : Follows codec (host.world.proceed codec.extractMgmtError).2 host.world :=
    ⟨(World.proceed_gone host.world).trans alive, [.proceed], rfl⟩
  have free (controlled : host.controlled = true) : host.world.callable (.cancel {}) = true := by
    unfold Host.controlled at controlled
    unfold World.callable
    split at controlled <;> simp_all
  cases event with
  | call made env =>
    unfold step
    dsimp only
    split
    · rename_i open_
      have free := free (Bool.and_eq_true_iff.mp open_).1
      cases made with
      | client inner =>
        cases inner with
        | destroy => exact still
        | defer work =>
          cases work with
          | none => exact still
          | some => exact .enter alive free (by simp)
        | _ => exact .enter alive free (by simp)
      | _ => exact ((enter_calls _ _ _ _ (by simp)).follows alive free).1
    · exact still
  | proceed env =>
    unfold step proceed
    dsimp only
    split
    · exact moves
    · rename_i waits
      split
      · exact still
      · rename_i task tasks _
        by_cases returns : task = .returning
        · rw [returns]
          exact moves
        · have calls := execute_calls codec env { host with tasks := tasks } task returns
          exact (calls.follows alive (free (by simpa using waits))).1

end

/-- Whatever the layers above the client do, it is in a state it reaches on its own: what holds of every run of the
client holds of it here. -/
theorem host_runs_client (codec : Codec) (transport : Nat) (config : SmpClientConfig) (events : List Event) :
    ∃ calls, (reached codec transport config events).world =
      World.reached codec.extractMgmtError transport config calls :=
  (state_invariant (Host.step codec) (new transport config)
    (fun host => Follows codec host.world (.start transport config)) ⟨rfl, [], rfl⟩
    (fun _ event follows => (step_follows follows.1 event).trans follows) events).2

end Smply.Host
