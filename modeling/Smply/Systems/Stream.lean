import Mathlib

namespace Systems

open List

variable {α M E S : Type}

inductive Front (α M E : Type) where
  | unfinished
  | broken (error : E)
  | message (message : M) (rest : List α)

/-- Messages laid end to end. What settles the front is never changed by later bytes. -/
structure Framing (α M E : Type) where
  front : List α → Front α M E
  front_nil : front [] = .unfinished
  shorter : ∀ {stream message rest}, front stream = .message message rest → rest.length < stream.length
  message_append : ∀ {stream message rest} (later : List α), front stream = .message message rest →
    front (stream ++ later) = .message message (rest ++ later)
  broken_append : ∀ {stream error} (later : List α), front stream = .broken error →
    front (stream ++ later) = .broken error

namespace Framing

variable (framing : Framing α M E)

/-- The messages of a stream and what follows the last of them: bytes of an unfinished one, or the error. -/
def parse (stream : List α) : List M × Except E (List α) :=
  match _found : framing.front stream with
  | .unfinished => ([], .ok stream)
  | .broken error => ([], .error error)
  | .message message rest => (message :: (parse rest).1, (parse rest).2)
termination_by stream.length
decreasing_by
  all_goals exact framing.shorter _found

theorem parse_unfinished {stream : List α} (front : framing.front stream = .unfinished) :
    framing.parse stream = ([], .ok stream) := by
  rw [parse]
  split <;> simp_all

theorem parse_broken {stream : List α} {error : E} (front : framing.front stream = .broken error) :
    framing.parse stream = ([], .error error) := by
  rw [parse]
  split <;> simp_all

theorem parse_message {stream rest : List α} {message : M} (front : framing.front stream = .message message rest) :
    framing.parse stream = (message :: (framing.parse rest).1, (framing.parse rest).2) := by
  rw [parse]
  split <;> simp_all

/-- Parsing goes on from where it stopped, unless it stopped at an error. -/
def resume (parsed : List M × Except E (List α)) (later : List α) : List M × Except E (List α) :=
  match parsed.2 with
  | .error error => (parsed.1, .error error)
  | .ok held => (parsed.1 ++ (framing.parse (held ++ later)).1, (framing.parse (held ++ later)).2)

theorem resume_cons (message : M) (parsed : List M × Except E (List α)) (later : List α) :
    framing.resume (message :: parsed.1, parsed.2) later =
      (message :: (framing.resume parsed later).1, (framing.resume parsed later).2) := by
  obtain ⟨messages, ending⟩ := parsed
  cases ending <;> rfl

theorem parse_append (stream later : List α) :
    framing.parse (stream ++ later) = framing.resume (framing.parse stream) later := by
  induction size : stream.length using Nat.strongRecOn generalizing stream with
  | ind n ih =>
    cases front : framing.front stream with
    | unfinished =>
      rw [framing.parse_unfinished front]
      simp only [resume, nil_append]
    | broken =>
      rw [framing.parse_broken front, framing.parse_broken (framing.broken_append later front)]
      rfl
    | message _ rest =>
      have short := size ▸ framing.shorter front
      rw [framing.parse_message front, framing.parse_message (framing.message_append later front),
        ih rest.length short rest rfl, resume_cons]

theorem parse_flatten (write : M → List α) (messages : List M)
    (written : ∀ message ∈ messages, ∀ rest, framing.front (write message ++ rest) = .message message rest) :
    framing.parse (messages.map write).flatten = (messages, .ok []) := by
  induction messages with
  | nil => exact framing.parse_unfinished framing.front_nil
  | cons message messages ih =>
    have first := written message mem_cons_self (messages.map write).flatten
    have others := ih fun other member => written other (mem_cons_of_mem _ member)
    rw [map_cons, flatten_cons, framing.parse_message first, others]

end Framing

structure Fed (M E S : Type) where
  messages : List M
  result : Except E Unit
  after : S

def feedAll (feed : S → List α → Fed M E S) (state : S) : List (List α) → Fed M E S
  | [] => ⟨[], .ok (), state⟩
  | piece :: pieces =>
    match (feed state piece).result with
    | .error error => ⟨(feed state piece).messages, .error error, (feed state piece).after⟩
    | .ok () =>
      let later := feedAll feed (feed state piece).after pieces
      ⟨(feed state piece).messages ++ later.messages, later.result, later.after⟩

section
variable (framing : Framing α M E) (feed : S → List α → Fed M E S) (Ready : S → Prop) (held : S → List α)

/-- A feeder gave out what the parse says and holds what the parse leaves. -/
structure Agrees (parsed : List M × Except E (List α)) (fed : Fed M E S) : Prop where
  messages : fed.messages = parsed.1
  result : fed.result = parsed.2.map fun _ => ()
  after : ∀ rest, parsed.2 = .ok rest → Ready fed.after ∧ held fed.after = rest

/-- The bytes a feeder holds between calls start an unfinished message, and a call parses them together
with its input. -/
structure Feeds : Prop where
  unfinished : ∀ state, Ready state → framing.front (held state) = .unfinished
  feeds : ∀ state input, Ready state → Agrees Ready held (framing.parse (held state ++ input)) (feed state input)

variable {framing feed Ready held}

theorem Feeds.feedAll (feeder : Feeds framing feed Ready held) (state : S) (ready : Ready state)
    (pieces : List (List α)) :
    Agrees Ready held (framing.parse (held state ++ pieces.flatten)) (feedAll feed state pieces) := by
  induction pieces generalizing state with
  | nil =>
    rw [flatten_nil, append_nil, framing.parse_unfinished (feeder.unfinished state ready)]
    refine ⟨rfl, rfl, ?_⟩
    intro rest same
    exact ⟨ready, Except.ok.inj same⟩
  | cons piece _ ih =>
    have now := feeder.feeds state piece ready
    rw [flatten_cons, ← append_assoc, framing.parse_append]
    generalize framing.parse (held state ++ piece) = parsed at now
    obtain ⟨messages, ending⟩ := parsed
    cases ending with
    | error error =>
      have failed := now.result
      simp only [Systems.feedAll, failed, Framing.resume]
      exact ⟨now.messages, rfl, fun rest same => nomatch same⟩
    | ok rest =>
      have passed : (feed state piece).result = .ok () := now.result
      obtain ⟨ready', holds⟩ := now.after rest rfl
      have later := ih (feed state piece).after ready'
      rw [holds] at later
      simp only [Systems.feedAll, passed, Framing.resume]
      exact ⟨by rw [now.messages, later.messages], later.result, later.after⟩

/-- However a stream is cut, the same messages come out and the same error ends them. -/
theorem Feeds.cut (feeder : Feeds framing feed Ready held) (state : S) (ready : Ready state)
    {pieces others : List (List α)} (same : pieces.flatten = others.flatten) :
    (Systems.feedAll feed state pieces).messages = (Systems.feedAll feed state others).messages ∧
      (Systems.feedAll feed state pieces).result = (Systems.feedAll feed state others).result := by
  have left := feeder.feedAll state ready pieces
  have right := feeder.feedAll state ready others
  rw [same] at left
  exact ⟨by rw [left.messages, right.messages], by rw [left.result, right.result]⟩

end

end Systems
