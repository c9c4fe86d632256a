import Smply.Cbor.Honest

namespace Smply.Cbor.Reader

variable {Context α : Type} (qcbor : Qcbor Context)

abbrev Child (α : Type) := Result α × Option Error

def elementChildren (visit : α → Read Context (Result α)) : Nat → α → Reader Context → List (Child α)
  | 0, _, _ => []
  | room + 1, seen, reader =>
    match qcbor.peekNext reader.context with
    | .item item =>
      let (consumed, after) := (attempt qcbor.getNextConsume).run reader
      let first := qcbor.tell reader.context
      let last := qcbor.tell after.context
      if item.value ≠ .map ∨ consumed = false ∨ first > last ∨ last > after.input.length then []
      else
        let (child, next) := (inChild qcbor first last (onSuccess (enterMap qcbor) fun _ => visit seen)).run after
        match child with
        | (.ok seen, none) => child :: elementChildren visit room seen next
        | _ => [child]
    | _ => []

def mapChildren (key : String) (maxElements : Nat) (visit : α → Read Context (Result α)) (start : α)
    (reader : Reader Context) : List (Child α) :=
  match reader.error, qcbor.enterArray key reader.context with
  | none, (.value (), context) =>
    if reader.depth ≥ reader.maxNesting ∨ key.utf8ByteSize > maxKeyLength then []
    else
      elementChildren qcbor visit maxElements start
        { reader with context := context, met := reader.met ++ [.found], depth := reader.depth + 1 }
  | _, _ => []

def uintChild (key : String) (maxEntries : Nat) (visit : α → Bytes → UInt64 → Result α) (start : α)
    (reader : Reader Context) : Option (Child α) :=
  match reader.error, findEntry qcbor key.toUTF8.toList (qcbor.rewind reader.context) with
  | none, (.range first last, _, _) =>
    if reader.depth ≥ reader.maxNesting ∨ key.utf8ByteSize > maxKeyLength ∨ first > last ∨ last > reader.input.length then
      none
    else
      some ((inChild qcbor first last
        (onSuccess (enterLabelledMap qcbor) fun _ => visitUintEntries qcbor visit maxEntries start)).run reader).1
  | _, _ => none

variable {qcbor}

/-- A child that was poisoned makes the walk fail, and poisons the parent exactly if its visitor did not fail. -/
structure Shown (child : Child α) (walked : Result α × Reader Context) : Prop where
  fails : child.2.isSome = true → walked.1.toOption = none
  poisons : child.2.isSome = true → (child.1.isOk = true ↔ walked.2.error.isSome = true)

theorem Shown.unpoisoned {child : Child α} {walked : Result α × Reader Context} (none_ : child.2 = none) :
    Shown child walked := ⟨by simp [none_], by simp [none_]⟩

theorem walkMaps_shows (visit : α → Read Context (Result α)) (room : Nat) (seen : α) (reader : Reader Context)
    (clean : reader.error = none) :
    ∀ child ∈ elementChildren qcbor visit room seen reader, Shown child ((walkMaps qcbor visit room seen).run reader) := by
  induction room generalizing seen reader with
  | zero =>
    intro child member
    rw [elementChildren] at member
    cases member
  | succ room ih =>
    intro child member
    unfold elementChildren at member
    cases peeked : qcbor.peekNext reader.context with
    | noMoreItems | error => simp [peeked] at member
    | item item =>
      cases taken : attempt qcbor.getNextConsume reader with
      | mk consumed after =>
      have kept : after.error = reader.error := by
        rw [← show (attempt qcbor.getNextConsume reader).2 = after from congrArg Prod.snd taken]
        rfl
      simp only [peeked, StateT.run, taken] at member
      split at member
      · cases member
      rename_i inside
      simp only [ne_eq, not_or, Decidable.not_not, Bool.not_eq_false] at inside
      obtain ⟨map, rfl, bounds⟩ := inside
      conv in walkMaps _ _ _ _ => unfold walkMaps
      simp only [bind, StateT.bind, StateT.run, get, getThe, MonadStateOf.get, StateT.get, pure, peeked, map, ne_eq,
        not_true_eq_false, ↓reduceIte, taken, if_neg (not_or.mpr bounds)]
      generalize visited : inChild qcbor _ _ _ after = visit at member ⊢
      obtain ⟨⟨outcome, poison⟩, next⟩ := visit
      have clean : next.error = none := by
        rw [← show _ = next from congrArg Prod.snd visited]
        exact kept.trans clean
      dsimp only at member ⊢
      cases outcome with
      | error error =>
        rw [List.mem_singleton.mp member]
        refine ⟨fun _ => rfl, fun _ => ⟨by rintro ⟨⟩, fun recorded => ?_⟩⟩
        replace recorded : next.error.isSome = true := recorded
        simp [clean] at recorded
      | ok seen =>
        cases poison with
        | some error =>
          rw [List.mem_singleton.mp member]
          exact ⟨fun _ => rfl, fun _ => ⟨fun _ => rfl, fun _ => rfl⟩⟩
        | none =>
          rcases List.mem_cons.mp member with rfl | later
          · exact .unpoisoned rfl
          · exact ih seen next clean child later

theorem forEachMapInArray_shows (key : String) (maxElements : Nat) (visit : α → Read Context (Result α))
    (start : α)
    (reader : Reader Context) : ∀ child ∈ mapChildren qcbor key maxElements visit start reader,
      Shown child ((forEachMapInArray qcbor key maxElements visit start).run reader) := by
  intro child member
  unfold mapChildren at member
  split at member
  · rename_i context unpoisoned entered
    split at member
    · cases member
    rename_i free
    rw [not_or] at free
    have shown := walkMaps_shows visit maxElements start _ (by exact unpoisoned) child member
    have walked : (forEachMapInArray qcbor key maxElements visit start).run reader =
        let walked := (walkMaps qcbor visit maxElements start).run
          { reader with context := context, met := reader.met ++ [.found], depth := reader.depth + 1 }
        (walked.1, { walked.2 with depth := walked.2.depth - 1, context := qcbor.exitArray walked.2.context }) := by
      unfold forEachMapInArray enterArray guarded
      simp only [bind, StateT.bind, StateT.run, get, getThe, MonadStateOf.get, StateT.get, pure, unpoisoned,
        if_neg free.1, if_neg free.2, call, entered]
      rfl
    rw [walked]
    exact ⟨shown.fails, shown.poisons⟩
  · cases member

theorem forEachUintInMap_shows (key : String) (maxEntries : Nat) (visit : α → Bytes → UInt64 → Result α)
    (start : α)
    (reader : Reader Context) (child : Child α) (made : uintChild qcbor key maxEntries visit start reader = some child)
    (poisoned : child.2.isSome = true) :
    ((forEachUintInMap qcbor key maxEntries visit start).run reader).2.error.isSome = true := by
  unfold uintChild at made
  split at made
  · rename_i first last met context unpoisoned found
    split at made
    · cases made
    rename_i inside
    simp only [not_or] at inside
    obtain ⟨shallow, short, bounds⟩ := inside
    unfold forEachUintInMap guarded
    simp only [bind, StateT.bind, StateT.run, get, getThe, MonadStateOf.get, StateT.get, pure, StateT.pure, unpoisoned,
      if_neg shallow, if_neg short, call, found, set, StateT.set, if_neg (not_or.mpr bounds)]
    -- The child does not depend on where the parent's cursor stands.
    generalize visited : inChild qcbor first last _ _ = ran
    have same : ran.1 = child := visited ▸ Option.some.inj made
    obtain ⟨error, is⟩ := Option.isSome_iff_exists.mp poisoned
    obtain ⟨⟨outcome, poison⟩, parent⟩ := ran
    rw [← same] at is
    dsimp only at is
    subst is
    rfl
  · cases made

/-- If a child has recorded an error, a walk of `for_each_map_in_array` fails, and the parent has recorded one exactly if
the visitor did not fail; after `for_each_uint_in_map` it always has. -/
theorem poisoned_child_shown (qcbor : Qcbor Context) (key : String) (bound : Nat) (start : α)
    (reader : Reader Context) :
    (∀ (visit : α → Read Context (Result α)), ∀ child ∈ mapChildren qcbor key bound visit start reader,
      child.2.isSome = true →
        ((forEachMapInArray qcbor key bound visit start).run reader).1.toOption = none ∧
        (child.1.isOk = true ↔ ((forEachMapInArray qcbor key bound visit start).run reader).2.error.isSome = true)) ∧
    ∀ (visit : α → Bytes → UInt64 → Result α), ∀ child ∈ uintChild qcbor key bound visit start reader,
      child.2.isSome = true → ((forEachUintInMap qcbor key bound visit start).run reader).2.error.isSome = true := by
  refine ⟨fun visit child member poisoned => ?_, fun visit child made poisoned => ?_⟩
  · have shown := forEachMapInArray_shows key bound visit start reader child member
    exact ⟨shown.fails poisoned, shown.poisons poisoned⟩
  · exact forEachUintInMap_shows key bound visit start reader child made poisoned

/-- An image state whose one slot has a text for its number. -/
def wrongTyped : Bytes :=
  0xA1 :: field "images" (0x81 :: 0xA2 :: field "slot" [0x61, 0x30] ++ field "version" [0x61, 0x31])

def parent : Reader Cursor := ((enterMap document).run (.new document wrongTyped Limits.maxCborNesting)).2

/-- A visitor that counts the slots with a number, and does not ask whether its reader could read them. -/
def countsSlots (count : Nat) : Read Cursor (Result Nat) :=
  return .ok (count + if (← uint document "slot").isSome then 1 else 0)

theorem poisoned_child_shown_counted : ∃ child ∈ mapChildren document "images" 4 countsSlots 0 parent,
    child.2.isSome = true ∧ child.1.isOk = true ∧
      ((forEachMapInArray document "images" 4 countsSlots 0).run parent).2.error.isSome = true := by
  have one : (mapChildren document "images" 4 countsSlots 0 parent).length = 1 := by decide +kernel
  obtain ⟨child, is⟩ := List.length_eq_one_iff.mp one
  have member : child ∈ mapChildren document "images" 4 countsSlots 0 parent := by simp [is]
  have poisoned : ∀ child ∈ mapChildren document "images" 4 countsSlots 0 parent, child.2.isSome = true := by
    decide +kernel
  have counted : ∀ child ∈ mapChildren document "images" 4 countsSlots 0 parent, child.1.isOk = true := by
    decide +kernel
  have shown := ((poisoned_child_shown document "images" 4 0 parent).1 countsSlots child member (poisoned child member)).2
  exact ⟨child, member, poisoned child member, counted child member, shown.mp (counted child member)⟩

/-- The visitor of the image state's slots passes the failure of its reader on, and the parent records nothing. -/
theorem failed_child_unrecorded :
    let visit (slots : List ImageSlot) := onSuccess (decodeSlot document) fun slot => return .ok (slots ++ [slot])
    ((mapChildren document "images" 4 visit [] parent).any (·.2.isSome)) = true ∧
      ((forEachMapInArray document "images" 4 visit []).run parent).2.error = none := by
  decide +kernel

end Smply.Cbor.Reader
