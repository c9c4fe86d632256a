import Smply.Core.Error

namespace Smply

namespace Limits

def maxImageHashLength : Nat := 64
def maxVersionStringLength : Nat := 32

end Limits

/-- MCUboot's image-hash TLV, over header and body. -/
structure ImageHash where
  bytes : Bytes
  bound : bytes.length ≤ Limits.maxImageHashLength
  deriving DecidableEq, Repr

def ImageHash.empty (hash : ImageHash) : Bool := hash.bytes.isEmpty

def ImageHash.blank : ImageHash := ⟨[], by decide⟩

structure ImageVersion where
  major : UInt8 := 0
  minor : UInt8 := 0
  revision : UInt16 := 0
  build : UInt32 := 0
  deriving DecidableEq, Repr

namespace ImageVersion

def isDigit (byte : UInt8) : Bool := 48 ≤ byte && byte ≤ 57

/-- The digits of one component, checked at every digit: the 64-bit accumulator cannot wrap. -/
def digits (limit : Nat) (value : Nat) : Bytes → Result (Nat × Bytes)
  | [] => .ok (value, [])
  | byte :: rest =>
    if isDigit byte then
      let value := value * 10 + (byte.toNat - 48)
      if limit < value then .error (Error.at .invalidArgument "image: version component too large")
      else digits limit value rest
    else .ok (value, byte :: rest)

def number (limit : Nat) (text : Bytes) : Result (Nat × Bytes) := do
  let (value, rest) ← digits limit 0 text
  if rest.length = text.length then
    .error (Error.at .invalidArgument "image: version component missing")
  else .ok (value, rest)

def separator (expected : UInt8) : Bytes → Option Bytes
  | [] => none
  | byte :: rest => if byte = expected then some rest else none

def dot : UInt8 := 46
def plus : UInt8 := 43

def needsThree : Error := Error.at .invalidArgument "image: version needs major.minor.revision"

def parse (text : Bytes) : Result ImageVersion := do
  if text.isEmpty || Limits.maxVersionStringLength < text.length then
    .error (Error.at .invalidArgument "image: version string not parseable")
  let (major, text) ← number 255 text
  let some text := separator dot text | .error needsThree
  let (minor, text) ← number 255 text
  let some text := separator dot text | .error needsThree
  let (revision, text) ← number 65535 text
  let version : ImageVersion :=
    { major := UInt8.ofNat major, minor := UInt8.ofNat minor, revision := UInt16.ofNat revision }
  let (version, text) ←
    match (separator dot text).orElse fun _ => separator plus text with
    | none => .ok (version, text)
    | some text => do
      let (build, text) ← number 4294967295 text
      .ok ({ version with build := UInt32.ofNat build }, text)
  if text.isEmpty then .ok version
  else .error (Error.at .invalidArgument "image: trailing text after version")

end ImageVersion

structure ImageSlot where
  image : UInt32 := 0
  slot : UInt32 := 0
  version : Bytes := []
  hash : Option ImageHash := none
  bootable : Bool := false
  pending : Bool := false
  confirmed : Bool := false
  active : Bool := false
  permanent : Bool := false
  deriving DecidableEq, Repr

structure ImageState where
  slots : List ImageSlot := []
  splitStatus : Option Int := none
  deriving DecidableEq, Repr

/-- A pointer into the table is a first match, and modelled by the entry: see `first_match_position`. -/
def ImageState.activeSlot (state : ImageState) (image : UInt32) : Option ImageSlot :=
  state.slots.find? fun slot => slot.image == image && slot.active

/-- Two first matches are the same position exactly when they are the same entry, so entries stand for the source's
pointers. -/
theorem first_match_position {α : Type} (entries : List α) (p q : α → Bool) (a b : α)
    (left : entries.find? p = some a) (right : entries.find? q = some b) :
    entries.findIdx? p = entries.findIdx? q ↔ a = b := by
  induction entries with
  | nil => simp at left
  | cons entry rest ih =>
    simp only [List.find?_cons] at left right
    simp only [List.findIdx?_cons]
    cases hp : p entry <;> cases hq : q entry <;>
      simp only [hp, hq, Option.some.injEq] at left right
    · simp only [Bool.false_eq_true, ↓reduceIte]
      rw [← ih left right]
      cases List.findIdx? p rest <;> cases List.findIdx? q rest <;> simp
    · subst right
      have here := List.find?_some left
      refine ⟨fun same => by cases found : List.findIdx? p rest <;> simp [found] at same, ?_⟩
      rintro rfl
      simp [hp] at here
    · subst left
      have here := List.find?_some right
      refine ⟨fun same => by cases found : List.findIdx? q rest <;> simp [found] at same, ?_⟩
      rintro rfl
      simp [hq] at here
    · simp [← left, ← right]

end Smply
