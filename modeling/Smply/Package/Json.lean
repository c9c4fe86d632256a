import Smply.Image.Version

namespace Smply.Package

open ImageVersion (isDigit valueFrom Numeral le_valueFrom)

inductive JsonKind where
  | null | boolean | number | string | array | object
  deriving DecidableEq

structure JsonValue where
  kind : JsonKind
  text : Bytes

namespace JsonValue

def pushDigit (value : Nat) (byte : UInt8) : Option Nat :=
  let digit := byte.toNat - 48
  if value > (2 ^ 64 - 1 - digit) / 10 then none else some ((value * 10 % 2 ^ 64 + digit) % 2 ^ 64)

def asUint (json : JsonValue) : Option Nat :=
  if json.kind ≠ .number ∨ json.text.isEmpty ∨ !json.text.all isDigit then none else json.text.foldlM pushDigit 0

theorem pushDigit_exact {byte : UInt8} (digit : isDigit byte = true) (value : Nat) :
    pushDigit value byte =
      if value * 10 + (byte.toNat - 48) < 2 ^ 64 then some (value * 10 + (byte.toNat - 48)) else none := by
  have range : 48 ≤ byte.toNat ∧ byte.toNat ≤ 57 := by simpa [isDigit, UInt8.le_iff_toNat_le] using digit
  unfold pushDigit
  dsimp only
  split
  · exact (if_neg (by omega)).symm
  · rw [if_pos (by omega), Nat.mod_eq_of_lt (by omega), Nat.mod_eq_of_lt (by omega)]

theorem foldlM_pushDigit {text : Bytes} (all : ∀ byte ∈ text, isDigit byte = true) {value : Nat}
    (low : value < 2 ^ 64) :
    text.foldlM pushDigit value = if valueFrom value text < 2 ^ 64 then some (valueFrom value text) else none := by
  induction text generalizing value with
  | nil => exact (if_pos low).symm
  | cons byte rest ih =>
    have least := le_valueFrom (value * 10 + (byte.toNat - 48)) rest
    rw [List.foldlM_cons, pushDigit_exact (all byte List.mem_cons_self)]
    split
    · exact ih (fun other member => all other (List.mem_cons_of_mem _ member)) ‹_›
    · exact (if_neg fun small => absurd (Nat.lt_of_le_of_lt least small) ‹_›).symm

/-- A number is returned exactly for the digit strings that denote it, and each digit pushed computes over the integers. -/
theorem asUint_exact (json : JsonValue) :
    (∀ result, json.asUint = some result ↔ json.kind = .number ∧ Numeral json.text result ∧ result ≤ 2 ^ 64 - 1) ∧
    ∀ value byte next, isDigit byte = true → pushDigit value byte = some next →
      next = value * 10 + (byte.toNat - 48) ∧ next ≤ 2 ^ 64 - 1 := by
  refine ⟨fun result => ?_, fun value byte next digit pushed => ?_⟩
  · unfold asUint
    split
    · rename_i refused
      refine ⟨nofun, fun ⟨number, numeral, _⟩ => ?_⟩
      simp [number, numeral.some_, List.all_eq_true.mpr numeral.digits] at refused
    · rename_i read
      simp only [not_or, ne_eq, not_not, Bool.not_eq_true, Bool.not_eq_false', List.isEmpty_eq_false_iff] at read
      have all := List.all_eq_true.mp read.2.2
      rw [foldlM_pushDigit all (by decide), Option.ite_none_right_eq_some]
      exact ⟨fun ⟨small, is⟩ => ⟨read.1, ⟨read.2.1, all, Option.some_inj.mp is⟩, by cases is; omega⟩,
        fun ⟨_, numeral, small⟩ => ⟨by rw [numeral.value]; omega, congrArg some numeral.value⟩⟩
  · rw [pushDigit_exact digit, Option.ite_none_right_eq_some] at pushed
    obtain ⟨small, is⟩ := pushed
    cases is
    exact ⟨rfl, by omega⟩

end JsonValue

end Smply.Package
