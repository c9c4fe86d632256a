import Smply.Image.Slots

namespace Smply.ImageVersion

open List

variable {text rest : Bytes} {limit : Nat}

def valueFrom (value : Nat) (digits : Bytes) : Nat :=
  digits.foldl (fun value byte => value * 10 + (byte.toNat - 48)) value

structure Numeral (text : Bytes) (value : Nat) : Prop where
  some_ : text ≠ []
  digits : ∀ byte ∈ text, isDigit byte = true
  value : valueFrom 0 text = value

/-- The strings that denote a version: three numbers, or four with the last one after a dot or a plus. -/
def Spells (text : Bytes) (version : ImageVersion) : Prop :=
  text.length ≤ Limits.maxVersionStringLength ∧ ∃ major minor revision build : Bytes,
    text = major ++ dot :: (minor ++ dot :: (revision ++ build)) ∧
    Numeral major version.major.toNat ∧ Numeral minor version.minor.toNat ∧
    Numeral revision version.revision.toNat ∧
    (build = [] ∧ version.build = 0 ∨ ∃ sign digits, (sign = dot ∨ sign = plus) ∧ build = sign :: digits ∧
      Numeral digits version.build.toNat)

/-- `std::to_string` -/
def decimal (n : Nat) : Bytes :=
  if n < 10 then [UInt8.ofNat (48 + n)] else decimal (n / 10) ++ [UInt8.ofNat (48 + n % 10)]

def toString (version : ImageVersion) : Bytes :=
  decimal version.major.toNat ++ dot :: (decimal version.minor.toNat ++ dot :: (decimal version.revision.toNat ++
    if version.build ≠ 0 then dot :: decimal version.build.toNat else []))

theorem le_valueFrom (value : Nat) (text : Bytes) : value ≤ valueFrom value text := by
  induction text generalizing value with
  | nil => exact Nat.le_refl _
  | cons byte rest ih =>
    refine Nat.le_trans ?_ (ih _)
    show value ≤ value * 10 + (byte.toNat - 48)
    omega

theorem digits_append (value : Nat) (all : ∀ byte ∈ text, isDigit byte = true)
    (stops : ∀ byte ∈ rest.head?, isDigit byte = false) (fits : valueFrom value text ≤ limit) :
    digits limit value (text ++ rest) = .ok (valueFrom value text, rest) := by
  induction text generalizing value with
  | nil =>
    cases rest with
    | nil => rfl
    | cons byte rest =>
      rw [nil_append, digits, stops byte rfl]
      rfl
  | cons byte text ih =>
    have within := Nat.le_trans (le_valueFrom _ text) fits
    rw [cons_append, digits, all byte mem_cons_self, if_pos rfl, if_neg (Nat.not_lt.mpr within)]
    exact ih _ (fun other member => all other (mem_cons_of_mem _ member)) fits

theorem digits_ok {value result : Nat} (parsed : digits limit value text = .ok (result, rest))
    (low : value ≤ limit) : ∃ front, text = front ++ rest ∧ (∀ byte ∈ front, isDigit byte = true) ∧
      valueFrom value front = result ∧ result ≤ limit := by
  induction text generalizing value with
  | nil =>
    cases parsed
    exact ⟨[], rfl, nofun, rfl, low⟩
  | cons byte text ih =>
    rw [digits] at parsed
    split at parsed
    · rename_i digit
      dsimp only at parsed
      split at parsed
      · cases parsed
      rename_i within
      obtain ⟨front, rfl, all, is, fits⟩ := ih parsed (Nat.le_of_not_lt within)
      refine ⟨byte :: front, rfl, fun other member => ?_, is, fits⟩
      rcases mem_cons.mp member with rfl | later
      · exact digit
      · exact all other later
    · cases parsed
      exact ⟨[], rfl, nofun, rfl, low⟩

theorem number_append {limit value : Nat} {text rest : Bytes} (numeral : Numeral text value) (fits : value ≤ limit)
    (stops : ∀ byte ∈ rest.head?, isDigit byte = false) : number limit (text ++ rest) = .ok (value, rest) := by
  have longer : ¬ rest.length = (text ++ rest).length := by
    have some_ := length_pos_iff.mpr numeral.some_
    rw [length_append]
    omega
  unfold number
  rw [digits_append 0 numeral.digits stops (numeral.value ▸ fits), numeral.value]
  exact if_neg longer

theorem number_ok {value : Nat} (parsed : number limit text = .ok (value, rest)) :
    ∃ front, text = front ++ rest ∧ Numeral front value ∧ value ≤ limit := by
  unfold number at parsed
  cases read : digits limit 0 text with
  | error => rw [read] at parsed; cases parsed
  | ok result =>
    obtain ⟨result, left⟩ := result
    obtain ⟨front, rfl, all, is, fits⟩ := digits_ok read (Nat.zero_le limit)
    rw [read] at parsed
    replace parsed : (if left.length = (front ++ left).length then _ else _) = _ := parsed
    split at parsed
    · cases parsed
    rename_i longer
    cases parsed
    refine ⟨front, rfl, ⟨fun none_ => longer ?_, all, is⟩, fits⟩
    rw [none_, nil_append]

theorem separator_some {expected : UInt8} (found : separator expected text = some rest) :
    text = expected :: rest := by
  cases text with
  | nil => cases found
  | cons byte text =>
    by_cases same : byte = expected
    · rw [separator, if_pos same] at found
      cases found
      rw [same]
    · rw [separator, if_neg same] at found
      cases found

theorem spells_of_parse {version : ImageVersion} (parsed : parse text = .ok version) : Spells text version := by
  unfold parse at parsed
  simp only [bind, Except.bind] at parsed
  split at parsed
  · cases parsed
  rename_i short
  replace short : text.length ≤ Limits.maxVersionStringLength := by
    simp only [Bool.or_eq_true, decide_eq_true_eq, not_or] at short
    exact Nat.le_of_not_lt short.2
  split at parsed
  · cases parsed
  rename_i one first
  obtain ⟨major, rfl, isMajor, majorFits⟩ := number_ok first
  split at parsed
  case h_2 => cases parsed
  rename_i second dotted
  rw [separator_some dotted] at short ⊢
  split at parsed
  · cases parsed
  rename_i two read
  obtain ⟨minor, rfl, isMinor, minorFits⟩ := number_ok read
  split at parsed
  case h_2 => cases parsed
  rename_i third dotted
  rw [separator_some dotted] at short ⊢
  split at parsed
  · cases parsed
  rename_i three read
  obtain ⟨revision, rfl, isRevision, revisionFits⟩ := number_ok read
  replace isMajor : Numeral major (UInt8.ofNat one.1).toNat := by
    rwa [UInt8.toNat_ofNat_of_lt' (Nat.lt_succ_of_le majorFits)]
  replace isMinor : Numeral minor (UInt8.ofNat two.1).toNat := by
    rwa [UInt8.toNat_ofNat_of_lt' (Nat.lt_succ_of_le minorFits)]
  replace isRevision : Numeral revision (UInt16.ofNat three.1).toNat := by
    rwa [UInt16.toNat_ofNat_of_lt' (Nat.lt_succ_of_le revisionFits)]
  refine ⟨short, major, minor, revision, three.2, rfl, ?_⟩
  split at parsed
  · split at parsed
    case isFalse => cases parsed
    rename_i ends
    cases parsed
    exact ⟨isMajor, isMinor, isRevision, .inl ⟨isEmpty_iff.mp ends, rfl⟩⟩
  · rename_i fourth signed
    split at parsed
    · cases parsed
    rename_i four read
    obtain ⟨build, rfl, isBuild, buildFits⟩ := number_ok read
    replace isBuild : Numeral build (UInt32.ofNat four.1).toNat := by
      rwa [UInt32.toNat_ofNat_of_lt' (Nat.lt_succ_of_le buildFits)]
    split at parsed
    case isFalse => cases parsed
    rename_i ends
    cases parsed
    rw [isEmpty_iff.mp ends, append_nil] at signed
    refine ⟨isMajor, isMinor, isRevision, .inr ?_⟩
    cases dotted : separator dot three.2 with
    | some rest =>
      rw [dotted] at signed
      cases signed
      exact ⟨dot, build, .inl rfl, separator_some dotted, isBuild⟩
    | none =>
      rw [dotted] at signed
      exact ⟨plus, build, .inr rfl, separator_some signed, isBuild⟩

theorem parse_of_spells {version : ImageVersion} (spells : Spells text version) : parse text = .ok version := by
  obtain ⟨short, major, minor, revision, build, rfl, isMajor, isMinor, isRevision, isBuild⟩ := spells
  have some_ : (major ++ dot :: (minor ++ dot :: (revision ++ build))).isEmpty = false := by simp
  have dotStops (rest : Bytes) : ∀ byte ∈ (dot :: rest).head?, isDigit byte = false := by
    rintro byte ⟨⟩
    rfl
  have major_ := @number_append 255 _ _ _ isMajor (Nat.le_of_lt_succ version.major.toNat_lt)
    (dotStops (minor ++ dot :: (revision ++ build)))
  have minor_ := @number_append 255 _ _ _ isMinor (Nat.le_of_lt_succ version.minor.toNat_lt)
    (dotStops (revision ++ build))
  have low := Nat.le_of_lt_succ version.revision.toNat_lt
  unfold parse
  simp only [bind, Except.bind, some_, major_, minor_, Bool.false_or, decide_eq_true_eq,
    if_neg (Nat.not_lt.mpr short), separator, if_true]
  rcases isBuild with ⟨rfl, none_⟩ | ⟨sign, digits, either, rfl, isBuild⟩
  · simp only [@number_append 65535 _ _ [] isRevision low (by simp), Option.orElse, isEmpty_nil, if_true,
      UInt8.ofNat_toNat, UInt16.ofNat_toNat]
    rw [← none_]
  · have signStops : ∀ byte ∈ (sign :: digits).head?, isDigit byte = false := by
      rintro byte ⟨⟩
      rcases either with rfl | rfl <;> rfl
    have build_ := @number_append 4294967295 _ _ [] isBuild (Nat.le_of_lt_succ version.build.toNat_lt) (by simp)
    rw [append_nil] at build_
    have found : (if sign = dot then some digits else none).orElse (fun _ => if sign = plus then some digits else none) =
        some digits := by
      rcases either with rfl | rfl <;> rfl
    simp only [@number_append 65535 _ _ _ isRevision low signStops, found, build_, isEmpty_nil, if_true,
      UInt8.ofNat_toNat, UInt16.ofNat_toNat, UInt32.ofNat_toNat]

theorem valueFrom_append (value : Nat) (text : Bytes) (byte : UInt8) :
    valueFrom value (text ++ [byte]) = valueFrom value text * 10 + (byte.toNat - 48) := by
  rw [valueFrom, foldl_append]
  rfl

theorem digit_isDigit : ∀ n < 10, isDigit (UInt8.ofNat (48 + n)) = true ∧ (UInt8.ofNat (48 + n)).toNat - 48 = n := by
  decide

theorem decimal_numeral (n : Nat) : Numeral (decimal n) n := by
  induction n using Nat.strongRecOn with
  | ind n ih =>
    rw [decimal]
    split
    · rename_i low
      obtain ⟨digit, is⟩ := digit_isDigit n low
      refine ⟨by simp, by simpa using digit, ?_⟩
      show 0 * 10 + _ = n
      omega
    · obtain ⟨digit, is⟩ := digit_isDigit (n % 10) (Nat.mod_lt n (by decide))
      have front := ih (n / 10) (by omega)
      refine ⟨by simp, fun byte member => ?_, ?_⟩
      · rcases mem_append.mp member with earlier | last
        · exact front.digits byte earlier
        · rwa [mem_singleton.mp last]
      · rw [valueFrom_append, front.value, is]
        omega

theorem length_decimal_le (width : Nat) {n : Nat} (fits : n < 10 ^ (width + 1)) : (decimal n).length ≤ width + 1 := by
  induction width generalizing n with
  | zero =>
    rw [decimal, if_pos (by simpa using fits)]
    exact Nat.le_refl 1
  | succ width ih =>
    rw [decimal]
    split
    · exact Nat.le_add_left 1 _
    · rw [length_append]
      have front := @ih (n / 10) (Nat.div_lt_of_lt_mul (by rw [← Nat.pow_succ']; exact fits))
      exact Nat.add_le_add_right front 1

theorem toString_spells (version : ImageVersion) : Spells version.toString version := by
  have major := length_decimal_le 2 (Nat.lt_trans version.major.toNat_lt (by decide))
  have minor := length_decimal_le 2 (Nat.lt_trans version.minor.toNat_lt (by decide))
  have revision := length_decimal_le 4 (Nat.lt_trans version.revision.toNat_lt (by decide))
  have build := length_decimal_le 9 (Nat.lt_trans version.build.toNat_lt (by decide))
  refine ⟨?_, _, _, _, _, rfl, decimal_numeral _, decimal_numeral _, decimal_numeral _, ?_⟩
  · have tail : (if version.build ≠ 0 then dot :: decimal version.build.toNat else []).length ≤ 11 := by
      split
      · exact Nat.succ_le_succ build
      · exact Nat.zero_le _
    simp only [toString, length_append, length_cons, Limits.maxVersionStringLength]
    omega
  · split
    · exact .inr ⟨dot, _, .inl rfl, rfl, decimal_numeral _⟩
    · rename_i zero
      exact .inl ⟨rfl, by simpa using zero⟩

/-- `parse` takes the spellings of versions and nothing else, and reads back what `to_string` writes. -/
theorem version_parse_exact : (∀ text version, parse text = .ok version ↔ Spells text version) ∧
    ∀ version, parse (toString version) = .ok version :=
  ⟨fun _ _ => ⟨spells_of_parse, parse_of_spells⟩, fun version => parse_of_spells (toString_spells version)⟩

end Smply.ImageVersion
