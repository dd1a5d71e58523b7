import ApiScope.Trace.Format
import ApiScope.Trace.Language

/-!
# The characters the helpers write

Numbers, the digits of bytes, times and names are clean: printable, and without
the two characters that a JSON string escapes.  Previews are printable.
-/

namespace ApiScope

open Bytes TraceLanguage

namespace TraceRenderer

/-- Printable ASCII. -/
def printable (character : Char) : Bool := ' ' ≤ character && character ≤ '~'

def clean (character : Char) : Bool :=
  printable character && character != '"' && character != '\\'

def Over (alphabet : Char → Bool) (characters : List Char) : Prop :=
  ∀ character ∈ characters, alphabet character = true

section Over

variable {alphabet : Char → Bool} {first second : List Char}

theorem over_nil : Over alphabet [] := fun _ member => nomatch member

@[simp]
theorem over_append : Over alphabet (first ++ second) ↔ Over alphabet first ∧ Over alphabet second :=
  List.forall_mem_append

theorem over_text {literal : String} (inside : literal.toList.all alphabet = true) :
    Over alphabet (text literal) := List.all_eq_true.mp inside

theorem over_ite {condition : Prop} [Decidable condition] (positive : Over alphabet first)
    (negative : Over alphabet second) : Over alphabet (if condition then first else second) := by
  split_ifs
  · exact positive
  · exact negative

theorem over_setw {width : Nat} {fill : Char} {field : List Char} (inside : Over alphabet field)
    (fillInside : alphabet fill = true) : Over alphabet (setw width fill field) := by
  refine over_append.mpr ⟨fun character padding => ?_, inside⟩
  rw [List.eq_of_mem_replicate padding]
  exact fillInside

theorem over_toDigits {base : Nat} (large : 1 < base)
    (digits : ∀ place < base, alphabet place.digitChar = true) (value : Nat) :
    Over alphabet (Nat.toDigits base value) := by
  induction value using Nat.strongRecOn with
  | ind value inductionHypothesis =>
      rw [Nat.toDigits_eq_if large]
      split_ifs with small
      · intro digit member
        rw [List.mem_singleton.mp member]
        exact digits value small
      · refine over_append.mpr ⟨?_, fun digit member => ?_⟩
        · exact inductionHypothesis _ (Nat.div_lt_self (by omega) large)
        · rw [List.mem_singleton.mp member]
          exact digits _ (Nat.mod_lt _ (by omega))

theorem Over.printable {characters : List Char} (cleaned : Over clean characters) :
    Over printable characters := by
  intro character member
  have both := cleaned character member
  rw [clean, Bool.and_eq_true, Bool.and_eq_true] at both
  exact both.1.1

end Over

theorem clean_decimal (value : Nat) : Over clean (decimal value) :=
  over_toDigits (by decide) (by decide) value

theorem clean_signedDecimal (value : Int) : Over clean (signedDecimal value) := by
  cases value with
  | ofNat value => exact clean_decimal value
  | negSucc value => exact List.forall_mem_cons.mpr ⟨by decide, clean_decimal (value + 1)⟩

theorem clean_upperHex (value : Nat) : Over clean (upperHex value) := by
  intro character member
  obtain ⟨digit, inside, rfl⟩ := List.mem_map.mp member
  exact @over_toDigits (fun digit => clean digit.toUpper) 16 (by decide) (by decide) value digit
    inside

theorem clean_hexStatus (status : UInt32) : Over clean (HexStatus status) :=
  over_append.mpr ⟨over_text (by decide), over_setw (clean_upperHex _) (by decide)⟩

theorem clean_formatTimestamp (fileTimeToSystemTime : FileTimeToSystemTime)
    (timestamp : UInt64) : Over clean (FormatTimestamp fileTimeToSystemTime timestamp) := by
  have number : ∀ width value, Over clean (setw width '0' (decimal value)) := fun width value =>
    over_setw (clean_decimal value) (by decide)
  unfold FormatTimestamp
  split_ifs
  · exact over_text (by decide)
  · cases fileTimeToSystemTime timestamp with
    | none => exact over_text (by decide)
    | some systemTime =>
        have marks : ∀ mark ∈ ["-", "T", ":", ".", "Z"], Over clean (text mark) := by
          intro mark member
          apply over_text
          revert mark
          decide
        simp [number, marks]

theorem clean_hexBytes (bytes : List UInt8) (spaced : Bool) :
    Over clean (HexBytes bytes spaced) := by
  intro character member
  obtain ⟨pair, inside, found⟩ := List.mem_flatten.mp member
  obtain ⟨index, bound, rfl⟩ := List.mem_mapIdx.mp inside
  have digits : Over clean (setw 2 '0' (upperHex bytes[index].toNat)) :=
    over_setw (clean_upperHex _) (by decide)
  have blank : Over clean (if spaced && index != 0 then [' '] else []) :=
    over_ite (List.forall_mem_singleton.mpr (by decide)) over_nil
  exact over_append.mpr ⟨blank, digits⟩ character found

theorem printable_previewByte : ∀ value : UInt8,
    printable (Char.ofUInt8 (if 32 ≤ value ∧ value ≤ 126 then value else ascii '.')) = true :=
  forall_byte (by decide +kernel)

theorem printable_previewText (bytes : List UInt8) :
    Over printable (chars (PreviewText bytes)) := by
  intro character member
  obtain ⟨shown, inside, rfl⟩ := List.mem_map.mp member
  obtain ⟨byte, _, rfl⟩ := List.mem_map.mp inside
  exact printable_previewByte byte

/-! ## Names -/

theorem clean_moduleNameCharacter : ∀ character : UInt8,
    ModuleNameCharacter character → clean (Char.ofUInt8 character) = true :=
  forall_byte (by decide +kernel)

theorem FieldNameCharacter_moduleName {character : UInt8} (valid : FieldNameCharacter character) :
    ModuleNameCharacter character := by
  rcases valid with lower | digit | underscore
  · exact .inl (.inl lower)
  · exact .inl (.inr (.inr (.inl digit)))
  · exact .inl (.inr (.inr (.inr underscore)))

theorem clean_name {alphabet : UInt8 → Prop} {name : List UInt8} (valid : NameOver alphabet name)
    (narrow : ∀ character, alphabet character → ModuleNameCharacter character) :
    Over clean (chars name) := by
  intro character member
  obtain ⟨byte, inside, rfl⟩ := List.mem_map.mp member
  exact clean_moduleNameCharacter byte (narrow byte (valid.2.2 byte inside))

end TraceRenderer

end ApiScope
