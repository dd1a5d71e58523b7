import ApiScope.Library.Bytes

/-!
# Compact JSON objects

A decoder for the part of JSON that has no arrays, no fractions and no blanks
between tokens, and the printer it inverts.  Whatever it accepts is a JSON text,
and every text has at most one value.
-/

namespace Json

inductive Value where
  | bool (value : Bool)
  | number (value : Int)
  | string (text : List Char)
  | object (members : List (List Char × Value))

/-! ## Decoding -/

/-- Four hexadecimal digits of a `\u` escape. -/
def decodeUnit (digits : List Char) : Option Char :=
  match digits.mapM Bytes.hexValue with
  | none => none
  | some values =>
      let unit := values.foldl (fun sum value => 16 * sum + value) 0
      -- Halves of surrogate pairs stand for no character of their own.
      if 0xD800 ≤ unit ∧ unit ≤ 0xDFFF then none else some (.ofNat unit)

/-- A string behind its opening quote, and what follows its closing quote. -/
def decodeString : List Char → Option (List Char × List Char)
  | [] => none
  | '"' :: rest => some ([], rest)
  | '\\' :: 'u' :: a :: b :: c :: d :: rest =>
      match decodeUnit [a, b, c, d] with
      | none => none
      | some character => (decodeString rest).map fun (text, rest) => (character :: text, rest)
  | '\\' :: escaped :: rest =>
      let character : Option Char :=
        match escaped with
        | '"' => some '"'
        | '\\' => some '\\'
        | '/' => some '/'
        | 'b' => some '\x08'
        | 'f' => some '\x0c'
        | 'n' => some '\n'
        | 'r' => some '\r'
        | 't' => some '\t'
        | _ => none
      match character with
      | none => none
      | some character => (decodeString rest).map fun (text, rest) => (character :: text, rest)
  | character :: rest =>
      if character < ' ' ∨ character = '\\' then none
      else (decodeString rest).map fun (text, rest) => (character :: text, rest)

/-- A numeral without leading zeros. -/
def decodeNatural (text : List Char) : Option (Nat × List Char) :=
  let digits := text.takeWhile Char.isDigit
  if digits = [] ∨ (digits.head? = some '0' ∧ digits ≠ ['0']) then none
  else some (Nat.ofDigitChars 10 digits 0, text.dropWhile Char.isDigit)

def decodeNumber : List Char → Option (Int × List Char)
  | '-' :: text => (decodeNatural text).map fun (value, rest) => (-value, rest)
  | text => (decodeNatural text).map fun (value, rest) => (value, rest)

mutual

/-- A value at the front of a text, and the rest of the text. -/
def decodeValue : Nat → List Char → Option (Value × List Char)
  | 0, _ => none
  | fuel + 1, text =>
      match text with
      | 't' :: 'r' :: 'u' :: 'e' :: rest => some (.bool true, rest)
      | 'f' :: 'a' :: 'l' :: 's' :: 'e' :: rest => some (.bool false, rest)
      | '"' :: rest => (decodeString rest).map fun (text, rest) => (.string text, rest)
      | '{' :: '}' :: rest => some (.object [], rest)
      | '{' :: rest => (decodeMembers fuel rest).map fun (members, rest) => (.object members, rest)
      | text => (decodeNumber text).map fun (value, rest) => (.number value, rest)

/-- The members of an object up to its closing brace. -/
def decodeMembers : Nat → List Char → Option (List (List Char × Value) × List Char)
  | 0, _ => none
  | fuel + 1, text =>
      match text with
      | '"' :: rest =>
          match decodeString rest with
          | some (key, ':' :: rest) =>
              match decodeValue fuel rest with
              | some (value, ',' :: rest) =>
                  (decodeMembers fuel rest).map fun (members, rest) =>
                    ((key, value) :: members, rest)
              | some (value, '}' :: rest) => some ([(key, value)], rest)
              | _ => none
          | _ => none
      | _ => none

end

/-- The value a whole text stands for. -/
def decode (text : List Char) : Option Value :=
  match decodeValue (text.length + 1) text with
  | some (value, []) => some value
  | _ => none

/-! ## Printing -/

def escape (character : Char) : List Char :=
  if character = '"' ∨ character = '\\' then ['\\', character] else [character]

/-- A string in quotes; its characters are not control characters. -/
def encodeString (text : List Char) : List Char := '"' :: (text.flatMap escape ++ ['"'])

def encodeNumber : Int → List Char
  | .ofNat value => Nat.toDigits 10 value
  | .negSucc value => '-' :: Nat.toDigits 10 (value + 1)

mutual

def encodeValue : Value → List Char
  | .bool true => ['t', 'r', 'u', 'e']
  | .bool false => ['f', 'a', 'l', 's', 'e']
  | .number value => encodeNumber value
  | .string text => encodeString text
  | .object members => '{' :: (encodeMembers members ++ ['}'])

def encodeMembers : List (List Char × Value) → List Char
  | [] => []
  | [member] => encodeMember member
  | member :: next :: members => encodeMember member ++ ',' :: encodeMembers (next :: members)

def encodeMember : List Char × Value → List Char
  | (key, value) => encodeString key ++ ':' :: encodeValue value

end

/-- Free of control characters. -/
def Visible (text : List Char) : Prop := ∀ character ∈ text, ' ' ≤ character

mutual

/-- All texts in the value are visible. -/
def Printable : Value → Prop
  | .bool _ | .number _ => True
  | .string text => Visible text
  | .object members => PrintableMembers members

def PrintableMembers : List (List Char × Value) → Prop
  | [] => True
  | member :: members => PrintableMember member ∧ PrintableMembers members

def PrintableMember : List Char × Value → Prop
  | (key, value) => Visible key ∧ Printable value

end

mutual

/-- No object in the value repeats a key. -/
def DistinctKeys : Value → Prop
  | .bool _ | .number _ | .string _ => True
  | .object members => (members.map Prod.fst).Nodup ∧ DistinctMembers members

def DistinctMembers : List (List Char × Value) → Prop
  | [] => True
  | member :: members => DistinctMember member ∧ DistinctMembers members

def DistinctMember : List Char × Value → Prop
  | (_, value) => DistinctKeys value

end

theorem printableMembers_iff {members : List (List Char × Value)} :
    PrintableMembers members ↔ ∀ member ∈ members, PrintableMember member := by
  induction members with
  | nil => simp [PrintableMembers]
  | cons member members inductionHypothesis => simp [PrintableMembers, inductionHypothesis]

theorem distinctMembers_iff {members : List (List Char × Value)} :
    DistinctMembers members ↔ ∀ member ∈ members, DistinctMember member := by
  induction members with
  | nil => simp [DistinctMembers]
  | cons member members inductionHypothesis => simp [DistinctMembers, inductionHypothesis]

/-- The value of a key. -/
def lookup (key : List Char) (members : List (List Char × Value)) : Option Value :=
  (members.find? fun member => member.1 == key).map Prod.snd

theorem lookup_cons_of_eq {key : List Char} {member : List Char × Value}
    (same : member.1 = key) (members : List (List Char × Value)) :
    lookup key (member :: members) = some member.2 := by
  simp [lookup, same]

theorem lookup_cons_of_ne {key : List Char} {member : List Char × Value}
    (other : member.1 ≠ key) (members : List (List Char × Value)) :
    lookup key (member :: members) = lookup key members := by
  simp [lookup, other]

/-! ## Decoding what was printed -/

theorem decodeString_escape (character : Char) (printable : ' ' ≤ character) (rest : List Char) :
    decodeString (escape character ++ rest) =
      (decodeString rest).map fun (text, rest) => (character :: text, rest) := by
  unfold escape
  split_ifs with special
  · rcases special with rfl | rfl <;> simp [decodeString]
  · rw [not_or] at special
    rw [List.singleton_append, decodeString.eq_def]
    split <;> simp_all

theorem decodeString_encode (text rest : List Char) (printable : Visible text) :
    decodeString (text.flatMap escape ++ '"' :: rest) = some (text, rest) := by
  induction text with
  | nil => simp [decodeString]
  | cons character text inductionHypothesis =>
      rw [List.flatMap_cons, List.append_assoc,
        decodeString_escape character (printable character (by simp)),
        inductionHypothesis fun other member => printable other (List.mem_cons_of_mem _ member)]
      rfl

/-- The continuation of a numeral. -/
def NoDigitAhead (rest : List Char) : Prop := ∀ character ∈ rest.head?, character.isDigit = false

theorem toDigits_no_leading_zero {value : Nat} (positive : 0 < value) :
    (Nat.toDigits 10 value).head? ≠ some '0' := by
  induction value using Nat.strongRecOn with
  | ind value inductionHypothesis =>
      rw [Nat.toDigits_eq_if (by decide)]
      split_ifs with small
      · simpa using Nat.pos_iff_ne_zero.mp positive
      · have shorter : value / 10 < value := Nat.div_lt_self positive (by decide)
        have front := inductionHypothesis (value / 10) shorter (by omega)
        cases digits : Nat.toDigits 10 (value / 10) with
        | nil => exact absurd digits Nat.toDigits_ne_nil
        | cons digit rest => simpa [digits] using front

theorem decodeNatural_encode (value : Nat) {rest : List Char} (ends : NoDigitAhead rest) :
    decodeNatural (Nat.toDigits 10 value ++ rest) = some (value, rest) := by
  have digits : ∀ character ∈ Nat.toDigits 10 value, character.isDigit = true :=
    fun character member => Nat.isDigit_of_mem_toDigits (by decide) (by decide) member
  have stop : rest.takeWhile Char.isDigit = [] ∧ rest.dropWhile Char.isDigit = rest := by
    cases rest with
    | nil => simp
    | cons character rest => simp [ends character (by simp)]
  have taken : (Nat.toDigits 10 value ++ rest).takeWhile Char.isDigit = Nat.toDigits 10 value := by
    rw [List.takeWhile_append_of_pos digits, stop.1, List.append_nil]
  have dropped : (Nat.toDigits 10 value ++ rest).dropWhile Char.isDigit = rest := by
    rw [List.dropWhile_append_of_pos digits, stop.2]
  have canonical : ¬(Nat.toDigits 10 value = [] ∨
      ((Nat.toDigits 10 value).head? = some '0' ∧ Nat.toDigits 10 value ≠ ['0'])) := by
    rintro (empty | ⟨zero, more⟩)
    · exact Nat.toDigits_ne_nil empty
    · rcases Nat.eq_zero_or_pos value with rfl | positive
      · exact more (Nat.toDigits_zero 10)
      · exact toDigits_no_leading_zero positive zero
  simp only [decodeNatural, taken, dropped, if_neg canonical, Nat.ofDigitChars_ten_toDigits]

theorem toDigits_cons (value : Nat) :
    ∃ digit digits, Nat.toDigits 10 value = digit :: digits ∧ digit.isDigit = true := by
  cases front : Nat.toDigits 10 value with
  | nil => exact absurd front Nat.toDigits_ne_nil
  | cons digit digits =>
      have member : digit ∈ Nat.toDigits 10 value := by simp [front]
      exact ⟨digit, digits, rfl, Nat.isDigit_of_mem_toDigits (by decide) (by decide) member⟩

theorem decodeNumber_encode (value : Int) {rest : List Char} (ends : NoDigitAhead rest) :
    decodeNumber (encodeNumber value ++ rest) = some (value, rest) := by
  cases value with
  | ofNat value =>
      have found := decodeNatural_encode value ends
      obtain ⟨digit, digits, front, isDigit⟩ := toDigits_cons value
      rw [encodeNumber]
      rw [front, List.cons_append] at found ⊢
      rw [decodeNumber.eq_def]
      split
      · rename_i minus
        cases minus
        simp at isDigit
      · simp [found]
  | negSucc value =>
      rw [encodeNumber, List.cons_append, decodeNumber,
        decodeNatural_encode (value + 1) ends]
      simp [Int.negSucc_eq]

/-- A text that starts like a number is read as a number. -/
theorem decodeValue_number {fuel : Nat} {first : Char} {rest : List Char}
    (numeric : first = '-' ∨ first.isDigit = true) :
    decodeValue (fuel + 1) (first :: rest) =
      (decodeNumber (first :: rest)).map fun (value, rest) => (.number value, rest) := by
  rw [decodeValue.eq_def]
  split
  · contradiction
  · split <;> simp_all

theorem decodeValue_encodeNumber {fuel : Nat} (value : Int) {rest : List Char}
    (ends : NoDigitAhead rest) :
    decodeValue (fuel + 1) (encodeNumber value ++ rest) = some (.number value, rest) := by
  have found := decodeNumber_encode value ends
  have front : ∃ first text, encodeNumber value = first :: text ∧
      (first = '-' ∨ first.isDigit = true) := by
    cases value with
    | ofNat value =>
        obtain ⟨digit, digits, front, isDigit⟩ := toDigits_cons value
        exact ⟨digit, digits, front, .inr isDigit⟩
    | negSucc value => exact ⟨'-', _, rfl, .inl rfl⟩
  obtain ⟨first, text, front, numeric⟩ := front
  rw [front, List.cons_append] at found ⊢
  rw [decodeValue_number numeric, found]
  rfl

theorem noDigitAhead_cons {first : Char} {rest : List Char} (other : first.isDigit = false) :
    NoDigitAhead (first :: rest) := by
  intro character front
  cases front
  exact other

theorem length_encodeValue_pos (value : Value) : 0 < (encodeValue value).length := by
  cases value with
  | bool value => cases value <;> simp [encodeValue]
  | number value =>
      cases value with
      | ofNat value => simpa [encodeValue, encodeNumber] using Nat.length_toDigits_pos
      | negSucc value => simp [encodeValue, encodeNumber]
  | string text => simp [encodeValue, encodeString]
  | object members => simp [encodeValue]

/-- The first character of members is a quote. -/
theorem encodeMembers_cons (key : List Char) (value : Value) (members : List (List Char × Value)) :
    encodeMembers ((key, value) :: members) =
      '"' :: (key.flatMap escape ++ '"' :: ':' :: (encodeValue value ++
        match members with
        | [] => []
        | next :: members => ',' :: encodeMembers (next :: members))) := by
  cases members <;> simp [encodeMembers, encodeMember, encodeString]

theorem decodeValue_object (fuel : Nat) (text : List Char) :
    decodeValue (fuel + 1) ('{' :: '"' :: text) =
      (decodeMembers fuel ('"' :: text)).map fun (members, rest) => (.object members, rest) := by
  simp [decodeValue]

/-- What `fuel` has to do for a value and for the members of an object. -/
def Decodes (fuel : Nat) : Prop :=
  (∀ value rest, Printable value → (encodeValue value).length ≤ fuel → NoDigitAhead rest →
    decodeValue fuel (encodeValue value ++ rest) = some (value, rest)) ∧
  (∀ members rest, members ≠ [] → PrintableMembers members →
    (encodeMembers members).length < fuel →
    decodeMembers fuel (encodeMembers members ++ '}' :: rest) = some (members, rest))

theorem decodeValue_encode_succ {fuel : Nat} (less : Decodes fuel) (value : Value)
    (rest : List Char) (printable : Printable value)
    (enough : (encodeValue value).length ≤ fuel + 1) (ends : NoDigitAhead rest) :
    decodeValue (fuel + 1) (encodeValue value ++ rest) = some (value, rest) := by
  cases value with
  | bool value => cases value <;> simp [encodeValue, decodeValue]
  | number value => exact decodeValue_encodeNumber value ends
  | string text =>
      simp only [encodeValue, encodeString, List.cons_append, List.append_assoc, List.nil_append,
        decodeValue, decodeString_encode text rest printable, Option.map_some]
  | object members =>
      cases members with
      | nil => simp [encodeValue, encodeMembers, decodeValue]
      | cons member members =>
          simp only [encodeValue, List.length_cons, List.length_append, List.length_nil] at enough
          have found := less.2 (member :: members) rest (by simp) printable (by omega)
          obtain ⟨key, value⟩ := member
          simp only [encodeValue, List.cons_append, List.append_assoc, List.nil_append]
          rw [encodeMembers_cons] at found ⊢
          simp only [List.cons_append] at found ⊢
          rw [decodeValue_object, found]
          rfl

theorem decodeMembers_encode_succ {fuel : Nat} (less : Decodes fuel)
    (members : List (List Char × Value)) (rest : List Char) (nonempty : members ≠ [])
    (printable : PrintableMembers members)
    (enough : (encodeMembers members).length < fuel + 1) :
    decodeMembers (fuel + 1) (encodeMembers members ++ '}' :: rest) = some (members, rest) := by
  cases members with
  | nil => exact absurd rfl nonempty
  | cons member members =>
      obtain ⟨key, value⟩ := member
      obtain ⟨⟨printableKey, printableValue⟩, printableMembers⟩ := printable
      rw [encodeMembers_cons] at enough ⊢
      simp only [List.length_cons, List.length_append] at enough
      simp only [List.cons_append, List.append_assoc, decodeMembers,
        decodeString_encode key _ printableKey]
      cases members with
      | nil =>
          have found := less.1 value ('}' :: rest) printableValue (by omega)
            (noDigitAhead_cons rfl)
          simp only [List.nil_append, found]
      | cons next members =>
          have found := less.1 value (',' :: (encodeMembers (next :: members) ++ '}' :: rest))
            printableValue (by omega) (noDigitAhead_cons rfl)
          have later := less.2 (next :: members) rest (by simp) printableMembers
            (by simp only [List.length_cons] at enough; omega)
          simp only [List.cons_append, found, later, Option.map_some]

theorem decodes (fuel : Nat) : Decodes fuel := by
  induction fuel with
  | zero =>
      refine ⟨fun value rest _ enough _ => ?_, fun members rest _ _ enough => ?_⟩
      · have positive := length_encodeValue_pos value
        omega
      · omega
  | succ fuel inductionHypothesis =>
      exact ⟨decodeValue_encode_succ inductionHypothesis,
        decodeMembers_encode_succ inductionHypothesis⟩

/-- The decoder reads back what was printed. -/
theorem decode_encode (value : Value) (printable : Printable value) :
    decode (encodeValue value) = some value := by
  have found := (decodes ((encodeValue value).length + 1)).1 value [] printable (Nat.le_succ _)
    (by simp [NoDigitAhead])
  rw [List.append_nil] at found
  rw [decode, found]

/-! ## Texts without escapes -/

/-- Printed in quotes as it is. -/
def Plain (text : List Char) : Prop :=
  ∀ character ∈ text, ' ' ≤ character ∧ character ≠ '"' ∧ character ≠ '\\'

theorem Plain.visible {text : List Char} (plain : Plain text) : Visible text :=
  fun character member => (plain character member).1

theorem plain_append {first second : List Char} :
    Plain (first ++ second) ↔ Plain first ∧ Plain second :=
  List.forall_mem_append

theorem Plain.flatMap_escape {text : List Char} (plain : Plain text) :
    text.flatMap escape = text := by
  induction text with
  | nil => rfl
  | cons character text inductionHypothesis =>
      obtain ⟨_, noQuote, noBackslash⟩ := plain character (by simp)
      rw [List.flatMap_cons, inductionHypothesis fun other member =>
        plain other (List.mem_cons_of_mem _ member)]
      simp [escape, noQuote, noBackslash]

/-! ## Printed texts have no control characters -/

theorem visible_encodeString {text : List Char} (printable : Visible text) :
    Visible (encodeString text) := by
  intro character member
  simp only [encodeString, List.mem_cons, List.mem_append, List.mem_flatMap, escape] at member
  rcases member with rfl | ⟨source, inside, member⟩ | rfl | impossible
  · decide
  · split_ifs at member
    · rcases List.mem_cons.mp member with rfl | same
      · decide
      · rw [List.mem_singleton.mp same]
        exact printable source inside
    · rw [List.mem_singleton.mp member]
      exact printable source inside
  · decide
  · cases impossible

theorem visible_toDigits (value : Nat) : Visible (Nat.toDigits 10 value) := by
  intro character member
  have digit := Nat.isDigit_of_mem_toDigits (by decide) (by decide) member
  simp only [Char.isDigit, Bool.and_eq_true, decide_eq_true_eq] at digit
  exact Char.le_trans (by decide : ' ' ≤ '0') digit.1

theorem visible_encodeNumber (value : Int) : Visible (encodeNumber value) := by
  cases value with
  | ofNat value => exact visible_toDigits value
  | negSucc value =>
      intro character member
      rcases List.mem_cons.mp member with rfl | inside
      · decide
      · exact visible_toDigits _ character inside

mutual

theorem visible_encodeValue : ∀ value : Value, Printable value → Visible (encodeValue value)
  | .bool true, _ => by simp [encodeValue, Visible]
  | .bool false, _ => by simp [encodeValue, Visible]
  | .number value, _ => visible_encodeNumber value
  | .string _, printable => visible_encodeString printable
  | .object members, printable => by
      have inside := visible_encodeMembers members printable
      intro character member
      simp only [encodeValue, List.mem_cons, List.mem_append, List.not_mem_nil, or_false] at member
      rcases member with rfl | within | rfl
      · decide
      · exact inside character within
      · decide

theorem visible_encodeMembers : ∀ members : List (List Char × Value), PrintableMembers members →
    Visible (encodeMembers members)
  | [], _ => by simp [encodeMembers, Visible]
  | [member], printable => visible_encodeMember member printable.1
  | member :: next :: members, printable => by
      have first := visible_encodeMember member printable.1
      have others := visible_encodeMembers (next :: members) printable.2
      intro character within
      simp only [encodeMembers, List.mem_append, List.mem_cons] at within
      rcases within with inside | rfl | inside
      · exact first character inside
      · decide
      · exact others character inside

theorem visible_encodeMember : ∀ member : List Char × Value, PrintableMember member →
    Visible (encodeMember member)
  | (_, value), printable => by
      have key := visible_encodeString printable.1
      have shown := visible_encodeValue value printable.2
      intro character within
      simp only [encodeMember, List.mem_append, List.mem_cons] at within
      rcases within with inside | rfl | inside
      · exact key character inside
      · decide
      · exact shown character inside

end

end Json
