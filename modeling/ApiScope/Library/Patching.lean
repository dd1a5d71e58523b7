import ApiScope.Library.Bytes

/-!
# Patching words in place

Words of a buffer are replaced one after another by a function of what they are.
Words that lie apart from each other are changed exactly once, and no other byte is.
-/

namespace Bytes

/-- The words at two offsets have no byte in common. -/
def Apart (width first second : Nat) : Prop :=
  first + width ≤ second ∨ second + width ≤ first

/-- An index belongs to no word. -/
def Untouched (width : Nat) (targets : List Nat) (index : Nat) : Prop :=
  ∀ target ∈ targets, index < target ∨ target + width ≤ index

variable (width : Nat) (change : Nat → Nat)

/-- Replace the word at an offset. -/
def patch (buffer : List UInt8) (target : Nat) : List UInt8 :=
  overwrite buffer target
    (littleEndian width (change (ofLittleEndian (slice buffer target width))))

def patchAll (targets : List Nat) (buffer : List UInt8) : List UInt8 :=
  targets.foldl (patch width change) buffer

@[simp]
theorem patchAll_nil (buffer : List UInt8) : patchAll width change [] buffer = buffer := rfl

@[simp]
theorem patchAll_cons (target : Nat) (targets : List Nat) (buffer : List UInt8) :
    patchAll width change (target :: targets) buffer =
      patchAll width change targets (patch width change buffer target) := rfl

theorem patchAll_append (first second : List Nat) (buffer : List UInt8) :
    patchAll width change (first ++ second) buffer =
      patchAll width change second (patchAll width change first buffer) :=
  List.foldl_append

@[simp]
theorem length_patch (buffer : List UInt8) (target : Nat) :
    (patch width change buffer target).length = buffer.length :=
  length_overwrite _ _ _

@[simp]
theorem length_patchAll (targets : List Nat) (buffer : List UInt8) :
    (patchAll width change targets buffer).length = buffer.length := by
  induction targets generalizing buffer with
  | nil => rfl
  | cons target targets inductionHypothesis =>
      rw [patchAll_cons, inductionHypothesis, length_patch]

variable {width change}

theorem getElem?_patch_outside {buffer : List UInt8} {target index : Nat}
    (outside : index < target ∨ target + width ≤ index) :
    (patch width change buffer target)[index]? = buffer[index]? :=
  getElem?_overwrite_outside (by rwa [length_littleEndian])

theorem getElem?_patchAll_of_untouched {targets : List Nat} {buffer : List UInt8} {index : Nat}
    (untouched : Untouched width targets index) :
    (patchAll width change targets buffer)[index]? = buffer[index]? := by
  induction targets generalizing buffer with
  | nil => rfl
  | cons target targets inductionHypothesis =>
      rw [Untouched, List.forall_mem_cons] at untouched
      rw [patchAll_cons, inductionHypothesis untouched.2, getElem?_patch_outside untouched.1]

/-- A range without a byte of a word keeps its content. -/
theorem slice_patchAll_of_untouched {targets : List Nat} {buffer : List UInt8}
    {offset count : Nat}
    (untouched : ∀ index, offset ≤ index → index < offset + count →
      Untouched width targets index) :
    slice (patchAll width change targets buffer) offset count = slice buffer offset count :=
  slice_congr fun index lower upper =>
    getElem?_patchAll_of_untouched (untouched index lower upper)

theorem slice_patch {buffer : List UInt8} {target : Nat} (fits : target + width ≤ buffer.length) :
    slice (patch width change buffer target) target width =
      littleEndian width (change (ofLittleEndian (slice buffer target width))) := by
  obtain ⟨word, isWord⟩ :
      ∃ word, littleEndian width (change (ofLittleEndian (slice buffer target width))) = word :=
    ⟨_, rfl⟩
  have sized : word.length = width := by rw [← isWord, length_littleEndian]
  rw [patch, isWord, ← sized]
  apply List.ext_getElem?
  intro index
  by_cases inside : index < word.length
  · rw [getElem?_slice inside, getElem?_overwrite_inside (by omega) (by omega) (by omega),
      Nat.add_sub_cancel_left]
  · rw [List.getElem?_eq_none (by simp; omega), List.getElem?_eq_none (by omega)]

theorem Apart.symm {first second : Nat} (apart : Apart width first second) :
    Apart width second first :=
  Or.symm apart

/-- A byte of one word is no byte of a word apart from it. -/
theorem Apart.outside {first second index : Nat} (apart : Apart width first second)
    (lower : first ≤ index) (upper : index < first + width) :
    index < second ∨ second + width ≤ index := by
  unfold Apart at apart
  omega

/-- Every word is changed exactly once. -/
theorem word_patchAll {targets : List Nat} {buffer : List UInt8} {target : Nat}
    (apart : targets.Pairwise (Apart width)) (fits : target + width ≤ buffer.length)
    (listed : target ∈ targets) :
    ofLittleEndian (slice (patchAll width change targets buffer) target width) =
      change (ofLittleEndian (slice buffer target width)) % 256 ^ width := by
  induction targets generalizing buffer with
  | nil => cases listed
  | cons first targets inductionHypothesis =>
      rw [List.pairwise_cons] at apart
      rw [patchAll_cons]
      rcases List.mem_cons.mp listed with rfl | later
      · rw [slice_patchAll_of_untouched fun index lower upper other listed =>
          (apart.1 other listed).outside lower upper, slice_patch fits,
          ofLittleEndian_littleEndian]
      · rw [inductionHypothesis apart.2 (by rwa [length_patch]) later]
        have same : slice (patch width change buffer first) target width =
            slice buffer target width :=
          slice_congr fun index lower upper =>
            getElem?_patch_outside ((apart.1 target later).symm.outside lower upper)
        rw [same]

end Bytes
