import ApiScope.Process.Mapper

/-!
# The walk over the relocations ends

A fixup may land in the block that lists it or in a later one, and the size of a
block is read again before it is used to go on.  The iterations of the loop are
counted here without a bound in advance: an iteration goes forward, or leaves a
block without a size behind, which the next one refuses.
-/

namespace ApiScope

open Bytes Logged

namespace ReflectiveDLLInject

variable {delta sizeOfImage relocationEnd : Nat}

/-- The condition of the loop over the blocks. -/
def Continues (relocationEnd reloc : Nat) (image : List UInt8) : Prop :=
  reloc + sizeofImageBaseRelocation ≤ relocationEnd ∧ wordAt image reloc 4 ≠ 0

instance (relocationEnd reloc : Nat) (image : List UInt8) :
    Decidable (Continues relocationEnd reloc image) :=
  inferInstanceAs (Decidable (_ ∧ _))

/-- The body of the loop; `none` is the return of `nullptr`. -/
def relocateBlock (delta sizeOfImage relocationEnd reloc : Nat) (image : List UInt8) :
    Option (Nat × List UInt8) :=
  let sizeOfBlock := wordAt image (reloc + 4) 4
  if sizeOfBlock < sizeofImageBaseRelocation ∨ relocationEnd < reloc + sizeOfBlock then none
  else
    let count := (sizeOfBlock - sizeofImageBaseRelocation) / 2
    (relocateEntries delta sizeOfImage reloc count 0 image).value.map fun image =>
      (reloc + wordAt image (reloc + 4) 4, image)

/-- The iterations that the loop makes from a block on, and what they lead to. -/
inductive Walks (delta sizeOfImage relocationEnd : Nat) :
    Nat → Nat → List UInt8 → Walk → Prop where
  | stops {reloc : Nat} {image : List UInt8} :
      ¬Continues relocationEnd reloc image →
      Walks delta sizeOfImage relocationEnd 0 reloc image (.finished image)
  | rejects {reloc : Nat} {image : List UInt8} :
      Continues relocationEnd reloc image →
      relocateBlock delta sizeOfImage relocationEnd reloc image = none →
      Walks delta sizeOfImage relocationEnd 1 reloc image .invalid
  | advances {iterations reloc next : Nat} {image image' : List UInt8} {outcome : Walk} :
      Continues relocationEnd reloc image →
      relocateBlock delta sizeOfImage relocationEnd reloc image = some (next, image') →
      Walks delta sizeOfImage relocationEnd iterations next image' outcome →
      Walks delta sizeOfImage relocationEnd (iterations + 1) reloc image outcome

/-! ## The walk of the mapper -/

/-- One pass of the mapper's loop is one iteration. -/
theorem value_relocateBlocks_succ (passes reloc : Nat) (image : List UInt8) :
    (relocateBlocks delta sizeOfImage relocationEnd (passes + 1) reloc image).value =
      if Continues relocationEnd reloc image then
        match relocateBlock delta sizeOfImage relocationEnd reloc image with
        | none => .invalid
        | some (next, image') =>
            (relocateBlocks delta sizeOfImage relocationEnd passes next image').value
      else .finished image := by
  by_cases continues : Continues relocationEnd reloc image
  · rw [if_pos continues, relocateBlocks, if_pos continues.1, value_bind, value_imageWord,
      if_neg continues.2, value_bind, value_imageWord]
    by_cases badBlock : wordAt image (reloc + 4) 4 < sizeofImageBaseRelocation ∨
        relocationEnd < reloc + wordAt image (reloc + 4) 4
    · have body : relocateBlock delta sizeOfImage relocationEnd reloc image = none :=
        if_pos badBlock
      rw [if_pos badBlock, body]
      rfl
    · have body : relocateBlock delta sizeOfImage relocationEnd reloc image =
          ((relocateEntries delta sizeOfImage reloc
            ((wordAt image (reloc + 4) 4 - sizeofImageBaseRelocation) / 2) 0 image).value.map
              fun image => (reloc + wordAt image (reloc + 4) 4, image)) := if_neg badBlock
      rw [if_neg badBlock, value_bind, body]
      cases (relocateEntries delta sizeOfImage reloc _ 0 image).value with
      | none => rfl
      | some relocated => rfl
  · rw [if_neg continues, relocateBlocks]
    by_cases room : reloc + sizeofImageBaseRelocation ≤ relocationEnd
    · have ends : wordAt image reloc 4 = 0 := by
        by_contra page
        exact continues ⟨room, page⟩
      rw [if_pos room, value_bind, value_imageWord, if_pos ends]
      rfl
    · rw [if_neg room]
      rfl

/-- The mapper's loop goes where the iterations lead, whatever bound it is given. -/
theorem Walks.value_relocateBlocks {iterations reloc : Nat} {image : List UInt8} {outcome : Walk}
    (walks : Walks delta sizeOfImage relocationEnd iterations reloc image outcome) {passes : Nat}
    (enough : iterations < passes) :
    (relocateBlocks delta sizeOfImage relocationEnd passes reloc image).value = outcome := by
  induction walks generalizing passes with
  | stops ends =>
      obtain ⟨passes, rfl⟩ := Nat.exists_eq_add_one_of_ne_zero (Nat.ne_zero_of_lt enough)
      rw [value_relocateBlocks_succ, if_neg ends]
  | rejects continues refused =>
      obtain ⟨passes, rfl⟩ := Nat.exists_eq_add_one_of_ne_zero (Nat.ne_zero_of_lt enough)
      rw [value_relocateBlocks_succ, if_pos continues, refused]
  | advances continues advanced _ inductionHypothesis =>
      obtain ⟨passes, rfl⟩ := Nat.exists_eq_add_one_of_ne_zero (Nat.ne_zero_of_lt enough)
      rw [value_relocateBlocks_succ, if_pos continues, advanced]
      exact inductionHypothesis (Nat.lt_of_succ_lt_succ enough)

/-! ## The number of iterations -/

/-- A block that has lost its size is refused. -/
theorem relocateBlock_stuck {reloc : Nat} {image : List UInt8}
    (stuck : wordAt image (reloc + 4) 4 = 0) :
    relocateBlock delta sizeOfImage relocationEnd reloc image = none := by
  unfold relocateBlock
  rw [stuck]
  exact if_pos (Or.inl (by decide))

/-- The size by which the body advances is that in the image it leaves behind. -/
theorem relocateBlock_next {reloc next : Nat} {image image' : List UInt8}
    (advanced : relocateBlock delta sizeOfImage relocationEnd reloc image =
      some (next, image')) : next = reloc + wordAt image' (reloc + 4) 4 := by
  unfold relocateBlock at advanced
  dsimp only at advanced
  split_ifs at advanced
  obtain ⟨relocated, _, isNext⟩ := Option.map_eq_some_iff.mp advanced
  obtain ⟨rfl, rfl⟩ := Prod.mk.inj isNext
  rfl

/-- The iterations from a block on, by what is left of the directory. -/
theorem exists_walks (room reloc : Nat) (image : List UInt8)
    (bound : relocationEnd ≤ reloc + room) :
    ∃ iterations ≤ room, ∃ outcome,
      Walks delta sizeOfImage relocationEnd iterations reloc image outcome ∧
        outcome ≠ .unfinished := by
  induction room generalizing reloc image with
  | zero =>
      have ends : ¬Continues relocationEnd reloc image := by
        intro continues
        have inside := continues.1
        rw [sizeofImageBaseRelocation] at inside
        omega
      exact ⟨0, le_rfl, _, .stops ends, fun ended => nomatch ended⟩
  | succ room inductionHypothesis =>
      by_cases continues : Continues relocationEnd reloc image
      · have inside := continues.1
        rw [sizeofImageBaseRelocation] at inside
        cases body : relocateBlock delta sizeOfImage relocationEnd reloc image with
        | none => exact ⟨1, by omega, _, .rejects continues body, fun ended => nomatch ended⟩
        | some advanced =>
            obtain ⟨next, image'⟩ := advanced
            have isNext := relocateBlock_next body
            by_cases stuck : wordAt image' (reloc + 4) 4 = 0
            · -- the same block again, which ends the loop or is refused
              rw [stuck, Nat.add_zero] at isNext
              subst isNext
              by_cases again : Continues relocationEnd next image'
              · exact ⟨2, by omega, _, .advances continues body
                  (.rejects again (relocateBlock_stuck stuck)), fun ended => nomatch ended⟩
              · exact ⟨1, by omega, _, .advances continues body (.stops again),
                  fun ended => nomatch ended⟩
            · obtain ⟨iterations, few, outcome, walks, ends⟩ :=
                inductionHypothesis next image' (by omega)
              exact ⟨iterations + 1, by omega, outcome, .advances continues body walks, ends⟩
      · exact ⟨0, Nat.zero_le _, _, .stops continues, fun ended => nomatch ended⟩

/-- Whatever the fixups make of the directory, the loop makes no more iterations
than the directory has bytes. -/
theorem walk_ends (delta sizeOfImage start size : Nat) (image : List UInt8) :
    ∃ iterations ≤ size, ∃ outcome,
      Walks delta sizeOfImage (start + size) iterations start image outcome ∧
        outcome ≠ .unfinished ∧
        ∀ passes, iterations < passes →
          (relocateBlocks delta sizeOfImage (start + size) passes start image).value = outcome := by
  obtain ⟨iterations, few, outcome, walks, ends⟩ :=
    @exists_walks delta sizeOfImage (start + size) size start image le_rfl
  exact ⟨iterations, few, outcome, walks, ends, fun _ enough => walks.value_relocateBlocks enough⟩

end ReflectiveDLLInject

end ApiScope
