/-!
# Words of flags

A word that is composed of flags with "or", and read back flag by flag.

## Main results

* `has_or`: what a composed word has is what its parts have.
* `and_not_of_not_has`: a mask that a word has nothing of takes nothing from it.
-/

namespace Cosca.Verified.Flags

/-- Some of the flags are set in the word. -/
def has (word flags : UInt32) : Bool :=
  word &&& flags != 0

theorem has_zero (flags : UInt32) : has 0 flags = false := by
  simp [has]

theorem or_and (a b c : UInt32) : (a ||| b) &&& c = (a &&& c) ||| (b &&& c) :=
  UInt32.toBitVec_inj.mp BitVec.and_or_distrib_right

theorem and_or (a b c : UInt32) : a &&& (b ||| c) = (a &&& b) ||| (a &&& c) :=
  UInt32.toBitVec_inj.mp BitVec.and_or_distrib_left

theorem has_or (a b flags : UInt32) :
    has (a ||| b) flags = (has a flags || has b flags) := by
  rw [Bool.eq_iff_iff]
  simp only [has, or_and, bne_iff_ne, ne_eq, UInt32.or_eq_zero_iff,
    Bool.or_eq_true, Decidable.not_and_iff_not_or_not]

/-- A word has some of two groups of flags if it has some of either. -/
theorem has_or_flags (word a b : UInt32) :
    has word (a ||| b) = (has word a || has word b) := by
  rw [Bool.eq_iff_iff]
  simp only [has, and_or, bne_iff_ne, ne_eq, UInt32.or_eq_zero_iff,
    Bool.or_eq_true, Decidable.not_and_iff_not_or_not]

theorem has_ite (c : Prop) [Decidable c] (a b flags : UInt32) :
    has (if c then a else b) flags = if c then has a flags else has b flags :=
  apply_ite (has · flags) c a b

/-- The flags of a list in one word. -/
def union (flags : List UInt32) : UInt32 :=
  flags.foldr (· ||| ·) 0

/-- A word has something of a list of flags if it has something of one. -/
theorem has_union (word : UInt32) (flags : List UInt32) :
    has word (union flags) = flags.any (has word) := by
  induction flags with
  | nil => simp [union, has]
  | cons flag flags ih =>
      rw [union, List.foldr_cons, has_or_flags, List.any_cons]
      exact congrArg _ ih

/-- A mask that the word has nothing of takes nothing from it. -/
theorem and_not_of_not_has {word flags : UInt32} (h : has word flags = false) :
    word &&& ~~~flags = word := by
  have hzero : word &&& flags = 0 := by simpa [has] using h
  calc word &&& ~~~flags = (word &&& flags) ||| (word &&& ~~~flags) := by
        rw [hzero, UInt32.zero_or]
    _ = word &&& (flags ||| ~~~flags) := (and_or ..).symm
    _ = word := by
        rw [UInt32.or_not_self]
        exact UInt32.and_neg_one

end Cosca.Verified.Flags
