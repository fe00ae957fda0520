/-
A token bucket.

The bucket refills at a fixed rate up to its size, and a call takes one token if
there is one.  A refused call leaves the bucket as it was.  Two buckets are alike
from some time on if they would offer the same tokens at every later time; a
bucket left alone for long enough is like a full one.
-/

import Mathlib.Algebra.Order.Field.Basic

namespace Parley.Library

variable {K : Type*} [Field K] [LinearOrder K]

/-- The tokens that were left at the last call that took one, and its time. -/
structure Bucket (K : Type*) where
  tokens : K
  last : K

namespace Bucket

variable (rate size : K)

def full : Bucket K :=
  { tokens := size
    last := 0 }

/-- The tokens at a time; a clock that went back counts as no time passed. -/
def available (bucket : Bucket K) (now : K) : K :=
  min size (bucket.tokens + rate * (now - min bucket.last now))

def allow (bucket : Bucket K) (now : K) : Bucket K × Bool :=
  if 1 ≤ bucket.available rate size now then
    ({ tokens := bucket.available rate size now - 1
       last := now }, true)
  else (bucket, false)

def Alike (since : K) (bucket other : Bucket K) : Prop :=
  ∀ now, since ≤ now → bucket.available rate size now = other.available rate size now

variable {rate size} {since now : K} {bucket other third : Bucket K}

theorem Alike.refl (since : K) (bucket : Bucket K) : Alike rate size since bucket bucket :=
  fun _ _ => rfl

theorem Alike.symm (alike : Alike rate size since bucket other) :
    Alike rate size since other bucket :=
  fun now later => (alike now later).symm

theorem Alike.mono (alike : Alike rate size since bucket other) (later : since ≤ now) :
    Alike rate size now bucket other :=
  fun time after => alike time (later.trans after)

theorem Alike.allow (alike : Alike rate size since bucket other) (later : since ≤ now) :
    (bucket.allow rate size now).2 = (other.allow rate size now).2 ∧
      Alike rate size now (bucket.allow rate size now).1 (other.allow rate size now).1 := by
  unfold Bucket.allow
  rw [alike now later]
  split
  · exact ⟨rfl, Alike.refl now _⟩
  · exact ⟨rfl, alike.mono later⟩

/-- No tokens are owed, and the last taking was not after the time. -/
structure Sound (bucket : Bucket K) (now : K) : Prop where
  owed : 0 ≤ bucket.tokens
  past : bucket.last ≤ now

section

variable [IsStrictOrderedRing K]

theorem available_full (positive : 0 < rate) (now : K) :
    (full size).available rate size now = size := by
  unfold available full
  refine min_eq_left (le_add_of_nonneg_right (mul_nonneg positive.le ?_))
  exact sub_nonneg.mpr (min_le_right _ _)

theorem Sound.alike_full {idle : K} (sound : bucket.Sound since) (positive : 0 < rate)
    (refills : size ≤ rate * idle) (left : since + idle ≤ now) (passed : 0 ≤ idle) :
    Alike rate size now bucket (full size) := by
  intro time after
  rw [available_full positive]
  have past : bucket.last ≤ time := sound.past.trans ((le_add_of_nonneg_right passed).trans
    (left.trans after))
  have elapsed : idle ≤ time - bucket.last := by
    rw [le_sub_iff_add_le, add_comm]
    exact (add_le_add_left sound.past idle).trans (left.trans after)
  unfold available
  rw [min_eq_left past]
  refine min_eq_left ?_
  calc
    size ≤ rate * idle := refills
    _ ≤ rate * (time - bucket.last) := mul_le_mul_of_nonneg_left elapsed positive.le
    _ ≤ bucket.tokens + rate * (time - bucket.last) := le_add_of_nonneg_left sound.owed

theorem Sound.allow (sound : bucket.Sound since) (later : since ≤ now) :
    (bucket.allow rate size now).1.Sound now := by
  unfold Bucket.allow
  split
  · rename_i enough
    exact ⟨sub_nonneg.mpr enough, le_refl now⟩
  · exact ⟨sound.owed, sound.past.trans later⟩

theorem sound_full_allow (positive : 0 < rate) (holds : 1 ≤ size) (now : K) :
    ((full size).allow rate size now).1.Sound now := by
  unfold Bucket.allow
  rw [available_full positive, if_pos holds]
  exact ⟨sub_nonneg.mpr holds, le_refl now⟩

end

end Bucket

end Parley.Library
