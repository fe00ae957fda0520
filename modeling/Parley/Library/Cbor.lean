/-
Heads of CBOR data items.

A data item starts with a head: a major type in the upper three bits of the first
byte and an argument, either in its lower five bits or in the one, two, four or
eight bytes that follow.  Deterministic encoding takes the shortest form; a
reader accepts every form.
-/

import Mathlib.Algebra.Group.Nat.Defs
import Mathlib.Data.List.Basic

namespace Parley.Library.Cbor

/-- The low `width` bytes of a number, most significant first. -/
def bigEndian : Nat → Nat → List UInt8
  | 0, _ => []
  | width + 1, value => bigEndian width (value / 2 ^ 8) ++ [UInt8.ofNat value]

def readBigEndian (bytes : List UInt8) : Nat :=
  bytes.foldl (fun value byte => value * 2 ^ 8 + byte.toNat) 0

@[simp] theorem length_bigEndian (width value : Nat) : (bigEndian width value).length = width := by
  induction width generalizing value with
  | zero => rfl
  | succ width ih => simp only [bigEndian, List.length_append, ih, List.length_singleton]

theorem readBigEndian_bigEndian (width value : Nat) (fits : value < 2 ^ (8 * width)) :
    readBigEndian (bigEndian width value) = value := by
  induction width generalizing value with
  | zero =>
      have none : value = 0 := by simpa using fits
      rw [none]
      rfl
  | succ width ih =>
      have upper : value / 2 ^ 8 < 2 ^ (8 * width) := by
        apply Nat.div_lt_of_lt_mul
        rw [← Nat.pow_add, Nat.add_comm]
        exact fits
      have rest := ih (value / 2 ^ 8) upper
      unfold readBigEndian at rest ⊢
      rw [bigEndian, List.foldl_append, rest, List.foldl_cons, List.foldl_nil, UInt8.toNat_ofNat']
      omega

def headSize (argument : Nat) : Nat :=
  if argument < 24 then 1
  else if argument < 2 ^ 8 then 2
  else if argument < 2 ^ 16 then 3
  else if argument < 2 ^ 32 then 5
  else 9

theorem headSize_pos (argument : Nat) : 0 < headSize argument := by
  unfold headSize
  repeat' split
  all_goals omega

theorem headSize_le_five {argument : Nat} (small : argument < 2 ^ 32) : headSize argument ≤ 5 := by
  unfold headSize
  split
  · omega
  · split
    · omega
    · split <;> omega

theorem headSize_le_nine (argument : Nat) : headSize argument ≤ 9 := by
  unfold headSize
  split
  · omega
  · split
    · omega
    · split
      · omega
      · split <;> omega

/-- The size of a string of this length with its head. -/
def stringSize (length : Nat) : Nat := headSize length + length

theorem le_stringSize (length : Nat) : length ≤ stringSize length := Nat.le_add_left _ _

def leadByte (major info : Nat) : UInt8 := UInt8.ofNat (major * 32 + info)

def head (major argument : Nat) : List UInt8 :=
  if argument < 24 then [leadByte major argument]
  else if argument < 2 ^ 8 then leadByte major 24 :: bigEndian 1 argument
  else if argument < 2 ^ 16 then leadByte major 25 :: bigEndian 2 argument
  else if argument < 2 ^ 32 then leadByte major 26 :: bigEndian 4 argument
  else leadByte major 27 :: bigEndian 8 argument

theorem length_head (major argument : Nat) : (head major argument).length = headSize argument := by
  unfold head headSize
  split
  · rfl
  · split
    · rfl
    · split
      · rfl
      · split <;> rfl

def readArgument (major width : Nat) (bytes : List UInt8) : Option (Nat × Nat × List UInt8) :=
  if bytes.length < width then none
  else some (major, readBigEndian (bytes.take width), bytes.drop width)

def readHead : List UInt8 → Option (Nat × Nat × List UInt8)
  | [] => none
  | lead :: rest =>
      let major := lead.toNat / 32
      let info := lead.toNat % 32
      if info < 24 then some (major, info, rest)
      else if info = 24 then readArgument major 1 rest
      else if info = 25 then readArgument major 2 rest
      else if info = 26 then readArgument major 4 rest
      else if info = 27 then readArgument major 8 rest
      else none

theorem readArgument_bigEndian (major width value : Nat) (fits : value < 2 ^ (8 * width))
    (rest : List UInt8) :
    readArgument major width (bigEndian width value ++ rest) = some (major, value, rest) := by
  have long : ¬ (bigEndian width value ++ rest).length < width := by
    rw [List.length_append, length_bigEndian]
    omega
  have front : (bigEndian width value ++ rest).take width = bigEndian width value :=
    List.take_left' (length_bigEndian width value)
  have back : (bigEndian width value ++ rest).drop width = rest :=
    List.drop_left' (length_bigEndian width value)
  rw [readArgument, if_neg long, front, back, readBigEndian_bigEndian width value fits]

theorem leadByte_toNat {major info : Nat} (small : major < 8) (low : info < 32) :
    (leadByte major info).toNat / 32 = major ∧ (leadByte major info).toNat % 32 = info := by
  rw [leadByte, UInt8.toNat_ofNat']
  omega

theorem readHead_head {major argument : Nat} (small : major < 8) (fits : argument < 2 ^ 64)
    (rest : List UInt8) :
    readHead (head major argument ++ rest) = some (major, argument, rest) := by
  unfold head
  split
  · rename_i low
    obtain ⟨isMajor, isInfo⟩ := leadByte_toNat small (show argument < 32 by omega)
    simp only [List.cons_append, List.nil_append, readHead, isMajor, isInfo, if_pos low]
  · split
    · rename_i below
      obtain ⟨isMajor, isInfo⟩ := leadByte_toNat small (show 24 < 32 by omega)
      simp only [List.cons_append, readHead, isMajor, isInfo]
      exact readArgument_bigEndian major 1 argument below rest
    · split
      · rename_i below
        obtain ⟨isMajor, isInfo⟩ := leadByte_toNat small (show 25 < 32 by omega)
        simp only [List.cons_append, readHead, isMajor, isInfo]
        exact readArgument_bigEndian major 2 argument below rest
      · split
        · rename_i below
          obtain ⟨isMajor, isInfo⟩ := leadByte_toNat small (show 26 < 32 by omega)
          simp only [List.cons_append, readHead, isMajor, isInfo]
          exact readArgument_bigEndian major 4 argument below rest
        · obtain ⟨isMajor, isInfo⟩ := leadByte_toNat small (show 27 < 32 by omega)
          simp only [List.cons_append, readHead, isMajor, isInfo]
          exact readArgument_bigEndian major 8 argument fits rest

end Parley.Library.Cbor
