/-
Texts over bytes: splitting at a separator, decimal integers, hexadecimal and
unpadded URL-safe base64.

The functions follow the documented behaviour of the standard library of Go:
`cut` splits at the first separator, `parseInt64` accepts an optional sign and
refuses what does not fit in 64 bits, and the base64 decoder skips line breaks
and ignores the unused low bits of the last character.  The results are the
round trips, and which bytes each encoder can write.
-/

import Mathlib.Algebra.Order.Group.Int
import Mathlib.Tactic.NormNum

namespace Parley.Library

def ascii (text : String) : List UInt8 :=
  text.toList.map (fun char => UInt8.ofNat char.toNat)

def cut (separator : UInt8) : List UInt8 → Option (List UInt8 × List UInt8)
  | [] => none
  | byte :: rest =>
      if byte = separator then some ([], rest)
      else (cut separator rest).map (fun parts => (byte :: parts.1, parts.2))

variable {separator : UInt8} {before after first last : List UInt8}

theorem cut_of_notMem {text : List UInt8} (absent : separator ∉ text) :
    cut separator text = none := by
  induction text with
  | nil => rfl
  | cons byte rest ih =>
      rw [List.mem_cons, not_or] at absent
      rw [cut, if_neg (Ne.symm absent.1), ih absent.2]
      rfl

theorem cut_append (separator : UInt8) (before after : List UInt8)
    (absent : separator ∉ before) :
    cut separator (before ++ separator :: after) = some (before, after) := by
  induction before with
  | nil => simp [cut]
  | cons byte before ih =>
      rw [List.mem_cons, not_or] at absent
      rw [List.cons_append, cut, if_neg (Ne.symm absent.1), ih absent.2]
      rfl

theorem append_separator_inj (absent : separator ∉ before) (absentFirst : separator ∉ first)
    (same : before ++ separator :: after = first ++ separator :: last) :
    before = first ∧ after = last := by
  have parts := congrArg (cut separator) same
  rw [cut_append separator before after absent, cut_append separator first last absentFirst] at parts
  exact Prod.mk.inj (Option.some.inj parts)

theorem append_last_separator_inj (absent : separator ∉ after) (absentLast : separator ∉ last)
    (same : before ++ separator :: after = first ++ separator :: last) :
    before = first ∧ after = last := by
  have reversed := congrArg List.reverse same
  simp only [List.reverse_append, List.reverse_cons, List.append_assoc,
    List.singleton_append] at reversed
  obtain ⟨sameAfter, sameBefore⟩ := append_separator_inj
    (fun member => absent (List.mem_reverse.mp member))
    (fun member => absentLast (List.mem_reverse.mp member)) reversed
  exact ⟨List.reverse_inj.mp sameBefore, List.reverse_inj.mp sameAfter⟩

theorem mem_after_of_cut_append (separator : UInt8) (before after first last : List UInt8)
    (present : separator ∈ before)
    (split : cut separator (before ++ separator :: after) = some (first, last)) :
    separator ∈ last := by
  induction before generalizing first with
  | nil => cases present
  | cons byte before ih =>
      rw [List.cons_append, cut] at split
      split at split
      · cases split
        exact List.mem_append_right before List.mem_cons_self
      · rename_i differs
        obtain ⟨parts, found, same⟩ := Option.map_eq_some_iff.mp split
        have later : separator ∈ before :=
          (List.mem_cons.mp present).resolve_left (fun eq => differs eq.symm)
        cases same
        exact ih parts.1 later found

def minusSign : UInt8 := 45

def plusSign : UInt8 := 43

def digitByte (digit : Nat) : UInt8 :=
  UInt8.ofNat (48 + digit)

/-- The decimal digits of a number, most significant first.  The fuel bounds the
number of digits. -/
def digitBytes : Nat → Nat → List UInt8
  | 0, _ => []
  | fuel + 1, number =>
      if number < 10 then [digitByte number]
      else digitBytes fuel (number / 10) ++ [digitByte (number % 10)]

def formatNat (number : Nat) : List UInt8 :=
  digitBytes (number + 1) number

def formatInt (number : Int) : List UInt8 :=
  if number < 0 then minusSign :: formatNat number.natAbs
  else formatNat number.natAbs

def readDigit (soFar : Option Nat) (byte : UInt8) : Option Nat :=
  soFar.bind (fun value =>
    if 48 ≤ byte.toNat ∧ byte.toNat ≤ 57 then some (10 * value + (byte.toNat - 48)) else none)

def parseNat (text : List UInt8) : Option Nat :=
  if text = [] then none else text.foldl readDigit (some 0)

def parseInt64 (text : List UInt8) : Option Int :=
  match text with
  | [] => none
  | first :: rest =>
      if first = minusSign then
        (parseNat rest).bind (fun value =>
          if value ≤ 2 ^ 63 then some (-(value : Int)) else none)
      else
        (parseNat (if first = plusSign then rest else text)).bind (fun value =>
          if value < 2 ^ 63 then some (value : Int) else none)

theorem digitByte_toNat (digit : Nat) (small : digit < 10) :
    (digitByte digit).toNat = 48 + digit := by
  unfold digitByte
  rw [UInt8.toNat_ofNat']
  omega

theorem readDigit_digitByte (value digit : Nat) (small : digit < 10) :
    readDigit (some value) (digitByte digit) = some (10 * value + digit) := by
  simp only [readDigit, Option.bind_some, digitByte_toNat digit small]
  rw [if_pos (by omega)]
  congr 1
  omega

theorem foldl_digitBytes (fuel number : Nat) (enough : number < fuel) :
    (digitBytes fuel number).foldl readDigit (some 0) = some number := by
  induction fuel generalizing number with
  | zero => omega
  | succ fuel ih =>
      unfold digitBytes
      split
      · rename_i small
        simp only [List.foldl_cons, List.foldl_nil]
        rw [readDigit_digitByte 0 number small]
        congr 1
        omega
      · rename_i large
        rw [List.foldl_append, ih (number / 10) (by omega)]
        simp only [List.foldl_cons, List.foldl_nil]
        rw [readDigit_digitByte _ _ (Nat.mod_lt _ (by omega))]
        congr 1
        omega

theorem digitBytes_ne_nil (fuel number : Nat) : digitBytes (fuel + 1) number ≠ [] := by
  unfold digitBytes
  split <;> simp

theorem parseNat_formatNat (number : Nat) : parseNat (formatNat number) = some number := by
  unfold parseNat formatNat
  rw [if_neg (digitBytes_ne_nil number number)]
  exact foldl_digitBytes (number + 1) number (Nat.lt_succ_self number)

theorem digitBytes_range (fuel number : Nat) (byte : UInt8)
    (member : byte ∈ digitBytes fuel number) : 48 ≤ byte.toNat ∧ byte.toNat ≤ 57 := by
  induction fuel generalizing number with
  | zero => cases member
  | succ fuel ih =>
      unfold digitBytes at member
      split at member
      · rename_i small
        rw [List.mem_singleton] at member
        rw [member, digitByte_toNat number small]
        omega
      · rcases List.mem_append.mp member with earlier | last
        · exact ih (number / 10) earlier
        · rw [List.mem_singleton] at last
          rw [last, digitByte_toNat _ (Nat.mod_lt _ (by omega))]
          omega

theorem formatNat_injective {first second : Nat} (same : formatNat first = formatNat second) :
    first = second := by
  have parsed := congrArg parseNat same
  rw [parseNat_formatNat, parseNat_formatNat] at parsed
  exact Option.some.inj parsed

theorem parseNat_range (text : List UInt8) (value : Nat) (parsed : parseNat text = some value) :
    ∀ byte ∈ text, 48 ≤ byte.toNat ∧ byte.toNat ≤ 57 := by
  have stuck : ∀ rest : List UInt8, rest.foldl readDigit none = none := by
    intro rest
    induction rest with
    | nil => rfl
    | cons head tail ih => exact ih
  have scan : ∀ (rest : List UInt8) (start : Nat), rest.foldl readDigit (some start) = some value →
      ∀ byte ∈ rest, 48 ≤ byte.toNat ∧ byte.toNat ≤ 57 := by
    intro rest
    induction rest with
    | nil =>
        intro start _ byte member
        cases member
    | cons head tail ih =>
        intro start folded byte member
        simp only [List.foldl_cons, readDigit, Option.bind_some] at folded
        split at folded
        · rename_i inRange
          rcases List.mem_cons.mp member with same | later
          · rw [same]
            exact inRange
          · exact ih _ folded byte later
        · rw [stuck] at folded
          cases folded
  unfold parseNat at parsed
  split at parsed
  · cases parsed
  · exact scan text 0 parsed

/-- A text that is read as an integer has only digits after its first byte, and
its first byte is a digit or a sign. -/
theorem parseInt64_range (text : List UInt8) (value : Int)
    (parsed : parseInt64 text = some value) (byte : UInt8) (member : byte ∈ text) :
    byte = minusSign ∨ byte = plusSign ∨ (48 ≤ byte.toNat ∧ byte.toNat ≤ 57) := by
  unfold parseInt64 at parsed
  split at parsed
  · cases parsed
  · rename_i first rest
    split at parsed
    · rename_i sign
      obtain ⟨number, digits, _⟩ := Option.bind_eq_some_iff.mp parsed
      rcases List.mem_cons.mp member with same | later
      · exact Or.inl (same.trans sign)
      · exact Or.inr (Or.inr (parseNat_range rest number digits byte later))
    · obtain ⟨number, digits, _⟩ := Option.bind_eq_some_iff.mp parsed
      split at digits
      · rename_i sign
        rcases List.mem_cons.mp member with same | later
        · exact Or.inr (Or.inl (same.trans sign))
        · exact Or.inr (Or.inr (parseNat_range rest number digits byte later))
      · exact Or.inr (Or.inr (parseNat_range _ number digits byte member))

theorem formatNat_cons (number : Nat) :
    ∃ first rest, formatNat number = first :: rest ∧ 48 ≤ first.toNat ∧ first.toNat ≤ 57 := by
  cases digits : formatNat number with
  | nil => exact absurd digits (digitBytes_ne_nil number number)
  | cons first rest =>
      refine ⟨first, rest, rfl, ?_⟩
      apply digitBytes_range (number + 1) number first
      rw [show digitBytes (number + 1) number = first :: rest from digits]
      exact List.mem_cons_self

theorem parseInt64_formatInt (number : Int) (lower : -2 ^ 63 ≤ number)
    (upper : number < 2 ^ 63) : parseInt64 (formatInt number) = some number := by
  unfold formatInt
  split
  · rename_i negative
    simp only [parseInt64, if_true, parseNat_formatNat, Option.bind_some]
    rw [if_pos (by omega)]
    congr 1
    omega
  · rename_i nonnegative
    obtain ⟨first, rest, digits, low, high⟩ := formatNat_cons number.natAbs
    have notMinus : first ≠ minusSign := by
      intro same
      rw [same] at low
      exact absurd low (by decide)
    have notPlus : first ≠ plusSign := by
      intro same
      rw [same] at low
      exact absurd low (by decide)
    have parsed := parseNat_formatNat number.natAbs
    rw [digits] at parsed ⊢
    simp only [parseInt64, if_neg notMinus, if_neg notPlus, parsed, Option.bind_some]
    rw [if_pos (by omega)]
    congr 1
    omega

def hexDigit (value : Nat) : UInt8 :=
  if value < 10 then UInt8.ofNat (48 + value) else UInt8.ofNat (97 + (value - 10))

def hexEncode : List UInt8 → List UInt8
  | [] => []
  | byte :: rest =>
      hexDigit (byte.toNat / 16) :: hexDigit (byte.toNat % 16) :: hexEncode rest

theorem hexDigit_alphanumeric : ∀ value < 16,
    (48 ≤ (hexDigit value).toNat ∧ (hexDigit value).toNat ≤ 57) ∨
      (97 ≤ (hexDigit value).toNat ∧ (hexDigit value).toNat ≤ 102) := by
  decide

theorem hexEncode_range (bytes : List UInt8) (byte : UInt8) (member : byte ∈ hexEncode bytes) :
    (48 ≤ byte.toNat ∧ byte.toNat ≤ 57) ∨ (97 ≤ byte.toNat ∧ byte.toNat ≤ 102) := by
  induction bytes with
  | nil => cases member
  | cons first rest ih =>
      have bound : first.toNat < 256 := first.toNat_lt
      simp only [hexEncode, List.mem_cons] at member
      rcases member with high | low | later
      · rw [high]
        exact hexDigit_alphanumeric _ (by omega)
      · rw [low]
        exact hexDigit_alphanumeric _ (by omega)
      · exact ih later

def sextetByte (value : Nat) : UInt8 :=
  if value < 26 then UInt8.ofNat (65 + value)
  else if value < 52 then UInt8.ofNat (97 + (value - 26))
  else if value < 62 then UInt8.ofNat (48 + (value - 52))
  else if value = 62 then 45
  else 95

def byteSextet (byte : UInt8) : Option Nat :=
  let code := byte.toNat
  if 65 ≤ code ∧ code ≤ 90 then some (code - 65)
  else if 97 ≤ code ∧ code ≤ 122 then some (code - 97 + 26)
  else if 48 ≤ code ∧ code ≤ 57 then some (code - 48 + 52)
  else if code = 45 then some 62
  else if code = 95 then some 63
  else none

/-- Three bytes are four sextets; a rest of one or two bytes is padded with zero
bits to two or three. -/
def sextets : List UInt8 → List Nat
  | [] => []
  | [a] => [a.toNat / 4, a.toNat % 4 * 16]
  | [a, b] => [a.toNat / 4, a.toNat % 4 * 16 + b.toNat / 16, b.toNat % 16 * 4]
  | a :: b :: c :: rest =>
      a.toNat / 4 :: (a.toNat % 4 * 16 + b.toNat / 16) :: (b.toNat % 16 * 4 + c.toNat / 64) ::
        c.toNat % 64 :: sextets rest

def joinSextets : List Nat → Option (List UInt8)
  | [] => some []
  | [_] => none
  | [w, x] => some [UInt8.ofNat (w * 4 + x / 16)]
  | [w, x, y] => some [UInt8.ofNat (w * 4 + x / 16), UInt8.ofNat (x % 16 * 16 + y / 4)]
  | w :: x :: y :: z :: rest =>
      (joinSextets rest).map (fun bytes =>
        UInt8.ofNat (w * 4 + x / 16) :: UInt8.ofNat (x % 16 * 16 + y / 4) ::
          UInt8.ofNat (y % 4 * 64 + z) :: bytes)

def base64Encode (bytes : List UInt8) : List UInt8 :=
  (sextets bytes).map sextetByte

def lineBreak (byte : UInt8) : Bool :=
  byte == 10 || byte == 13

def base64Decode (text : List UInt8) : Option (List UInt8) :=
  ((text.filter (fun byte => !lineBreak byte)).mapM byteSextet).bind joinSextets

theorem sextets_lt (bytes : List UInt8) : ∀ value ∈ sextets bytes, value < 64 := by
  induction bytes using sextets.induct with
  | case1 => simp [sextets]
  | case2 a =>
      have := a.toNat_lt
      simp only [sextets, List.mem_cons, List.not_mem_nil, or_false, forall_eq_or_imp, forall_eq]
      omega
  | case3 a b =>
      have := a.toNat_lt
      have := b.toNat_lt
      simp only [sextets, List.mem_cons, List.not_mem_nil, or_false, forall_eq_or_imp, forall_eq]
      omega
  | case4 a b c rest ih =>
      have := a.toNat_lt
      have := b.toNat_lt
      have := c.toNat_lt
      simp only [sextets, List.mem_cons, forall_eq_or_imp]
      exact ⟨by omega, by omega, by omega, by omega, ih⟩

theorem joinSextets_sextets (bytes : List UInt8) : joinSextets (sextets bytes) = some bytes := by
  have back : ∀ (byte : UInt8) (value : Nat), value = byte.toNat → UInt8.ofNat value = byte := by
    intro byte value same
    rw [same, UInt8.ofNat_toNat]
  induction bytes using sextets.induct with
  | case1 => rfl
  | case2 a =>
      simp only [sextets, joinSextets]
      rw [back a _ (by omega)]
  | case3 a b =>
      have := b.toNat_lt
      simp only [sextets, joinSextets]
      rw [back a _ (by omega), back b _ (by omega)]
  | case4 a b c rest ih =>
      have := b.toNat_lt
      have := c.toNat_lt
      simp only [sextets, joinSextets, ih, Option.map_some]
      rw [back a _ (by omega), back b _ (by omega), back c _ (by omega)]

theorem byteSextet_sextetByte : ∀ value < 64, byteSextet (sextetByte value) = some value := by
  decide

theorem sextetByte_plain : ∀ value < 64,
    lineBreak (sextetByte value) = false ∧ sextetByte value ≠ 46 := by
  decide

theorem mapM_byteSextet (values : List Nat) (small : ∀ value ∈ values, value < 64) :
    (values.map sextetByte).mapM byteSextet = some values := by
  induction values with
  | nil => rfl
  | cons value values ih =>
      rw [List.forall_mem_cons] at small
      rw [List.map_cons, List.mapM_cons, byteSextet_sextetByte value small.1, ih small.2]
      rfl

theorem base64Encode_plain (bytes : List UInt8) (byte : UInt8)
    (member : byte ∈ base64Encode bytes) : lineBreak byte = false ∧ byte ≠ 46 := by
  obtain ⟨value, present, same⟩ := List.mem_map.mp member
  rw [← same]
  exact sextetByte_plain value (sextets_lt bytes value present)

theorem base64Decode_base64Encode (bytes : List UInt8) :
    base64Decode (base64Encode bytes) = some bytes := by
  have kept : (base64Encode bytes).filter (fun byte => !lineBreak byte) = base64Encode bytes := by
    rw [List.filter_eq_self]
    intro byte member
    rw [(base64Encode_plain bytes byte member).1]
    rfl
  unfold base64Decode
  rw [kept, base64Encode, mapM_byteSextet _ (sextets_lt bytes), Option.bind_some,
    joinSextets_sextets]

end Parley.Library
