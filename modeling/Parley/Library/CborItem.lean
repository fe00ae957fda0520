/-
CBOR data items.

Numbers, truth values, byte strings, text strings, arrays and maps, in their
shortest form.  A reader has a limit on the nesting and on the number of
elements, and refuses a text string that is not valid UTF-8.  Within the limits
it reads back what was written.  A record is a map with a number for each of its
fields.
-/

import Parley.Library.Cbor
import Parley.Library.Utf8

namespace Parley.Library.Cbor

inductive Item where
  | number (value : Nat)
  | bytes (content : List UInt8)
  | text (content : List UInt8)
  | array (items : List Item)
  | map (flat : List Item)
  | bool (value : Bool)

mutual

def Item.encode : Item → List UInt8
  | .number value => head 0 value
  | .bytes content => head 2 content.length ++ content
  | .text content => head 3 content.length ++ content
  | .array items => head 4 items.length ++ encodeAll items
  | .map flat => head 5 (flat.length / 2) ++ encodeAll flat
  | .bool value => head 7 (20 + value.toNat)

def encodeAll : List Item → List UInt8
  | [] => []
  | item :: rest => item.encode ++ encodeAll rest

end

theorem length_encode_number (value : Nat) :
    (Item.number value).encode.length = headSize value := by
  rw [Item.encode, length_head]

theorem length_encode_bytes (content : List UInt8) :
    (Item.bytes content).encode.length = stringSize content.length := by
  rw [Item.encode, List.length_append, length_head, stringSize]

theorem length_encode_text (content : List UInt8) :
    (Item.text content).encode.length = stringSize content.length := by
  rw [Item.encode, List.length_append, length_head, stringSize]

theorem length_encode_array (items : List Item) :
    (Item.array items).encode.length = headSize items.length + (encodeAll items).length := by
  rw [Item.encode, List.length_append, length_head]

theorem length_encode_map (flat : List Item) :
    (Item.map flat).encode.length = headSize (flat.length / 2) + (encodeAll flat).length := by
  rw [Item.encode, List.length_append, length_head]

theorem length_encode_bool (value : Bool) : (Item.bool value).encode.length = 1 := by
  cases value <;> rfl

theorem length_encodeAll_nil : (encodeAll []).length = 0 := rfl

theorem length_encodeAll_cons (item : Item) (rest : List Item) :
    (encodeAll (item :: rest)).length = item.encode.length + (encodeAll rest).length := by
  rw [encodeAll, List.length_append]

theorem length_le_length_encodeAll (items : List Item) : items.length ≤ (encodeAll items).length := by
  induction items with
  | nil => exact Nat.le_refl _
  | cons item rest ih =>
      have some_ : 0 < item.encode.length := by
        cases item with
        | number value => exact (headSize_pos _).trans_eq (length_encode_number value).symm
        | bool value => exact Nat.one_pos.trans_eq (length_encode_bool value).symm
        | bytes content =>
            exact (Nat.add_pos_left (headSize_pos _) _).trans_eq (length_encode_bytes content).symm
        | text content =>
            exact (Nat.add_pos_left (headSize_pos _) _).trans_eq (length_encode_text content).symm
        | array items =>
            exact (Nat.add_pos_left (headSize_pos _) _).trans_eq (length_encode_array items).symm
        | map flat =>
            exact (Nat.add_pos_left (headSize_pos _) _).trans_eq (length_encode_map flat).symm
      rw [length_encodeAll_cons, List.length_cons]
      omega

theorem length_encode_le_of_mem {item : Item} {flat : List Item} (member : item ∈ flat) :
    item.encode.length ≤ (Item.map flat).encode.length := by
  have within : item.encode.length ≤ (encodeAll flat).length := by
    induction flat with
    | nil => cases member
    | cons first rest ih =>
        rw [length_encodeAll_cons]
        rcases List.mem_cons.mp member with rfl | later
        · omega
        · have below := ih later
          omega
  rw [length_encode_map]
  omega

/-- The next `size` bytes. -/
def readBlock (size : Nat) (raw : List UInt8) : Option (List UInt8 × List UInt8) :=
  if raw.length < size then none else some (raw.take size, raw.drop size)

def readMany (readOne : List UInt8 → Option (Item × List UInt8)) :
    Nat → List UInt8 → Option (List Item × List UInt8)
  | 0, raw => some ([], raw)
  | count + 1, raw =>
      (readOne raw).bind (fun first =>
        (readMany readOne count first.2).map (fun later => (first.1 :: later.1, later.2)))

/-- One item, with at most `limit` elements in an array and pairs in a map, nested
at most `depth` deep. -/
def readItem (limit : Nat) : Nat → List UInt8 → Option (Item × List UInt8)
  | 0, _ => none
  | depth + 1, raw =>
      match readHead raw with
      | some (0, value, rest) => some (.number value, rest)
      | some (2, size, rest) => (readBlock size rest).map (fun block => (.bytes block.1, block.2))
      | some (3, size, rest) =>
          (readBlock size rest).bind (fun block =>
            if Utf8.Valid block.1 then some (.text block.1, block.2) else none)
      | some (4, count, rest) =>
          if count ≤ limit then
            (readMany (readItem limit depth) count rest).map (fun read => (.array read.1, read.2))
          else none
      | some (5, pairs, rest) =>
          if pairs ≤ limit then
            (readMany (readItem limit depth) (2 * pairs) rest).map
              (fun read => (.map read.1, read.2))
          else none
      | some (7, value, rest) =>
          -- of the simple values and floats only those of one byte
          if rest.length + 1 = raw.length ∧ (value = 20 ∨ value = 21) then
            some (.bool (value = 21), rest)
          else none
      | _ => none

def readBody (limit depth : Nat) (raw : List UInt8) : Option Item :=
  match readItem limit depth raw with
  | some (item, []) => some item
  | _ => none

def Fits (limit : Nat) : Nat → Item → Prop
  | 0, _ => False
  | _ + 1, .number value => value < 2 ^ 64
  | _ + 1, .bytes content => content.length < 2 ^ 64
  | _ + 1, .text content => content.length < 2 ^ 64 ∧ Utf8.Valid content
  | depth + 1, .array items => items.length ≤ limit ∧ ∀ item ∈ items, Fits limit depth item
  | depth + 1, .map flat =>
      (∃ pairs, flat.length = 2 * pairs ∧ pairs ≤ limit) ∧ ∀ item ∈ flat, Fits limit depth item
  | _ + 1, .bool _ => True

theorem readBlock_append (content rest : List UInt8) :
    readBlock content.length (content ++ rest) = some (content, rest) := by
  have enough : ¬(content ++ rest).length < content.length := by
    rw [List.length_append]
    omega
  rw [readBlock, if_neg enough, List.take_left, List.drop_left]

theorem readMany_encodeAll {readOne : List UInt8 → Option (Item × List UInt8)} {items : List Item}
    (reads : ∀ item ∈ items, ∀ rest, readOne (item.encode ++ rest) = some (item, rest))
    (rest : List UInt8) :
    readMany readOne items.length (encodeAll items ++ rest) = some (items, rest) := by
  induction items with
  | nil => rfl
  | cons item more ih =>
      have later := ih (fun other member => reads other (List.mem_cons_of_mem _ member))
      simp only [List.length_cons, readMany, encodeAll, List.append_assoc,
        reads item List.mem_cons_self, later, Option.bind_some, Option.map_some]

theorem readItem_encode {limit : Nat} (small : limit < 2 ^ 64) {depth : Nat} {item : Item}
    (fits : Fits limit depth item) (rest : List UInt8) :
    readItem limit depth (item.encode ++ rest) = some (item, rest) := by
  induction depth generalizing item rest with
  | zero => exact fits.elim
  | succ depth ih =>
      cases item with
      | number value =>
          simp only [Item.encode, readItem, readHead_head (show 0 < 8 by omega) fits]
      | bytes content =>
          have short : content.length < 2 ^ 64 := fits
          simp only [Item.encode, readItem, List.append_assoc,
            readHead_head (show 2 < 8 by omega) short, readBlock_append, Option.map_some]
      | text content =>
          obtain ⟨short, valid⟩ := fits
          simp only [Item.encode, readItem, List.append_assoc,
            readHead_head (show 3 < 8 by omega) short, readBlock_append, Option.bind_some,
            if_pos valid]
      | array items =>
          obtain ⟨few, each⟩ := fits
          have many := readMany_encodeAll (fun item member => ih (each item member)) rest
          simp only [Item.encode, readItem, List.append_assoc,
            readHead_head (show 4 < 8 by omega) (lt_of_le_of_lt few small), if_pos few, many,
            Option.map_some]
      | map flat =>
          obtain ⟨⟨pairs, even, few⟩, each⟩ := fits
          have half : flat.length / 2 = pairs := by omega
          have many := readMany_encodeAll (fun item member => ih (each item member)) rest
          rw [even] at many
          simp only [Item.encode, readItem, List.append_assoc, half,
            readHead_head (show 5 < 8 by omega) (lt_of_le_of_lt few small), if_pos few, many,
            Option.map_some]
      | bool value =>
          cases value <;>
            simp [Item.encode, readItem, readHead_head (show 7 < 8 by omega), length_head, headSize,
              Nat.add_comm]

theorem readBody_encode {limit : Nat} (small : limit < 2 ^ 64) {depth : Nat} {item : Item}
    (fits : Fits limit depth item) : readBody limit depth item.encode = some item := by
  have read := readItem_encode small fits []
  rw [List.append_nil] at read
  simp only [readBody, read]

/-- The value of a field of a record given as a flat list of pairs. -/
def field (key : Nat) : List Item → Option Item
  | .number name :: value :: rest => if name = key then some value else field key rest
  | _ :: _ :: rest => field key rest
  | _ => none

def numberField (key bound : Nat) (flat : List Item) : Option Nat :=
  match field key flat with
  | none => some 0
  | some (.number value) => if value < bound then some value else none
  | some _ => none

def textField (key : Nat) (flat : List Item) : Option (List UInt8) :=
  match field key flat with
  | none => some []
  | some (.text content) => some content
  | some _ => none

def bytesField (key : Nat) (flat : List Item) : Option (List UInt8) :=
  match field key flat with
  | none => some []
  | some (.bytes content) => some content
  | some _ => none

def boolField (key : Nat) (flat : List Item) : Option Bool :=
  match field key flat with
  | none => some false
  | some (.bool value) => some value
  | some _ => none

def ofMap {α : Type} (fields : List Item → Option α) : Item → Option α
  | .map flat => fields flat
  | _ => none

/-- A field that is left out of a record when it is empty, before the fields that
follow it. -/
def omitEmpty (key : Nat) (empty : Bool) (value : Item) (rest : List Item) : List Item :=
  if empty then rest else .number key :: value :: rest

section

variable {key other : Nat} {flat rest : List Item} {content : List UInt8}

theorem field_cons_self (value : Item) : field key (.number key :: value :: rest) = some value :=
  if_pos rfl

theorem field_cons_ne (differs : other ≠ key) (value : Item) :
    field key (.number other :: value :: rest) = field key rest :=
  if_neg differs

theorem field_omitEmpty_self (empty : Bool) (value : Item) :
    field key (omitEmpty key empty value rest) = if empty then field key rest else some value := by
  cases empty with
  | true => rfl
  | false => exact field_cons_self value

theorem field_omitEmpty_ne (differs : other ≠ key) (empty : Bool) (value : Item) :
    field key (omitEmpty other empty value rest) = field key rest := by
  cases empty with
  | true => rfl
  | false => exact field_cons_ne differs value

theorem forall_mem_omitEmpty {holds : Item → Prop} {empty : Bool} {value : Item} :
    (∀ item ∈ omitEmpty key empty value rest, holds item) ↔
      (empty = false → holds (.number key) ∧ holds value) ∧ ∀ item ∈ rest, holds item := by
  cases empty with
  | true => simp [omitEmpty]
  | false => simp [omitEmpty, and_assoc]

theorem length_omitEmpty (empty : Bool) (value : Item) :
    (omitEmpty key empty value rest).length = rest.length + 2 * (!empty).toNat := by
  cases empty with
  | true => rfl
  | false => rfl

theorem numberField_eq_some {bound value : Nat} (found : field key flat = some (.number value))
    (small : value < bound) :
    numberField key bound flat = some value := by
  simp only [numberField, found, if_pos small]

theorem textField_eq_some (found : field key flat = some (.text content)) :
    textField key flat = some content := by
  simp only [textField, found]

theorem bytesField_eq_some (found : field key flat = some (.bytes content)) :
    bytesField key flat = some content := by
  simp only [bytesField, found]

end

end Parley.Library.Cbor
