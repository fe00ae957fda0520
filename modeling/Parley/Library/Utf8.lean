/-
Byte strings and their runes.

A string of Go is any list of bytes.  Reading it rune by rune cuts it into pieces:
the encoding of a rune, or one byte that does not begin one and reads as U+FFFD.
The functions follow the documented behaviour of the packages `unicode/utf8` and
`strings`: trimming keeps the bytes of what is left, and mapping writes the
replacement character for every such byte.
-/

import Parley.Library.Trim

namespace Parley.Library.Utf8

def encodeRune (r : Char) : List UInt8 :=
  String.utf8EncodeChar r

def encode (runes : List Char) : List UInt8 :=
  runes.flatMap encodeRune

def firstRune (s : List UInt8) : Option Char :=
  s.toByteArray.utf8DecodeChar? 0

def runeError : Char := '\uFFFD'

theorem firstRune_encodeRune (r : Char) (rest : List UInt8) :
    firstRune (encodeRune r ++ rest) = some r := by
  unfold firstRune encodeRune
  rw [List.toByteArray_append]
  exact ByteArray.utf8DecodeChar?_utf8EncodeChar_append

variable {s : List UInt8} {first last : List Piece}

theorem eq_of_firstRune {r : Char} (first : firstRune s = some r) :
    ∃ rest, s = encodeRune r ++ rest := by
  obtain ⟨rest, split⟩ := ByteArray.exists_of_utf8DecodeChar?_eq_some first
  refine ⟨rest.data.toList, ?_⟩
  have bytes := congrArg ByteArray.data split
  rw [ByteArray.data_append, List.data_toByteArray, List.data_toByteArray] at bytes
  have listed := congrArg Array.toList bytes
  rw [Array.toList_append] at listed
  exact listed

theorem encodeRune_cons (r : Char) : ∃ byte more, encodeRune r = byte :: more ∧
    more.length = r.utf8Size - 1 := by
  have size := String.length_utf8EncodeChar r
  have positive := r.utf8Size_pos
  cases bytes : String.utf8EncodeChar r with
  | nil =>
      rw [bytes, List.length_nil] at size
      omega
  | cons byte more =>
      rw [bytes, List.length_cons] at size
      exact ⟨byte, more, bytes, by omega⟩

structure Piece where
  rune : Char
  bytes : List UInt8
  deriving DecidableEq, Repr

def piecesFrom : Nat → List UInt8 → List Piece
  | _, [] => []
  | skip + 1, _ :: rest => piecesFrom skip rest
  | 0, byte :: rest =>
      match firstRune (byte :: rest) with
      | some r =>
          { rune := r
            bytes := encodeRune r } :: piecesFrom (r.utf8Size - 1) rest
      | none =>
          { rune := runeError
            bytes := [byte] } :: piecesFrom 0 rest

def pieces (s : List UInt8) : List Piece :=
  piecesFrom 0 s

def join (read : List Piece) : List UInt8 :=
  read.flatMap Piece.bytes

def runes (s : List UInt8) : List Char :=
  (pieces s).map Piece.rune

theorem piecesFrom_length (front rest : List UInt8) :
    piecesFrom front.length (front ++ rest) = pieces rest := by
  induction front with
  | nil => rfl
  | cons byte front ih => exact ih

@[simp] theorem pieces_nil : pieces [] = [] := rfl

theorem pieces_encodeRune (r : Char) (rest : List UInt8) :
    pieces (encodeRune r ++ rest) = { rune := r, bytes := encodeRune r } :: pieces rest := by
  obtain ⟨byte, more, bytes, size⟩ := encodeRune_cons r
  have first := firstRune_encodeRune r rest
  have later := piecesFrom_length more rest
  rw [bytes, List.cons_append] at first ⊢
  rw [size] at later
  unfold pieces at later ⊢
  simp only [piecesFrom, first, later, bytes]

theorem pieces_stray {byte : UInt8} {rest : List UInt8} (stray : firstRune (byte :: rest) = none) :
    pieces (byte :: rest) = { rune := runeError, bytes := [byte] } :: pieces rest := by
  unfold pieces
  simp only [piecesFrom, stray]

@[elab_as_elim]
theorem pieceInduction {motive : List UInt8 → Prop} (nil : motive [])
    (rune : ∀ r rest, motive rest → motive (encodeRune r ++ rest))
    (stray : ∀ byte rest, firstRune (byte :: rest) = none → motive rest → motive (byte :: rest))
    (s : List UInt8) : motive s := by
  induction size : s.length using Nat.strongRecOn generalizing s with
  | ind length ih =>
      cases s with
      | nil => exact nil
      | cons byte rest =>
          cases first : firstRune (byte :: rest) with
          | none =>
              refine stray byte rest first (ih rest.length ?_ rest rfl)
              rw [← size, List.length_cons]
              exact Nat.lt_succ_self _
          | some r =>
              obtain ⟨after, split⟩ := eq_of_firstRune first
              obtain ⟨head, more, bytes, _⟩ := encodeRune_cons r
              rw [split] at size ⊢
              refine rune r after (ih after.length ?_ after rfl)
              rw [← size, bytes, List.cons_append, List.length_cons, List.length_append]
              omega

theorem join_pieces (s : List UInt8) : join (pieces s) = s := by
  induction s using pieceInduction with
  | nil => rfl
  | rune r rest ih =>
      rw [pieces_encodeRune]
      exact congrArg (encodeRune r ++ ·) ih
  | stray byte rest stray ih =>
      rw [pieces_stray stray]
      exact congrArg (byte :: ·) ih

theorem pieces_join_right (split : pieces s = first ++ last) : pieces (join last) = last := by
  induction s using pieceInduction generalizing first with
  | nil =>
      obtain ⟨_, rfl⟩ := List.append_eq_nil_iff.mp split.symm
      rfl
  | rune r rest ih =>
      cases first with
      | nil => rw [← List.nil_append last, ← split, join_pieces]
      | cons piece first =>
          rw [pieces_encodeRune] at split
          exact ih (List.cons.inj split).2
  | stray byte rest stray ih =>
      cases first with
      | nil => rw [← List.nil_append last, ← split, join_pieces]
      | cons piece first =>
          rw [pieces_stray stray] at split
          exact ih (List.cons.inj split).2

/-- What precedes some pieces is read as it was: a stray byte begins no rune with
fewer bytes after it. -/
theorem pieces_join_left (split : pieces s = first ++ last) : pieces (join first) = first := by
  induction s using pieceInduction generalizing first with
  | nil =>
      obtain ⟨rfl, _⟩ := List.append_eq_nil_iff.mp split.symm
      rfl
  | rune r rest ih =>
      cases first with
      | nil => rfl
      | cons piece first =>
          rw [pieces_encodeRune] at split
          obtain ⟨rfl, later⟩ := List.cons.inj split
          exact (pieces_encodeRune r (join first)).trans (congrArg _ (ih later))
  | stray byte rest stray ih =>
      cases first with
      | nil => rfl
      | cons piece first =>
          rw [pieces_stray stray] at split
          obtain ⟨rfl, later⟩ := List.cons.inj split
          have whole : rest = join first ++ join last := by
            rw [← join_pieces rest, later]
            exact List.flatMap_append
          have still : firstRune (byte :: join first) = none := by
            refine Option.eq_none_iff_forall_ne_some.mpr (fun r begins => ?_)
            obtain ⟨more, bytes⟩ := eq_of_firstRune begins
            have longer : byte :: rest = encodeRune r ++ (more ++ join last) := by
              rw [whole, ← List.append_assoc, ← bytes, List.cons_append]
            rw [longer, firstRune_encodeRune] at stray
            cases stray
          exact (pieces_stray still).trans (congrArg _ (ih later))

def Valid (s : List UInt8) : Prop :=
  ∃ text, s = encode text

theorem pieces_encode (text : List Char) :
    pieces (encode text) = text.map (fun r => { rune := r, bytes := encodeRune r }) := by
  induction text with
  | nil => rfl
  | cons r rest ih =>
      have split : encode (r :: rest) = encodeRune r ++ encode rest := rfl
      rw [split, pieces_encodeRune, ih]
      rfl

theorem runes_encode (text : List Char) : runes (encode text) = text := by
  unfold runes
  rw [pieces_encode, List.map_map]
  exact List.map_id text

theorem valid_encode (text : List Char) : Valid (encode text) := ⟨text, rfl⟩

theorem valid_iff_encode_runes (s : List UInt8) : Valid s ↔ encode (runes s) = s := by
  constructor
  · rintro ⟨text, rfl⟩
    rw [runes_encode]
  · exact fun same => ⟨runes s, same.symm⟩

instance (s : List UInt8) : Decidable (Valid s) :=
  decidable_of_iff (encode (runes s) = s) (valid_iff_encode_runes s).symm

theorem valid_iff_pieces (s : List UInt8) :
    Valid s ↔ ∀ piece ∈ pieces s, piece.bytes = encodeRune piece.rune := by
  constructor
  · rintro ⟨text, rfl⟩ piece present
    rw [pieces_encode] at present
    obtain ⟨r, _, rfl⟩ := List.mem_map.mp present
    rfl
  · intro whole
    refine ⟨runes s, (join_pieces s).symm.trans ?_⟩
    unfold join encode runes
    rw [List.flatMap_map]
    exact List.flatMap_congr whole

/-- `strings.TrimSpace`. -/
def trimSpace (isSpace : Char → Bool) (s : List UInt8) : List UInt8 :=
  join (trim (fun piece => isSpace piece.rune) (pieces s))

/-- `strings.Map`; a rune without an image is dropped. -/
def mapRunes (f : Char → Option Char) (s : List UInt8) : List UInt8 :=
  encode ((runes s).filterMap f)

variable (isSpace : Char → Bool)

theorem pieces_trimSpace (s : List UInt8) :
    pieces (trimSpace isSpace s) = trim (fun piece => isSpace piece.rune) (pieces s) := by
  obtain ⟨before, after, split⟩ := @exists_eq_trim _ (fun piece => isSpace piece.rune) (pieces s)
  exact pieces_join_left (pieces_join_right split)

theorem runes_trimSpace (s : List UInt8) :
    runes (trimSpace isSpace s) = trim isSpace (runes s) := by
  unfold runes
  rw [pieces_trimSpace, trim_map]

theorem valid_trimSpace (valid : Valid s) : Valid (trimSpace isSpace s) := by
  rw [valid_iff_pieces] at valid ⊢
  rw [pieces_trimSpace]
  obtain ⟨before, after, split⟩ := @exists_eq_trim _ (fun piece => isSpace piece.rune) (pieces s)
  intro piece present
  refine valid piece ?_
  rw [split]
  exact List.mem_append_right _ (List.mem_append_left _ present)

end Parley.Library.Utf8
