/-! # Text as UTF-8 bytes

Writing is total. Reading splits any bytes into characters and the longest pieces that begin a
character and are then cut off or continued wrongly; each such piece shows as one replacement
character. -/

namespace GuestFiles.Text

def bytes (text : String) : List UInt8 :=
  text.toList.flatMap String.utf8EncodeChar

@[simp] theorem bytes_ofList (cs : List Char) :
    bytes (String.ofList cs) = cs.flatMap String.utf8EncodeChar := by
  simp [bytes]

/-! ## Reading -/

/-- What a run of bytes reads as. -/
inductive Piece where
  | char (c : Char)
  /-- Bytes that begin no character, or one that does not go on as it has to. -/
  | broken (bytes : List UInt8)
  deriving DecidableEq, Repr

/-- A character of which some bytes are still to come. -/
structure Unfinished where
  seen : List UInt8
  missing : Nat
  /-- The least byte that may come next. -/
  low : UInt8
  /-- The greatest byte that may come next. -/
  high : UInt8
  value : Nat

/-- A first byte is a character of its own, begins a longer one, or is broken. The bounds on the
second byte leave out overlong forms, surrogates and everything above the last code point. -/
def firstByte (b : UInt8) : Piece ⊕ Unfinished :=
  if b < 0x80 then .inl (.char (Char.ofNat b.toNat))
  else if b < 0xC2 then .inl (.broken [b])
  else if b < 0xE0 then .inr ⟨[b], 1, 0x80, 0xBF, b.toNat - 0xC0⟩
  else if b = 0xE0 then .inr ⟨[b], 2, 0xA0, 0xBF, 0⟩
  else if b = 0xED then .inr ⟨[b], 2, 0x80, 0x9F, 0xD⟩
  else if b < 0xF0 then .inr ⟨[b], 2, 0x80, 0xBF, b.toNat - 0xE0⟩
  else if b = 0xF0 then .inr ⟨[b], 3, 0x90, 0xBF, 0⟩
  else if b < 0xF4 then .inr ⟨[b], 3, 0x80, 0xBF, b.toNat - 0xF0⟩
  else if b = 0xF4 then .inr ⟨[b], 3, 0x80, 0x8F, 4⟩
  else .inl (.broken [b])

/-- The bits of a character after one more byte of it. -/
def Unfinished.extend (u : Unfinished) (b : UInt8) : Nat :=
  u.value * 64 + (b.toNat - 0x80)

/-- The pieces of the bytes that follow an unfinished character, if one is under way. -/
def piecesAfter : Option Unfinished → List UInt8 → List Piece
  | none, [] => []
  | some u, [] => [.broken u.seen]
  | none, b :: rest =>
    match firstByte b with
    | .inl piece => piece :: piecesAfter none rest
    | .inr u => piecesAfter (some u) rest
  | some u, b :: rest =>
    if u.low ≤ b ∧ b ≤ u.high then
      if u.missing ≤ 1 then
        .char (Char.ofNat (u.extend b)) :: piecesAfter none rest
      else
        piecesAfter (some ⟨u.seen ++ [b], u.missing - 1, 0x80, 0xBF, u.extend b⟩) rest
    else
      .broken u.seen ::
        match firstByte b with
        | .inl piece => piece :: piecesAfter none rest
        | .inr v => piecesAfter (some v) rest

def pieces (bs : List UInt8) : List Piece :=
  piecesAfter none bs

/-- The character of a piece, when it is one. -/
def Piece.char? : Piece → Option Char
  | .char c => some c
  | .broken _ => none

/-- The character a piece is shown as: itself, or the replacement character U+FFFD. -/
def Piece.shown (piece : Piece) : Char :=
  piece.char?.getD '\uFFFD'

/-- Bytes as text, with one replacement character for each broken piece. -/
def lossy (bs : List UInt8) : String :=
  String.ofList ((pieces bs).map Piece.shown)

/-- Bytes as text, when they are the bytes of a text. -/
def ofBytes? (bs : List UInt8) : Option String :=
  ((pieces bs).mapM Piece.char?).map String.ofList

end GuestFiles.Text
