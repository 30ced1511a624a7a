import HeaderCheck.Text.Basic

/-! Text as bytes. Writing gives each character its one to four bytes. Reading goes byte by byte and
keeps only the character that is still unfinished; what comes out are parts, each a character or
`none` for bytes that form none. Such a broken part is as long as it could still have begun one. -/

namespace HeaderCheck

abbrev Bytes := List UInt8

namespace Utf8

def encode (t : Text) : Bytes := t.flatMap String.utf8EncodeChar

/-- The number of bytes in which the text is written. -/
def size : Text → Nat
  | [] => 0
  | c :: rest => c.utf8Size + size rest

/-- A character begun and not finished: its next byte lies from `low` to `high`, `owed` more bytes
follow that one, and `bits` is what the bytes so far contribute to the code point. -/
structure Pending where
  owed : Nat
  low : Nat
  high : Nat
  bits : Nat
  deriving DecidableEq, Repr

inductive Opening where
  | whole (c : Char)
  | begun (p : Pending)
  | stray
  deriving DecidableEq, Repr

/-- What a byte is when no character is unfinished. The bounds on the second byte leave out code
points that have a shorter form, the surrogates, and what lies above U+10FFFF. -/
def opening (b : UInt8) : Opening :=
  let n := b.toNat
  if n < 0x80 then .whole (Char.ofNat n)
  else if n < 0xC2 then .stray
  else if n < 0xE0 then .begun ⟨0, 0x80, 0xBF, n - 0xC0⟩
  else if n = 0xE0 then .begun ⟨1, 0xA0, 0xBF, 0⟩
  else if n = 0xED then .begun ⟨1, 0x80, 0x9F, 0xD⟩
  else if n < 0xF0 then .begun ⟨1, 0x80, 0xBF, n - 0xE0⟩
  else if n = 0xF0 then .begun ⟨2, 0x90, 0xBF, 0⟩
  else if n < 0xF4 then .begun ⟨2, 0x80, 0xBF, n - 0xF0⟩
  else if n = 0xF4 then .begun ⟨2, 0x80, 0x8F, 4⟩
  else .stray

/-- A character of the text, or `none` for a broken part. -/
abbrev Part := Option Char

/-- The parts that a byte completes when no character is unfinished, and what it leaves so. -/
def first (b : UInt8) : List Part × Option Pending :=
  match opening b with
  | .whole c => ([some c], none)
  | .begun p => ([], some p)
  | .stray => ([none], none)

/-- A byte that cannot go on with the unfinished character breaks it off and is read anew. -/
def next : Option Pending → UInt8 → List Part × Option Pending
  | none, b => first b
  | some p, b =>
    if p.low ≤ b.toNat ∧ b.toNat ≤ p.high then
      let bits := p.bits * 64 + (b.toNat - 0x80)
      match p.owed with
      | 0 => ([some (Char.ofNat bits)], none)
      | more + 1 => ([], some ⟨more, 0x80, 0xBF, bits⟩)
    else (none :: (first b).1, (first b).2)

def partsFrom : Option Pending → Bytes → List Part
  | none, [] => []
  | some _, [] => [none]
  | unfinished, b :: rest => (next unfinished b).1 ++ partsFrom (next unfinished b).2 rest

def parts (bytes : Bytes) : List Part := partsFrom none bytes

/-- The text, if no part of the bytes is broken. -/
def decode? (bytes : Bytes) : Option Text :=
  if (parts bytes).all Option.isSome then some ((parts bytes).filterMap id) else none

/-- The text with U+FFFD in place of every broken part. -/
def decodeLossy (bytes : Bytes) : Text :=
  (parts bytes).map (·.getD '\uFFFD')

end Utf8

end HeaderCheck
