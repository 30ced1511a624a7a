import HeaderCheck.Text.Utf8

/-! The hash of a name in a directory that is kept as a hashed index. It is half MD4: the name is
cut into blocks of 32 bytes, a block is eight words, and each of the three rounds takes every word
of the block once. Two of the four words of the state make the hash. -/

namespace HeaderCheck

namespace NameHash

structure State where
  a : UInt32
  b : UInt32
  c : UInt32
  d : UInt32
  deriving DecidableEq, Repr

def start : State := ⟨0x67452301, 0xEFCDAB89, 0x98BADCFE, 0x10325476⟩

/-- What a round does: its function on three words, the constant that it adds, the positions of the
words in the order in which it takes them, and the distances of its rotations, used in turn. -/
structure Round where
  mix : UInt32 → UInt32 → UInt32 → UInt32
  constant : UInt32
  positions : List Nat
  distances : List UInt32

/-- The bits of the second word where the first has a bit, those of the third elsewhere. -/
def choice (x y z : UInt32) : UInt32 := z ^^^ (x &&& (y ^^^ z))

/-- The bits that at least two of the words have. -/
def majority (x y z : UInt32) : UInt32 := (x &&& y) ||| (x &&& z) ||| (y &&& z)

/-- The bits that an odd number of the words have. -/
def parity (x y z : UInt32) : UInt32 := x ^^^ y ^^^ z

def rounds : List Round := [
  ⟨choice, 0, [0, 1, 2, 3, 4, 5, 6, 7], [3, 7, 11, 19]⟩,
  ⟨majority, 0x5A827999, [1, 3, 5, 7, 0, 2, 4, 6], [3, 5, 9, 13]⟩,
  ⟨parity, 0x6ED9EBA1, [3, 7, 2, 6, 1, 5, 0, 4], [3, 9, 11, 15]⟩]

def rotated (x distance : UInt32) : UInt32 := (x <<< distance) ||| (x >>> (32 - distance))

/-- Takes one word up, and moves the words of the state on by one place. -/
def Round.step (r : Round) (s : State) (word distance : UInt32) : State :=
  ⟨s.d, rotated (s.a + r.mix s.b s.c s.d + word + r.constant) distance, s.b, s.c⟩

def Round.run (r : Round) (words : List UInt32) (s : State) : State :=
  ((r.positions.map (words.getD · 0)).zip (r.distances ++ r.distances)).foldl
    (fun s (word, distance) => r.step s word distance) s

/-- Takes up a block: the rounds one after another, and the state before them added to it. -/
def State.absorb (s : State) (words : List UInt32) : State :=
  let t := rounds.foldl (fun t r => r.run words t) s
  ⟨s.a + t.a, s.b + t.b, s.c + t.c, s.d + t.d⟩

/-- A number below 256 in each of the four bytes of a word. -/
def filled (n : Nat) : UInt32 := UInt32.ofNat (n * 0x01010101)

/-- Bytes are digits to the base 256, those from 128 on with a negative value. Fewer than four go
behind what is left of the filling. -/
def wordOf (filling : UInt32) (bytes : Bytes) : UInt32 :=
  bytes.foldl (fun word b => (word <<< 8) + b.toInt8.toInt32.toUInt32) filling

/-- The first block of the bytes. It is filled up with their number, the bytes of later blocks
included. -/
def block (bytes : Bytes) : List UInt32 :=
  (List.range 8).map fun n => wordOf (filled bytes.length) ((bytes.drop (4 * n)).take 4)

def digest (bytes : Bytes) : State :=
  (List.range ((bytes.length + 31) / 32)).foldl (fun s n => s.absorb (block (bytes.drop (32 * n))))
    start

end NameHash

/-- The place of a name in a hashed directory. -/
structure NameHash where
  major : Nat
  minor : Nat
  deriving DecidableEq, Repr

namespace NameHash

/-- The lowest bit of the major part is not used, and its greatest value is kept for the end of the
directory. -/
def ofName (name : Text) : NameHash :=
  let s := digest (Utf8.encode name)
  ⟨min (2 * (s.b.toNat / 2)) 0xFFFFFFFC, s.c.toNat⟩

def before (g h : NameHash) : Bool :=
  decide (g.major < h.major) || (decide (g.major = h.major) && decide (g.minor < h.minor))

end NameHash

end HeaderCheck
