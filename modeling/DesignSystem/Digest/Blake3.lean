/-!
# BLAKE3

The 256-bit hash of a sequence of bytes. Chunks of 1024 bytes are hashed block by block and are the
leaves of a binary tree; an inner node hashes the values of its two parts. The last step, that of
the root, is marked as such.

A state of sixteen words is held as four rows, so that a round works on four columns, and then on
the four diagonals, at once.
-/

set_option autoImplicit false

namespace DesignSystem.Blake3

/-! ## Rows of words -/

/-- Four words. -/
structure Row where
  w : UInt32
  x : UInt32
  y : UInt32
  z : UInt32
  deriving DecidableEq

namespace Row

/-- Combines rows word by word. -/
def zip (f : UInt32 → UInt32 → UInt32) (r s : Row) : Row :=
  ⟨f r.w s.w, f r.x s.x, f r.y s.y, f r.z s.z⟩

/-- Sums word by word. -/
def add (r s : Row) : Row := zip (· + ·) r s

/-- Exclusive disjunctions word by word, each turned right by `n` bits. -/
def turn (n : UInt32) (r s : Row) : Row :=
  zip (fun a b => (a ^^^ b) >>> n ||| (a ^^^ b) <<< (32 - n)) r s

/-- The words moved one place to the left, the first one to the end. -/
def shift (r : Row) : Row := ⟨r.x, r.y, r.z, r.w⟩

/-- The words in order. -/
def words (r : Row) : List UInt32 := [r.w, r.x, r.y, r.z]

end Row

/-! ## Compression -/

/-- A state: four rows of words. -/
structure State where
  a : Row
  b : Row
  c : Row
  d : Row

namespace State

/-- Mixes one half of the message into the columns. -/
def mix (m n : Row) (s : State) : State :=
  let a := (s.a.add s.b).add m
  let d := s.d.turn 16 a
  let c := s.c.add d
  let b := s.b.turn 12 c
  let a := (a.add b).add n
  let d := d.turn 8 a
  let c := c.add d
  ⟨a, b.turn 7 c, c, d⟩

/-- Moves the diagonals into the columns. -/
def slant (s : State) : State := ⟨s.a, s.b.shift, s.c.shift.shift, s.d.shift.shift.shift⟩

/-- Moves the columns back into the diagonals. -/
def unslant (s : State) : State := ⟨s.a, s.b.shift.shift.shift, s.c.shift.shift, s.d.shift⟩

end State

/-- The sixteen words of a block. -/
abbrev Block := List UInt32

namespace Block

/-- A word of a block. -/
def word (m : Block) (i : Nat) : UInt32 := m.getD i 0

/-- Four words of a block, each the second one after the last. -/
def row (m : Block) (i : Nat) : Row := ⟨m.word i, m.word (i + 2), m.word (i + 4), m.word (i + 6)⟩

/-- The order in which the next round takes the words. -/
def order : List Nat := [2, 6, 3, 10, 7, 0, 4, 13, 1, 11, 12, 5, 9, 14, 15, 8]

/-- The words in the order of the next round. -/
def permuted (m : Block) : Block := order.map m.word

end Block

/-- Mixes a block into a state. -/
def State.round (m : Block) (s : State) : State :=
  ((s.mix (m.row 0) (m.row 1)).slant.mix (m.row 8) (m.row 9)).unslant

/-- Mixes a block into a state in some rounds, the words in a new order each time. -/
def State.rounds : Nat → Block → State → State
  | 0, _, s => s
  | n + 1, m, s => rounds n m.permuted (s.round m)

/-- A hash value of eight words. -/
structure Digest where
  high : Row
  low : Row
  deriving DecidableEq

/-- The value that hashing starts with. -/
def start : Digest :=
  ⟨⟨0x6a09e667, 0xbb67ae85, 0x3c6ef372, 0xa54ff53a⟩,
    ⟨0x510e527f, 0x9b05688c, 0x1f83d9ab, 0x5be0cd19⟩⟩

/-- One step of hashing that is still to be done. -/
structure Pending where
  /-- The value of what comes before. -/
  before : Digest
  block : Block
  /-- The number of the chunk. -/
  chunk : Nat := 0
  /-- How many bytes of the block count. -/
  size : Nat := 64
  /-- Marks of the step. -/
  marks : UInt32

namespace Pending

/-- The mark of the first block of a chunk. -/
def chunkStart : UInt32 := 1

/-- The mark of the last block of a chunk. -/
def chunkEnd : UInt32 := 2

/-- The mark of an inner node. -/
def parent : UInt32 := 4

/-- The mark of the last step. -/
def root : UInt32 := 8

/-- The value of a step, with further marks. -/
def value (p : Pending) (further : UInt32) : Digest :=
  let s := State.rounds 7 p.block ⟨p.before.high, p.before.low, start.high,
    ⟨.ofNat p.chunk, .ofNat (p.chunk / Nat.pow 2 32), .ofNat p.size, p.marks ||| further⟩⟩
  ⟨s.a.zip (· ^^^ ·) s.c, s.b.zip (· ^^^ ·) s.d⟩

/-- The step of an inner node. -/
def ofParts (left right : Digest) : Pending where
  before := start
  block := left.high.words ++ left.low.words ++ right.high.words ++ right.low.words
  marks := parent

end Pending

/-! ## Chunks and trees -/

/-- A list in pieces of `size` members, the last of which may be shorter; at least one piece. -/
def pieces (size : Nat) (bytes : List UInt8) : List (List UInt8) :=
  if bytes.length ≤ size ∨ size = 0 then [bytes]
  else bytes.take size :: pieces size (bytes.drop size)
termination_by bytes.length
decreasing_by simp only [List.length_drop]; omega

/-- The word of up to four bytes, the lowest first. -/
def wordOfBytes (bytes : List UInt8) : UInt32 :=
  bytes.foldr (fun byte word => byte.toUInt32 ||| word <<< 8) 0

/-- The words of up to 64 bytes. -/
def blockOfBytes (bytes : List UInt8) : Block := (pieces 4 bytes).map wordOfBytes

/-- The last step of hashing the blocks of a chunk, after those before it. -/
def chunkStep (chunk : Nat) (before : Digest) (marks : UInt32) : List (List UInt8) → Pending
  | [] => ⟨before, [], chunk, 0, marks ||| Pending.chunkEnd⟩
  | [last] => ⟨before, blockOfBytes last, chunk, last.length, marks ||| Pending.chunkEnd⟩
  | block :: next :: blocks =>
    let step : Pending := ⟨before, blockOfBytes block, chunk, block.length, marks⟩
    chunkStep chunk (step.value 0) 0 (next :: blocks)

/-- The last step of hashing a chunk. -/
def Pending.ofChunk (chunk : Nat) (bytes : List UInt8) : Pending :=
  chunkStep chunk start chunkStart (pieces 64 bytes)

/-- How many of `n` leaves belong to the left part of a tree: the greatest power of two that is
less. -/
def leftCount (n : Nat) : Nat := Nat.pow 2 (n - 1).log2

theorem leftCount_pos (n : Nat) : 0 < leftCount n := Nat.two_pow_pos _

theorem leftCount_lt {n : Nat} (h : 1 < n) : leftCount n < n := by
  have := Nat.log2_self_le (show n - 1 ≠ 0 by omega)
  simp only [leftCount, Nat.pow_eq]
  omega

/-- The last step of hashing the tree of some leaves. -/
def Pending.ofLeaves (leaves : List Pending) : Pending :=
  match leaves with
  | [] => .ofChunk 0 []
  | [leaf] => leaf
  | first :: second :: rest =>
    let leaves := first :: second :: rest
    let n := leftCount leaves.length
    .ofParts ((ofLeaves (leaves.take n)).value 0) ((ofLeaves (leaves.drop n)).value 0)
termination_by leaves.length
decreasing_by
  · have := leftCount_lt (show 1 < (first :: second :: rest).length by simp)
    simp only [List.length_take]
    omega
  · have := leftCount_pos (first :: second :: rest).length
    simp only [List.length_drop, List.length_cons] at *
    omega

/-- The hash of bytes. -/
def digest (bytes : List UInt8) : Digest :=
  (Pending.ofLeaves ((pieces 1024 bytes).zipIdx.map fun c => .ofChunk c.2 c.1)).value Pending.root

/-! ## Digits -/

/-- The two hexadecimal digits of a byte, in lowercase. -/
def hexDigits (byte : Nat) : List Char := [Nat.digitChar (byte / 16), Nat.digitChar (byte % 16)]

/-- The digits of a word, byte by byte from the lowest. -/
def wordDigits (word : UInt32) : List Char :=
  [0, 8, 16, 24].flatMap fun i => hexDigits (word.toNat / Nat.pow 2 i % 256)

/-- A hash in 64 hexadecimal digits. -/
def Digest.hex (d : Digest) : String :=
  .ofList ((d.high.words ++ d.low.words).flatMap wordDigits)

end DesignSystem.Blake3
