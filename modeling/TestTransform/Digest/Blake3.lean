/-
The BLAKE3 hash of a list of bytes, 32 bytes long.

The input is cut into chunks of 1024 bytes and each chunk into blocks of 64.  A chunk
is a chain of compressions; the chunks are the leaves of a binary tree whose left
subtrees are as large a power of two as fits.  Every node keeps the input of its last
compression, because the root's is done once more with a flag of its own.
-/
import TestTransform.Text.Utf8

namespace TestTransform
namespace Blake3

/-! ## The compression function

The sixteen words of the state are four columns; a round mixes the columns and then
the diagonals. -/

structure Column where
  a : UInt32
  b : UInt32
  c : UInt32
  d : UInt32

def rotateRight (w : UInt32) (n : UInt32) : UInt32 := (w >>> n) ||| (w <<< (32 - n))

/-- Mixes two message words into a column. -/
def Column.mix (v : Column) (x y : UInt32) : Column :=
  let a := v.a + v.b + x
  let d := rotateRight (v.d ^^^ a) 16
  let c := v.c + d
  let b := rotateRight (v.b ^^^ c) 12
  let a := a + b + y
  let d := rotateRight (d ^^^ a) 8
  let c := c + d
  let b := rotateRight (b ^^^ c) 7
  ⟨a, b, c, d⟩

/-- Mixes the columns in order, two message words each, and returns the words left. -/
def mixAll : List Column → List UInt32 → List Column × List UInt32
  | v :: vs, x :: y :: m =>
    let (ws, m) := mixAll vs m
    (v.mix x y :: ws, m)
  | vs, m => (vs, m)

/-- Turns the rows so that diagonals become columns. -/
def toDiagonals : List Column → List Column
  | [p, q, r, s] =>
    [⟨p.a, q.b, r.c, s.d⟩, ⟨q.a, r.b, s.c, p.d⟩, ⟨r.a, s.b, p.c, q.d⟩, ⟨s.a, p.b, q.c, r.d⟩]
  | vs => vs

/-- Turns the rows back. -/
def ofDiagonals : List Column → List Column
  | [p, q, r, s] =>
    [⟨p.a, s.b, r.c, q.d⟩, ⟨q.a, p.b, s.c, r.d⟩, ⟨r.a, q.b, p.c, s.d⟩, ⟨s.a, r.b, q.c, p.d⟩]
  | vs => vs

def round (vs : List Column) (m : List UInt32) : List Column :=
  let (vs, m) := mixAll vs m
  let (vs, _) := mixAll (toDiagonals vs) m
  ofDiagonals vs

/-- Where each message word of the next round stands in this one. -/
def permutation : List Nat := [2, 6, 3, 10, 7, 0, 4, 13, 1, 11, 12, 5, 9, 14, 15, 8]

def permute (m : List UInt32) : List UInt32 := permutation.map fun i => m.getD i 0

def rounds : Nat → List Column → List UInt32 → List Column
  | 0, vs, _ => vs
  | n + 1, vs, m => rounds n (round vs m) (permute m)

def initial : List UInt32 :=
  [0x6A09E667, 0xBB67AE85, 0x3C6EF372, 0xA54FF53A, 0x510E527F, 0x9B05688C, 0x1F83D9AB, 0x5BE0CD19]

/-- The input of one compression: the chaining value of eight words, the block of
sixteen, the chunk counter, the number of bytes in the block and the flags. -/
structure Node where
  chaining : List UInt32
  block : List UInt32
  counter : Nat
  length : Nat
  flags : UInt32

/-- The eight words a node hands on. -/
def Node.compress (n : Node) : List UInt32 :=
  let h := n.chaining
  let t : List UInt32 :=
    [n.counter.toUInt32, (n.counter / 4294967296).toUInt32, n.length.toUInt32, n.flags]
  let columns := (List.range 4).map fun i =>
    (⟨h.getD i 0, h.getD (i + 4) 0, initial.getD i 0, t.getD i 0⟩ : Column)
  let vs := rounds 7 columns n.block
  vs.map (fun v => v.a ^^^ v.c) ++ vs.map (fun v => v.b ^^^ v.d)

/-! ## Bytes and words -/

/-- Four bytes to a word, the lowest first; a missing byte is zero. -/
def words : Nat → List UInt8 → List UInt32
  | 0, _ => []
  | n + 1, bytes =>
    let w := (bytes.getD 0 0).toUInt32 ||| ((bytes.getD 1 0).toUInt32 <<< 8) |||
      ((bytes.getD 2 0).toUInt32 <<< 16) ||| ((bytes.getD 3 0).toUInt32 <<< 24)
    w :: words n (bytes.drop 4)

def bytesOfWord (w : UInt32) : List UInt8 :=
  [w.toUInt8, (w >>> 8).toUInt8, (w >>> 16).toUInt8, (w >>> 24).toUInt8]

/-! ## Chunks and the tree -/

def chunkStart : UInt32 := 1
def chunkEnd : UInt32 := 2
def parent : UInt32 := 4
def root : UInt32 := 8

/-- Cuts a list into pieces of `size`, the last one possibly shorter; at least one
piece.  `fuel` bounds the number of pieces. -/
def pieces (size : Nat) : (fuel : Nat) → List UInt8 → List (List UInt8)
  | 0, bytes => [bytes]
  | fuel + 1, bytes =>
    match bytes.drop size with
    | [] => [bytes]
    | rest => bytes.take size :: pieces size fuel rest

/-- Chains the blocks of a chunk; the last one becomes the node. -/
def chain (counter : Nat) : (flags : UInt32) → List UInt32 → List (List UInt8) → Node
  | flags, cv, [] => ⟨cv, words 16 [], counter, 0, flags ||| chunkEnd⟩
  | flags, cv, [b] => ⟨cv, words 16 b, counter, b.length, flags ||| chunkEnd⟩
  | flags, cv, b :: bs =>
    chain counter 0 (Node.compress ⟨cv, words 16 b, counter, b.length, flags⟩) bs

def chunkNode (counter : Nat) (bytes : List UInt8) : Node :=
  chain counter chunkStart initial (pieces 64 15 bytes)

/-- The number of chunks in the left subtree of a tree of `n` of them, for `n ≥ 2`. -/
def leftSize (n : Nat) : Nat := Nat.pow 2 (Nat.log2 (n - 1))

/-- The node over a list of chunks, the first of which has number `counter`.  The fuel
bounds the height of the tree. -/
def treeNode : (fuel : Nat) → (counter : Nat) → List (List UInt8) → Node
  | _, counter, [] => chunkNode counter []
  | _, counter, [c] => chunkNode counter c
  | 0, counter, c :: _ => chunkNode counter c
  | fuel + 1, counter, chunks =>
    let k := leftSize chunks.length
    let left := treeNode fuel counter (chunks.take k)
    let right := treeNode fuel (counter + k) (chunks.drop k)
    ⟨initial, left.compress ++ right.compress, 0, 64, parent⟩

/-- The hash of a list of bytes. -/
def digest (bytes : List UInt8) : List UInt8 :=
  let chunks := pieces 1024 (bytes.length / 1024) bytes
  let node := treeNode chunks.length 0 chunks
  (Node.compress { node with counter := 0, flags := node.flags ||| root }).flatMap bytesOfWord

/-- Two lower-case hexadecimal digits a byte. -/
def hex (bytes : List UInt8) : Text :=
  bytes.flatMap fun b => [Nat.digitChar (b.toNat / 16), Nat.digitChar (b.toNat % 16)]

/-- The hash of a list of bytes as 64 hexadecimal digits. -/
def hexDigest (bytes : List UInt8) : Text := hex (digest bytes)

end Blake3
end TestTransform
