import Paymaster.Digest.Sha256
/-!
# BLAKE3

The hash function BLAKE3 in its plain mode with a digest of 32 bytes. A message is cut into chunks
of 1024 bytes; a chunk is a chain of 64-byte blocks, and the chunks are the leaves of a binary tree
whose left subtrees are full. The last compression of the tree is marked as the root.
-/

namespace Paymaster.Digest.Blake3

/-- Marks the first block of a chunk. -/
def chunkStart : UInt32 := 1
/-- Marks the last block of a chunk. -/
def chunkEnd : UInt32 := 2
/-- Marks the compression of two subtrees. -/
def parent : UInt32 := 4
/-- Marks the last compression of the tree. -/
def root : UInt32 := 8

/-- The first chaining value: the words of the starting state of SHA-256. -/
def initial : Vector UInt32 8 := ⟨Sha256.initialState.toList.toArray, rfl⟩

/-- A compression that is still to be done, so that it can be marked as the root. -/
structure Node where
  /-- The chaining value it starts from. -/
  chaining : Vector UInt32 8
  /-- The sixteen message words. -/
  block : Vector UInt32 16
  /-- The number of the chunk, zero for a parent. -/
  counter : UInt64
  /-- The count of message bytes in the block. -/
  length : UInt32
  /-- The marks of the compression. -/
  flags : UInt32

/-- The quarter round on four cells of the state with two message words. -/
def mix (s : Vector UInt32 16) (a b c d : Fin 16) (x y : UInt32) : Vector UInt32 16 :=
  let a1 := s[a] + s[b] + x
  let d1 := Sha256.rotateRight (s[d] ^^^ a1) 16
  let c1 := s[c] + d1
  let b1 := Sha256.rotateRight (s[b] ^^^ c1) 12
  let a2 := a1 + b1 + y
  let d2 := Sha256.rotateRight (d1 ^^^ a2) 8
  let c2 := c1 + d2
  let b2 := Sha256.rotateRight (b1 ^^^ c2) 7
  (((s.set a a2).set b b2).set c c2).set d d2

/-- One round: the four columns, then the four diagonals. -/
def round (s : Vector UInt32 16) (m : Vector UInt32 16) : Vector UInt32 16 :=
  let s := mix s 0 4 8 12 m[0] m[1]
  let s := mix s 1 5 9 13 m[2] m[3]
  let s := mix s 2 6 10 14 m[4] m[5]
  let s := mix s 3 7 11 15 m[6] m[7]
  let s := mix s 0 5 10 15 m[8] m[9]
  let s := mix s 1 6 11 12 m[10] m[11]
  let s := mix s 2 7 8 13 m[12] m[13]
  mix s 3 4 9 14 m[14] m[15]

/-- The order of the message words for the next round. -/
def permute (m : Vector UInt32 16) : Vector UInt32 16 :=
  #v[m[2], m[6], m[3], m[10], m[7], m[0], m[4], m[13],
     m[1], m[11], m[12], m[5], m[9], m[14], m[15], m[8]]

/-- Some rounds, the message words permuted between them. -/
def rounds : Nat → Vector UInt32 16 → Vector UInt32 16 → Vector UInt32 16
  | 0, s, _ => s
  | k + 1, s, m => rounds k (round s m) (permute m)

/-- The chaining value that a node compresses to, under some further marks. -/
def Node.compress (n : Node) (extra : UInt32) : Vector UInt32 8 :=
  let s := rounds 7
    (n.chaining ++ initial.take 4 ++
      #v[n.counter.toUInt32, (n.counter >>> 32).toUInt32, n.length, n.flags ||| extra]) n.block
  #v[s[0] ^^^ s[8], s[1] ^^^ s[9], s[2] ^^^ s[10], s[3] ^^^ s[11],
     s[4] ^^^ s[12], s[5] ^^^ s[13], s[6] ^^^ s[14], s[7] ^^^ s[15]]

/-- The chaining value of a node inside the tree. -/
def Node.chain (n : Node) : Vector UInt32 8 := n.compress 0

/-- The 32-bit words of some bytes, least significant byte first. -/
def wordsOf : List UInt8 → List UInt32
  | a :: b :: c :: d :: rest =>
    (a.toUInt32 ||| (b.toUInt32 <<< 8) ||| (c.toUInt32 <<< 16) ||| (d.toUInt32 <<< 24))
      :: wordsOf rest
  | _ => []

/-- The sixteen words of a block of at most 64 bytes, filled up with zeros. -/
def blockOf (bytes : List UInt8) : Vector UInt32 16 :=
  let words := wordsOf (bytes ++ List.replicate (64 - bytes.length) 0)
  Vector.ofFn fun i => words.getD i 0

/-- The chain of a chunk; `start` is set until its first block is done. -/
def chunkNode (counter : UInt64) (start : UInt32) (h : Vector UInt32 8) (bytes : List UInt8) : Node :=
  if bytes.length ≤ 64 then
    { chaining := h, block := blockOf bytes, counter := counter
      length := UInt32.ofNat bytes.length, flags := start ||| chunkEnd }
  else
    let node : Node :=
      { chaining := h, block := blockOf (bytes.take 64), counter := counter
        length := 64, flags := start }
    chunkNode counter 0 node.chain (bytes.drop 64)
termination_by bytes.length
decreasing_by simp only [List.length_drop]; omega

/-- The node above two subtrees. -/
def parentNode (left right : Node) : Node :=
  { chaining := initial, block := left.chain ++ right.chain
    counter := 0, length := 64, flags := parent }

/-- The largest power of two below `n`, for `n` above one. -/
def leftSize (n : Nat) : Nat := 1 <<< (n - 1).log2

/-- The tree over some bytes whose first chunk has the given number. -/
def tree (depth : Nat) (counter : Nat) (bytes : List UInt8) : Node :=
  let chunks := (bytes.length + 1023) / 1024
  match depth with
  | 0 => chunkNode (UInt64.ofNat counter) chunkStart initial bytes
  | depth + 1 =>
    if chunks ≤ 1 then chunkNode (UInt64.ofNat counter) chunkStart initial bytes
    else
      let left := leftSize chunks
      parentNode (tree depth counter (bytes.take (1024 * left)))
        (tree depth (counter + left) (bytes.drop (1024 * left)))

/-- The 32-byte digest of a message. -/
def hash (message : List UInt8) : List UInt8 :=
  let top := tree (Nat.log2 message.length + 1) 0 message
  (top.compress root).toList.flatMap fun (w : UInt32) =>
    [w.toUInt8, (w >>> 8).toUInt8, (w >>> 16).toUInt8, (w >>> 24).toUInt8]

theorem length_hash (message : List UInt8) : (hash message).length = 32 := by
  simp only [hash, List.length_flatMap]
  generalize ((tree _ 0 message).compress root) = v
  have hv : v.toList.length = 8 := by simp
  generalize v.toList = l at hv
  match l, hv with
  | [a, b, c, d, e, f, g, h], _ => rfl

end Paymaster.Digest.Blake3
