import RowQuery.Text.Bytes

/-!
The BLAKE3 hash with 32 bytes of output. The input is cut into chunks of 1024 bytes, which are the
leaves of a binary tree whose left subtrees are complete; a leaf chains over blocks of 64 bytes.
-/

namespace RowQuery

-- powers are those of the core library, whatever else is imported; a literal exponent has its type
-- written for it
attribute [local instance (high)] instPowNat

structure Digest where
  bytes : Vector UInt8 32
  deriving DecidableEq

namespace Digest

def hex (d : Digest) : String := String.ofList (Bytes.hex d.bytes.toList)

def ofHex? (s : String) : Option Digest := do
  let bs ← Bytes.ofHex? s.toList
  if h : bs.length = 32 then some ⟨⟨bs.toArray, by simpa using h⟩⟩ else none

end Digest

namespace Blake3

abbrev Words (n : Nat) := Vector UInt32 n

def initial : Words 8 :=
  #v[0x6a09e667, 0xbb67ae85, 0x3c6ef372, 0xa54ff53a, 0x510e527f, 0x9b05688c, 0x1f83d9ab, 0x5be0cd19]

def rotateRight (w : UInt32) (n : UInt32) : UInt32 := (w >>> n) ||| (w <<< (32 - n))

def mix (v : Words 16) (a b c d : Fin 16) (x y : UInt32) : Words 16 :=
  let v := v.set a (v[a] + v[b] + x)
  let v := v.set d (rotateRight (v[d] ^^^ v[a]) 16)
  let v := v.set c (v[c] + v[d])
  let v := v.set b (rotateRight (v[b] ^^^ v[c]) 12)
  let v := v.set a (v[a] + v[b] + y)
  let v := v.set d (rotateRight (v[d] ^^^ v[a]) 8)
  let v := v.set c (v[c] + v[d])
  v.set b (rotateRight (v[b] ^^^ v[c]) 7)

def round (v m : Words 16) : Words 16 :=
  let v := mix v 0 4 8 12 m[0] m[1]
  let v := mix v 1 5 9 13 m[2] m[3]
  let v := mix v 2 6 10 14 m[4] m[5]
  let v := mix v 3 7 11 15 m[6] m[7]
  let v := mix v 0 5 10 15 m[8] m[9]
  let v := mix v 1 6 11 12 m[10] m[11]
  let v := mix v 2 7 8 13 m[12] m[13]
  mix v 3 4 9 14 m[14] m[15]

def permute (m : Words 16) : Words 16 :=
  #v[m[2], m[6], m[3], m[10], m[7], m[0], m[4], m[13], m[1], m[11], m[12], m[5], m[9],
    m[14], m[15], m[8]]

def rounds : Nat → Words 16 → Words 16 → Words 16
  | 0, v, _ => v
  | n + 1, v, m => rounds n (round v m) (permute m)

/-- A compression that is still to be done: whether it is the root of the tree is not known
before. -/
structure Node where
  chain : Words 8
  block : Words 16
  counter : Nat
  length : Nat
  flags : UInt32

def chunkStart : UInt32 := 1
def chunkEnd : UInt32 := 2
def parentFlag : UInt32 := 4
def rootFlag : UInt32 := 8

def Node.compress (n : Node) (extra : UInt32) : Words 8 :=
  let v : Words 16 :=
    (n.chain ++ #v[initial[0], initial[1], initial[2], initial[3], UInt32.ofNat n.counter,
    UInt32.ofNat (n.counter / 2 ^ (32 : Nat)), UInt32.ofNat n.length, n.flags ||| extra]).cast
      (by decide)
  let v := rounds 7 v n.block
  Vector.ofFn fun i : Fin 8 => v[i.val] ^^^ v[i.val + 8]

def word (bs : Bytes) (i : Nat) : UInt32 :=
  UInt32.ofNat ((bs.drop (4 * i)).take 4 |>.foldr (fun b n => b.toNat + 256 * n) 0)

def blockWords (bs : Bytes) : Words 16 := Vector.ofFn fun i : Fin 16 => word bs i

/-- The last block of a chunk, after the earlier ones have been chained. `fuel` bounds the number of
blocks. -/
def chunkNode (counter : Nat) : Nat → Words 8 → UInt32 → Bytes → Node
  | 0, chain, flags, bs => ⟨chain, blockWords bs, counter, bs.length, flags ||| chunkEnd⟩
  | fuel + 1, chain, flags, bs =>
    if bs.length ≤ 64 then ⟨chain, blockWords bs, counter, bs.length, flags ||| chunkEnd⟩
    else
      let first : Node := ⟨chain, blockWords (bs.take 64), counter, 64, flags⟩
      chunkNode counter fuel (first.compress 0) 0 (bs.drop 64)

def leaf (counter : Nat) (bs : Bytes) : Node := chunkNode counter 16 initial chunkStart bs

def parent (l r : Node) : Node :=
  ⟨initial, (l.compress 0 ++ r.compress 0).cast (by decide), 0, 64, parentFlag⟩

def leftChunks (chunks : Nat) : Nat := 2 ^ (chunks - 1).log2

def tree : Nat → Nat → Bytes → Node
  | 0, counter, bs => leaf counter bs
  | fuel + 1, counter, bs =>
    if bs.length ≤ 1024 then leaf counter bs
    else
      let left := leftChunks ((bs.length + 1023) / 1024)
      parent (tree fuel counter (bs.take (1024 * left)))
        (tree fuel (counter + left) (bs.drop (1024 * left)))

def hash (bs : Bytes) : Digest :=
  let words := (tree bs.length 0 bs).compress rootFlag
  ⟨Vector.ofFn fun i : Fin 32 => (words[i.val / 4] >>> UInt32.ofNat (8 * (i.val % 4))).toUInt8⟩

end Blake3

end RowQuery
