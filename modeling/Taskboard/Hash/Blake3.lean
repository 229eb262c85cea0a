import Taskboard.Text.Hexadecimal

/-!
# Taskboard — the BLAKE3 digest

The input is cut into chunks of 1024 bytes, each chunk into blocks of 64 bytes. Chunks are the
leaves of a binary tree, whose inner nodes join two chaining values in one block. The digest is
the output of the compression at the root.

* `compress` — the compression function;
* `Node` — a compression that is about to be run: the last one of a chunk, or that of a parent;
* `chunk`, `leaves`, `mergeAll` — the tree;
* `digest`, `hexDigest` — the 256 bits of the root.
-/

namespace Taskboard.Blake3

/-! ## Compression -/

/-- A chaining value. -/
abbrev Chain := Vector UInt32 8

/-- The words of a block, and the state of the compression. -/
abbrev Block := Vector UInt32 16

/-- The initial chaining value. -/
def initial : Chain :=
  #v[0x6A09E667, 0xBB67AE85, 0x3C6EF372, 0xA54FF53A, 0x510E527F, 0x9B05688C, 0x1F83D9AB, 0x5BE0CD19]

/-- The order in which a round takes the words of the round before. -/
def permutation : Vector (Fin 16) 16 :=
  #v[2, 6, 3, 10, 7, 0, 4, 13, 1, 11, 12, 5, 9, 14, 15, 8]

/-- Rotates a word to the right, by less than its width. -/
def rotate (word count : UInt32) : UInt32 :=
  (word >>> count) ||| (word <<< (32 - count))

/-- Mixes two words into four places of the state. -/
def mix (s : Block) (a b c d : Fin 16) (x y : UInt32) : Block :=
  let wa := s[a] + s[b] + x
  let wd := rotate (s[d] ^^^ wa) 16
  let wc := s[c] + wd
  let wb := rotate (s[b] ^^^ wc) 12
  let wa := wa + wb + y
  let wd := rotate (wd ^^^ wa) 8
  let wc := wc + wd
  let wb := rotate (wb ^^^ wc) 7
  (((s.set a wa).set b wb).set c wc).set d wd

/-- One round: the columns of the state, then its diagonals. -/
def round (s m : Block) : Block :=
  let s := mix s 0 4 8 12 m[0] m[1]
  let s := mix s 1 5 9 13 m[2] m[3]
  let s := mix s 2 6 10 14 m[4] m[5]
  let s := mix s 3 7 11 15 m[6] m[7]
  let s := mix s 0 5 10 15 m[8] m[9]
  let s := mix s 1 6 11 12 m[10] m[11]
  let s := mix s 2 7 8 13 m[12] m[13]
  mix s 3 4 9 14 m[14] m[15]

/-- Some rounds, the words permuted after each. -/
def rounds : Nat → Block → Block → Block
  | 0, s, _ => s
  | count + 1, s, m => rounds count (round s m) (permutation.map fun i => m[i])

/-- The marks of the place that a block has in the tree. -/
def chunkStart : UInt32 := 1
def chunkEnd : UInt32 := 2
def parentMark : UInt32 := 4
def rootMark : UInt32 := 8

/-- A compression that is about to be run. -/
structure Node where
  chain   : Chain
  words   : Block
  counter : UInt64
  size    : UInt32
  marks   : UInt32

/-- The first eight words that the compression of a node gives. -/
def Node.compress (node : Node) (extra : UInt32) : Chain :=
  let state : Block :=
    (node.chain ++ (initial.take 4 ++
      #v[node.counter.toUInt32, (node.counter >>> 32).toUInt32, node.size, node.marks ||| extra])).cast
        (by decide)
  -- both halves of the mixed state go into the chaining value
  let mixed := rounds 7 state node.words
  Vector.ofFn fun i : Fin 8 => mixed[i.val] ^^^ mixed[i.val + 8]

/-! ## The tree -/

/-- The word at an index of a block, its first byte the lowest; behind the end there are zeros. -/
def wordAt (bytes : List UInt8) (index : Nat) : UInt32 :=
  let byte := fun (k : Nat) => (bytes[4 * index + k]?.getD 0).toUInt32
  byte 0 ||| (byte 1 <<< 8) ||| (byte 2 <<< 16) ||| (byte 3 <<< 24)

/-- The words of a block. -/
def wordsOf (bytes : List UInt8) : Block :=
  Vector.ofFn fun i : Fin 16 => wordAt bytes i

/-- The last compression of a chunk. Each block before the last gives the chaining value of the
next one. -/
def chunkFrom (counter : UInt64) (chain : Chain) (marks : UInt32) (bytes : List UInt8) : Node :=
  if bytes.length ≤ 64 then
    ⟨chain, wordsOf bytes, counter, bytes.length.toUInt32, marks ||| chunkEnd⟩
  else
    let block : Node := ⟨chain, wordsOf (bytes.take 64), counter, 64, marks⟩
    chunkFrom counter (block.compress 0) 0 (bytes.drop 64)
termination_by bytes.length
decreasing_by simp only [List.length_drop]; omega

/-- The chunk with an index. -/
def chunk (index : Nat) (bytes : List UInt8) : Node :=
  chunkFrom index.toUInt64 initial chunkStart bytes

/-- The chunks of an input, from an index on. There is at least one. -/
def leaves (index : Nat) (bytes : List UInt8) : List Node :=
  if bytes.length ≤ 1024 then [chunk index bytes]
  else chunk index (bytes.take 1024) :: leaves (index + 1) (bytes.drop 1024)
termination_by bytes.length
decreasing_by simp only [List.length_drop]; omega

/-- The node above two others. -/
def parent (left right : Node) : Node :=
  ⟨initial, (left.compress 0 ++ right.compress 0).cast (by decide), 0, 64, parentMark⟩

/-- One level of the tree above another. A last node without a partner rises unchanged. -/
def pairUp : List Node → List Node
  | left :: right :: rest => parent left right :: pairUp rest
  | nodes => nodes

/-- A level has no more nodes than the one below. -/
theorem length_pairUp_le : ∀ nodes : List Node, (pairUp nodes).length ≤ nodes.length
  | [] => Nat.le_refl _
  | [_] => Nat.le_refl _
  | _ :: _ :: rest => by
    have := length_pairUp_le rest
    simp only [pairUp, List.length_cons]
    omega

/-- The root above a level that is not empty. -/
def mergeAll (first : Node) : List Node → Node
  | [] => first
  | second :: rest => mergeAll (parent first second) (pairUp rest)
termination_by rest => rest.length
decreasing_by exact Nat.lt_succ_of_le (length_pairUp_le _)

/-- The root of the tree of an input. -/
def root (bytes : List UInt8) : Node :=
  match leaves 0 bytes with
  | [] => chunk 0 bytes
  | first :: rest => mergeAll first rest

/-! ## The digest -/

/-- The bytes of a word, the lowest first. -/
def wordBytes (word : UInt32) : List UInt8 :=
  [word.toUInt8, (word >>> 8).toUInt8, (word >>> 16).toUInt8, (word >>> 24).toUInt8]

/-- The 32 bytes of the digest. -/
def digest (bytes : List UInt8) : List UInt8 :=
  ((root bytes).compress rootMark).toList.flatMap wordBytes

/-- The digest in hexadecimal digits. -/
def hexDigest (bytes : List UInt8) : String :=
  String.ofList ((digest bytes).flatMap fun b =>
    [Text.hexDigit (b.toNat / 16), Text.hexDigit (b.toNat % 16)])

end Taskboard.Blake3
