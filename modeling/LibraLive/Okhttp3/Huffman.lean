import LibraLive.Bits

/-!
# `Huffman`

The Huffman code of HPACK, `internal/http2/Huffman.java`: the table of codes, the encoder, which collects bits in a `long`,
the tree that the constructor builds, each node of which looks at eight bits, and the decoder that walks it. A method that
throws returns `none`.
-/

namespace LibraLive

namespace Huffman

/-- `CODES`. -/
def CODES : List Nat := [
  0x1ff8, 0x7fffd8, 0xfffffe2, 0xfffffe3, 0xfffffe4, 0xfffffe5, 0xfffffe6, 0xfffffe7, 0xfffffe8, 0xffffea,
  0x3ffffffc, 0xfffffe9, 0xfffffea, 0x3ffffffd, 0xfffffeb, 0xfffffec, 0xfffffed, 0xfffffee, 0xfffffef, 0xffffff0,
  0xffffff1, 0xffffff2, 0x3ffffffe, 0xffffff3, 0xffffff4, 0xffffff5, 0xffffff6, 0xffffff7, 0xffffff8, 0xffffff9,
  0xffffffa, 0xffffffb, 0x14, 0x3f8, 0x3f9, 0xffa, 0x1ff9, 0x15, 0xf8, 0x7fa, 0x3fa, 0x3fb, 0xf9, 0x7fb, 0xfa,
  0x16, 0x17, 0x18, 0x0, 0x1, 0x2, 0x19, 0x1a, 0x1b, 0x1c, 0x1d, 0x1e, 0x1f, 0x5c, 0xfb, 0x7ffc, 0x20, 0xffb,
  0x3fc, 0x1ffa, 0x21, 0x5d, 0x5e, 0x5f, 0x60, 0x61, 0x62, 0x63, 0x64, 0x65, 0x66, 0x67, 0x68, 0x69, 0x6a, 0x6b,
  0x6c, 0x6d, 0x6e, 0x6f, 0x70, 0x71, 0x72, 0xfc, 0x73, 0xfd, 0x1ffb, 0x7fff0, 0x1ffc, 0x3ffc, 0x22, 0x7ffd, 0x3,
  0x23, 0x4, 0x24, 0x5, 0x25, 0x26, 0x27, 0x6, 0x74, 0x75, 0x28, 0x29, 0x2a, 0x7, 0x2b, 0x76, 0x2c, 0x8, 0x9, 0x2d,
  0x77, 0x78, 0x79, 0x7a, 0x7b, 0x7ffe, 0x7fc, 0x3ffd, 0x1ffd, 0xffffffc, 0xfffe6, 0x3fffd2, 0xfffe7, 0xfffe8,
  0x3fffd3, 0x3fffd4, 0x3fffd5, 0x7fffd9, 0x3fffd6, 0x7fffda, 0x7fffdb, 0x7fffdc, 0x7fffdd, 0x7fffde, 0xffffeb,
  0x7fffdf, 0xffffec, 0xffffed, 0x3fffd7, 0x7fffe0, 0xffffee, 0x7fffe1, 0x7fffe2, 0x7fffe3, 0x7fffe4, 0x1fffdc,
  0x3fffd8, 0x7fffe5, 0x3fffd9, 0x7fffe6, 0x7fffe7, 0xffffef, 0x3fffda, 0x1fffdd, 0xfffe9, 0x3fffdb, 0x3fffdc,
  0x7fffe8, 0x7fffe9, 0x1fffde, 0x7fffea, 0x3fffdd, 0x3fffde, 0xfffff0, 0x1fffdf, 0x3fffdf, 0x7fffeb, 0x7fffec,
  0x1fffe0, 0x1fffe1, 0x3fffe0, 0x1fffe2, 0x7fffed, 0x3fffe1, 0x7fffee, 0x7fffef, 0xfffea, 0x3fffe2, 0x3fffe3,
  0x3fffe4, 0x7ffff0, 0x3fffe5, 0x3fffe6, 0x7ffff1, 0x3ffffe0, 0x3ffffe1, 0xfffeb, 0x7fff1, 0x3fffe7, 0x7ffff2,
  0x3fffe8, 0x1ffffec, 0x3ffffe2, 0x3ffffe3, 0x3ffffe4, 0x7ffffde, 0x7ffffdf, 0x3ffffe5, 0xfffff1, 0x1ffffed,
  0x7fff2, 0x1fffe3, 0x3ffffe6, 0x7ffffe0, 0x7ffffe1, 0x3ffffe7, 0x7ffffe2, 0xfffff2, 0x1fffe4, 0x1fffe5,
  0x3ffffe8, 0x3ffffe9, 0xffffffd, 0x7ffffe3, 0x7ffffe4, 0x7ffffe5, 0xfffec, 0xfffff3, 0xfffed, 0x1fffe6, 0x3fffe9,
  0x1fffe7, 0x1fffe8, 0x7ffff3, 0x3fffea, 0x3fffeb, 0x1ffffee, 0x1ffffef, 0xfffff4, 0xfffff5, 0x3ffffea, 0x7ffff4,
  0x3ffffeb, 0x7ffffe6, 0x3ffffec, 0x3ffffed, 0x7ffffe7, 0x7ffffe8, 0x7ffffe9, 0x7ffffea, 0x7ffffeb, 0xffffffe,
  0x7ffffec, 0x7ffffed, 0x7ffffee, 0x7ffffef, 0x7fffff0, 0x3ffffee]

/-- `CODE_LENGTHS`. -/
def CODE_LENGTHS : List Nat := [
  13, 23, 28, 28, 28, 28, 28, 28, 28, 24, 30, 28, 28, 30, 28, 28, 28, 28, 28, 28, 28, 28, 30, 28, 28, 28, 28, 28,
  28, 28, 28, 28, 6, 10, 10, 12, 13, 6, 8, 11, 10, 10, 8, 11, 8, 6, 6, 6, 5, 5, 5, 6, 6, 6, 6, 6, 6, 6, 7, 8, 15,
  6, 12, 10, 13, 6, 7, 7, 7, 7, 7, 7, 7, 7, 7, 7, 7, 7, 7, 7, 7, 7, 7, 7, 7, 7, 7, 7, 8, 7, 8, 13, 19, 13, 14, 6,
  15, 5, 6, 5, 6, 5, 6, 6, 6, 5, 7, 7, 6, 6, 6, 5, 6, 7, 6, 5, 5, 6, 7, 7, 7, 7, 7, 15, 11, 14, 13, 28, 20, 22, 20,
  20, 22, 22, 22, 23, 22, 23, 23, 23, 23, 23, 24, 23, 24, 24, 22, 23, 24, 23, 23, 23, 23, 21, 22, 23, 22, 23, 23,
  24, 22, 21, 20, 22, 22, 23, 23, 21, 23, 22, 22, 24, 21, 22, 23, 23, 21, 21, 22, 21, 23, 22, 23, 23, 20, 22, 22,
  22, 23, 22, 22, 23, 26, 26, 20, 19, 22, 23, 22, 25, 26, 26, 26, 27, 27, 26, 24, 25, 19, 21, 26, 27, 27, 26, 27,
  24, 21, 21, 26, 26, 28, 27, 27, 27, 20, 24, 20, 21, 22, 21, 21, 23, 22, 22, 25, 25, 24, 24, 26, 23, 26, 27, 26,
  26, 27, 27, 27, 27, 27, 28, 27, 27, 27, 27, 27, 26]

/-- The code of a byte and its length in bits. -/
def code (b : UInt8) : Nat × Nat := (CODES.getD b.toNat 0, CODE_LENGTHS.getD b.toNat 0)

/-! ## `encode` -/

/-- `while (n >= 8)`: the upper bits of those in `current` that are not written yet are written. -/
def writeBytes (current : BitVec 64) (n : Nat) (sink : List UInt8) : List UInt8 × Nat :=
  if 8 ≤ n then writeBytes current (n - 8) (sink ++ [⟨(current.sshiftRight (n - 8)).setWidth 8⟩]) else (sink, n)

/-- The loop of `encode` over the bytes. -/
def encodeBytes : List UInt8 → BitVec 64 → Nat → List UInt8 → List UInt8 × BitVec 64 × Nat
  | [], current, n, sink => (sink, current, n)
  | b :: data, current, n, sink =>
    let current := current <<< (code b).2 ||| BitVec.ofNat 64 (code b).1
    let written := writeBytes current (n + (code b).2) sink
    encodeBytes data current written.2 written.1

/-- `encode`: the last byte is filled up with ones. -/
def encode (data : List UInt8) : List UInt8 :=
  match encodeBytes data 0 0 [] with
  | (sink, current, n) =>
    if 0 < n then sink ++ [⟨(current <<< (8 - n) ||| BitVec.ofNat 64 (0xFF >>> n)).setWidth 8⟩] else sink

/-- `encodedLength`: a `long` sum, and the result cast to `int`. -/
def encodedLength (bytes : List UInt8) : BitVec 32 :=
  let len : BitVec 64 := bytes.foldl (fun len b => len + BitVec.ofNat 64 (code b).2) 0
  ((len + 7).sshiftRight 3).setWidth 32

/-! ## The tree -/

/-- `Node`: an internal node has a child, or none, for each value of a byte; a terminal one is made with its symbol and the
length of the code. -/
inductive Node where
  | internal (children : UInt8 → Option Node)
  | terminal (symbol : UInt8) (bits : Nat)

/-- `terminalBits`: the number of bits represented in the terminal node. -/
def terminalBits (bits : Nat) : Nat := if bits % 8 = 0 then 8 else bits % 8

/-- The node without children. -/
def Node.new : Node := .internal fun _ => none

/-- `addCode` from a node on, `len` bits of the code being left: nodes are made on the way, and the last one gets the terminal
node for every byte that begins with the rest of the code. -/
def addCode (terminal : Node) (code len : Nat) : Node → Option Node
  | .terminal _ _ => none
  | .internal children =>
    if 8 < len then
      let i := UInt8.ofNat (code >>> (len - 8))
      (addCode terminal code (len - 8) ((children i).getD Node.new)).map fun child =>
        .internal fun c => if c = i then some child else children c
    else
      let shift := 8 - len
      let start := (code <<< shift) % 256
      some (.internal fun c => if start ≤ c.toNat ∧ c.toNat < start + 1 <<< shift then some terminal else children c)
termination_by len

/-- `buildTree`. -/
def buildTree : Option Node :=
  (List.range 256).foldlM (fun root sym =>
    let code := code (UInt8.ofNat sym)
    addCode (.terminal (UInt8.ofNat sym) code.2) code.1 code.2 root) Node.new

/-- `INSTANCE.root`. -/
def root : Node := buildTree.getD Node.new

/-! ## `decode` -/

/-- The state of `decode`: what it has written, the node it is at, and the bits it has not looked at yet, which are the lowest
`nbits` of `current`. -/
structure Decoder where
  baos : List UInt8
  node : Node
  current : BitVec 32
  nbits : Nat

theorem terminalBits_pos (bits : Nat) : 0 < terminalBits bits := by
  unfold terminalBits
  split <;> omega

/-- `while (nbits >= 8)`: look at the next eight bits. A node that is missing is a null pointer. -/
def lookBytes (s : Decoder) : Option Decoder :=
  if s.nbits < 8 then some s
  else
    match s.node with
    | .terminal _ _ => none
    | .internal children =>
      match children ⟨(s.current >>> (s.nbits - 8)).setWidth 8⟩ with
      | none => none
      | some (.terminal symbol bits) =>
        lookBytes { s with baos := s.baos ++ [symbol], node := root, nbits := s.nbits - terminalBits bits }
      | some (.internal children) => lookBytes { s with node := .internal children, nbits := s.nbits - 8 }
termination_by s.nbits
decreasing_by
  · have := terminalBits_pos bits
    omega
  · omega

/-- The loop over the bytes. -/
def decodeBytes : List UInt8 → Decoder → Option Decoder
  | [], s => some s
  | b :: buf, s =>
    (lookBytes { s with current := s.current <<< 8 ||| b.toBitVec.setWidth 32, nbits := s.nbits + 8 }).bind (decodeBytes buf)

/-- `while (nbits > 0)`: codes that end in the last byte. -/
def lookRest (s : Decoder) : Option (List UInt8) :=
  if s.nbits = 0 then some s.baos
  else
    match s.node with
    | .terminal _ _ => none
    | .internal children =>
      match children ⟨(s.current <<< (8 - s.nbits)).setWidth 8⟩ with
      | none => none
      | some (.internal _) => some s.baos
      | some (.terminal symbol bits) =>
        if s.nbits < terminalBits bits then some s.baos
        else lookRest { s with baos := s.baos ++ [symbol], node := root, nbits := s.nbits - terminalBits bits }
termination_by s.nbits
decreasing_by
  have := terminalBits_pos bits
  omega

/-- `decode`. -/
def decode (buf : List UInt8) : Option (List UInt8) := (decodeBytes buf ⟨[], root, 0, 0⟩).bind lookRest

end Huffman

end LibraLive
