/-!
# Digests

A keyed digest of byte sequences with 64-bit results (SipHash with one round per word and three at
the end, under the zero key), and the byte forms of the things that are digested. The byte form of
a text ends in `0xff`, which occurs in no encoded character, so the concatenation of two texts
determines both.
-/

namespace Annotations

namespace Digest

/-- The four words of the running state. -/
structure State where
  v0 : UInt64
  v1 : UInt64
  v2 : UInt64
  v3 : UInt64

/-- `x` with its bits moved up by `k` places, those that leave at the top entering at the bottom. -/
def rotate (x : UInt64) (k : UInt64) : UInt64 :=
  (x <<< k) ||| (x >>> (64 - k))

/-- One round of additions, rotations and exclusive ors. -/
def State.round (s : State) : State :=
  let a := s.v0 + s.v1
  let b := rotate s.v1 13 ^^^ a
  let c := s.v2 + s.v3
  let d := rotate s.v3 16 ^^^ c
  let e := rotate a 32 + d
  let f := rotate d 21 ^^^ e
  let g := c + b
  let h := rotate b 17 ^^^ g
  ⟨e, h, rotate g 32, f⟩

/-- Takes one word into the state. -/
def State.absorb (s : State) (word : UInt64) : State :=
  let t := State.round { s with v3 := s.v3 ^^^ word }
  { t with v0 := t.v0 ^^^ word }

/-- The state under the zero key. -/
def start : State :=
  ⟨0x736f6d6570736575, 0x646f72616e646f6d, 0x6c7967656e657261, 0x7465646279746573⟩

/-- The number with the given bytes, the lowest first. -/
def littleEndian : List UInt8 → UInt64
  | [] => 0
  | b :: bs => b.toUInt64 ||| (littleEndian bs <<< 8)

/-- Takes the full words of the input into the state, and then the last word: the bytes left over
below the length of the whole input. -/
def State.feed (length : Nat) : State → List UInt8 → State
  | s, a :: b :: c :: d :: e :: f :: g :: h :: rest =>
    feed length (s.absorb (littleEndian [a, b, c, d, e, f, g, h])) rest
  | s, rest => s.absorb (littleEndian rest ||| (UInt64.ofNat length <<< 56))

/-- The result of three rounds at the end. -/
def State.finish (s : State) : UInt64 :=
  let t := State.round (State.round (State.round { s with v2 := s.v2 ^^^ 0xff }))
  t.v0 ^^^ t.v1 ^^^ t.v2 ^^^ t.v3

/-- The lowest `n` bytes of a number, the lowest first. -/
def bytes : Nat → UInt64 → List UInt8
  | 0, _ => []
  | n + 1, x => x.toUInt8 :: bytes n (x >>> 8)

@[simp] theorem length_bytes (n : Nat) (x : UInt64) : (bytes n x).length = n := by
  induction n generalizing x with
  | zero => rfl
  | succ n ih => simp [bytes, ih]

/-- The encoded characters of a text and the end mark. -/
def textBytes (s : String) : List UInt8 :=
  s.toList.flatMap String.utf8EncodeChar ++ [0xff]

end Digest

/-- The digest of a byte sequence. -/
def digest (input : List UInt8) : UInt64 :=
  (Digest.start.feed input.length input).finish

end Annotations
