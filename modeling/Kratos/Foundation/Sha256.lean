/- source: none(language runtime)
   digest: The SHA-256 digest of a script string, written in hexadecimal. -/

import Kratos.Foundation.Utf8

set_option autoImplicit false

namespace Kratos.Foundation.Sha256

open Foundation.Text

abbrev Word := BitVec 32

/-- The eight words that a digest is chained through. -/
structure Chaining where
  a : Word
  b : Word
  c : Word
  d : Word
  e : Word
  f : Word
  g : Word
  h : Word
deriving DecidableEq, Repr

def start : Chaining :=
  ⟨0x6a09e667, 0xbb67ae85, 0x3c6ef372, 0xa54ff53a, 0x510e527f, 0x9b05688c, 0x1f83d9ab, 0x5be0cd19⟩

def roundConstants : List Word :=
  [0x428a2f98, 0x71374491, 0xb5c0fbcf, 0xe9b5dba5, 0x3956c25b, 0x59f111f1, 0x923f82a4, 0xab1c5ed5,
    0xd807aa98, 0x12835b01, 0x243185be, 0x550c7dc3, 0x72be5d74, 0x80deb1fe, 0x9bdc06a7, 0xc19bf174,
    0xe49b69c1, 0xefbe4786, 0x0fc19dc6, 0x240ca1cc, 0x2de92c6f, 0x4a7484aa, 0x5cb0a9dc, 0x76f988da,
    0x983e5152, 0xa831c66d, 0xb00327c8, 0xbf597fc7, 0xc6e00bf3, 0xd5a79147, 0x06ca6351, 0x14292967,
    0x27b70a85, 0x2e1b2138, 0x4d2c6dfc, 0x53380d13, 0x650a7354, 0x766a0abb, 0x81c2c92e, 0x92722c85,
    0xa2bfe8a1, 0xa81a664b, 0xc24b8b70, 0xc76c51a3, 0xd192e819, 0xd6990624, 0xf40e3585, 0x106aa070,
    0x19a4c116, 0x1e376c08, 0x2748774c, 0x34b0bcb5, 0x391c0cb3, 0x4ed8aa4a, 0x5b9cca4f, 0x682e6ff3,
    0x748f82ee, 0x78a5636f, 0x84c87814, 0x8cc70208, 0x90befffa, 0xa4506ceb, 0xbef9a3f7, 0xc67178f2]

/-- One round on the next word of the message. -/
def round (constant word : Word) (held : Chaining) : Chaining :=
  let first := held.h + (held.e.rotateRight 6 ^^^ held.e.rotateRight 11 ^^^ held.e.rotateRight 25) +
    ((held.e &&& held.f) ^^^ (~~~held.e &&& held.g)) + constant + word
  let second := (held.a.rotateRight 2 ^^^ held.a.rotateRight 13 ^^^ held.a.rotateRight 22) +
    ((held.a &&& held.b) ^^^ (held.a &&& held.c) ^^^ (held.b &&& held.c))
  ⟨first + second, held.a, held.b, held.c, held.d + first, held.e, held.f, held.g⟩

/-- The window of sixteen words after its first one was used. -/
def advance (window : List Word) : List Word :=
  let low := window.getD 1 0
  let high := window.getD 14 0
  window.tail ++
    [(high.rotateRight 17 ^^^ high.rotateRight 19 ^^^ (high >>> 10)) + window.getD 9 0 +
      (low.rotateRight 7 ^^^ low.rotateRight 18 ^^^ (low >>> 3)) + window.getD 0 0]

def rounds : List Word → List Word → Chaining → Chaining
  | [], _, held => held
  | constant :: constants, window, held =>
      rounds constants (advance window) (round constant (window.getD 0 0) held)

/-- The word of four bytes, the most significant one first. -/
def wordAt (block : List Nat) (index : Nat) : Word :=
  BitVec.ofNat 32
    (((block.getD (4 * index) 0 * 256 + block.getD (4 * index + 1) 0) * 256 +
      block.getD (4 * index + 2) 0) * 256 + block.getD (4 * index + 3) 0)

def compress (held : Chaining) (block : List Nat) : Chaining :=
  let next := rounds roundConstants ((List.range 16).map (wordAt block)) held
  ⟨held.a + next.a, held.b + next.b, held.c + next.c, held.d + next.d, held.e + next.e,
    held.f + next.f, held.g + next.g, held.h + next.h⟩

/-- A message up to a whole number of blocks, its length in bits in the last eight bytes. -/
def padded (bytes : List Nat) : List Nat :=
  bytes ++ 0x80 :: List.replicate ((119 - bytes.length % 64) % 64) 0 ++
    (List.range 8).map fun index => bytes.length * 8 / 256 ^ (7 - index) % 256

def blocks (bytes : List Nat) : List (List Nat) :=
  (List.range (bytes.length / 64)).map fun index => (bytes.drop (64 * index)).take 64

def hexDigit (value : Fin 16) : CodeUnit :=
  if value.val < 10 then unit '0' + UInt16.ofNat value.val else unit 'a' + UInt16.ofNat (value.val - 10)

def wordHex (word : Word) : JsString :=
  (List.range 8).map fun index => hexDigit (Fin.ofNat 16 (word.toNat / 16 ^ (7 - index)))

/-- `createHash("sha256").update(content, "utf8").digest("hex")`. -/
def sha256 (content : JsString) : JsString :=
  let held := (blocks (padded (Utf8.encode content))).foldl compress start
  [held.a, held.b, held.c, held.d, held.e, held.f, held.g, held.h].flatMap wordHex

theorem length_sha256 (content : JsString) : (sha256 content).length = 64 := by
  have length : ∀ word, (wordHex word).length = 8 := fun word => by
    rw [wordHex, List.length_map, List.length_range]
  simp [sha256, length]

theorem all_sha256 (content : JsString) :
    (sha256 content).all (fun u => between 'a' 'f' u || isDigit u) = true := by
  have digit : ∀ value, (between 'a' 'f' (hexDigit value) || isDigit (hexDigit value)) = true := by decide
  rw [List.all_eq_true]
  intro u member
  obtain ⟨word, -, inside⟩ := List.mem_flatMap.mp member
  obtain ⟨index, -, rfl⟩ := List.mem_map.mp inside
  exact digit _

example : sha256 (js "abc") =
    js "ba7816bf8f01cfea414140de5dae2223b00361a396177a9cb410ff61f20015ad" := by decide +kernel

end Kratos.Foundation.Sha256
