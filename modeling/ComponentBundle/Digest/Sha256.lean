/-!
# SHA-256

The digest of a text's UTF-8 bytes, written in lower-case hexadecimal.

* `length_hexDigest` : a digest has 64 digits;
* `isHexDigit_of_mem_hexDigest` : every one of them is a decimal digit or one of `a` to `f`.
-/

namespace ComponentBundle.Digest

/-! ## Words -/

/-- The word `x` turned right by `n` bits, for `n` between 1 and 31. -/
def turnRight (x n : UInt32) : UInt32 := (x >>> n) ||| (x <<< (32 - n))

/-- The first 32 bits of the fractional parts of the cube roots of the first 64 primes. -/
def roundConstants : List UInt32 := [
  0x428a2f98, 0x71374491, 0xb5c0fbcf, 0xe9b5dba5, 0x3956c25b, 0x59f111f1, 0x923f82a4, 0xab1c5ed5,
  0xd807aa98, 0x12835b01, 0x243185be, 0x550c7dc3, 0x72be5d74, 0x80deb1fe, 0x9bdc06a7, 0xc19bf174,
  0xe49b69c1, 0xefbe4786, 0x0fc19dc6, 0x240ca1cc, 0x2de92c6f, 0x4a7484aa, 0x5cb0a9dc, 0x76f988da,
  0x983e5152, 0xa831c66d, 0xb00327c8, 0xbf597fc7, 0xc6e00bf3, 0xd5a79147, 0x06ca6351, 0x14292967,
  0x27b70a85, 0x2e1b2138, 0x4d2c6dfc, 0x53380d13, 0x650a7354, 0x766a0abb, 0x81c2c92e, 0x92722c85,
  0xa2bfe8a1, 0xa81a664b, 0xc24b8b70, 0xc76c51a3, 0xd192e819, 0xd6990624, 0xf40e3585, 0x106aa070,
  0x19a4c116, 0x1e376c08, 0x2748774c, 0x34b0bcb5, 0x391c0cb3, 0x4ed8aa4a, 0x5b9cca4f, 0x682e6ff3,
  0x748f82ee, 0x78a5636f, 0x84c87814, 0x8cc70208, 0x90befffa, 0xa4506ceb, 0xbef9a3f7, 0xc67178f2]

/-- The eight words a digest is made of. -/
structure HashState where
  a : UInt32
  b : UInt32
  c : UInt32
  d : UInt32
  e : UInt32
  f : UInt32
  g : UInt32
  h : UInt32
  deriving DecidableEq

namespace HashState

/-- The first 32 bits of the fractional parts of the square roots of the first eight primes. -/
def initial : HashState :=
  ⟨0x6a09e667, 0xbb67ae85, 0x3c6ef372, 0xa54ff53a, 0x510e527f, 0x9b05688c, 0x1f83d9ab, 0x5be0cd19⟩

/-- One round, with its constant and its word of the schedule. -/
def round (s : HashState) (constant word : UInt32) : HashState :=
  let big1 := turnRight s.e 6 ^^^ turnRight s.e 11 ^^^ turnRight s.e 25
  let choice := (s.e &&& s.f) ^^^ ((~~~s.e) &&& s.g)
  let t1 := s.h + big1 + choice + constant + word
  let big0 := turnRight s.a 2 ^^^ turnRight s.a 13 ^^^ turnRight s.a 22
  let majority := (s.a &&& s.b) ^^^ (s.a &&& s.c) ^^^ (s.b &&& s.c)
  ⟨t1 + (big0 + majority), s.a, s.b, s.c, s.d + t1, s.e, s.f, s.g⟩

def add (s t : HashState) : HashState :=
  ⟨s.a + t.a, s.b + t.b, s.c + t.c, s.d + t.d, s.e + t.e, s.f + t.f, s.g + t.g, s.h + t.h⟩

def toList (s : HashState) : List UInt32 := [s.a, s.b, s.c, s.d, s.e, s.f, s.g, s.h]

end HashState

/-! ## Messages -/

/-- The next `n` words of a schedule after its last sixteen. -/
def extendSchedule : Nat → List UInt32 → List UInt32
  | 0, _ => []
  | n + 1, window =>
    let w1 := window.getD 1 0
    let w14 := window.getD 14 0
    let small0 := turnRight w1 7 ^^^ turnRight w1 18 ^^^ (w1 >>> 3)
    let small1 := turnRight w14 17 ^^^ turnRight w14 19 ^^^ (w14 >>> 10)
    let word := small1 + window.getD 9 0 + small0 + window.getD 0 0
    word :: extendSchedule n (window.drop 1 ++ [word])

/-- Takes one block of sixteen words into the state. -/
def compress (s : HashState) (block : List UInt32) : HashState :=
  let schedule := block ++ extendSchedule 48 block
  s.add ((roundConstants.zip schedule).foldl (fun t kw => t.round kw.1 kw.2) s)

/-- The message filled up to whole blocks of 64 bytes: a set bit, zeros, the length in bits. -/
def padMessage (bytes : List UInt8) : List UInt8 :=
  let bits := 8 * bytes.length
  let size := (List.range 8).map fun i => UInt8.ofNat (bits >>> (56 - 8 * i))
  bytes ++ [0x80] ++ List.replicate ((119 - bytes.length % 64) % 64) 0 ++ size

/-- Words of four bytes, the highest byte first. -/
def wordsOfBytes : List UInt8 → List UInt32
  | a :: b :: c :: d :: rest =>
    (a.toUInt32 <<< 24 ||| b.toUInt32 <<< 16 ||| c.toUInt32 <<< 8 ||| d.toUInt32)
      :: wordsOfBytes rest
  | _ => []

/-- Takes the first `n` blocks of a list of words into the state. -/
def absorb : Nat → HashState → List UInt32 → HashState
  | 0, s, _ => s
  | n + 1, s, words => absorb n (compress s (words.take 16)) (words.drop 16)

def digest (bytes : List UInt8) : HashState :=
  let words := wordsOfBytes (padMessage bytes)
  absorb (words.length / 16) .initial words

/-! ## Hexadecimal -/

/-- The lower-case hexadecimal digit of the lowest four bits of a word. -/
def hexDigit (w : UInt32) : Char :=
  ['0', '1', '2', '3', '4', '5', '6', '7', '8', '9', 'a', 'b', 'c', 'd', 'e', 'f'].getD
    (w.toNat % 16) '0'

/-- A word in eight hexadecimal digits. -/
def hexWord (w : UInt32) : List Char :=
  ([28, 24, 20, 16, 12, 8, 4, 0] : List UInt32).map fun shift => hexDigit (w >>> shift)

/-- The digest of a text, as hexadecimal digits. -/
def hexDigest (text : String) : List Char :=
  (digest text.toUTF8.data.toList).toList.flatMap hexWord

/-- Whether a character is a lower-case hexadecimal digit. -/
def isHexDigit (c : Char) : Bool := c.isDigit || ('a' ≤ c && c ≤ 'f')

theorem isHexDigit_hexDigit (w : UInt32) : isHexDigit (hexDigit w) := by
  have h : ∀ n : Fin 16, isHexDigit (['0', '1', '2', '3', '4', '5', '6', '7', '8', '9',
      'a', 'b', 'c', 'd', 'e', 'f'].getD n.val '0') := by decide
  exact h ⟨w.toNat % 16, Nat.mod_lt _ (by decide)⟩

theorem length_hexDigest (text : String) : (hexDigest text).length = 64 := by
  simp [hexDigest, HashState.toList, hexWord]

theorem isHexDigit_of_mem_hexDigest {text : String} {c : Char} (h : c ∈ hexDigest text) :
    isHexDigit c := by
  simp only [hexDigest, hexWord, List.mem_flatMap, List.mem_map] at h
  obtain ⟨w, -, shift, -, rfl⟩ := h
  exact isHexDigit_hexDigit _

end ComponentBundle.Digest
